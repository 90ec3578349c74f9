/-
**The children of the outbound transport, from the factory to their closing.**

Requests and closings of one transport run at once. `aclose` takes the children out of the pools in one turn and closes
them one after the other, waiting for each; the first closing that raises ends it. A request makes at most one child in a
turn, and hands its request on in the turn in which it got the child.

`Custody` is the invariant: the children that the factory made are those in the pools, those that a closing still has to
ask, those that were asked to close, and those that were behind one whose closing raised, each of them once. With it

* `children_accounted` says for every run what became of each child, and that no request is given to one that a closing
  took;
* a closing that starts when no request is on its way, and after which none comes, ends with every child closed.
-/

import McpAuth.Adapters.PinnedRequests
import McpAuth.Library.AtomicBlocks

namespace McpAuth

open PyText UrlSplit IpAddress Cooperative

/-! ### What a turn of a request does -/

/-- Nobody holds the lock of the children or waits for it. -/
def Unlocked (state : PinnedState) : Prop := state.lock.locked = false ∧ state.lock.waiters = []

/-- The children are the same, and so is their lock. -/
structure Still (began state : PinnedState) : Prop where
  transports : state.transports = began.transports
  created : state.created = began.created
  unlocked : Unlocked state

/-- The pools stay, or get one new child behind the others. -/
inductive Mints (began state : PinnedState) : Prop
  | still (transports : state.transports = began.transports) (created : state.created = began.created)
  | minted (origin : Origin) (transports : state.transports = began.transports ++ [(origin, began.created)])
    (created : state.created = began.created + 1)

/-- **A turn of a request**: it makes at most one child, and leaves the lock free. -/
structure RequestTurn (began state : PinnedState) : Prop where
  mints : Mints began state
  unlocked : Unlocked state

theorem Still.turn {began state : PinnedState} (still : Still began state) : RequestTurn began state :=
  ⟨.still still.transports still.created, still.unlocked⟩

/-- A turn of a request makes what it adds to the pools. -/
theorem Mints.accounts {began state : PinnedState} (mints : Mints began state) :
    (↑(state.transports.map Prod.snd) : Multiset ℕ) + Multiset.range began.created =
      ↑(began.transports.map Prod.snd) + Multiset.range state.created := by
  cases mints with
  | still transports created => rw [transports, created]
  | minted origin transports created =>
    rw [transports, created, List.map_append, ← Multiset.coe_add, Multiset.range_succ, add_assoc]
    rfl

theorem RequestTurn.refl {state : PinnedState} (unlocked : Unlocked state) : RequestTurn state state :=
  ⟨.still rfl rfl, unlocked⟩

/-- The suspensions of a request. -/
def IsRequestWait (want : PinnedWait) : Prop := ∀ child, want ≠ .closeChild child

section Requests

variable {transport : PinnedOidcAsyncTransport} {began state : PinnedState}

/-- A part of a request. -/
abbrev PinnedAsync.Blocks {α : Type} (returns : Except PinnedError α → PinnedState → PinnedState → Prop)
    (body : PinnedAsync α) (began state : PinnedState) : Prop :=
  Cooperative.Blocks Unlocked RequestTurn IsRequestWait returns body.run began state

theorem check_blocks {α : Type} {returns : Except PinnedError α → PinnedState → PinnedState → Prop}
    {outcome : Except OidcNetworkSecurityError α} (each : ∀ outcome, returns outcome began state) :
    (PinnedAsync.check outcome).Blocks returns began state :=
  each _

/-- A look at the state goes on in the same turn. -/
theorem look_blocks {α : Type} {returns : Except PinnedError α → PinnedState → PinnedState → Prop} {value : PinnedState → α}
    (holds : returns (.ok (value state)) began state) :
    PinnedAsync.Blocks returns (Async.lift (.access id fun state => .done (value state))) began state :=
  holds

theorem refuse_blocks {α : Type} (turn : RequestTurn began state) (response : HttpxResponse) (message : String) :
    (PinnedAsync.refuse response message : PinnedAsync α).Blocks (fun _ => RequestTurn) began state := by
  refine blocks_asyncBind.mpr ⟨turn, (fun _ same => by cases same), fun answer later unlocked => ?_⟩
  cases answer with
  | error error => exact .refl unlocked
  | ok _ => exact .refl unlocked

variable [UnicodeTables]

theorem resolve_blocks (still : Still began state) (url : String) :
    (transport.resolve url).Blocks (fun _ => Still) began state := by
  refine blocks_asyncBind.mpr (check_blocks ?_)
  rintro (_ | kind)
  · exact still
  refine blocks_asyncBind.mpr (check_blocks ?_)
  rintro (_ | origin)
  · exact still
  have selects : ∀ (addresses : List IPAddress) (began later : PinnedState), Still began later →
      (PinnedAsync.check (transport.policy.selectTarget kind origin addresses)).Blocks (fun _ => Still) began later :=
    fun addresses began later stillLater => check_blocks fun _ => stillLater
  refine blocks_asyncBind.mpr ?_
  unfold PinnedOidcAsyncTransport.addressesFor
  cases ipAddress origin.host with
  | some literal => exact selects [literal] began state still
  | none =>
    refine ⟨still.turn, (fun _ same => by cases same), fun answer later unlocked => ?_⟩
    have stillLater : Still later later := ⟨rfl, rfl, unlocked⟩
    cases answer with
    | error error => exact stillLater
    | ok addresses => exact selects addresses later later stillLater

/-- **`_transport_for` makes at most one child**, behind the others, and does not wait. -/
theorem transportFor_blocks (still : Still began state) (target : ResolvedTarget) :
    (transport.transportFor target).Blocks (fun _ => RequestTurn) began state := by
  refine blocks_asyncBind.mpr (check_blocks ?_)
  rintro (_ | key)
  · exact still.turn
  refine blocks_asyncBind.mpr (look_blocks ?_)
  dsimp only
  cases absent : state.child key with
  | some child => exact still.turn
  | none =>
    have unknown : ∀ lock, PinnedState.child (transportsLock.set lock state) key = none := fun _ => absent
    -- the second look, in the same turn
    refine blocks_locked still.unlocked (blocks_asyncBind.mpr (look_blocks ?_))
    dsimp only
    rw [unknown]
    dsimp only
    split
    · show RequestTurn began _
      exact ⟨.still still.transports still.created, rfl, still.unlocked.2⟩
    · have appended : (state.mint key).transports = state.transports ++ [(key, state.created)] :=
        Multidict.put_of_absent (Option.map_eq_none_iff.mp absent)
      refine ⟨.minted key ?_ (congrArg (· + 1) still.created), rfl, still.unlocked.2⟩
      rw [← still.transports, ← still.created]
      exact appended

theorem receive_blocks (turn : RequestTurn began state) (url : String) (request : HttpxRequest) (response : HttpxResponse) :
    (transport.receive url request response).Blocks (fun _ => RequestTurn) began state := by
  unfold PinnedOidcAsyncTransport.receive
  split
  · exact refuse_blocks turn _ _
  · generalize strip (lower ((response.headers.get "Content-Encoding").getD "identity")) = contentEncoding
    by_cases compressed : contentEncoding ≠ "" ∧ contentEncoding ≠ "identity"
    · rw [if_pos compressed]
      exact refuse_blocks turn _ _
    · rw [if_neg compressed]
      refine blocks_asyncBind.mpr (check_blocks ?_)
      rintro (_ | limit)
      · exact turn
      dsimp only
      split
      · exact turn
      · split
        · exact refuse_blocks turn _ _
        · split
          · exact refuse_blocks turn _ _
          · exact turn

variable [Httpx]

theorem handleAsyncRequest_blocks (still : Still began state) (request : HttpxRequest) :
    (transport.handleAsyncRequest request).Blocks (fun _ => RequestTurn) began state := by
  unfold PinnedOidcAsyncTransport.handleAsyncRequest
  split
  · exact still.turn
  split
  · exact ⟨.still still.transports still.created, still.unlocked⟩
  refine blocks_asyncBind.mpr ((resolve_blocks still _).mono ?_)
  rintro (_ | target) began' state' still'
  · exact still'.turn
  refine blocks_asyncBind.mpr ((transportFor_blocks still' target).mono ?_)
  rintro (_ | child) began'' state'' turn
  · exact turn
  refine blocks_asyncBind.mpr (check_blocks ?_)
  rintro (_ | sent)
  · exact turn
  refine blocks_asyncBind.mpr ⟨turn, (fun _ same => by cases same), fun answer later unlocked => ?_⟩
  cases answer with
  | error error => exact .refl unlocked
  | ok response => exact receive_blocks (.refl unlocked) _ _ _

end Requests

/-! ### Closings -/

/-- The children that a suspended call has yet to close, the one that it waits for first. -/
def childrenOwed : PinnedProcess → List ℕ
  | .wait (.closeChild child) next => child :: childrenOwed (next (.ok ()))
  | _ => []

/-- The children that a suspended call has yet to ask, as a bag. -/
def childrenPending (process : PinnedProcess) : Multiset ℕ := (childrenOwed process).tail

/-- What is left of a closing that has these children before it. -/
def closingOf (children : List (Origin × ℕ)) : PinnedProcess :=
  (PinnedOidcAsyncTransport.closeAll children >>= fun _ => Async.ofExcept (.ok none)).run

/-- How a closing goes on when a child answered. -/
def closingAfter (later : List (Origin × ℕ)) : Except PinnedError Unit → PinnedProcess
  | .ok _ => closingOf later
  | .error error => .done (.error error)

theorem closingOf_cons (origin : Origin) (child : ℕ) (later : List (Origin × ℕ)) :
    closingOf ((origin, child) :: later) = .wait (.closeChild child) (closingAfter later) := by
  show Process.wait _ _ = Process.wait _ _
  congr 1
  funext answer
  cases answer <;> rfl

theorem childrenOwed_closingOf (children : List (Origin × ℕ)) : childrenOwed (closingOf children) = children.map Prod.snd := by
  induction children with
  | nil => rfl
  | cons entry later ih =>
    obtain ⟨origin, child⟩ := entry
    rw [closingOf_cons, childrenOwed, closingAfter, ih, List.map_cons]

theorem closingOf_settle (children : List (Origin × ℕ)) (state : PinnedState) :
    (closingOf children).settle state = (state, closingOf children) := by
  cases children with
  | nil => rfl
  | cons entry later => rfl

theorem closingAfter_settle (later : List (Origin × ℕ)) (answer : Except PinnedError Unit) (state : PinnedState) :
    (closingAfter later answer).settle state = (state, closingAfter later answer) := by
  cases answer with
  | ok _ => exact closingOf_settle later state
  | error error => rfl

/-- What a closing leaves: the children it has yet to close, or the exception of one of them. -/
inductive IsClosing : PinnedProcess → Prop
  | owing (children : List (Origin × ℕ)) : IsClosing (closingOf children)
  | raised (error : PinnedError) : IsClosing (.done (.error error))

theorem isClosing_after (later : List (Origin × ℕ)) (answer : Except PinnedError Unit) :
    IsClosing (closingAfter later answer) := by
  cases answer with
  | ok _ => exact .owing later
  | error error => exact .raised error

/-- A closing that waits does so for the first of its children. -/
theorem IsClosing.of_wait {want : PinnedWait} {next : PinnedWait.Answer want → PinnedProcess}
    (isClosing : IsClosing (.wait want next)) :
    ∃ (child : ℕ) (later : List (Origin × ℕ)), (Process.wait want next : PinnedProcess) =
      .wait (.closeChild child) (closingAfter later) := by
  generalize isProcess : (Process.wait want next : PinnedProcess) = process at isClosing
  cases isClosing with
  | owing children =>
    cases children with
    | nil => cases isProcess
    | cons entry later => exact ⟨entry.2, later, closingOf_cons entry.1 entry.2 later⟩
  | raised error => cases isProcess

/-- A task of a request owes no child. -/
theorem childrenOwed_request {process : PinnedProcess} (resumable : process.Resumable Unlocked RequestTurn IsRequestWait) :
    childrenOwed process = [] := by
  rcases process with result | ⟨update, next⟩ | ⟨want, next⟩
  · rfl
  · rfl
  · cases want with
    | closeChild child => exact absurd rfl (resumable.1 child)
    | _ => rfl

/-! ### What the steps do -/

/-- The child that a step asks to close. -/
def askedToClose (pool : PinnedPool) (action : PinnedAction) (next : PinnedPool) : List ℕ :=
  ((next.tasks[pool.subject action]?).map fun task => (childrenOwed task.2).take 1).getD []

/-- The children that a step leaves behind, where the closing of the one before them raised. -/
def leftBehind (pool : PinnedPool) (action : PinnedAction) (_ : PinnedPool) : List ℕ :=
  match action with
  | .spawn _ => []
  | .resume index answer => match pool.tasks[index]? with
    | some (_, .wait (.closeChild child) next) => match answer (.closeChild child) with
      | .ok _ => []
      | .error _ => childrenOwed (next (.ok ()))
    | _ => []

section Steps

variable {pool next : PinnedPool} {action : PinnedAction}

/-- **Every child that the factory made has one place.** -/
structure Custody (pool : PinnedPool) (asked left : Multiset ℕ) : Prop where
  unlocked : Unlocked pool.shared
  requests : ∀ request process, (.handle request, process) ∈ pool.tasks →
    process.Resumable Unlocked RequestTurn IsRequestWait
  closings : ∀ process, (.close, process) ∈ pool.tasks → IsClosing process
  conserved : ↑(pool.shared.transports.map Prod.snd) + pool.total childrenPending + asked + left =
    Multiset.range pool.shared.created

theorem custody_initial : Custody ⟨{}, []⟩ 0 0 := by
  refine ⟨⟨rfl, rfl⟩, ?_, ?_, rfl⟩
  · intro request process member
    cases member
  · intro process member
    cases member

/-- A child in the pools was taken by no closing. -/
theorem Custody.apart {asked left : Multiset ℕ} (custody : Custody pool asked left) {child : ℕ}
    (inPools : child ∈ pool.shared.transports.map Prod.snd) :
    child ∉ asked ∧ child ∉ left ∧ child ∉ pool.total childrenPending := by
  have unique := Multiset.nodup_range pool.shared.created
  rw [← custody.conserved, Multiset.nodup_iff_count_le_one] at unique
  have counted := unique child
  have one : 0 < Multiset.count child ↑(pool.shared.transports.map Prod.snd) := Multiset.count_pos.mpr inPools
  simp only [Multiset.count_add] at counted
  refine ⟨?_, ?_, ?_⟩
  · rw [← Multiset.count_eq_zero]
    omega
  · rw [← Multiset.count_eq_zero]
    omega
  · rw [← Multiset.count_eq_zero]
    omega

variable [UnicodeTables] [Httpx] {transport : PinnedOidcAsyncTransport}

/-- The program of a request. -/
theorem handle_blocks (request : HttpxRequest) {state : PinnedState} (unlocked : Unlocked state) :
    Blocks Unlocked RequestTurn IsRequestWait (fun _ => RequestTurn) ((pinnedSystem transport).program (.handle request))
      state state := by
  refine blocks_asyncBind.mpr ((handleAsyncRequest_blocks ⟨rfl, rfl, unlocked⟩ request).mono ?_)
  rintro (_ | response) began state turn
  · exact turn
  · exact turn

/-- The program of a closing: the children are taken out of the pools in its first turn. -/
theorem close_settle (state : PinnedState) :
    ((pinnedSystem transport).program .close).settle state =
      ({ state with transports := [] }, closingOf state.transports) :=
  closingOf_settle state.transports { state with transports := [] }

/-- A step keeps custody when its own task accounts for what it changes. -/
theorem Custody.step {asked left : Multiset ℕ} (custody : Custody pool asked left)
    (performed : (pinnedSystem transport).perform pool action = some next) {own : PinnedCall × PinnedProcess}
    (found : next.tasks[pool.subject action]? = some own) (unlocked : Unlocked next.shared)
    (request : ∀ request, own.1 = .handle request → own.2.Resumable Unlocked RequestTurn IsRequestWait)
    (closing : own.1 = .close → IsClosing own.2)
    (accounts : ↑(next.shared.transports.map Prod.snd) + childrenPending own.2 + ↑(askedToClose pool action next) +
        ↑(leftBehind pool action next) + Multiset.range pool.shared.created =
      ↑(pool.shared.transports.map Prod.snd) + pool.totalAt childrenPending (pool.subject action) +
        Multiset.range next.shared.created) :
    Custody next (asked + ↑(askedToClose pool action next)) (left + ↑(leftBehind pool action next)) := by
  have ownTotal : next.totalAt childrenPending (pool.subject action) = childrenPending own.2 := by
    simp [Pool.totalAt, found]
  have total := perform_total childrenPending performed
  rw [ownTotal] at total
  refine ⟨unlocked, ?_, ?_, ?_⟩
  · intro call process member
    rcases perform_mem performed found _ member with old | rfl
    · exact custody.requests call process old
    · exact request call rfl
  · intro process member
    rcases perform_mem performed found _ member with old | rfl
    · exact custody.closings process old
    · exact closing rfl
  · have conserved := custody.conserved
    ext child
    have counted := congrArg (Multiset.count child) conserved
    have countedTotal := congrArg (Multiset.count child) total
    have countedOwn := congrArg (Multiset.count child) accounts
    simp only [Multiset.count_add] at counted countedTotal countedOwn ⊢
    omega

/-- **A step of a request.** -/
theorem Custody.request_step {asked left : Multiset ℕ} (custody : Custody pool asked left)
    (performed : (pinnedSystem transport).perform pool action = some next) {request : HttpxRequest}
    {process : PinnedProcess} (found : next.tasks[pool.subject action]? = some (.handle request, process))
    (turn : RequestTurn pool.shared next.shared) (resumable : process.Resumable Unlocked RequestTurn IsRequestWait)
    (before : ∀ call old, pool.tasks[pool.subject action]? = some (call, old) → childrenOwed old = []) 
    (notLeft : leftBehind pool action next = []) :
    Custody next (asked + ↑(askedToClose pool action next)) (left + ↑(leftBehind pool action next)) := by
  have owed := childrenOwed_request resumable
  have none : askedToClose pool action next = [] := by simp [askedToClose, found, owed]
  have noneBefore : pool.totalAt childrenPending (pool.subject action) = 0 := by
    cases isOld : pool.tasks[pool.subject action]? with
    | none => simp [Pool.totalAt, isOld]
    | some task => simp [Pool.totalAt, isOld, childrenPending, before task.1 task.2 isOld]
  refine custody.step performed found turn.unlocked (fun _ _ => resumable) (fun same => by cases same) ?_
  rw [none, notLeft, noneBefore, childrenPending, owed]
  simpa using turn.mints.accounts

/-- **A step of a closing.** -/
theorem Custody.closing_step {asked left : Multiset ℕ} (custody : Custody pool asked left)
    (performed : (pinnedSystem transport).perform pool action = some next) {process : PinnedProcess}
    (found : next.tasks[pool.subject action]? = some (.close, process)) (isClosing : IsClosing process)
    (unlocked : Unlocked next.shared) (created : next.shared.created = pool.shared.created)
    (accounts : (↑(next.shared.transports.map Prod.snd) : Multiset ℕ) + ↑(childrenOwed process) +
        ↑(leftBehind pool action next) =
      ↑(pool.shared.transports.map Prod.snd) + pool.totalAt childrenPending (pool.subject action)) :
    Custody next (asked + ↑(askedToClose pool action next)) (left + ↑(leftBehind pool action next)) := by
  refine custody.step performed found unlocked (fun _ same => by cases same) (fun _ => isClosing) ?_
  have asks : (↑(askedToClose pool action next) : Multiset ℕ) + childrenPending process = ↑(childrenOwed process) := by
    rw [askedToClose, found, childrenPending, Multiset.coe_add]
    exact congrArg _ (by simp [← List.drop_one])
  rw [created, ← accounts, ← asks]
  abel

/-- **Every step keeps custody.** -/
theorem perform_custody {asked left : Multiset ℕ} (custody : Custody pool asked left)
    (performed : (pinnedSystem transport).perform pool action = some next) :
    Custody next (asked + ↑(askedToClose pool action next)) (left + ↑(leftBehind pool action next)) := by
  rcases perform_cases performed with
    ⟨call, rfl, rfl⟩ | ⟨index, answer, call, want, continuation, rfl, waiting, -, rfl⟩
  · have found := List.getElem?_concat_length (l := pool.tasks)
      (a := (call, (((pinnedSystem transport).program call).settle pool.shared).2))
    cases call with
    | handle request =>
      obtain ⟨turn, resumable⟩ := (handle_blocks request custody.unlocked).settle
      refine custody.request_step performed found turn resumable ?_ rfl
      intro call old isOld
      simp [Pool.subject] at isOld
    | close =>
      have settled := @close_settle _ _ transport pool.shared
      have shared : (System.spawned (pinnedSystem transport) pool .close).shared =
          { pool.shared with transports := [] } := congrArg Prod.fst settled
      have process : (((pinnedSystem transport).program .close).settle pool.shared).2 =
          closingOf pool.shared.transports := congrArg Prod.snd settled
      refine custody.closing_step performed found ?_ ?_ ?_ ?_
      · rw [process]
        exact .owing _
      · rw [shared]
        exact custody.unlocked
      · rw [shared]
      · rw [shared, process, childrenOwed_closingOf]
        simp [leftBehind, Pool.totalAt, Pool.subject]
  · have inside := (List.getElem?_eq_some_iff.mp waiting).1
    have found := List.getElem?_set_self (a := (call, ((continuation (answer want)).settle pool.shared).2)) inside
    have isTask := List.mem_of_getElem? waiting
    cases call with
    | handle request =>
      obtain ⟨allowed, goesOn⟩ := custody.requests request _ isTask
      obtain ⟨turn, resumable⟩ := (goesOn (answer want) pool.shared custody.unlocked).settle
      refine custody.request_step performed found turn resumable ?_ ?_
      · intro call old isOld
        obtain rfl : _ = old := (Prod.mk.inj (Option.some.inj (waiting.symm.trans isOld))).2
        exact childrenOwed_request (custody.requests request _ isTask)
      · rw [leftBehind, waiting]
        cases want with
        | closeChild child => exact absurd rfl (allowed child)
        | _ => rfl
    | close =>
      obtain ⟨child, later, isProcess⟩ := (custody.closings _ isTask).of_wait
      cases isProcess
      have before : pool.totalAt childrenPending index = ↑(later.map Prod.snd) := by
        simp [Pool.totalAt, waiting, childrenPending, childrenOwed, closingAfter, childrenOwed_closingOf]
      have settled := closingAfter_settle later (answer (.closeChild child)) pool.shared
      refine custody.closing_step performed found ?_ ?_ ?_ ?_
      · rw [settled]
        exact isClosing_after later _
      · rw [Pool.resumed, settled]
        exact custody.unlocked
      · rw [Pool.resumed, settled]
      · rw [Pool.subject, before, settled, Pool.resumed, settled]
        cases outcome : answer (.closeChild child) with
        | ok _ => simp [leftBehind, waiting, outcome, closingAfter, childrenOwed_closingOf]
        | error error => simp [leftBehind, waiting, outcome, childrenOwed, closingAfter, childrenOwed_closingOf]

/-- The children that the steps of a run asked to close, in order. -/
def closeRequests (transport : PinnedOidcAsyncTransport) (actions : List PinnedAction) : List ℕ :=
  (pinnedSystem transport).record askedToClose ⟨{}, []⟩ actions

/-- The children behind one whose closing raised. -/
def childrenLeft (transport : PinnedOidcAsyncTransport) (actions : List PinnedAction) : List ℕ :=
  (pinnedSystem transport).record leftBehind ⟨{}, []⟩ actions

/-- Every run keeps custody. -/
theorem run_custody {actions : List PinnedAction} {last : PinnedPool} {asked left : Multiset ℕ}
    (custody : Custody pool asked left) (ran : (pinnedSystem transport).run pool actions = some last) :
    Custody last (asked + ↑((pinnedSystem transport).record askedToClose pool actions))
      (left + ↑((pinnedSystem transport).record leftBehind pool actions)) := by
  induction actions generalizing pool asked left with
  | nil =>
    cases ran
    simpa [System.record] using custody
  | cons action later ih =>
    obtain ⟨next, performed, rest⟩ := Option.bind_eq_some_iff.mp ran
    have kept := ih (perform_custody custody performed) rest
    rw [record_cons performed, record_cons performed, ← Multiset.coe_add, ← Multiset.coe_add, ← add_assoc, ← add_assoc]
    exact kept

theorem custody_of_run {actions : List PinnedAction} (ran : (pinnedSystem transport).run ⟨{}, []⟩ actions = some pool) :
    Custody pool ↑(closeRequests transport actions) ↑(childrenLeft transport actions) := by
  have custody := run_custody custody_initial ran
  rwa [zero_add, zero_add] at custody

/-! ### Closing for good -/

/-- No request of the pool is on its way. -/
def Quiet (pool : PinnedPool) : Prop :=
  ∀ request process, (.handle request, process) ∈ pool.tasks → ∃ result, process = .done result

/-- Nothing is left in the pools, and no request is on its way. -/
structure Drained (pool : PinnedPool) : Prop where
  empty : pool.shared.transports = []
  requests : Quiet pool

/-- A closing that starts while no request is on its way drains the transport. -/
theorem spawn_drained (quiet : Quiet pool)
    (performed : (pinnedSystem transport).perform pool (.spawn .close) = some next) : Drained next := by
  cases performed
  refine ⟨congrArg (fun settled => settled.1.transports) (close_settle pool.shared), ?_⟩
  intro request process member
  rcases List.mem_append.mp member with old | new
  · exact quiet request process old
  · cases List.mem_singleton.mp new

/-- **A drained transport stays drained** as long as no request comes. -/
theorem perform_drained {asked left : Multiset ℕ} (custody : Custody pool asked left) (drained : Drained pool)
    (performed : (pinnedSystem transport).perform pool action = some next)
    (noRequest : ∀ request, action ≠ .spawn (.handle request)) : Drained next := by
  rcases perform_cases performed with
    ⟨call, rfl, rfl⟩ | ⟨index, answer, call, want, continuation, rfl, waiting, -, rfl⟩
  · cases call with
    | handle request => exact absurd rfl (noRequest request)
    | close => exact spawn_drained drained.requests performed
  · have isTask := List.mem_of_getElem? waiting
    cases call with
    | handle request =>
      obtain ⟨result, isDone⟩ := drained.requests request _ isTask
      cases isDone
    | close =>
      obtain ⟨child, later, isProcess⟩ := (custody.closings _ isTask).of_wait
      cases isProcess
      have settled := closingAfter_settle later (answer (.closeChild child)) pool.shared
      refine ⟨?_, ?_⟩
      · rw [Pool.resumed, settled]
        exact drained.empty
      · intro request process member
        rcases List.mem_or_eq_of_mem_set member with old | new
        · exact drained.requests request process old
        · cases new

theorem run_drained {actions : List PinnedAction} {last : PinnedPool} {asked left : Multiset ℕ}
    (custody : Custody pool asked left) (drained : Drained pool)
    (ran : (pinnedSystem transport).run pool actions = some last)
    (noRequest : ∀ action ∈ actions, ∀ request, action ≠ .spawn (.handle request)) : Drained last := by
  induction actions generalizing pool asked left with
  | nil =>
    cases ran
    exact drained
  | cons action later ih =>
    obtain ⟨next, performed, rest⟩ := Option.bind_eq_some_iff.mp ran
    exact ih (perform_custody custody performed)
      (perform_drained custody drained performed (noRequest action List.mem_cons_self)) rest
      fun other member => noRequest other (List.mem_cons_of_mem _ member)

/-! ### Runs -/

/-- **What became of the children that the factory made.** -/
structure AccountedChildren (transport : PinnedOidcAsyncTransport) (actions : List PinnedAction) (last : PinnedPool) :
    Prop where
  /-- Each of them is in the pools, or waits for its closing, or was asked to close, or was left behind. -/
  conserved : ↑(last.shared.transports.map Prod.snd) + last.total childrenPending + ↑(closeRequests transport actions) +
    ↑(childrenLeft transport actions) = Multiset.range last.shared.created
  /-- None is asked to close twice. -/
  once : (closeRequests transport actions).Nodup
  /-- A request is given to a child that no closing took before. -/
  given : ∀ before action after pool next call child sent continuation, actions = before ++ action :: after →
    (pinnedSystem transport).run ⟨{}, []⟩ before = some pool →
    (pinnedSystem transport).perform pool action = some next →
    next.tasks[pool.subject action]? = some (call, .wait (.child child sent) continuation) →
    child ∈ next.shared.transports.map Prod.snd ∧ child ∉ closeRequests transport before ∧
      child ∉ childrenLeft transport before ∧ child ∉ next.total childrenPending
  /-- A closing that starts while no request is on its way, and after which none comes, leaves no child open. -/
  closed : ∀ before after pool, actions = before ++ .spawn .close :: after →
    (pinnedSystem transport).run ⟨{}, []⟩ before = some pool → Quiet pool →
    (∀ action ∈ after, ∀ request, action ≠ .spawn (.handle request)) →
    (∀ task ∈ last.tasks, ∃ result, task.2 = .done result) → childrenLeft transport actions = [] →
    ∀ child, child ∈ closeRequests transport actions ↔ child < last.shared.created

/-- **In every run of requests and closings each child is accounted for.** -/
theorem children_accounted {actions : List PinnedAction} {last : PinnedPool}
    (ran : (pinnedSystem transport).run ⟨{}, []⟩ actions = some last) : AccountedChildren transport actions last := by
  have custody := custody_of_run ran
  constructor
  · exact custody.conserved
  · have unique := Multiset.nodup_range last.shared.created
    rw [← custody.conserved] at unique
    have asked := Multiset.nodup_of_le (Multiset.le_add_right _ _) unique
    exact Multiset.coe_nodup.mp (Multiset.nodup_of_le (Multiset.le_add_left _ _) asked)
  · rintro before action after pool next call child sent continuation rfl ranBefore performed suspended
    obtain ⟨-, request, -, kind, origin, first, others, pinned⟩ :=
      run_visits (pinnedSystem_visits transport) soundTransports_initial ranBefore performed suspended
    obtain ⟨entry, found, rfl⟩ := Option.map_eq_some_iff.mp pinned.owned
    have inPools : entry.2 ∈ next.shared.transports.map Prod.snd :=
      List.mem_map_of_mem (Multidict.mem_of_find found).1
    obtain ⟨notAsked, notLeft, notPending⟩ := (perform_custody (custody_of_run ranBefore) performed).apart inPools
    refine ⟨inPools, fun asked => notAsked ?_, fun left => notLeft ?_, notPending⟩
    · exact Multiset.mem_add.mpr (Or.inl asked)
    · exact Multiset.mem_add.mpr (Or.inl left)
  · rintro before after pool rfl ranBefore quiet noRequest finished noneLeft child
    rw [run_append, ranBefore, Option.bind_some] at ran
    obtain ⟨next, performed, rest⟩ := Option.bind_eq_some_iff.mp ran
    have drained := run_drained (perform_custody (custody_of_run ranBefore) performed) (spawn_drained quiet performed) rest
      noRequest
    have nonePending : last.total childrenPending = 0 := by
      refine List.sum_eq_zero fun owed member => ?_
      obtain ⟨task, isTask, rfl⟩ := List.mem_map.mp member
      obtain ⟨result, isDone⟩ := finished task isTask
      rw [isDone]
      rfl
    have conserved := custody.conserved
    rw [drained.empty, nonePending, noneLeft] at conserved
    have asked : (↑(closeRequests transport (before ++ .spawn .close :: after)) : Multiset ℕ) =
        Multiset.range last.shared.created := by simpa using conserved
    rw [← Multiset.mem_coe, asked, Multiset.mem_range]

end Steps

/-- A discovery request that its child fails, and the closing of that child. -/
theorem children_accounted_discovery :
    let _ := asciiTables
    let _ := plainHttpx
    let actions := [.spawn (.handle discoveryRequest), .resume 0 oneAddress, .resume 0 oneAddress, .spawn .close,
      .resume 1 oneAddress]
    closeRequests ⟨issuerPolicy, 8⟩ actions = [0] ∧ ∃ last, AccountedChildren ⟨issuerPolicy, 8⟩ actions last := by
  intro _ _ actions
  have reached : ((pinnedSystem ⟨issuerPolicy, 8⟩).run ⟨{}, []⟩ actions).isSome = true := by decide +kernel
  obtain ⟨last, ran⟩ := Option.isSome_iff_exists.mp reached
  exact ⟨by decide +kernel, last, children_accounted ran⟩

end McpAuth
