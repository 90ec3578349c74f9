/-
**`tools/list` shows what `tools/call` would run.**

Two layers. `filterToolList` computes on values; `filterToolListObjects` is the same code on a heap of
Python objects, where the result of `call_next` is a reference and the code allocates the list and the copy
that it returns. `filterToolListObjects_refines` connects them: what is read at the returned reference is
the filtered value, and every object that existed is unchanged.

`toolList_exact`: the catalog keeps exactly the entries whose name is a non-empty string that a
`tools/call` of the same user passes to its handler, and everything else of the envelope.
-/

import McpAuth.Adapters.ToolMiddleware
import McpAuth.Library.ObjectHeap

namespace McpAuth

open PyText JsonText ObjectHeap

/-! ### Members of a dict -/

/-- A member that exists is replaced in its place, and the others are kept. -/
theorem setMember_of_mem {α : Type} {members : List (String × α)} {name : String} {value found : α}
    (present : members.lookup name = some found) :
    setMember members name value =
      members.map fun member => if member.1 == name then (name, value) else member := by
  obtain ⟨before, after, rfl, -⟩ := List.lookup_eq_some_iff.mp present
  exact if_pos (by simp)

theorem lookup_setMember {α : Type} {members : List (String × α)} {name : String} {value found : α}
    (present : members.lookup name = some found) : (setMember members name value).lookup name = some value := by
  rw [setMember_of_mem present]
  induction members with
  | nil => cases present
  | cons member members ih =>
    by_cases here : member.1 = name
    · simp [here]
    · have differs : (name == member.1) = false := by simpa using fun same => here same.symm
      rw [List.lookup_cons, differs] at present
      have kept : (if member.1 == name then (name, value) else member) = member := by simp [here]
      rw [List.map_cons, kept, List.lookup_cons, differs]
      exact ih present

/-- Setting a member that exists once is setting it twice. -/
theorem setMember_idem {α : Type} {members : List (String × α)} {name : String} {value found : α}
    (present : members.lookup name = some found) :
    setMember (setMember members name value) name value = setMember members name value := by
  rw [setMember_of_mem (lookup_setMember present), setMember_of_mem present, List.map_map]
  refine List.map_congr_left fun member _ => ?_
  by_cases here : member.1 = name <;> simp [here]

/-! ### Names and visibility -/

/-- The string under `name` of a wire entry. -/
def wireName : Json → Option String
  | .obj tool => (get tool "name").asText
  | _ => none

/-- The `tools` list of a wire result. -/
def wireTools (members : JsonObject) : Option (List Json) := (get members "tools").asList

theorem lookup_of_wireTools {members : JsonObject} {tools : List Json} (listed : wireTools members = some tools) :
    members.lookup "tools" = some (.arr tools) := by
  unfold wireTools JsonText.get at listed
  cases present : members.lookup "tools" with
  | none => simp [present, Json.asList] at listed
  | some value => cases value <;> simp_all [Json.asList]

/-- The list that is put under `tools` is the one found there. -/
theorem wireTools_setMember {members : JsonObject} {tools kept : List Json} (listed : wireTools members = some tools) :
    wireTools (setMember members "tools" (.arr kept)) = some kept := by
  unfold wireTools JsonText.get
  rw [lookup_setMember (lookup_of_wireTools listed)]
  rfl

/-- The names that a result shows, with `none` for an entry without one. -/
def HandlerResult.shownNames : HandlerResult → List (Option String)
  | .listTools listed => listed.tools.map fun tool => some tool.name
  | .dict members => ((wireTools members).getD []).map wireName
  | _ => []

/-- A tool without a policy is not visible. -/
theorem isVisible_of_no_policy {service : ToolAuthorizationService} {toolName : String}
    (missing : service.policyFor toolName = none) (principal : Option Principal) :
    service.isVisible toolName principal = false := by
  rw [ToolAuthorizationService.isVisible, authorize_none_policy missing]

/-- Without a principal nothing is visible. -/
theorem isVisible_unauthenticated (service : ToolAuthorizationService) (toolName : String) :
    service.isVisible toolName none = false := by
  unfold ToolAuthorizationService.isVisible ToolAuthorizationService.authorize
  cases service.policyFor toolName <;> rfl

theorem keepsEntry_iff (middleware : ToolAuthorizationMiddleware) (principal : Option Principal) (entry : Json) :
    middleware.keepsEntry principal entry = true ↔
      ∃ toolName, wireName entry = some toolName ∧ middleware.authorizer.isVisible toolName principal = true := by
  cases entry with
  | obj tool => cases named : get tool "name" <;>
      simp [ToolAuthorizationMiddleware.keepsEntry, wireName, named, Json.asText]
  | _ => simp [ToolAuthorizationMiddleware.keepsEntry, wireName]

/-! ### What a catalog may show -/

section Catalog

variable [PyRepr]

/-- The filter of a wire result with a `tools` list. -/
theorem filterToolList_wire (middleware : ToolAuthorizationMiddleware) (ctx : ServerRequestContext)
    {members : JsonObject} {tools : List Json} (listed : wireTools members = some tools) :
    middleware.filterToolList (.dict members) ctx = .dict (setMember members "tools" (.arr (tools.filter
      (middleware.keepsEntry (principalFromRequest ctx.request middleware.authProvider))))) := by
  have shape : get members "tools" = .arr tools := by
    rw [JsonText.get, lookup_of_wireTools listed, Option.getD_some]
  simp only [ToolAuthorizationMiddleware.filterToolList, shape]

/-- The filter of any other dict. -/
theorem filterToolList_otherDict (middleware : ToolAuthorizationMiddleware) (ctx : ServerRequestContext)
    {members : JsonObject} (unlisted : wireTools members = none) :
    middleware.filterToolList (.dict members) ctx = .listTools ⟨[], []⟩ := by
  unfold wireTools at unlisted
  cases shape : get members "tools" with
  | arr tools => simp [shape, Json.asList] at unlisted
  | _ => simp only [ToolAuthorizationMiddleware.filterToolList, shape]

/-- A `tools/call` of this tool by this user is passed to the handler. -/
def ToolAuthorizationMiddleware.PassesCall (middleware : ToolAuthorizationMiddleware)
    (user : Option RequestUser) (toolName : String) : Prop :=
  ∀ params callNext, toolNameOf params = some toolName →
    (middleware.call ⟨"tools/call", params, user⟩ callNext).calledNext = true

/-- The catalog is the sublist of the entries that name a tool this user may call. -/
def ToolAuthorizationMiddleware.KeepsCallable (middleware : ToolAuthorizationMiddleware)
    (user : Option RequestUser) {α : Type} (nameOf : α → Option String) (entries kept : List α) : Prop :=
  ∃ keeps : α → Bool, kept = entries.filter keeps ∧
    ∀ entry, keeps entry = true ↔
      ∃ toolName, nameOf entry = some toolName ∧ toolName ≠ "" ∧ middleware.PassesCall user toolName

/-- **What a filtered result is**: the callable entries in the envelope of the result, or an empty catalog
for a result of any other shape. -/
inductive ToolAuthorizationMiddleware.Lists (middleware : ToolAuthorizationMiddleware)
    (user : Option RequestUser) : HandlerResult → HandlerResult → Prop
  | model {tools kept : List Tool} {rest : JsonObject} :
      middleware.KeepsCallable user (fun tool : Tool => some tool.name) tools kept →
      Lists middleware user (.listTools ⟨tools, rest⟩) (.listTools ⟨kept, rest⟩)
  | wire {members : JsonObject} {entries kept : List Json} :
      wireTools members = some entries → middleware.KeepsCallable user wireName entries kept →
      Lists middleware user (.dict members)
        (.dict (members.map fun member => if member.1 == "tools" then ("tools", .arr kept) else member))
  | otherDict {members : JsonObject} :
      wireTools members = none → Lists middleware user (.dict members) (.listTools ⟨[], []⟩)
  | callTool (text : String) (isError : Bool) :
      Lists middleware user (.callTool text isError) (.listTools ⟨[], []⟩)
  | other : Lists middleware user .other (.listTools ⟨[], []⟩)

theorem passesCall_iff {middleware : ToolAuthorizationMiddleware} {user : Option RequestUser}
    {toolName : String} (named : toolName ≠ "") :
    middleware.PassesCall user toolName ↔
      middleware.authorizer.isVisible toolName (principalFromRequest user middleware.authProvider) = true := by
  have decided := fun params callNext (isName : toolNameOf params = some toolName) =>
    @call_calledNext_iff _ middleware ⟨"tools/call", params, user⟩ toolName rfl isName callNext
  constructor
  · intro passes
    have isName : toolNameOf (some [("name", .str toolName)]) = some toolName := by
      simp [toolNameOf, JsonText.get, named]
    exact (decided _ _ isName).mp (passes _ (fun _ => .other) isName)
  · intro visible params callNext isName
    exact (decided params callNext isName).mpr visible

/-- Where the empty name has no policy, a name is visible exactly when it is non-empty and callable. -/
theorem isVisible_iff {middleware : ToolAuthorizationMiddleware}
    (nameless : middleware.authorizer.policyFor "" = none) (user : Option RequestUser) (toolName : String) :
    middleware.authorizer.isVisible toolName (principalFromRequest user middleware.authProvider) = true ↔
      toolName ≠ "" ∧ middleware.PassesCall user toolName := by
  by_cases named : toolName = ""
  · subst named
    simp [isVisible_of_no_policy nameless]
  · rw [passesCall_iff named]
    simp [named]

/-- **The filter lists what may be called.** -/
theorem filterToolList_lists {middleware : ToolAuthorizationMiddleware}
    (nameless : middleware.authorizer.policyFor "" = none) (ctx : ServerRequestContext) (result : HandlerResult) :
    middleware.Lists ctx.request result (middleware.filterToolList result ctx) := by
  cases result with
  | listTools listed =>
    refine .model ⟨_, rfl, fun tool => ?_⟩
    rw [isVisible_iff nameless]
    simp
  | dict members =>
    cases listed : wireTools members with
    | none =>
      rw [filterToolList_otherDict middleware ctx listed]
      exact .otherDict listed
    | some tools =>
      rw [filterToolList_wire middleware ctx listed, setMember_of_mem (lookup_of_wireTools listed)]
      refine .wire listed ⟨_, rfl, fun entry => ?_⟩
      simp only [keepsEntry_iff, isVisible_iff nameless]
  | callTool text isError => exact .callTool text isError
  | other => exact .other

/-- **Filtering twice is filtering once.** -/
theorem filterToolList_idem (middleware : ToolAuthorizationMiddleware) (ctx : ServerRequestContext)
    (result : HandlerResult) :
    middleware.filterToolList (middleware.filterToolList result ctx) ctx = middleware.filterToolList result ctx := by
  cases result with
  | listTools listed => simp [ToolAuthorizationMiddleware.filterToolList]
  | dict members =>
    cases listed : wireTools members with
    | none =>
      rw [filterToolList_otherDict middleware ctx listed]
      rfl
    | some tools =>
      rw [filterToolList_wire middleware ctx listed, filterToolList_wire middleware ctx (wireTools_setMember listed),
        List.filter_filter]
      simp only [Bool.and_self, setMember_idem (lookup_of_wireTools listed)]
  | callTool text isError => rfl
  | other => rfl

/-- **A user that is not authenticated sees no tool.** -/
theorem filterToolList_unauthenticated (middleware : ToolAuthorizationMiddleware) {ctx : ServerRequestContext}
    (unauthenticated : ∀ accessToken, ctx.request ≠ some (.authenticated accessToken)) (result : HandlerResult) :
    (middleware.filterToolList result ctx).shownNames = [] := by
  have nobody : principalFromRequest ctx.request middleware.authProvider = none := by
    unfold principalFromRequest
    split
    · rename_i accessToken isUser
      exact absurd isUser (unauthenticated accessToken)
    · rfl
  cases result with
  | listTools listed =>
    simp [ToolAuthorizationMiddleware.filterToolList, HandlerResult.shownNames, nobody, isVisible_unauthenticated]
  | dict members =>
    cases listed : wireTools members with
    | none =>
      rw [filterToolList_otherDict middleware ctx listed]
      rfl
    | some tools =>
      have hidden : tools.filter (middleware.keepsEntry none) = [] := by
        rw [List.filter_eq_nil_iff]
        intro entry _ kept
        obtain ⟨toolName, -, visible⟩ := (keepsEntry_iff middleware none entry).mp kept
        rw [isVisible_unauthenticated] at visible
        cases visible
      rw [filterToolList_wire middleware ctx listed, nobody, hidden, HandlerResult.shownNames,
        wireTools_setMember listed]
      rfl
  | callTool text isError => rfl
  | other => rfl

end Catalog

/-! ### The filter on objects -/

/-- `isinstance(tool, dict) and isinstance(name := tool.get("name"), str) and is_visible(name)`. -/
def ToolAuthorizationMiddleware.keepsWireObject (middleware : ToolAuthorizationMiddleware)
    (principal : Option Principal) (heap : Heap) : Ref → Bool
  | .scalar _ => false
  | .address location =>
    match heap[location]? with
    | some (.dict tool) =>
      match tool.lookup "name" with
      | some (.scalar (.str name)) => middleware.authorizer.isVisible name principal
      | _ => false
    | _ => false

/-- `is_visible(tool.name)` of a `Tool` instance. -/
def ToolAuthorizationMiddleware.keepsModelObject (middleware : ToolAuthorizationMiddleware)
    (principal : Option Principal) (heap : Heap) : Ref → Bool
  | .scalar _ => false
  | .address location =>
    match heap[location]? with
    | some (.model _ fields) =>
      match fields.lookup "name" with
      | some (.scalar (.str name)) => middleware.authorizer.isVisible name principal
      | _ => false
    | _ => false

/-- A new list, and a new object that refers to it. -/
def allocWithList (heap : Heap) (items : List Ref) (object : Ref → Cell) : Heap × Ref :=
  let tools := heap.alloc (.list items)
  tools.1.alloc (object tools.2)

/-- `ListToolsResult(tools=[])`. -/
def emptyCatalog (heap : Heap) : Heap × Ref :=
  allocWithList heap [] fun tools => .model "ListToolsResult" [("tools", tools)]

/-- `_filter_tool_list` on objects: `none` where a reference dangles or a field has not its type. -/
def ToolAuthorizationMiddleware.filterToolListObjects [PyRepr] (middleware : ToolAuthorizationMiddleware)
    (ctx : ServerRequestContext) (heap : Heap) (result : Ref) : Option (Heap × Ref) :=
  let principal := principalFromRequest ctx.request middleware.authProvider
  match result with
  | .scalar _ => some (emptyCatalog heap)
  | .address location =>
    match heap[location]? with
    | none => none
    | some (.list _) => some (emptyCatalog heap)
    | some (.model type fields) =>
      if type = "ListToolsResult" then
        match fields.lookup "tools" with
        | some (.address tools) =>
          match heap[tools]? with
          | some (.list items) =>
            -- `model_copy` makes a new instance with the same fields.
            some (allocWithList heap (items.filter (middleware.keepsModelObject principal heap)) fun visible =>
              .model "ListToolsResult" (setMember fields "tools" visible))
          | _ => none
        | _ => none
      else some (emptyCatalog heap)
    | some (.dict members) =>
      match members.lookup "tools" with
      | some (.address tools) =>
        match heap[tools]? with
        | none => none
        | some (.list items) =>
          some (allocWithList heap (items.filter (middleware.keepsWireObject principal heap)) fun visible =>
            .dict (setMember members "tools" visible))
        | some _ => some (emptyCatalog heap)
      | _ => some (emptyCatalog heap)

/-- A `Tool` instance. -/
def ReadsTool (heap : Heap) (ref : Ref) (tool : Tool) : Prop :=
  ∃ location fields, ref = .address location ∧
    heap[location]? = some (.model "Tool" (("name", .scalar (.str tool.name)) :: fields)) ∧
    ReadsMembers heap fields tool.rest

/-- Neither a dict nor an instance of one of the two result models. -/
def isOtherCell : Cell → Prop
  | .list _ => True
  | .dict _ => False
  | .model type _ => type ≠ "ListToolsResult" ∧ type ≠ "CallToolResult"

/-- The result of a handler is read at a reference. -/
def ReadsResult (heap : Heap) (ref : Ref) : HandlerResult → Prop
  | .listTools listed =>
    ∃ location toolsAt items fields, ref = .address location ∧
      heap[location]? = some (.model "ListToolsResult" (("tools", .address toolsAt) :: fields)) ∧
      (∀ field ∈ fields, field.1 ≠ "tools") ∧ ReadsMembers heap fields listed.rest ∧
      heap[toolsAt]? = some (.list items) ∧ List.Forall₂ (ReadsTool heap) items listed.tools
  | .dict members => Reads heap ref (.obj members)
  | .callTool _ _ => ∃ location fields, ref = .address location ∧
      heap[location]? = some (.model "CallToolResult" fields)
  | .other => (∃ value, ref = .scalar value) ∨
      ∃ location cell, ref = .address location ∧ heap[location]? = some cell ∧ isOtherCell cell

/-- Reading a `Tool` survives an allocation. -/
theorem ReadsTool.mono {heap larger : Heap} (grows : heap <+: larger) {ref : Ref} {tool : Tool}
    (reads : ReadsTool heap ref tool) : ReadsTool larger ref tool := by
  obtain ⟨location, fields, isRef, found, rest⟩ := reads
  exact ⟨location, fields, isRef, getElem?_of_prefix grows found, rest.mono grows⟩

theorem keepsModelObject_eq (middleware : ToolAuthorizationMiddleware) (principal : Option Principal)
    {heap : Heap} {ref : Ref} {tool : Tool} (reads : ReadsTool heap ref tool) :
    middleware.keepsModelObject principal heap ref = middleware.authorizer.isVisible tool.name principal := by
  obtain ⟨location, fields, rfl, found, -⟩ := reads
  simp [ToolAuthorizationMiddleware.keepsModelObject, found]

/-- **The test on an object is the test on what is read there.** -/
theorem keepsWireObject_eq (middleware : ToolAuthorizationMiddleware) (principal : Option Principal)
    {heap : Heap} {ref : Ref} {entry : Json} (reads : Reads heap ref entry) :
    middleware.keepsWireObject principal heap ref = middleware.keepsEntry principal entry := by
  cases entry with
  | obj tool =>
    obtain ⟨location, refs, rfl, found, members⟩ := reads
    have named := members.lookup "name"
    simp only [ToolAuthorizationMiddleware.keepsWireObject, found, ToolAuthorizationMiddleware.keepsEntry,
      JsonText.get]
    cases isMember : tool.lookup "name" with
    | none =>
      rw [isMember] at named
      simp [named]
    | some value =>
      rw [isMember] at named
      obtain ⟨ref, isRef, here⟩ := named
      rw [isRef, Option.getD_some]
      cases value with
      | arr items =>
        obtain ⟨inner, refs', rfl, -⟩ := here
        rfl
      | obj inside =>
        obtain ⟨inner, refs', rfl, -⟩ := here
        rfl
      | _ =>
        have isScalar : ref = .scalar _ := here
        subst isScalar
        rfl
  | arr items =>
    obtain ⟨location, refs, rfl, found, -⟩ := reads
    simp [ToolAuthorizationMiddleware.keepsWireObject, found, ToolAuthorizationMiddleware.keepsEntry]
  | _ =>
    have isScalar : ref = .scalar _ := reads
    subst isScalar
    rfl

/-- **What two allocations leave**: all that existed, the new list and the object that refers to it. -/
theorem allocWithList_spec (heap : Heap) (items : List Ref) (object : Ref → Cell) :
    ∃ larger, allocWithList heap items object = (larger, .address (heap.length + 1)) ∧ heap <+: larger ∧
      larger[heap.length]? = some (.list items) ∧
      larger[heap.length + 1]? = some (object (.address heap.length)) := by
  refine ⟨heap ++ [.list items] ++ [object (.address heap.length)], ?_, ?_, ?_, ?_⟩
  · simp [allocWithList, Heap.alloc]
  · exact (Heap.alloc_extends heap _).trans (Heap.alloc_extends _ _)
  · exact getElem?_of_prefix (Heap.alloc_extends _ _) (Heap.alloc_new heap _)
  · simp

/-- The empty catalog is read as one, and nothing that existed is changed. -/
theorem emptyCatalog_reads (heap : Heap) :
    heap <+: (emptyCatalog heap).1 ∧ ReadsResult (emptyCatalog heap).1 (emptyCatalog heap).2 (.listTools ⟨[], []⟩) := by
  obtain ⟨larger, isPair, grows, isList, isModel⟩ :=
    allocWithList_spec heap [] fun tools => .model "ListToolsResult" [("tools", tools)]
  rw [emptyCatalog, isPair]
  exact ⟨grows, _, _, [], [], rfl, isModel, by simp, rfl, isList, .nil⟩

section Objects

variable [PyRepr]

/-- **The filter on objects refines the filter on values**: it returns a reference at which the filtered
result is read, and leaves every object that it was given unchanged. -/
theorem filterToolListObjects_refines (middleware : ToolAuthorizationMiddleware) (ctx : ServerRequestContext)
    {heap : Heap} {ref : Ref} {result : HandlerResult} (reads : ReadsResult heap ref result) :
    ∃ larger filtered, middleware.filterToolListObjects ctx heap ref = some (larger, filtered) ∧
      heap <+: larger ∧ ReadsResult larger filtered (middleware.filterToolList result ctx) := by
  obtain ⟨emptyGrows, emptyReads⟩ := emptyCatalog_reads heap
  cases result with
  | listTools listed =>
    obtain ⟨location, toolsAt, items, fields, rfl, found, others, rest, isList, tools⟩ := reads
    obtain ⟨larger, isPair, grows, newList, newModel⟩ := allocWithList_spec heap
      (items.filter (middleware.keepsModelObject (principalFromRequest ctx.request middleware.authProvider) heap))
      fun visible => .model "ListToolsResult" (setMember (("tools", .address toolsAt) :: fields) "tools" visible)
    have agree : ∀ ⦃item tool⦄, ReadsTool heap item tool →
        (middleware.keepsModelObject (principalFromRequest ctx.request middleware.authProvider) heap item = true ↔
          middleware.authorizer.isVisible tool.name
            (principalFromRequest ctx.request middleware.authProvider) = true) := by
      intro item tool here
      rw [keepsModelObject_eq middleware _ here]
    have kept := List.rel_filter agree tools
    have same : ∀ field ∈ fields,
        (if field.1 == "tools" then ("tools", Ref.address heap.length) else field) = field := by
      intro field member
      simp [others field member]
    have sameFields := (List.map_congr_left same).trans (List.map_id' fields)
    have toolsField : ((("tools", .address toolsAt) :: fields).lookup "tools" : Option Ref) = some (.address toolsAt) := rfl
    rw [setMember_of_mem toolsField, List.map_cons, sameFields] at newModel
    refine ⟨larger, _, ?_, grows, _, heap.length, _, fields, rfl, newModel, others, rest.mono grows, newList, ?_⟩
    · simp [ToolAuthorizationMiddleware.filterToolListObjects, found, isList, isPair]
    · exact kept.imp fun _ _ here => here.mono grows
  | dict members =>
    obtain ⟨location, refs, rfl, found, reading⟩ := reads
    have toolsAt := reading.lookup "tools"
    cases listed : wireTools members with
    | none =>
      refine ⟨_, _, ?_, emptyGrows, filterToolList_otherDict middleware ctx listed ▸ emptyReads⟩
      unfold wireTools JsonText.get at listed
      cases isMember : members.lookup "tools" with
      | none =>
        rw [isMember] at toolsAt
        simp [ToolAuthorizationMiddleware.filterToolListObjects, found, toolsAt]
      | some value =>
        rw [isMember] at toolsAt listed
        obtain ⟨inner, isRef, here⟩ := toolsAt
        cases value with
        | arr tools => cases listed
        | obj inside =>
          obtain ⟨innerAt, refs', rfl, isDict, -⟩ := here
          simp [ToolAuthorizationMiddleware.filterToolListObjects, found, isRef, isDict]
        | _ =>
          have isScalar : inner = .scalar _ := here
          subst isScalar
          simp [ToolAuthorizationMiddleware.filterToolListObjects, found, isRef]
    | some tools =>
      rw [lookup_of_wireTools listed] at toolsAt
      obtain ⟨_, isRef, innerAt, items, rfl, isList, entries⟩ := toolsAt
      obtain ⟨larger, isPair, grows, newList, newDict⟩ := allocWithList_spec heap
        (items.filter (middleware.keepsWireObject (principalFromRequest ctx.request middleware.authProvider) heap))
        fun visible => .dict (setMember refs "tools" visible)
      have agree : ∀ ⦃item entry⦄, Reads heap item entry →
          (middleware.keepsWireObject (principalFromRequest ctx.request middleware.authProvider) heap item = true ↔
            middleware.keepsEntry (principalFromRequest ctx.request middleware.authProvider) entry = true) := by
        intro item entry here
        rw [keepsWireObject_eq middleware _ here]
      have kept := (List.rel_filter agree (readsItems_iff.mp entries)).imp fun _ _ here => here.mono grows
      rw [setMember_of_mem isRef] at newDict
      rw [filterToolList_wire middleware ctx listed, setMember_of_mem (lookup_of_wireTools listed)]
      refine ⟨larger, _, ?_, grows, _, _, rfl, newDict, reading.replace grows ?_⟩
      · simp [ToolAuthorizationMiddleware.filterToolListObjects, found, isRef, isList, isPair]
      · exact ⟨_, _, rfl, newList, readsItems_iff.mpr kept⟩
  | callTool text isError =>
    obtain ⟨location, fields, rfl, found⟩ := reads
    exact ⟨_, _, by simp [ToolAuthorizationMiddleware.filterToolListObjects, found], emptyGrows, emptyReads⟩
  | other =>
    rcases reads with ⟨value, rfl⟩ | ⟨location, cell, rfl, found, isOther⟩
    · exact ⟨_, _, rfl, emptyGrows, emptyReads⟩
    · refine ⟨_, _, ?_, emptyGrows, emptyReads⟩
      cases cell with
      | list items => simp [ToolAuthorizationMiddleware.filterToolListObjects, found]
      | dict members => exact isOther.elim
      | model type fields => simp [ToolAuthorizationMiddleware.filterToolListObjects, found, isOther.1]

/-- **`tools/list` shows exactly what `tools/call` would run.** For every registry without a policy for the
empty name, every provider, user and result of the chain: the message is answered with the callable entries
in the same envelope, or with an empty catalog; filtering the answer again changes nothing; a user that is
not authenticated sees no tool; and on objects the answer is built beside those that the handler returned. -/
theorem toolList_exact (middleware : ToolAuthorizationMiddleware)
    (nameless : middleware.authorizer.policyFor "" = none) {ctx : ServerRequestContext}
    (lists : ctx.method = "tools/list") (callNext : ServerRequestContext → HandlerResult) :
    let listed := (middleware.call ctx callNext).result
    middleware.Lists ctx.request (callNext ctx) listed ∧
    middleware.filterToolList listed ctx = listed ∧
    ((∀ accessToken, ctx.request ≠ some (.authenticated accessToken)) → listed.shownNames = []) ∧
    ∀ heap ref, ReadsResult heap ref (callNext ctx) →
      ∃ larger filtered, middleware.filterToolListObjects ctx heap ref = some (larger, filtered) ∧
        heap <+: larger ∧ ReadsResult larger filtered listed := by
  have answered : (middleware.call ctx callNext).result = middleware.filterToolList (callNext ctx) ctx := by
    rw [ToolAuthorizationMiddleware.call, if_pos lists]
  dsimp only
  rw [answered]
  exact ⟨filterToolList_lists nameless ctx _, filterToolList_idem middleware ctx _,
    fun unauthenticated => filterToolList_unauthenticated middleware unauthenticated _,
    fun heap ref reads => filterToolListObjects_refines middleware ctx reads⟩

end Objects

/-- A registry with one tool for every authenticated user. -/
def healthMiddleware : ToolAuthorizationMiddleware := ⟨⟨[("health", .authenticated)]⟩, .generic⟩

/-- A `tools/list` of an authenticated user. -/
def listMessage : ServerRequestContext :=
  ⟨"tools/list", none, some (.authenticated ⟨"token", "client", [], none, none, some "subject", none⟩)⟩

/-- A wire result with a callable tool, a name that is no string and an entry that is no dict. -/
def wireResult : JsonObject :=
  [("tools", .arr [.obj [("name", .str "health")], .obj [("name", .int 7)], .str "health"]), ("ttlMs", .int 30000)]

/-- The objects of that result. -/
def wireHeap : Heap :=
  [.dict [("name", .scalar (.str "health"))], .dict [("name", .scalar (.int 7))],
    .list [.address 0, .address 1, .scalar (.str "health")],
    .dict [("tools", .address 2), ("ttlMs", .scalar (.int 30000))]]

theorem wireHeap_reads : ReadsResult wireHeap (.address 3) (.dict wireResult) := by
  have health : Reads wireHeap (.address 0) (.obj [("name", .str "health")]) :=
    ⟨0, _, rfl, rfl, _, [], rfl, rfl, rfl⟩
  have seven : Reads wireHeap (.address 1) (.obj [("name", .int 7)]) := ⟨1, _, rfl, rfl, _, [], rfl, rfl, rfl⟩
  have tools : Reads wireHeap (.address 2)
      (.arr [.obj [("name", .str "health")], .obj [("name", .int 7)], .str "health"]) :=
    ⟨2, _, rfl, rfl, _, _, rfl, health, _, _, rfl, seven, _, [], rfl, rfl, rfl⟩
  exact ⟨3, _, rfl, rfl, _, _, rfl, tools, _, [], rfl, rfl, rfl⟩

theorem toolList_exact_wire :
    letI := plainRepr
    healthMiddleware.Lists listMessage.request (.dict wireResult)
        (.dict [("tools", .arr [.obj [("name", .str "health")]]), ("ttlMs", .int 30000)]) ∧
      ∃ larger filtered,
        healthMiddleware.filterToolListObjects listMessage wireHeap (.address 3) = some (larger, filtered) ∧
        wireHeap <+: larger := by
  let _ := plainRepr
  obtain ⟨lists, -, -, objects⟩ :=
    @toolList_exact _ healthMiddleware rfl listMessage rfl fun _ => .dict wireResult
  obtain ⟨larger, filtered, built, grows, -⟩ := objects wireHeap (.address 3) wireHeap_reads
  exact ⟨lists, larger, filtered, built, grows⟩

end McpAuth
