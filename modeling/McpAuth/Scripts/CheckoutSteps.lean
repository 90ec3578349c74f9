/-
**Checkout steps of a workflow, and what the check of their credentials sees.**

A workflow in block style is a list of steps between other rows. A step is written `- uses: …`, or `- name: …` with
its `uses: …` on a row below, in the column of `name`. The rows of a step are those down to the next row of content
that is not indented deeper than its dash.

The scan for `persist-credentials: false` starts below the row where the match of a reference begins, and ends at
the first row of content that is indented less than this row, not at the end of the step. A step without the line
`Borrows` one when it meets that of a later step first.

* `rejected_iff_seen` — the reference of a checkout step without its own line is rejected exactly when the step is
  `Seen`: its reference is not pinned, or is read as a checkout that borrows no line;
* `borrows_iff_of_starts` — where the match begins at the `uses` row, a `- uses:` step borrows from the rows below it
  that are not indented less than its dash, and a `- name:` step never does;
* `checkout_sound_iff` — the errors of `validate_workflow` are sound for the checkout steps exactly when one of the
  steps without the line is seen, if there are any, or the workflow is rejected for something else.
-/

import McpAuth.Library.YamlScalar
import McpAuth.Scripts.ActionReferences

namespace McpAuth

open PyText TextRows UrlSplit YamlScalar

/-! ### Steps -/

/-- A step that starts with `name:`: its title, and the rows before its `uses`. -/
structure StepName where
  title : Row
  between : List Row
  deriving DecidableEq

/-- A step with an action. The keys of its mapping stand `2 + gap` columns behind the dash. -/
structure Step where
  indent : ℕ
  gap : ℕ
  named : Option StepName
  separation : Row
  action : Scalar
  trailing : Row
  body : List Row
  deriving DecidableEq

namespace Step

/-- The column of the keys. -/
def column (step : Step) : ℕ := step.indent + (2 + step.gap)

/-- The step starts with `- uses:`. -/
def dashed (step : Step) : Bool := step.named.isNone

/-- The row of `uses`. -/
def usesRow (step : Step) : Row :=
  spaces (if step.dashed then step.indent else step.column) ++ usesStart step.dashed step.gap ++ step.separation ++
    step.action.text ++ step.trailing

/-- The rows before `uses`. -/
def rowsAbove (step : Step) : List Row :=
  match step.named with
  | none => []
  | some name => (spaces step.indent ++ '-' :: ' ' :: spaces step.gap ++ "name:".toList ++ name.title) :: name.between

def rows (step : Step) : List Row := step.rowsAbove ++ step.usesRow :: step.body

/-- The action of the step is `actions/checkout`. -/
def IsCheckout (step : Step) : Prop := actionOf step.action.value = "actions/checkout".toList

instance (step : Step) : Decidable step.IsCheckout := inferInstanceAs (Decidable (_ = _))

/-- The step has the line itself. -/
def Discards (step : Step) : Prop := ∃ row ∈ step.rows, isDiscardLine row = true

instance (step : Step) : Decidable step.Discards := inferInstanceAs (Decidable (∃ row ∈ step.rows, _))

/-- The word that the scanner takes for the reference. -/
def word (step : Step) : Row := (step.action.text ++ step.trailing).takeWhile isReferenceChar

end Step

/-! ### Workflows -/

/-- A row that is not part of a step, or a step. -/
inductive WorkflowPart
  | row (row : Row)
  | step (step : Step)
  deriving DecidableEq

def WorkflowPart.rows : WorkflowPart → List Row
  | .row line => [line]
  | .step inner => inner.rows

def workflowRows (parts : List WorkflowPart) : List Row := parts.flatMap WorkflowPart.rows

def workflowText (parts : List WorkflowPart) : String := String.ofList (joinRows (workflowRows parts))

/-- What makes the rows of a step a step, above the rows `later`. -/
structure Step.WellFormed (step : Step) (later : List Row) : Prop where
  separates : step.separation ≠ [] ∧ ∀ char ∈ step.separation, isWhite char = true
  action : step.action.WellFormed
  trailing : Trailing step.trailing
  deep : ∀ row ∈ step.rowsAbove.tail ++ step.body, isSkipped row = false → step.indent < indentOf row
  ends : ∀ row ∈ firstContent later, indentOf row ≤ step.indent

def WellFormedSteps : List WorkflowPart → Prop
  | [] => True
  | .row _ :: later => WellFormedSteps later
  | .step step :: later => step.WellFormed (workflowRows later) ∧ WellFormedSteps later

/-- A workflow in block style. -/
structure BlockStyle (parts : List WorkflowPart) : Prop where
  oneRow : ∀ row ∈ workflowRows parts, '\n' ∉ row
  steps : WellFormedSteps parts

/-! ### What the check sees -/

/-- The row at which the match of a `uses` row begins, below the rows `above`. -/
def matchRow (dashed : Bool) (above : List Row) : ℕ :=
  let kept := above.rdropWhile isBlankRow
  if dashed = false ∧ kept.getLast?.map stripRow = some ['-'] then (kept.dropLast.rdropWhile isBlankRow).length
  else kept.length

/-- A checkout step of the workflow, between the other parts. -/
structure CheckoutAt (parts before : List WorkflowPart) (step : Step) (after : List WorkflowPart) : Prop where
  split : parts = before ++ .step step :: after
  checkout : step.IsCheckout

/-- The row and the word at which the scanner finds the step. -/
def foundAt (before : List WorkflowPart) (step : Step) : ℕ × Row :=
  (matchRow step.dashed (workflowRows before ++ step.rowsAbove), step.word)

/-- The rows of the step from the one at which its match begins, blank rows above the step included. -/
def matchRows (before : List WorkflowPart) (step : Step) : List Row :=
  (workflowRows before ++ step.rowsAbove).drop (foundAt before step).1 ++ step.usesRow :: step.body

/-- **The scan meets a line below the step** before a row of content that is indented less than the row at which
the match begins. -/
def Borrows (before : List WorkflowPart) (step : Step) (after : List WorkflowPart) : Prop :=
  ∃ upper line more, workflowRows after = upper ++ line :: more ∧ isDiscardLine line = true ∧
    ∀ row ∈ matchRows before step ++ (upper ++ [line]), isSkipped row = false →
      indentOf ((matchRows before step).headD []) ≤ indentOf row

/-- No row has a line boundary of its own. -/
def PlainRows (parts : List WorkflowPart) : Prop :=
  ∀ row ∈ workflowRows parts, ∀ char ∈ row, isLineBreak char = false

/-- **What draws an error for a checkout step without its own line**: a reference that is not pinned, or one that
reads as a checkout, when no line is borrowed. -/
inductive Seen (parts before : List WorkflowPart) (step : Step) (after : List WorkflowPart) : Prop
  | unpinned : ¬ PinnedReference step.word → Seen parts before step after
  | alone : actionOf step.word = "actions/checkout".toList → PlainRows parts → ¬ Borrows before step after →
      Seen parts before step after

/-- A checkout step without its own line. -/
structure Lacking (parts before : List WorkflowPart) (step : Step) (after : List WorkflowPart) : Prop
    extends CheckoutAt parts before step after where
  lacks : ¬ step.Discards

/-- What a workflow is rejected for other than a checkout step without its own line. -/
inductive RejectedElsewhere (display : String) (parts : List WorkflowPart) : Prop
  | topLevel : ¬ TopLevelAccepted (splitLines (workflowText parts).toList)
      (permissionBlocks (rowsOf (workflowText parts).toList)) → RejectedElsewhere display parts
  | block {block : PermissionBlock} : block ∈ permissionBlocks (rowsOf (workflowText parts).toList) →
      ¬ BlockAccepted display (splitLines (workflowText parts).toList) block → RejectedElsewhere display parts
  | reference {found : ℕ × Row} : found ∈ findReferences 0 0 (rowsOf (workflowText parts).toList) →
      ¬ ReferenceAccepted (splitLines (workflowText parts).toList) found →
      (PlainRows parts → ∀ before step after, Lacking parts before step after → found ≠ foundAt before step) →
      RejectedElsewhere display parts

/-- **No errors, and every checkout step discards its own credentials.** -/
def CheckoutSound (display : String) (parts : List WorkflowPart) : Prop :=
  validateWorkflow display (.ok (workflowText parts)) = [] →
    ∀ step, WorkflowPart.step step ∈ parts → step.IsCheckout → step.Discards

theorem WellFormedSteps.at {before after : List WorkflowPart} {step : Step}
    (wellFormed : WellFormedSteps (before ++ .step step :: after)) : step.WellFormed (workflowRows after) := by
  induction before with
  | nil => exact wellFormed.1
  | cons part before ih =>
    cases part with
    | row line => exact ih wellFormed
    | step first => exact ih wellFormed.2

/-! ### Where the match of a step begins -/

/-- The rows before the blank ones at the end. -/
theorem withoutBlank (rows : List Row) : ∃ blank, rows = rows.rdropWhile isBlankRow ++ blank ∧
    (∀ row ∈ blank, isBlankRow row = true) ∧ ∀ last ∈ (rows.rdropWhile isBlankRow).getLast?, isBlankRow last = false := by
  refine ⟨rows.rtakeWhile isBlankRow, List.rdropWhile_append_rtakeWhile.symm, fun row member =>
    List.mem_rtakeWhile_imp member, ?_⟩
  intro last isLast
  rcases List.eq_nil_or_concat (rows.rdropWhile isBlankRow) with empty | ⟨first, final, shape⟩
  · rw [empty] at isLast
    cases isLast
  · have stays := List.rdropWhile_eq_self_iff.mp (List.rdropWhile_idempotent isBlankRow rows)
      (by simp [shape] : rows.rdropWhile isBlankRow ≠ [])
    rw [Option.mem_def, List.getLast?_eq_getLast_of_ne_nil (by simp [shape])] at isLast
    cases isLast
    simpa using stays

/-- **The match of a `uses` row begins at `matchRow`.** -/
theorem begins_matchRow (dashed : Bool) (rows : List Row) :
    ∃ above lead, rows = above ++ lead ∧ above.length = matchRow dashed rows ∧ Begins dashed above lead := by
  obtain ⟨lower, split, isLower, last⟩ := withoutBlank rows
  by_cases dashRow : dashed = false ∧ (rows.rdropWhile isBlankRow).getLast?.map stripRow = some ['-']
  · obtain ⟨rfl, isDash⟩ := dashRow
    obtain ⟨row, isLast, isDash'⟩ := Option.map_eq_some_iff.mp isDash
    obtain ⟨first, shape⟩ := List.getLast?_eq_some_iff.mp isLast
    obtain ⟨upper, split', isUpper, last'⟩ := withoutBlank first
    refine ⟨first.rdropWhile isBlankRow, upper ++ row :: lower, ?_, ?_, .dash isUpper isDash' isLower last'⟩
    · conv_lhs => rw [split, shape, split']
      simp
    · unfold matchRow
      dsimp only
      rw [if_pos ⟨rfl, isDash⟩, shape, List.dropLast_concat]
  · refine ⟨rows.rdropWhile isBlankRow, lower, split, ?_, .blank isLower fun row isLast => ⟨last row isLast, ?_⟩⟩
    · unfold matchRow
      dsimp only
      rw [if_neg dashRow]
    · intro isKey isDash
      exact dashRow ⟨isKey, by rw [isLast, Option.map_some, isDash]⟩

/-! ### The word of a step -/

/-- The part of a reference before its last `@`. -/
theorem actionOf_append (action : Row) {revision : Row} (last : '@' ∉ revision) :
    actionOf (action ++ '@' :: revision) = action := by
  have passed : ∀ char ∈ revision.reverse, decide (char ≠ '@') = true := fun char member =>
    decide_eq_true fun same => last (same ▸ List.mem_reverse.mp member)
  unfold actionOf beforeLast
  rw [List.reverse_append, List.reverse_cons, List.append_assoc, List.dropWhile_append_of_pos passed]
  simp

/-- A reference with an action is the action, `@` and a revision. -/
theorem eq_of_actionOf {reference : Row} (nonempty : actionOf reference ≠ []) :
    ∃ revision, reference = actionOf reference ++ '@' :: revision ∧ '@' ∉ revision := by
  have split := List.takeWhile_append_dropWhile (p := fun char => decide (char ≠ '@')) (l := reference.reverse)
  cases shape : reference.reverse.dropWhile (fun char => decide (char ≠ '@')) with
  | nil =>
    refine absurd ?_ nonempty
    unfold actionOf beforeLast
    rw [shape]
    rfl
  | cons at' rest =>
    have isAt : at' = '@' := by
      have stops := List.head?_dropWhile_not (fun char => decide (char ≠ '@')) reference.reverse
      rw [shape] at stops
      simpa using stops
    have action : actionOf reference = rest.reverse := by
      unfold actionOf beforeLast
      rw [shape]
      rfl
    refine ⟨(reference.reverse.takeWhile fun char => decide (char ≠ '@')).reverse, ?_, ?_⟩
    · rw [shape, isAt] at split
      have whole := congrArg List.reverse split
      rw [List.reverse_reverse] at whole
      rw [action]
      simpa using whole.symm
    · intro member
      have passed := List.mem_takeWhile_imp (List.mem_reverse.mp member)
      simp at passed

theorem isReferenceChar_white {char : Char} (white : isWhite char = true) : isReferenceChar char = false := by
  rw [isReferenceChar, isSpace_of_isWhite white]
  rfl

/-- **A checkout step has a word.** -/
theorem Step.word_nonempty {step : Step} (checkout : step.IsCheckout) : step.word ≠ [] := by
  obtain ⟨first, rest, shape, isChar⟩ : ∃ first rest, step.action.text = first :: rest ∧
      isReferenceChar first = true := by
    rcases step.action.head_text with ⟨quote, isQuote, rest, shape⟩ | same
    · have quotes : ∀ quote ∈ ['\'', '"'], isReferenceChar quote = true := by decide
      exact ⟨quote, _, shape, quotes quote isQuote⟩
    · have nonempty : actionOf step.action.value ≠ [] := by
        rw [checkout]
        decide
      obtain ⟨revision, split, -⟩ := eq_of_actionOf nonempty
      rw [checkout] at split
      exact ⟨'a', _, same.trans split, rfl⟩
  unfold Step.word
  rw [shape, List.cons_append, List.takeWhile_cons, isChar, if_pos rfl]
  exact List.cons_ne_nil _ _

/-- **The word of a plain checkout is a checkout.** -/
theorem Step.word_checkout {step : Step} {content : Row} (plain : step.action = .plain content)
    (trailing : Trailing step.trailing) (checkout : step.IsCheckout) :
    actionOf step.word = "actions/checkout".toList := by
  have nonempty : actionOf content ≠ [] := by
    rw [Step.IsCheckout, plain] at checkout
    rw [show actionOf content = _ from checkout]
    decide
  rw [Step.IsCheckout, plain] at checkout
  obtain ⟨revision, split, last⟩ := eq_of_actionOf nonempty
  rw [show actionOf content = _ from checkout] at split
  have key : ∀ char ∈ "actions/checkout@".toList, isReferenceChar char = true := by decide
  have word : step.word = "actions/checkout".toList ++
      '@' :: (revision ++ step.trailing).takeWhile isReferenceChar := by
    have text : step.action.text ++ step.trailing = "actions/checkout@".toList ++ (revision ++ step.trailing) := by
      rw [plain, Scalar.text, split, ← List.append_assoc]
      rfl
    unfold Step.word
    rw [text, List.takeWhile_append_of_pos key]
    rfl
  rw [word]
  refine actionOf_append _ fun member => ?_
  have within : '@' ∈ revision := by
    rw [List.takeWhile_append] at member
    split at member
    · rcases List.mem_append.mp member with here | behind
      · exact here
      · have none : step.trailing.takeWhile isReferenceChar = [] :=
          (dropWhile_of_head fun char isHead => isReferenceChar_white (trailing.begins char isHead)).2
        rw [none] at behind
        cases behind
    · exact (List.takeWhile_prefix _).subset member
  exact last within

/-- **The `uses` row of a checkout step reads as one.** -/
theorem Step.WellFormed.isUses {step : Step} {later : List Row} (wellFormed : step.WellFormed later)
    (checkout : step.IsCheckout) : UsesRow step.dashed step.word step.usesRow where
  shape := by
    refine ⟨if step.dashed then step.indent else step.column, step.gap, step.separation,
      (step.action.text ++ step.trailing).dropWhile isReferenceChar, ?_,
      wellFormed.separates.1, fun char member => isSpace_of_isWhite (wellFormed.separates.2 char member), ?_⟩
    · have split : step.word ++ (step.action.text ++ step.trailing).dropWhile isReferenceChar =
          step.action.text ++ step.trailing := List.takeWhile_append_dropWhile
      rw [List.append_assoc _ step.word, split, ← List.append_assoc]
      rfl
    · intro char isHead
      have stops := List.head?_dropWhile_not isReferenceChar (step.action.text ++ step.trailing)
      rw [Option.mem_def.mp isHead] at stops
      simpa using stops
  nonempty := word_nonempty checkout
  chars := fun char member => List.mem_takeWhile_imp member

/-! ### The errors of a workflow and its steps -/

theorem workflowRows_append (first later : List WorkflowPart) :
    workflowRows (first ++ later) = workflowRows first ++ workflowRows later :=
  List.flatMap_append

theorem workflowRows_step (step : Step) (later : List WorkflowPart) :
    workflowRows (.step step :: later) = step.rowsAbove ++ step.usesRow :: (step.body ++ workflowRows later) := by
  rw [workflowRows, List.flatMap_cons, WorkflowPart.rows, Step.rows, List.append_assoc]
  rfl

/-- The rows of a text are the rows it was put together from. -/
theorem rowsOf_workflowText {parts : List WorkflowPart} (blockStyle : BlockStyle parts)
    (nonempty : workflowRows parts ≠ []) : rowsOf (workflowText parts).toList = workflowRows parts := by
  rw [workflowText, String.toList_ofList, rowsOf_joinRows nonempty blockStyle.oneRow]

/-- **Where a workflow has no errors, every checkout step is found.** -/
theorem step_found {display : String} {parts before after : List WorkflowPart} {step : Step}
    (blockStyle : BlockStyle parts) (isStep : CheckoutAt parts before step after)
    (noErrors : validateWorkflow display (.ok (workflowText parts)) = []) :
    foundAt before step ∈ findReferences 0 0 (rowsOf (workflowText parts).toList) := by
  have isUses := (isStep.split ▸ blockStyle.steps).at.isUses isStep.checkout
  obtain ⟨above, lead, rows, start, begins⟩ :=
    begins_matchRow step.dashed (workflowRows before ++ step.rowsAbove)
  have shape : workflowRows parts = above ++ (lead ++ step.usesRow :: (step.body ++ workflowRows after)) := by
    rw [isStep.split, workflowRows_append, workflowRows_step, ← List.append_assoc, rows, List.append_assoc]
  have nonempty : workflowRows parts ≠ [] := by simp [shape]
  obtain ⟨-, -, references⟩ := validateWorkflow_eq_nil_iff.mp noErrors
  have words : ∀ found ∈ findReferences 0 0 (rowsOf (workflowText parts).toList),
      found.2 ≠ ['-'] ∧ found.2 ≠ "uses:".toList := fun found member => (references found member).1.isWord
  rw [rowsOf_workflowText blockStyle nonempty, shape] at words ⊢
  have free := blockStyle.oneRow
  rw [shape] at free
  have found := findReferences_seen begins isUses free (Nat.zero_le _) words
  rwa [Nat.zero_add, start] at found

/-! ### Where the scan of a step ends -/

/-- Blank rows at the end are no lines that discard credentials. -/
theorem discardsFrom_append_blank {indent : ℕ} {lines tail : List Row} (blank : ∀ row ∈ tail, row = []) :
    discardsFrom indent (lines ++ tail) = discardsFrom indent lines := by
  have alone : discardsFrom indent tail = false := by
    induction tail with
    | nil => rfl
    | cons row tail ih =>
      obtain ⟨rfl, others⟩ := List.forall_mem_cons.mp blank
      exact ih others
  induction lines with
  | nil => exact alone
  | cons line lines ih => rw [List.cons_append, discardsFrom, discardsFrom, ih]

/-- **Where rows have no line boundary of their own**, the scan of the lines is that of the rows. -/
theorem covered_lines_iff {rows : List Row} (nonempty : rows ≠ [])
    (plain : ∀ row ∈ rows, ∀ char ∈ row, isLineBreak char = false) (start : ℕ) :
    Covered (splitLines (joinRows rows)) start ↔ Covered rows start := by
  obtain ⟨tail, split, blank⟩ := lines_of_rows nonempty plain
  have dropped : rows.drop (start + 1) = (splitLines (joinRows rows)).drop (start + 1) ++
      tail.drop (start + 1 - (splitLines (joinRows rows)).length) := by
    conv_lhs => rw [split, List.drop_append]
  have first : rows.getD start [] = (splitLines (joinRows rows)).getD start [] := by
    conv_lhs => rw [split]
    rw [List.getD_eq_getElem?_getD, List.getD_eq_getElem?_getD, List.getElem?_append]
    split
    · rfl
    · rename_i outside
      rw [List.getElem?_eq_none (not_lt.mp outside)]
      cases found : tail[start - (splitLines (joinRows rows)).length]? with
      | none => rfl
      | some row => rw [blank row (List.mem_of_getElem? found)]; rfl
  rw [← checkoutDiscardsCredentials_iff, ← checkoutDiscardsCredentials_iff, checkoutDiscardsCredentials,
    checkoutDiscardsCredentials, dropped, first,
    discardsFrom_append_blank fun row member => blank row (List.mem_of_mem_drop member)]

/-- **Below rows without the line**, the scan meets one further down. -/
theorem covered_append_iff {above own later : List Row} {first : Row}
    (lacks : ∀ row ∈ own, isDiscardLine row = false) :
    Covered (above ++ (first :: own ++ later)) above.length ↔
      ∃ upper line more, later = upper ++ line :: more ∧ isDiscardLine line = true ∧
        ∀ row ∈ first :: own ++ (upper ++ [line]), isSkipped row = false → indentOf first ≤ indentOf row := by
  have start : (above ++ (first :: own ++ later)).getD above.length [] = first := by simp
  have below : (above ++ (first :: own ++ later)).drop (above.length + 1) = own ++ later := by simp
  unfold Covered
  rw [start, below]
  constructor
  · rintro ⟨between, line, more, split, discards, indented⟩
    obtain ⟨upper, rfl, rfl⟩ : ∃ upper, between = own ++ upper ∧ later = upper ++ line :: more := by
      rcases List.append_eq_append_iff.mp split with ⟨upper, isBetween, isLater⟩ | ⟨rest, isOwn, shape⟩
      · exact ⟨upper, isBetween, isLater⟩
      · cases rest with
        | nil => exact ⟨[], by simpa using isOwn.symm, by simpa using shape.symm⟩
        | cons row rest =>
          obtain ⟨rfl, -⟩ := List.cons.inj shape
          have lacking := lacks line (by simp [isOwn])
          rw [lacking] at discards
          cases discards
    refine ⟨upper, line, more, rfl, discards, fun row member content => ?_⟩
    rcases List.mem_cons.mp member with rfl | others
    · exact le_refl _
    · exact indented row (by simpa using others) content
  · rintro ⟨upper, line, more, rfl, discards, indented⟩
    refine ⟨own ++ upper, line, more, by simp, discards, fun row member content => ?_⟩
    exact indented row (List.mem_cons_of_mem _ (by simpa using member)) content

/-- A row that is blank or a dash alone does not discard credentials. -/
theorem not_isDiscardLine {row : Row} (isLead : isBlankRow row = true ∨ stripRow row = ['-']) :
    isDiscardLine row = false := by
  rcases isLead with blank | dash
  · have empty : stripRow row = [] := by
      rw [stripRow, List.dropWhile_eq_nil_iff.mpr (List.all_eq_true.mp blank)]
      rfl
    rw [isDiscardLine, empty]
    decide
  · rw [isDiscardLine, dash]
    decide

theorem Begins.lead {dashed : Bool} {above lead : List Row} (begins : Begins dashed above lead) :
    ∀ row ∈ lead, isDiscardLine row = false := by
  intro row member
  cases begins with
  | blank isBlank _ => exact not_isDiscardLine (Or.inl (isBlank row member))
  | dash isUpper isDash isLower _ =>
    rcases List.mem_append.mp member with upper | below
    · exact not_isDiscardLine (Or.inl (isUpper row upper))
    · rcases List.mem_cons.mp below with rfl | lower
      · exact not_isDiscardLine (Or.inr isDash)
      · exact not_isDiscardLine (Or.inl (isLower row lower))

/-- **A checkout step without its own line is covered exactly when it borrows one.** -/
theorem covered_iff_borrows {parts before after : List WorkflowPart} {step : Step}
    (isLacking : Lacking parts before step after) (plain : PlainRows parts) :
    Covered (splitLines (workflowText parts).toList) (foundAt before step).1 ↔ Borrows before step after := by
  obtain ⟨above, lead, rows, start, begins⟩ :=
    begins_matchRow step.dashed (workflowRows before ++ step.rowsAbove)
  have isLead : (workflowRows before ++ step.rowsAbove).drop (foundAt before step).1 = lead := by
    rw [foundAt, ← start, rows, List.drop_left]
  have shape : workflowRows parts = above ++ (matchRows before step ++ workflowRows after) := by
    rw [isLacking.split, workflowRows_append, workflowRows_step, ← List.append_assoc, rows, matchRows, isLead]
    simp
  obtain ⟨first, own, isOwn⟩ : ∃ first own, matchRows before step = first :: own :=
    List.exists_cons_of_ne_nil (by simp [matchRows])
  have lacking : ∀ row ∈ matchRows before step, isDiscardLine row = false := by
    intro row member
    rw [matchRows, isLead] at member
    rcases List.mem_append.mp member with inLead | inStep
    · exact begins.lead row inLead
    · refine eq_false_of_ne_true fun discards => isLacking.lacks ⟨row, ?_, discards⟩
      exact List.mem_append_right _ inStep
  have nonempty : workflowRows parts ≠ [] := by simp [shape, isOwn]
  rw [workflowText, String.toList_ofList, covered_lines_iff nonempty plain, shape, foundAt, ← start, Borrows]
  rw [isOwn] at lacking ⊢
  exact covered_append_iff fun row member => lacking row (List.mem_cons_of_mem _ member)

/-- **The reference of a step is rejected exactly when the step is seen.** -/
theorem rejected_iff_seen {parts before after : List WorkflowPart} {step : Step}
    (isLacking : Lacking parts before step after) (plain : PlainRows parts) :
    ¬ ReferenceAccepted (splitLines (workflowText parts).toList) (foundAt before step) ↔
      Seen parts before step after := by
  rw [ReferenceAccepted, covered_iff_borrows isLacking plain]
  constructor
  · intro rejected
    by_cases pinned : PinnedReference step.word
    · by_cases checkout : actionOf step.word = "actions/checkout".toList
      · exact .alone checkout plain fun borrows => rejected ⟨pinned, fun _ => borrows⟩
      · exact absurd ⟨pinned, fun isCheckout => absurd isCheckout checkout⟩ rejected
    · exact .unpinned pinned
  · rintro (unpinned | ⟨checkout, -, alone⟩) ⟨pinned, borrows⟩
    · exact unpinned pinned
    · exact alone (borrows checkout)

/-- **Where a step is seen, there are errors.** -/
theorem errors_of_seen {display : String} {parts before after : List WorkflowPart} {step : Step}
    (blockStyle : BlockStyle parts) (isLacking : Lacking parts before step after)
    (seen : Seen parts before step after) : validateWorkflow display (.ok (workflowText parts)) ≠ [] := by
  intro noErrors
  obtain ⟨-, -, references⟩ := validateWorkflow_eq_nil_iff.mp noErrors
  obtain ⟨pinned, covered⟩ := references _ (step_found blockStyle isLacking.toCheckoutAt noErrors)
  cases seen with
  | unpinned unpinned => exact unpinned pinned
  | alone checkout plain alone => exact alone ((covered_iff_borrows isLacking plain).mp (covered checkout))

/-! ### Matches that begin at the row of their `uses` -/

/-- No blank row stands right above the `uses`, nor a dash alone above one without its dash. -/
def StartsAtUses (before : List WorkflowPart) (step : Step) : Prop :=
  ∀ row ∈ (workflowRows before ++ step.rowsAbove).getLast?, isBlankRow row = false ∧
    (step.dashed = false → stripRow row ≠ ['-'])

instance (before : List WorkflowPart) (step : Step) : Decidable (StartsAtUses before step) :=
  inferInstanceAs (Decidable (∀ row ∈ (workflowRows before ++ step.rowsAbove).getLast?, _))

theorem matchRow_eq_length {dashed : Bool} {rows : List Row}
    (last : ∀ row ∈ rows.getLast?, isBlankRow row = false ∧ (dashed = false → stripRow row ≠ ['-'])) :
    matchRow dashed rows = rows.length := by
  have kept : rows.rdropWhile isBlankRow = rows := by
    rw [List.rdropWhile_eq_self_iff]
    intro nonempty
    simp [(last _ (List.getLast?_eq_getLast_of_ne_nil nonempty)).1]
  have noDash : ¬ (dashed = false ∧ rows.getLast?.map stripRow = some ['-']) := by
    rintro ⟨isKey, isDash⟩
    obtain ⟨row, isLast, isDash'⟩ := Option.map_eq_some_iff.mp isDash
    exact (last row isLast).2 isKey isDash'
  unfold matchRow
  dsimp only
  rw [kept, if_neg noDash]

theorem indentOf_usesRow (step : Step) :
    indentOf step.usesRow = if step.dashed then step.indent else step.column := by
  rw [Step.usesRow]
  cases step.dashed with
  | true =>
    simp only [usesStart, if_true, List.append_assoc, List.cons_append]
    exact indentOf_spaces (by decide)
  | false =>
    simp only [usesStart, Bool.false_eq_true, if_false, List.append_assoc, List.nil_append]
    exact indentOf_spaces (by decide)

theorem firstContent_append {upper rest : List Row} {line : Row} (content : isSkipped line = false) :
    ∃ row ∈ firstContent (upper ++ line :: rest), row ∈ upper ++ [line] ∧ isSkipped row = false := by
  induction upper with
  | nil =>
    refine ⟨line, ?_, by simp, content⟩
    simp [firstContent, content]
  | cons first upper ih =>
    obtain ⟨row, found, member, isContent⟩ := ih
    cases skipped : isSkipped first with
    | false =>
      refine ⟨first, ?_, by simp, skipped⟩
      simp [firstContent, skipped]
    | true =>
      refine ⟨row, ?_, List.mem_cons_of_mem _ member, isContent⟩
      rw [Option.mem_def, firstContent, List.cons_append, List.find?_cons_of_neg (by simp [skipped])]
      exact found

/-- **Where the match begins at the `uses` row**, a `- name:` step borrows nothing, and a `- uses:` step borrows
from the rows below it that are not indented less than its dash. -/
theorem borrows_iff_of_starts {parts before after : List WorkflowPart} {step : Step} (blockStyle : BlockStyle parts)
    (split : parts = before ++ .step step :: after) (starts : StartsAtUses before step) :
    Borrows before step after ↔ step.dashed = true ∧ ∃ upper line more, workflowRows after = upper ++ line :: more ∧
      isDiscardLine line = true ∧ ∀ row ∈ upper ++ [line], isSkipped row = false → step.indent ≤ indentOf row := by
  have wellFormed := (split ▸ blockStyle.steps).at
  have rows : matchRows before step = step.usesRow :: step.body := by
    rw [matchRows, foundAt, matchRow_eq_length starts, List.drop_length, List.nil_append]
  unfold Borrows
  rw [rows, List.headD_cons, indentOf_usesRow]
  cases dashed : step.dashed with
  | false =>
    -- The next row of content is not indented deeper than the dash, so the scan ends there.
    refine iff_of_false ?_ fun both => Bool.false_ne_true both.1
    rintro ⟨upper, line, more, below, discards, indented⟩
    obtain ⟨row, first, member, content⟩ :=
      @firstContent_append upper more line (not_isSkipped_of_isDiscardLine discards)
    have ends := wellFormed.ends row (below ▸ first)
    have deep := indented row (List.mem_append_right _ member) content
    simp only [Bool.false_eq_true, if_false, Step.column] at deep
    omega
  | true =>
    simp only [if_true, true_and]
    refine exists_congr fun upper => exists_congr fun line => exists_congr fun more =>
      and_congr_right fun _ => and_congr_right fun _ => ⟨fun indented row member =>
        indented row (List.mem_append_right _ member), fun indented row member content => ?_⟩
    rcases List.mem_append.mp member with own | below
    · rcases List.mem_cons.mp own with rfl | inBody
      · rw [indentOf_usesRow, dashed, if_pos rfl]
      · exact (wellFormed.deep row (List.mem_append_right _ inBody) content).le
    · exact indented row below content

/-- **A plain `- name:` step without its own line is seen** where its match begins at its `uses` row. -/
theorem seen_of_named {parts before after : List WorkflowPart} {step : Step} {content : Row}
    (blockStyle : BlockStyle parts) (plain : PlainRows parts) (isStep : CheckoutAt parts before step after)
    (isPlain : step.action = .plain content) (named : step.dashed = false) (starts : StartsAtUses before step) :
    Seen parts before step after := by
  have wellFormed := (isStep.split ▸ blockStyle.steps).at
  refine .alone (Step.word_checkout isPlain wellFormed.trailing isStep.checkout) plain fun borrows => ?_
  have dashed := ((borrows_iff_of_starts blockStyle isStep.split starts).mp borrows).1
  rw [named] at dashed
  cases dashed

theorem not_rejected_of_noErrors {display : String} {parts : List WorkflowPart}
    (noErrors : validateWorkflow display (.ok (workflowText parts)) = []) : ¬ RejectedElsewhere display parts := by
  obtain ⟨topLevel, blocks, references⟩ := validateWorkflow_eq_nil_iff.mp noErrors
  rintro (other | ⟨member, other⟩ | ⟨member, other, -⟩)
  · exact other topLevel
  · exact other (blocks _ member)
  · exact other (references _ member)

/-- Where no checkout step without its own line is seen, only something else is an error. -/
theorem noErrors_of_unseen {display : String} {parts : List WorkflowPart}
    (unseen : ∀ before step after, Lacking parts before step after → ¬ Seen parts before step after)
    (accepted : ¬ RejectedElsewhere display parts) :
    validateWorkflow display (.ok (workflowText parts)) = [] := by
  rw [validateWorkflow_eq_nil_iff]
  refine ⟨by_contra fun other => accepted (.topLevel other), fun block member =>
    by_contra fun other => accepted (.block member other), fun found member => ?_⟩
  by_contra rejected
  refine accepted (.reference member rejected fun plain before step after isLacking same => ?_)
  subst same
  exact unseen before step after isLacking ((rejected_iff_seen isLacking plain).mp rejected)

/-- **The errors are sound for the checkout steps exactly when**, as soon as one of them lacks its own line, one
that does is seen, or the workflow is rejected for something else. -/
theorem checkout_sound_iff {display : String} {parts : List WorkflowPart} (blockStyle : BlockStyle parts) :
    CheckoutSound display parts ↔
      (∀ before step after, Lacking parts before step after → ∃ before' step' after',
        Lacking parts before' step' after' ∧ Seen parts before' step' after') ∨
        RejectedElsewhere display parts := by
  constructor
  · intro sound
    by_contra neither
    rw [not_or] at neither
    refine neither.1 fun before step after isLacking => ?_
    by_contra unseen
    have noErrors : validateWorkflow display (.ok (workflowText parts)) = [] :=
      noErrors_of_unseen (fun before' step' after' isLacking' seen =>
        unseen ⟨before', step', after', isLacking', seen⟩) neither.2
    exact isLacking.lacks (sound noErrors step (by simp [isLacking.split]) isLacking.checkout)
  · rintro (noticed | rejected) noErrors step member checkout
    · by_contra lacks
      obtain ⟨before, after, split⟩ := List.append_of_mem member
      obtain ⟨_, _, _, isLacking, seen⟩ := noticed before step after ⟨⟨split, checkout⟩, lacks⟩
      exact errors_of_seen blockStyle isLacking seen noErrors
    · exact absurd rejected (not_rejected_of_noErrors noErrors)

/-- A `- uses:` step of `actions/checkout`. -/
def checkoutStep (body : List Row) : Step where
  indent := 6
  gap := 0
  named := none
  separation := [' ']
  action := .plain "actions/checkout@0123456789abcdef0123456789abcdef01234567".toList
  trailing := []
  body := body

/-- A workflow whose second checkout alone has the line. -/
def twoCheckouts : List WorkflowPart :=
  [.row "permissions:".toList, .row "  contents: read".toList, .row "jobs:".toList, .row "  build:".toList,
    .row "    steps:".toList, .step (checkoutStep []),
    .step (checkoutStep ["        with:".toList, "          persist-credentials: false".toList])]

theorem checkoutStep_wellFormed {body later : List Row}
    (deep : ∀ row ∈ body, isSkipped row = false → 6 < indentOf row)
    (ends : ∀ row ∈ firstContent later, indentOf row ≤ 6) : (checkoutStep body).WellFormed later where
  separates := (by decide : [' '] ≠ [] ∧ ∀ char ∈ [' '], isWhite char = true)
  action := {
    begins := by decide
    nonempty := by decide
    together := by decide
    ends := by decide
    oneRow := by decide }
  trailing := .nil
  deep := deep
  ends := ends

theorem twoCheckouts_blockStyle : BlockStyle twoCheckouts where
  oneRow := by decide
  steps := ⟨checkoutStep_wellFormed (by decide) (by decide), checkoutStep_wellFormed (by decide) (by decide), trivial⟩

theorem twoCheckouts_accepted : validateWorkflow "workflow.yml" (.ok (workflowText twoCheckouts)) = [] := by
  decide +kernel

theorem twoCheckouts_unsound : ¬ CheckoutSound "workflow.yml" twoCheckouts := by
  intro sound
  have member : WorkflowPart.step (checkoutStep []) ∈ twoCheckouts := by decide
  have checkout : (checkoutStep []).IsCheckout := by decide
  exact absurd (sound twoCheckouts_accepted _ member checkout) (by decide)

/-- **A checkout that keeps its credentials passes** when a later step of its job discards its own. -/
theorem checkout_discards_later : ¬ ∀ display parts, BlockStyle parts → CheckoutSound display parts := fun sound =>
  twoCheckouts_unsound (sound "workflow.yml" twoCheckouts twoCheckouts_blockStyle)

/-- A workflow whose second checkout alone has the line, and whose first one begins with its name. -/
def namedCheckouts : List WorkflowPart :=
  [.row "permissions:".toList, .row "  contents: read".toList, .row "jobs:".toList, .row "  build:".toList,
    .row "    steps:".toList, .step { checkoutStep [] with named := some ⟨" Checkout".toList, []⟩ },
    .step (checkoutStep ["        with:".toList, "          persist-credentials: false".toList])]

theorem namedCheckouts_blockStyle : BlockStyle namedCheckouts where
  oneRow := by decide
  steps := by
    have body : Step.WellFormed (checkoutStep ["        with:".toList, "          persist-credentials: false".toList])
        (workflowRows []) := checkoutStep_wellFormed (by decide) (by decide)
    have first : Step.WellFormed (checkoutStep []) [] := checkoutStep_wellFormed (by decide) (by decide)
    exact ⟨{ first with deep := by decide, ends := by decide }, body, trivial⟩

/-- No step without the line is seen where the first step begins with its `uses`, and the errors are sound where
it begins with its name. -/
theorem checkout_unnoticed :
    (∃ before step after, Lacking twoCheckouts before step after) ∧
      (∀ before step after, Lacking twoCheckouts before step after → ¬ Seen twoCheckouts before step after) ∧
      CheckoutSound "workflow.yml" namedCheckouts := by
  have noticed := mt (checkout_sound_iff twoCheckouts_blockStyle).mpr twoCheckouts_unsound
  rw [not_or] at noticed
  simp only [not_forall] at noticed
  obtain ⟨⟨before, step, after, isLacking, unseen⟩, -⟩ := noticed
  refine ⟨⟨before, step, after, isLacking⟩, fun before' step' after' isLacking' seen =>
    unseen ⟨before', step', after', isLacking', seen⟩, ?_⟩
  refine (checkout_sound_iff namedCheckouts_blockStyle).mpr (Or.inl fun before step after isLacking => ?_)
  refine ⟨before, step, after, isLacking, ?_⟩
  have first : step = { checkoutStep [] with named := some ⟨" Checkout".toList, []⟩ } := by
    have member : WorkflowPart.step step ∈ namedCheckouts := by simp [isLacking.split]
    simp only [namedCheckouts, List.mem_cons, List.not_mem_nil, or_false, reduceCtorEq, false_or,
      WorkflowPart.step.injEq] at member
    rcases member with named | second
    · exact named
    · have lacks := isLacking.lacks
      rw [second] at lacks
      exact absurd (by decide) lacks
  subst first
  have split : namedCheckouts = namedCheckouts.take 5 ++ .step { checkoutStep [] with
      named := some ⟨" Checkout".toList, []⟩ } :: namedCheckouts.drop 6 := by decide
  obtain ⟨rfl, -, -⟩ := (List.append_cons_inj_of_notMem (by decide) (by decide)).mp
    (split.symm.trans isLacking.split)
  exact seen_of_named namedCheckouts_blockStyle (by unfold PlainRows; decide) isLacking.toCheckoutAt rfl rfl
    (by decide)

end McpAuth
