import LineAsm.Proofs.Effect
/-!
# What emissions answer, write and fail for

An emission is judged by three properties (`Emission.Yields`): in whatever draft it starts, its
answer has the first one, each statement it has written when it answers has the second one, and the
cause has the third one when it fails. The judgement is kept when steps follow each other
(`Emission.Yields.bind`), so that the judgement of a line is put together from those of its steps.
-/

namespace LineAsm

/-- What comes of a question: an answer with one property, or a failure whose cause has another. -/
def Meets {α : Type} (answers : α → Prop) (causes : CompileError → Prop) :
    Except CompileError α → Prop
  | .ok value => answers value
  | .error cause => causes cause

section Meets

variable {α β : Type} {answers finals : α → Prop} {causes : CompileError → Prop}
  {result : Except CompileError α}

/-- A weaker property of the answer. -/
theorem Meets.mono (meets : Meets answers causes result)
    (implies : ∀ value, answers value → finals value) : Meets finals causes result := by
  cases result with
  | ok value => exact implies value meets
  | error cause => exact meets

/-- What follows a question may rely on its answer. -/
theorem Meets.bind {next : α → Except CompileError β} {ends : β → Prop}
    (head : Meets answers causes result)
    (tail : ∀ value, answers value → Meets ends causes (next value)) :
    Meets ends causes (result >>= next) := by
  cases result with
  | ok value => exact tail value head
  | error cause => exact head

end Meets

/-- A draft to which statements of one sort have been added. -/
def Draft.Extends (sort : Statement → Prop) (before after : Draft) : Prop :=
  ∃ added, after.listing.lines = before.listing.lines ++ added ∧
    ∀ line ∈ added, sort line.statement

namespace Draft.Extends

variable {sort : Statement → Prop} {first middle last : Draft}

/-- Where the lines are the same, nothing has been added. -/
theorem of_lines_eq (same : last.listing.lines = first.listing.lines) : first.Extends sort last :=
  ⟨[], by rw [same, List.append_nil], nofun⟩

/-- One statement of the sort has been added. -/
theorem add {statement : Statement} (sorted : sort statement) (state : State) :
    first.Extends sort ⟨state, first.listing.add statement⟩ :=
  ⟨[⟨first.listing.indent, statement⟩], rfl, fun _ member => by
    rw [List.mem_singleton.mp member]
    exact sorted⟩

/-- What has been added twice has been added. -/
theorem trans (one : first.Extends sort middle) (other : middle.Extends sort last) :
    first.Extends sort last := by
  obtain ⟨before, start, sorted⟩ := one
  obtain ⟨after, further, kept⟩ := other
  refine ⟨before ++ after, by rw [further, start, List.append_assoc], fun line member => ?_⟩
  obtain early | late := List.mem_append.mp member
  · exact sorted line early
  · exact kept line late

/-- What an effect has added to the lines of a draft is of the sort. -/
theorem of_after {scope : Scope} {written : List Statement}
    (same : middle.listing.lines = first.listing.lines)
    (extended : first.Extends sort (middle.after scope written)) :
    ∀ statement ∈ written, sort statement := by
  obtain ⟨added, whole, sorted⟩ := extended
  have lines : middle.listing.lines ++ written.map (Listing.Line.mk middle.listing.indent) =
      first.listing.lines ++ added := whole
  rw [same] at lines
  rw [← List.append_cancel_left lines] at sorted
  exact fun statement member => sorted _ (List.mem_map_of_mem member)

end Draft.Extends

namespace Emission

/-- In whatever draft an emission starts, it answers with one property and has added statements of
one sort, or fails for a cause with another property. -/
structure Yields {α : Type} (emission : Emission α) (answers : α → Prop)
    (sort : Statement → Prop) (causes : CompileError → Prop) : Prop where
  /-- What is promised of an answer holds of it, and only such statements have been added. -/
  of_ok : ∀ {draft after : Draft} {value : α}, emission draft = .ok value after →
    answers value ∧ draft.Extends sort after
  /-- What is promised of a cause holds of it. -/
  of_error : ∀ {draft after : Draft} {cause : CompileError}, emission draft = .error cause after →
    causes cause

section Yields

variable {α β : Type} {answers : α → Prop} {finals : β → Prop} {sort : Statement → Prop}
  {causes : CompileError → Prop}

/-- An answer given without a step. -/
theorem yields_pure {value : α} (promised : answers value) :
    (pure value : Emission α).Yields answers sort causes where
  of_ok passed := by
    cases passed
    exact ⟨promised, .of_lines_eq rfl⟩
  of_error failed := by cases failed

/-- A question about the state. -/
theorem yields_ask {question : State → Except CompileError α}
    (meets : ∀ state, Meets answers causes (question state)) :
    (ask question).Yields answers sort causes where
  of_ok {draft after value} passed := by
    obtain ⟨answered, rfl⟩ := ask_eq_ok_iff.mp passed
    have known := meets draft.state
    rw [answered] at known
    exact ⟨known, .of_lines_eq rfl⟩
  of_error {draft after cause} failed := by
    obtain ⟨answered, rfl⟩ := ask_eq_error_iff.mp failed
    have known := meets draft.state
    rw [answered] at known
    exact known

/-- A view of the state. -/
theorem yields_look (view : State → α) : (look view).Yields (fun _ => True) sort causes :=
  yields_ask fun _ => trivial

/-- A change of the state. -/
theorem yields_update (change : State → State) :
    (update change).Yields (fun _ => True) sort causes where
  of_ok passed := by
    cases passed
    exact ⟨trivial, .of_lines_eq rfl⟩
  of_error failed := by cases failed

/-- A statement of the sort. -/
theorem yields_write {statement : Statement} (sorted : sort statement) :
    (write statement).Yields (fun _ => True) sort causes where
  of_ok {draft after value} passed := by
    cases passed
    exact ⟨trivial, .add sorted draft.state⟩
  of_error failed := by cases failed

/-- A failure. -/
theorem yields_fail {cause : CompileError} (known : causes cause) :
    (fail cause : Emission α).Yields answers sort causes where
  of_ok passed := by cases passed
  of_error failed := by
    rw [(fail_eq_error_iff.mp failed).1]
    exact known

/-- Two steps in a row: the second may rely on what is promised of the first answer. -/
theorem Yields.bind {first : Emission α} {next : α → Emission β}
    (head : first.Yields answers sort causes)
    (tail : ∀ value, answers value → (next value).Yields finals sort causes) :
    (first >>= next).Yields finals sort causes where
  of_ok {draft after final} passed := by
    cases start : first draft with
    | error cause =>
      rw [bind_error start] at passed
      cases passed
    | ok value middle =>
      obtain ⟨promised, added⟩ := head.of_ok start
      rw [bind_ok start] at passed
      obtain ⟨ended, further⟩ := (tail value promised).of_ok passed
      exact ⟨ended, added.trans further⟩
  of_error {draft after cause} failed := by
    cases start : first draft with
    | error other =>
      rw [bind_error start] at failed
      cases failed
      exact head.of_error start
    | ok value middle =>
      rw [bind_ok start] at failed
      exact (tail value (head.of_ok start).1).of_error failed

/-- A weaker property of the causes. -/
theorem Yields.weaken {emission : Emission α} {others : CompileError → Prop}
    (yields : emission.Yields answers sort causes)
    (implies : ∀ cause, causes cause → others cause) : emission.Yields answers sort others where
  of_ok := yields.of_ok
  of_error failed := implies _ (yields.of_error failed)

/-- The effect of an emission that answers has statements of the sort only. -/
theorem Yields.sorted_of_effect {emission : Emission α}
    (yields : emission.Yields answers sort causes) {scope : Scope} {value : α}
    (answered : (emission.effect scope).answer = .ok value) :
    ∀ statement ∈ (emission.effect scope).written, sort statement := by
  unfold Emission.effect at answered ⊢
  cases passed : emission (.empty scope) with
  | error cause after =>
    rw [passed] at answered
    cases answered
  | ok given after =>
    obtain ⟨-, added, same, sorted⟩ := yields.of_ok passed
    have lines : after.listing.lines = added := same
    intro statement member
    obtain ⟨line, present, rfl⟩ := List.mem_map.mp member
    rw [lines] at present
    exact sorted line present

/-- A failure, whatever would follow it. -/
theorem yields_fail_bind {cause : CompileError} {next : α → Emission β} (known : causes cause) :
    (fail cause >>= next).Yields finals sort causes := by
  have fails : (fail cause : Emission α).Yields (fun _ => False) sort causes := yields_fail known
  exact fails.bind fun _ never => never.elim

/-- A rejection when a condition holds, and another step otherwise. -/
theorem yields_reject_or {condition : Bool} {cause : OperandError} {next : PUnit → Emission α}
    (known : condition = true → causes (.emission (.invalidOperands cause)))
    (rest : condition = false → (next ⟨⟩).Yields answers sort causes) :
    (if condition = true then reject cause >>= next else next ⟨⟩).Yields answers sort causes := by
  cases decided : condition with
  | false => exact rest decided
  | true => exact yields_fail_bind (known decided)

end Yields

end Emission

end LineAsm
