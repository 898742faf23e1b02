import LineAsm.Emission
import LineAsm.Proofs.Scope
import Mathlib.Tactic.Choose
/-!
# Effects of emissions

An emission has an effect when the scope it starts in decides what it answers, the scope it
leaves and the statements it adds (`Emission.HasEffect`); indentation, line number, options and
the lines that wait in the listing then neither matter nor change. An emission is plain when,
moreover, it depends on the namespace alone, leaves the scope as it is and writes statements of
a given sort (`Emission.Plain`). Both are kept when steps follow each other: every step has an
effect of its own, and the effect of two steps in a row is made of theirs (`HasEffect.bind`).
-/

namespace LineAsm

/-- Add statements at the end of a listing, under its indentation. -/
def Listing.addAll (listing : Listing) (statements : List Statement) : Listing :=
  { listing with lines := listing.lines ++ statements.map (Listing.Line.mk listing.indent) }

namespace Draft

/-- A draft of a scope, in which nothing is written. -/
def empty (scope : Scope) : Draft := ⟨(State.initial {}).within scope, {}⟩

/-- The empty draft of a scope has that scope. -/
@[simp] theorem scope_empty (scope : Scope) : (empty scope).state.scope = scope := rfl

/-- A draft after a change of its scope and some statements written. -/
def after (draft : Draft) (scope : Scope) (written : List Statement) : Draft :=
  ⟨draft.state.within scope, draft.listing.addAll written⟩

/-- The scope after a change is the one changed to. -/
@[simp] theorem scope_after (draft : Draft) (scope : Scope) (written : List Statement) :
    (draft.after scope written).state.scope = scope := rfl

/-- Without a change and without a statement a draft stays what it is. -/
@[simp] theorem after_scope_nil (draft : Draft) : draft.after draft.state.scope [] = draft := by
  simp [after, Listing.addAll]

/-- Of two changes in a row the last scope counts, and the statements follow each other. -/
@[simp] theorem after_after (draft : Draft) (first last : Scope) (before more : List Statement) :
    (draft.after first before).after last more = draft.after last (before ++ more) := by
  simp [after, Listing.addAll]

end Draft

/-- What an emission does to a scope. -/
structure Effect (α : Type) where
  /-- What it answers, or why it fails. -/
  answer : Except CompileError α
  /-- The scope it leaves, also when it fails. -/
  scope : Scope
  /-- The statements it writes, also when it fails. -/
  written : List Statement

namespace Effect

variable {α β : Type}

/-- The result that an effect has on a draft. -/
def onto (effect : Effect α) (draft : Draft) : EStateM.Result CompileError Draft α :=
  match effect.answer with
  | .ok value => .ok value (draft.after effect.scope effect.written)
  | .error cause => .error cause (draft.after effect.scope effect.written)

/-- An effect on a draft has an answer when the effect has. -/
theorem onto_eq_ok_iff {effect : Effect α} {draft after : Draft} {answer : α} :
    effect.onto draft = .ok answer after ↔
      effect.answer = .ok answer ∧ after = draft.after effect.scope effect.written := by
  unfold onto
  cases effect.answer <;> simp [eq_comm]

/-- An effect on a draft fails when the effect does. -/
theorem onto_eq_error_iff {effect : Effect α} {draft after : Draft} {cause : CompileError} :
    effect.onto draft = .error cause after ↔
      effect.answer = .error cause ∧ after = draft.after effect.scope effect.written := by
  unfold onto
  cases effect.answer <;> simp [eq_comm]

/-- One effect, and the next one when the first has an answer. -/
def bind (effect : Effect α) (next : α → Scope → Effect β) : Effect β :=
  match effect.answer with
  | .ok value =>
    let last := next value effect.scope
    ⟨last.answer, last.scope, effect.written ++ last.written⟩
  | .error cause => ⟨.error cause, effect.scope, effect.written⟩

/-- What follows an answer, or else the failure, with the scope and the statements before it. -/
def given (answer : Except CompileError α) (scope : Scope) (written : List Statement)
    (next : α → Effect β) : Effect β :=
  match answer with
  | .ok value => next value
  | .error cause => ⟨.error cause, scope, written⟩

section Given

variable {answer : Except CompileError α} {scope : Scope} {written : List Statement}
  {next : α → Effect β}

/-- What follows an answer is the effect where the answer is given. -/
theorem given_ok (found : α) : given (.ok found) scope written next = next found := rfl

/-- An effect that has an answer is what follows the answer it is given. -/
theorem exists_of_given {value : β}
    (passed : (given answer scope written next).answer = .ok value) :
    ∃ found, answer = .ok found ∧ given answer scope written next = next found := by
  cases answer with
  | ok found => exact ⟨found, rfl, rfl⟩
  | error cause => cases passed

/-- An effect that can only fail with what it is given leaves the scope of the failure. -/
theorem scope_of_given {value : β} {cause : CompileError}
    (succeeds : ∀ found, (next found).answer = .ok value)
    (failed : (given answer scope written next).answer = .error cause) :
    (given answer scope written next).scope = scope := by
  cases answer with
  | ok found =>
    have passed := succeeds found
    have same := failed.symm.trans passed
    cases same
  | error cause => rfl

end Given

end Effect

/-- A state of a scope. -/
def Scope.state (scope : Scope) : State := (State.initial {}).within scope

namespace Emission

variable {α β : Type}

/-- The first of two steps in a row has failed, and so have both. -/
theorem bind_error {first : Emission α} {next : α → Emission β} {draft after : Draft}
    {cause : CompileError} (failed : first draft = .error cause after) :
    (first >>= next) draft = .error cause after := by
  simp only [Bind.bind, EStateM.bind, failed]

/-- The first of two steps in a row has an answer, and the second goes on from there. -/
theorem bind_ok {first : Emission α} {next : α → Emission β} {draft middle : Draft} {value : α}
    (passed : first draft = .ok value middle) : (first >>= next) draft = next value middle := by
  simp only [Bind.bind, EStateM.bind, passed]

section Steps

variable {draft after : Draft} {cause : CompileError}

/-- A question answers what it answers of the state. -/
theorem ask_eq_ok_iff {question : State → Except CompileError α} {answer : α} :
    ask question draft = .ok answer after ↔ question draft.state = .ok answer ∧ draft = after := by
  unfold ask
  cases question draft.state <;> simp [eq_comm]

/-- A question fails when it fails of the state. -/
theorem ask_eq_error_iff {question : State → Except CompileError α} :
    ask question draft = .error cause after ↔
      question draft.state = .error cause ∧ draft = after := by
  unfold ask
  cases question draft.state <;> simp [eq_comm]

/-- A view answers what it shows of the state. -/
theorem look_eq_ok_iff {view : State → α} {answer : α} :
    look view draft = .ok answer after ↔ answer = view draft.state ∧ draft = after := by
  rw [look, ask_eq_ok_iff, Except.ok.injEq]
  exact and_congr_left fun _ => eq_comm

/-- A failure fails for its cause and leaves the draft. -/
theorem fail_eq_error_iff {reason : CompileError} :
    (fail reason : Emission α) draft = .error cause after ↔ cause = reason ∧ draft = after := by
  simp [fail, eq_comm]

end Steps

/-- What an emission does is decided by the scope of the draft. -/
def HasEffect (emission : Emission α) (effect : Scope → Effect α) : Prop :=
  ∀ draft, emission draft = (effect draft.state.scope).onto draft

/-- A question whose answer is decided by the scope. -/
def AboutScope (question : State → Except CompileError α) : Prop :=
  ∀ state other, state.scope = other.scope → question state = question other

/-- A question whose answer is decided by the declared namespace. -/
def AboutSpace (question : State → Except CompileError α) : Prop :=
  ∀ state other, state.declared = other.declared → question state = question other

/-- The namespace is part of the scope. -/
theorem AboutSpace.aboutScope {question : State → Except CompileError α}
    (about : AboutSpace question) : AboutScope question :=
  fun state other same => about state other (congrArg Scope.declared same)

/-- An emission that has some effect. -/
def Scoped (emission : Emission α) : Prop := ∃ effect, emission.HasEffect effect

/-- What an emission does to a scope, as it shows on an empty draft. -/
def effect (emission : Emission α) (scope : Scope) : Effect α :=
  match emission (.empty scope) with
  | .ok value after => ⟨.ok value, after.state.scope, after.listing.lines.map (·.statement)⟩
  | .error cause after => ⟨.error cause, after.state.scope, after.listing.lines.map (·.statement)⟩

/-- The effect that an emission has is the one that shows on an empty draft. -/
theorem HasEffect.effect_eq {emission : Emission α} {effect : Scope → Effect α}
    (has : emission.HasEffect effect) (scope : Scope) : emission.effect scope = effect scope := by
  unfold Emission.effect
  rw [has (.empty scope), Draft.scope_empty]
  obtain ⟨answer, last, written⟩ := effect scope
  cases answer <;>
    simp only [Effect.onto, State.scope_within, Draft.after, Draft.empty, Listing.addAll,
      List.nil_append, List.map_map, Function.comp_def, List.map_id']

/-- A scoped emission has the effect that shows on an empty draft. -/
theorem Scoped.hasEffect {emission : Emission α} (scoped_ : emission.Scoped) :
    emission.HasEffect emission.effect := by
  obtain ⟨effect, has⟩ := scoped_
  intro draft
  rw [has.effect_eq]
  exact has draft

/-- An answer given without a step. -/
theorem hasEffect_pure (value : α) :
    (pure value : Emission α).HasEffect fun scope => ⟨.ok value, scope, []⟩ := by
  intro draft
  simp only [Effect.onto, Draft.after_scope_nil]
  rfl

/-- A failure. -/
theorem hasEffect_fail (cause : CompileError) :
    (fail cause : Emission α).HasEffect fun scope => ⟨.error cause, scope, []⟩ := by
  intro draft
  simp only [Effect.onto, Draft.after_scope_nil]
  rfl

/-- A question about the scope is asked of any state with that scope. -/
theorem hasEffect_ask {question : State → Except CompileError α} (about : AboutScope question) :
    (ask question).HasEffect fun scope =>
      ⟨question scope.state, scope, []⟩ := by
  intro draft
  have same := about draft.state draft.state.scope.state rfl
  have kept := (Draft.after_scope_nil draft).symm
  cases found : question draft.state.scope.state with
  | ok answer =>
    have asked : ask question draft = .ok answer draft :=
      ask_eq_ok_iff.mpr ⟨same.trans found, rfl⟩
    exact asked.trans (Effect.onto_eq_ok_iff.mpr ⟨found, kept⟩).symm
  | error cause =>
    have failed : ask question draft = .error cause draft :=
      ask_eq_error_iff.mpr ⟨same.trans found, rfl⟩
    exact failed.trans (Effect.onto_eq_error_iff.mpr ⟨found, kept⟩).symm

/-- A view of the scope. -/
theorem hasEffect_look {view : State → α}
    (about : ∀ state other, state.scope = other.scope → view state = view other) :
    (look view).HasEffect fun scope => ⟨.ok (view scope.state), scope, []⟩ :=
  hasEffect_ask fun state other same => congrArg Except.ok (about state other same)

/-- A change of the scope. -/
theorem hasEffect_update {change : State → State} {effect : Scope → Scope}
    (changes : ∀ state, change state = state.within (effect state.scope)) :
    (update change).HasEffect fun scope => ⟨.ok (), effect scope, []⟩ := by
  intro draft
  simp [update, changes, Effect.onto, Draft.after, Listing.addAll]

/-- A statement written. -/
theorem hasEffect_write (statement : Statement) :
    (write statement).HasEffect fun scope => ⟨.ok (), scope, [statement]⟩ := by
  intro draft
  simp [write, Effect.onto, Draft.after, Listing.addAll, Listing.add]

/-- Two steps in a row. -/
theorem HasEffect.bind {first : Emission α} {next : α → Emission β} {effect : Scope → Effect α}
    {effects : α → Scope → Effect β} (head : first.HasEffect effect)
    (tail : ∀ value, (next value).HasEffect (effects value)) :
    (first >>= next).HasEffect fun scope => (effect scope).bind effects := by
  intro draft
  have start := head draft
  unfold Effect.onto at start
  cases answer : (effect draft.state.scope).answer with
  | error cause =>
    rw [answer] at start
    simp only [bind_error start, Effect.bind, Effect.onto, answer]
  | ok value =>
    rw [answer] at start
    rw [bind_ok start, tail value]
    simp only [Effect.bind, Effect.onto, answer, Draft.scope_after, Draft.after_after]

/-- An effect may be said in another way. -/
theorem HasEffect.congr {emission : Emission α} {effect other : Scope → Effect α}
    (has : emission.HasEffect effect) (same : ∀ scope, effect scope = other scope) :
    emission.HasEffect other := by
  intro draft
  rw [has draft, same]

/-- A failure keeps what would follow from happening. -/
theorem hasEffect_fail_bind (cause : CompileError) (next : α → Emission β) :
    (fail cause >>= next).HasEffect fun scope => ⟨.error cause, scope, []⟩ := by
  intro draft
  rw [bind_error (fail_eq_error_iff.mpr ⟨rfl, rfl⟩)]
  exact (Effect.onto_eq_error_iff.mpr ⟨rfl, (Draft.after_scope_nil draft).symm⟩).symm

/-- What is seen of the scope decides what follows. -/
theorem hasEffect_look_bind {view : State → α} {next : α → Emission β} {effect : Scope → Effect β}
    (tail : ∀ draft : Draft,
      next (view draft.state) draft = (effect draft.state.scope).onto draft) :
    (look view >>= next).HasEffect effect := by
  intro draft
  have seen : look view draft = .ok (view draft.state) draft := look_eq_ok_iff.mpr ⟨rfl, rfl⟩
  rw [bind_ok seen]
  exact tail draft

/-- A failure is scoped. -/
theorem scoped_fail (cause : CompileError) : (fail cause : Emission α).Scoped :=
  ⟨_, hasEffect_fail cause⟩

/-- An emission that changes no scope, and writes statements of one sort. -/
def Still (sort : Statement → Prop) (emission : Emission α) : Prop :=
  ∀ scope, (emission.effect scope).scope = scope ∧
    ∀ statement ∈ (emission.effect scope).written, sort statement

/-- An emission that depends on the namespace only, changes no scope, and writes statements of
one sort. -/
def Plain (sort : Statement → Prop) (emission : Emission α) : Prop :=
  ∃ (answer : Option String → Except CompileError α) (written : Option String → List Statement),
    (emission.HasEffect fun scope => ⟨answer scope.declared, scope, written scope.declared⟩) ∧
      ∀ declared, ∀ statement ∈ written declared, sort statement

section Plain

variable {sort : Statement → Prop}

/-- A plain emission is scoped. -/
theorem Plain.scoped {emission : Emission α} (plain : emission.Plain sort) : emission.Scoped := by
  obtain ⟨answer, written, effect, _⟩ := plain
  exact ⟨_, effect⟩

/-- A plain emission is still. -/
theorem Plain.still {emission : Emission α} (plain : emission.Plain sort) :
    emission.Still sort := by
  obtain ⟨answer, written, effect, sorted⟩ := plain
  intro scope
  rw [effect.effect_eq]
  exact ⟨rfl, sorted scope.declared⟩

/-- A plain emission writes the same in every scope of a namespace. -/
theorem Plain.written_congr {emission : Emission α} (plain : emission.Plain sort)
    {scope other : Scope} (same : scope.declared = other.declared) :
    (emission.effect scope).written = (emission.effect other).written := by
  obtain ⟨answer, written, effect, sorted⟩ := plain
  rw [effect.effect_eq, effect.effect_eq, same]

/-- What is written of one sort is of every wider sort. -/
theorem Plain.mono {wider : Statement → Prop} {emission : Emission α} (plain : emission.Plain sort)
    (wide : ∀ statement, sort statement → wider statement) : emission.Plain wider := by
  obtain ⟨answer, written, effect, sorted⟩ := plain
  exact ⟨answer, written, effect, fun declared statement member =>
    wide statement (sorted declared statement member)⟩

/-- An answer given without a step is plain. -/
theorem plain_pure (value : α) : (pure value : Emission α).Plain sort :=
  ⟨fun _ => .ok value, fun _ => [], hasEffect_pure value, by simp⟩

/-- A failure is plain. -/
theorem plain_fail (cause : CompileError) : (fail cause : Emission α).Plain sort :=
  ⟨fun _ => .error cause, fun _ => [], hasEffect_fail cause, by simp⟩

/-- A question about the namespace is plain. -/
theorem plain_ask {question : State → Except CompileError α} (about : AboutSpace question) :
    (ask question).Plain sort := by
  refine ⟨fun declared => question { State.initial {} with declared }, fun _ => [], ?_, by simp⟩
  intro draft
  rw [hasEffect_ask about.aboutScope draft]
  have same := about draft.state.scope.state
    { State.initial {} with declared := draft.state.declared } rfl
  simp only [Effect.onto, same]
  rfl

/-- A statement of the sort is a plain step. -/
theorem plain_write {statement : Statement} (sorted : sort statement) :
    (write statement).Plain sort :=
  ⟨fun _ => .ok (), fun _ => [statement], hasEffect_write statement, by simpa using sorted⟩

/-- Two plain steps in a row are plain. -/
theorem Plain.bind {first : Emission α} {next : α → Emission β} (head : first.Plain sort)
    (tail : ∀ value, (next value).Plain sort) : (first >>= next).Plain sort := by
  obtain ⟨answer, written, start, sorted⟩ := head
  choose answers more rest kept using tail
  refine ⟨fun declared => (answer declared).bind fun value => answers value declared,
    fun declared => written declared ++
      match answer declared with
      | .ok value => more value declared
      | .error _ => [], ?_, ?_⟩
  · intro draft
    rw [(start.bind rest) draft]
    cases outcome : answer draft.state.scope.declared with
    | ok value => simp only [Effect.bind, Except.bind, outcome]
    | error cause => simp only [Effect.bind, Except.bind, outcome, List.append_nil]
  · intro declared statement member
    rcases List.mem_append.mp member with old | new
    · exact sorted declared statement old
    · cases outcome : answer declared with
      | ok value =>
        rw [outcome] at new
        exact kept value declared statement new
      | error cause =>
        rw [outcome] at new
        cases new

end Plain

end Emission

end LineAsm
