import LineAsm.State
/-!
# Scopes

Of the state, the code of a line sees its scope only: the namespace, the function, the label, the
open blocks and the options. This module says what a scope has to offer to a line: the namespace
in force, the open function with its namespace, and the symbols of labels. A scope is sound when a
function is open only under a namespace, a block only in a function, and the numbers of the open
blocks grow from the outermost to the innermost, up to the counter at most (`Scope.Sound`).
-/

namespace LineAsm

/-- The part of the state that the code of a line depends on. -/
structure Scope where
  /-- The namespace declared last. -/
  declared : Option String
  /-- The open function. -/
  function : Option String
  /-- The latest label of the open function. -/
  label : Option String
  /-- The open blocks. -/
  blocks : OpenBlocks
  /-- What the output holds besides the code; no line changes it. -/
  options : Options
deriving DecidableEq, Repr

namespace State

/-- The scope of a state. -/
def scope (state : State) : Scope :=
  ⟨state.declared, state.function, state.label, state.blocks, state.options⟩

/-- A state with another scope. -/
def within (state : State) (scope : Scope) : State :=
  { state with
    declared := scope.declared, function := scope.function, label := scope.label,
    blocks := scope.blocks, options := scope.options }

/-- The scope put into a state is the scope of the result. -/
@[simp] theorem scope_within (state : State) (scope : Scope) : (state.within scope).scope = scope :=
  rfl

/-- A state with its own scope is that state. -/
@[simp] theorem within_scope (state : State) : state.within state.scope = state := rfl

/-- The scope put in last is the one that counts. -/
@[simp] theorem within_within (state : State) (first last : Scope) :
    (state.within first).within last = state.within last := rfl

end State

namespace Scope

/-- The scope before the first line. -/
def initial (options : Options) : Scope := ⟨none, none, none, .empty, options⟩

/-- The namespace in force, if one is. -/
def space? (scope : Scope) : Option String := scope.declared.filter fun name => !name.isEmpty

/-- The open function with the namespace that qualifies it, if there are both. -/
def frame? (scope : Scope) : Option Frame :=
  match scope.space?, scope.function with
  | some space, some function => some ⟨space, function⟩
  | _, _ => none

/-- The symbol of a label: one of the open function, or else of the namespace. -/
def labelSymbol? (scope : Scope) (name : String) : Option Symbol :=
  match scope.space?, scope.function with
  | some space, some function => some (.inner ⟨space, function⟩ name)
  | some space, none => some (.member space name)
  | none, _ => none

/-- What is true of the scope before every line. -/
structure Sound (scope : Scope) : Prop where
  /-- A function is open only where a namespace is in force. -/
  space_of_function : scope.function.isSome → scope.space?.isSome
  /-- A block is open only in a function. -/
  function_of_block : scope.blocks.blocks ≠ [] → scope.function.isSome
  /-- An inner block has a greater number than an outer one. -/
  ids_ordered : scope.blocks.blocks.Pairwise fun inner outer => outer.id < inner.id
  /-- The numbers of blocks begin with one. -/
  ids_positive : ∀ block ∈ scope.blocks.blocks, 1 ≤ block.id
  /-- The numbers of blocks have been counted. -/
  ids_counted : ∀ block ∈ scope.blocks.blocks, block.id ≤ scope.blocks.counter

/-- The scope before the first line is sound. -/
theorem sound_initial (options : Options) : (initial options).Sound :=
  ⟨nofun, fun open_ => absurd rfl open_, .nil, nofun, nofun⟩

end Scope

section Questions

variable {state : State}

/-- The namespace in force is the one of the scope. -/
theorem State.space_eq_ok_iff {name : String} :
    state.space = .ok name ↔ state.scope.space? = some name := by
  simp only [State.space, Scope.space?, State.scope]
  cases state.declared with
  | none => simp
  | some other => cases empty : other.isEmpty <;> simp [empty, Option.filter]

/-- There is no namespace in force exactly when the scope has none. -/
theorem State.space_eq_error_iff :
    state.space = .error .namespaceUnavailable ↔ state.scope.space? = none := by
  simp only [State.space, Scope.space?, State.scope]
  cases state.declared with
  | none => simp
  | some other => cases empty : other.isEmpty <;> simp [empty, Option.filter]

/-- A symbol is qualified by the namespace of the scope. -/
theorem State.qualifier_eq_ok_iff {name : String} :
    state.qualifier = .ok name ↔ state.scope.space? = some name := by
  rw [← State.space_eq_ok_iff, State.qualifier]
  cases state.space with
  | ok found =>
    have kept : (Except.ok found : Except ConfigError String).mapError CompileError.config =
        .ok found := rfl
    rw [kept, Except.ok.injEq, Except.ok.injEq]
  | error reason => exact ⟨nofun, nofun⟩

/-- A symbol cannot be qualified exactly when the scope has no namespace. -/
theorem State.qualifier_eq_error_iff {cause : CompileError} :
    state.qualifier = .error cause ↔
      cause = .config .namespaceUnavailable ∧ state.scope.space? = none := by
  rw [← State.space_eq_error_iff, State.qualifier]
  cases state.space with
  | ok name => exact ⟨nofun, nofun⟩
  | error reason =>
    cases reason
    constructor
    · intro failed
      cases failed
      exact ⟨rfl, rfl⟩
    · rintro ⟨rfl, _⟩
      rfl

/-- A construct finds the open function of the scope. -/
theorem State.frame_eq_ok_iff {construct : String} {frame : Frame} :
    state.frame construct = .ok frame ↔ state.scope.frame? = some frame := by
  have function : state.scope.function = state.function := rfl
  unfold State.frame Scope.frame?
  rw [function]
  cases state.function with
  | none => cases state.scope.space? <;> simp
  | some name =>
    cases space : state.qualifier with
    | ok found =>
      rw [State.qualifier_eq_ok_iff.mp space]
      simp [bind, Except.bind, pure, Except.pure]
    | error cause =>
      rw [(State.qualifier_eq_error_iff.mp space).2]
      simp [bind, Except.bind]

/-- The symbol of a label is the one of the scope. -/
theorem State.labelSymbol_eq_ok_iff {name : String} {symbol : Symbol} :
    state.labelSymbol name = .ok symbol ↔ state.scope.labelSymbol? name = some symbol := by
  have function : state.scope.function = state.function := rfl
  unfold State.labelSymbol Scope.labelSymbol?
  rw [function]
  cases space : state.qualifier with
  | ok found =>
    rw [State.qualifier_eq_ok_iff.mp space]
    cases state.function <;> simp [bind, Except.bind, pure, Except.pure]
  | error cause =>
    rw [(State.qualifier_eq_error_iff.mp space).2]
    simp [bind, Except.bind]

end Questions

namespace Scope

variable {scope : Scope} {frame : Frame}

/-- There is a frame exactly when its namespace is in force and its function is open. -/
theorem frame?_eq_some_iff :
    scope.frame? = some frame ↔
      scope.space? = some frame.space ∧ scope.function = some frame.function := by
  obtain ⟨space, function⟩ := frame
  unfold frame?
  cases scope.space? <;> cases scope.function <;> simp

/-- The namespace of a function is the declared one. -/
theorem declared_of_frame (framed : scope.frame? = some frame) :
    scope.declared = some frame.space :=
  (Option.filter_eq_some_iff.mp (frame?_eq_some_iff.mp framed).1).1

/-- In a function a label is one of the function. -/
theorem labelSymbol?_of_frame (framed : scope.frame? = some frame) (name : String) :
    scope.labelSymbol? name = some (.inner frame name) := by
  obtain ⟨space, function⟩ := frame?_eq_some_iff.mp framed
  simp only [labelSymbol?, space, function]

/-- Where no function is open, a sound scope has no open block. -/
theorem Sound.bare (sound : scope.Sound) (closed : scope.function = none) :
    scope.blocks.blocks = [] := by
  cases stack : scope.blocks.blocks with
  | nil => rfl
  | cons block outer =>
    have inside := sound.function_of_block (by simp [stack])
    rw [closed] at inside
    cases inside

/-- Where a function is open, a sound scope has its frame. -/
theorem Sound.framed (sound : scope.Sound) (opened : scope.function.isSome) :
    ∃ frame, scope.frame? = some frame := by
  obtain ⟨function, named⟩ := Option.isSome_iff_exists.mp opened
  obtain ⟨space, found⟩ := Option.isSome_iff_exists.mp (sound.space_of_function opened)
  exact ⟨⟨space, function⟩, frame?_eq_some_iff.mpr ⟨found, named⟩⟩

end Scope

end LineAsm
