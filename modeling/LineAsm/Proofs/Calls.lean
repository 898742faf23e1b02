import LineAsm.Proofs.Reading
/-!
# Calls of a compiler

A compiler with the standard table is used by calls, each of which compiles a source into a sink
(`Compiler.Reachable`). Before every line of every call the scope is sound and the listing empty
(`Compiler.Ready`): each construct keeps the scope sound when it is written (`Flow.Writes.sound`)
and when it fails, so each line does, whatever the sink takes of it, and so each call does. The
main result is `Compiler.reachable_invariant`.
-/

namespace LineAsm

namespace Scope

variable {scope : Scope} {frame : Frame}

/-- Where there is a frame, a function is open. -/
theorem function_of_frame (framed : scope.frame? = some frame) : scope.function.isSome := by
  rw [(frame?_eq_some_iff.mp framed).2]
  rfl

/-- The namespace in force depends on the declared one only. -/
theorem space?_congr {other : Scope} (same : scope.declared = other.declared) :
    scope.space? = other.space? := by
  simp only [space?, same]

/-- In a function a block can begin; its number is greater than every number before. -/
theorem Sound.start (sound : scope.Sound) (framed : scope.frame? = some frame) (kind : Block.Kind)
    (label : Option String) :
    Sound { scope with label := label, blocks := scope.blocks.start kind } where
  space_of_function := sound.space_of_function
  function_of_block := fun _ => function_of_frame framed
  ids_ordered := by
    refine List.Pairwise.cons ?_ sound.ids_ordered
    intro outer member
    exact Nat.lt_succ_of_le (sound.ids_counted outer member)
  ids_positive := by
    intro block member
    rcases List.mem_cons.mp member with rfl | old
    · exact Nat.succ_pos _
    · exact sound.ids_positive block old
  ids_counted := by
    intro block member
    rcases List.mem_cons.mp member with rfl | old
    · exact Nat.le_refl _
    · exact Nat.le_succ_of_le (sound.ids_counted block old)

/-- The innermost block can end. -/
theorem Sound.finish (sound : scope.Sound) {block : Block} {outer : List Block}
    (innermost : scope.blocks.blocks = block :: outer) :
    Sound { scope with blocks := { scope.blocks with blocks := outer } } where
  space_of_function := sound.space_of_function
  function_of_block := fun _ => sound.function_of_block (by simp [innermost])
  ids_ordered := by
    have ordered := sound.ids_ordered
    rw [innermost] at ordered
    exact ordered.of_cons
  ids_positive := fun inner member =>
    sound.ids_positive inner (by rw [innermost]; exact List.mem_cons_of_mem block member)
  ids_counted := fun inner member =>
    sound.ids_counted inner (by rw [innermost]; exact List.mem_cons_of_mem block member)

/-- A namespace with a name can be declared anywhere. -/
theorem Sound.declare (sound : scope.Sound) {name : String} (named : name ≠ "") :
    Sound { scope with declared := some name } where
  space_of_function := fun _ => by simp [space?, Option.filter, named]
  function_of_block := sound.function_of_block
  ids_ordered := sound.ids_ordered
  ids_positive := sound.ids_positive
  ids_counted := sound.ids_counted

end Scope

namespace Flow

variable {construct : Construct} {scope last : Scope} {written : List Statement}

/-- A construct that is written keeps the scope sound. -/
theorem Writes.sound (rule : Writes construct scope last written) (sound : scope.Sound) :
    last.Sound := by
  cases rule with
  | function closed found =>
    refine ⟨fun _ => ?_, fun opened => absurd rfl opened, .nil, nofun, nofun⟩
    exact Option.isSome_iff_exists.mpr ⟨_, found⟩
  | finishBlock innermost framed => exact sound.finish innermost
  | finishFunction bare framed =>
    exact ⟨nofun, fun opened => absurd bare opened, sound.ids_ordered, sound.ids_positive,
      sound.ids_counted⟩
  | group framed => exact sound.start framed .plain scope.label
  | conditional framed compared => exact sound.start framed .conditional scope.label
  | looping framed compared => exact sound.start framed .looping scope.label
  | counted framed => exact sound.start framed .counted scope.label
  | labelled framed => exact sound.start framed .labelled _
  | label named =>
    exact ⟨sound.space_of_function, sound.function_of_block, sound.ids_ordered,
      sound.ids_positive, sound.ids_counted⟩
  | exit | leave | jump | call | declare => exact sound

/-- A construct that is written leaves the declared namespace and the options. -/
theorem Writes.kept (rule : Writes construct scope last written) :
    last.declared = scope.declared ∧ last.options = scope.options := by
  cases rule <;> exact ⟨rfl, rfl⟩

/-- A construct that fails keeps the scope sound. -/
theorem sound_scopeOnFailure (construct : Construct) (sound : scope.Sound) :
    (scopeOnFailure construct scope).Sound := by
  cases construct with
  | looping left condition right =>
    dsimp only [scopeOnFailure]
    split
    · rename_i opened
      obtain ⟨frame, framed⟩ := sound.framed opened
      exact sound.start framed .looping scope.label
    · exact sound
  | _ => exact sound

/-- A construct that fails leaves the declared namespace. -/
theorem declared_scopeOnFailure (construct : Construct) :
    (scopeOnFailure construct scope).declared = scope.declared := by
  cases construct with
  | looping left condition right =>
    dsimp only [scopeOnFailure]
    split <;> rfl
  | _ => rfl

end Flow

namespace Reading

variable {scope : Scope}

/-- What a line does to the scope: it follows the rule of a construct, fails at one, declares a
namespace or leaves everything. -/
theorem effect_cases (text : String) (sound : scope.Sound) :
    (∃ construct last written, (of text).construct? = some construct ∧
      Flow.Writes construct scope last written ∧ ((of text).effect text scope).scope = last) ∨
    (∃ construct cause, (of text).construct? = some construct ∧
      ((of text).effect text scope).answer = .error cause ∧
      ((of text).effect text scope).scope = Flow.scopeOnFailure construct scope) ∨
    (∃ name, name ≠ "" ∧
      ((of text).effect text scope).scope = { scope with declared := some name }) ∨
    ((of text).construct? = none ∧ ((of text).effect text scope).scope = scope) := by
  cases said : (of text).construct? with
  | some construct =>
    obtain ⟨tokens, read, say⟩ := owned_of_construct? said
    cases answer : ((of text).effect text scope).answer with
    | ok progress =>
      rw [read] at answer ⊢
      obtain ⟨-, last, code, rule, whole⟩ := effect_of_construct say answer
      exact .inl ⟨construct, last, code, rfl, rule, by rw [whole]⟩
    | error cause =>
      have left := scope_of_error sound answer
      rw [scopeOnFailure, said] at left
      exact .inr (.inl ⟨construct, cause, rfl, rfl, left⟩)
  | none =>
    cases declared : (of text).declares? with
    | some name =>
      have named := declares?_ne_empty declared
      exact .inr (.inr (.inl ⟨name, named, (effect_of_declares declared).2.1⟩))
    | none => exact .inr (.inr (.inr ⟨rfl, (effect_of_still said declared).1⟩))

/-- A line keeps the scope sound, whether it succeeds or fails. -/
theorem sound_effect (text : String) (sound : scope.Sound) :
    ((of text).effect text scope).scope.Sound := by
  rcases effect_cases text sound with ⟨_, _, _, _, rule, left⟩ | ⟨construct, _, _, _, left⟩ |
    ⟨name, named, left⟩ | ⟨_, left⟩
  · rw [left]
    exact rule.sound sound
  · rw [left]
    exact Flow.sound_scopeOnFailure construct sound
  · rw [left]
    exact sound.declare named
  · rw [left]
    exact sound

/-- Where a namespace is in force, one is in force after the line. -/
theorem space?_effect (text : String) (sound : scope.Sound) (found : scope.space?.isSome) :
    ((of text).effect text scope).scope.space?.isSome := by
  rcases effect_cases text sound with ⟨_, _, _, _, rule, left⟩ | ⟨construct, _, _, _, left⟩ |
    ⟨name, named, left⟩ | ⟨_, left⟩
  · rwa [left, Scope.space?_congr rule.kept.1]
  · rwa [left, Scope.space?_congr (Flow.declared_scopeOnFailure construct)]
  · rw [left]
    simp [Scope.space?, Option.filter, named]
  · rwa [left]

end Reading

/-- A list takes every line. -/
theorem Sink.writeAll_list (taken lines : List Listing.Line) :
    Sink.writeAll taken lines = (none, taken ++ lines) := by
  induction lines generalizing taken with
  | nil => simp [Sink.writeAll]
  | cons line rest ih =>
    have written : Sink.write taken line = (none, taken ++ [line]) := rfl
    simp only [Sink.writeAll, written, ih, List.append_assoc, List.singleton_append]

namespace Compiler

/-- The text of a line as it is compiled. -/
def textOf (raw : String) : String := String.ofList (Source.dropReturn '\r' raw.toList)

/-- A compiler whose line number is set back, as it is when a call begins. -/
def restart (compiler : Compiler Family) : Compiler Family :=
  { compiler with state := { compiler.state with line := 1 } }

/-- What holds of a compiler before every line. -/
structure Ready (compiler : Compiler Family) : Prop where
  /-- Lines are dispatched by the standard table. -/
  standard : compiler.table = Family.standard
  /-- The scope is sound. -/
  sound : compiler.state.scope.Sound
  /-- No line waits in the listing. -/
  taken : compiler.listing.lines = []
  /-- The listing is indented as the state says. -/
  aligned : compiler.listing.indent = compiler.state.indent

/-- The compiler that a line leaves, but for the line number: with the indentation of the line,
another scope and an empty listing. -/
def left (compiler : Compiler Family) (text : String) (scope : Scope) : Compiler Family :=
  { compiler with
    state := (compiler.toDraft.indentedBy text).state.within scope
    listing := (compiler.toDraft.indentedBy text).listing.discard }

/-- The scope of the compiler that a line leaves. -/
@[simp] theorem scope_left (compiler : Compiler Family) (text : String) (scope : Scope) :
    (compiler.left text scope).state.scope = scope := rfl

/-- A line does not change its number. -/
theorem line_left (compiler : Compiler Family) (text : String) (scope : Scope) :
    (compiler.left text scope).state.line = compiler.state.line :=
  compiler.toDraft.line_indentedBy text

/-- The line number does not belong to the scope. -/
@[simp] theorem scope_advance (compiler : Compiler Family) :
    compiler.advance.state.scope = compiler.state.scope := rfl

section Steps

variable {σ : Type} [Sink σ] {compiler : Compiler Family} {sink : σ}

/-- One line of a call: the effect of the line, and its lines handed to the sink. -/
theorem step_eq (ready : compiler.Ready) (sink : σ) (raw : String) :
    compiler.step sink (.ok raw) =
      let text := textOf raw
      let effect := (Reading.of text).effect text compiler.state.scope
      let indent := (compiler.toDraft.indentedBy text).listing.indent
      match effect.answer with
      | .error cause =>
        (.error ⟨cause, compiler.state.line, some text⟩, compiler.left text effect.scope, sink)
      | .ok progress =>
        match Sink.writeAll sink (effect.written.map (Listing.Line.mk indent)) with
        | (none, sink) => (.ok progress, (compiler.left text effect.scope).advance, sink)
        | (some words, sink) =>
          (.error ⟨.io words, compiler.state.line, some text⟩, compiler.left text effect.scope,
            sink) := by
  obtain ⟨draft, table⟩ := compiler
  obtain rfl : table = Family.standard := ready.standard
  unfold step
  dsimp only
  rw [← textOf]
  generalize textOf raw = text
  have number : ∀ scope written, ((draft.indentedBy text).after scope written).state.line =
      draft.state.line := fun _ _ => draft.line_indentedBy text
  have lines : ∀ scope written, ((draft.indentedBy text).after scope written).listing.lines =
      written.map (Listing.Line.mk (draft.indentedBy text).listing.indent) := by
    intro scope written
    have taken := (draft.lines_indentedBy text).trans ready.taken
    simp only [Draft.after, Listing.addAll, taken, List.nil_append]
  rw [Reading.line_eq text draft]
  obtain ⟨answer, scope, written⟩ := (Reading.of text).effect text draft.state.scope
  cases answer with
  | error cause =>
    dsimp only [Effect.onto]
    rw [number scope written]
    rfl
  | ok progress =>
    dsimp only [Effect.onto]
    rw [lines scope written]
    cases Sink.writeAll sink _ with
    | mk refused rest =>
      cases refused with
      | none => rfl
      | some words =>
        rw [number scope written]
        rfl

/-- A line that cannot be read changes nothing. -/
theorem step_error (ready : compiler.Ready) (sink : σ) (words : String) :
    compiler.step sink (.error words) =
      (.error ⟨.io words, compiler.state.line, none⟩, compiler, sink) := by
  have kept : compiler.listing.discard = compiler.listing := by
    rw [Listing.discard, ← ready.taken]
  unfold step
  rw [kept]

/-- A line leaves what its effect says, and is counted if the sink has taken it. -/
theorem compiler_step (ready : compiler.Ready) (sink : σ) (raw : String) :
    let scope := ((Reading.of (textOf raw)).effect (textOf raw) compiler.state.scope).scope
    (compiler.step sink (.ok raw)).2.1 = compiler.left (textOf raw) scope ∨
      (compiler.step sink (.ok raw)).2.1 = (compiler.left (textOf raw) scope).advance := by
  rw [step_eq ready]
  dsimp only
  split
  · exact .inl rfl
  · split
    · exact .inr rfl
    · exact .inl rfl

/-- A line leaves the scope that its effect says, whatever the sink takes of it. -/
theorem scope_step (ready : compiler.Ready) (sink : σ) (raw : String) :
    (compiler.step sink (.ok raw)).2.1.state.scope =
      ((Reading.of (textOf raw)).effect (textOf raw) compiler.state.scope).scope := by
  rcases compiler_step ready sink raw with left | left
  · rw [left, scope_left]
  · rw [left, scope_advance, scope_left]

/-- A compiler is ready again after a line that leaves a sound scope. -/
theorem Ready.left (ready : compiler.Ready) (text : String) {scope : Scope} (sound : scope.Sound) :
    (compiler.left text scope).Ready where
  standard := ready.standard
  sound := sound
  taken := rfl
  aligned := Draft.indent_indentedBy ready.aligned text

/-- The line number does not matter for being ready. -/
theorem Ready.advance (ready : compiler.Ready) : compiler.advance.Ready :=
  ⟨ready.standard, ready.sound, ready.taken, ready.aligned⟩

/-- The line number does not matter for being ready, nor does the beginning of a call. -/
theorem Ready.restart (ready : compiler.Ready) : compiler.restart.Ready :=
  ⟨ready.standard, ready.sound, ready.taken, ready.aligned⟩

/-- A compiler is ready again after every line. -/
theorem Ready.step (ready : compiler.Ready) (sink : σ) (read : Read) :
    (compiler.step sink read).2.1.Ready := by
  cases read with
  | error words =>
    rw [step_error ready]
    exact ready
  | ok raw =>
    have after := ready.left (textOf raw) (Reading.sound_effect (textOf raw) ready.sound)
    rcases compiler_step ready sink raw with left | left
    · rw [left]
      exact after
    · rw [left]
      exact after.advance

/-- A namespace in force is followed by one in force after every line. -/
theorem space?_step (ready : compiler.Ready) (sink : σ) (read : Read)
    (found : compiler.state.scope.space?.isSome) :
    (compiler.step sink read).2.1.state.scope.space?.isSome := by
  cases read with
  | error words =>
    rw [step_error ready]
    exact found
  | ok raw =>
    rw [scope_step ready]
    exact Reading.space?_effect (textOf raw) ready.sound found

/-- What every line keeps is kept by every source. -/
theorem run_induction {holds : Compiler Family → Prop}
    (kept : ∀ (compiler : Compiler Family) (sink : σ) (read : Read), holds compiler →
      holds (compiler.step sink read).2.1)
    (source : List Read) (sink : σ) (start : holds compiler) :
    holds (compiler.run sink source).compiler := by
  induction source generalizing compiler sink with
  | nil => exact start
  | cons read rest ih =>
    have next := kept compiler sink read start
    unfold run
    split
    all_goals rename_i stepped; rw [stepped] at next
    · exact ih _ next
    · exact next
    · exact next

/-- A compiler is ready again after every source. -/
theorem Ready.run (ready : compiler.Ready) (sink : σ) (source : List Read) :
    (compiler.run sink source).compiler.Ready :=
  run_induction (fun _ sink read ready => ready.step sink read) source sink ready

/-- A compiler is ready again after every call. -/
theorem Ready.compile (ready : compiler.Ready) (sink : σ) (source : List Read) :
    (compiler.compile sink source).compiler.Ready := ready.restart.run sink source

/-- A compiler reads lines one after the other, and each succeeds and lets the next one follow. -/
inductive Passes : Compiler Family → σ → List Read → Compiler Family → σ → Prop where
  /-- No line is read. -/
  | nil {compiler : Compiler Family} {sink : σ} : Passes compiler sink [] compiler sink
  /-- One more line is read first. -/
  | cons {compiler middle last : Compiler Family} {sink between taken : σ} {read : Read}
      {reads : List Read} (first : compiler.step sink read = (.ok .next, middle, between))
      (rest : Passes middle between reads last taken) :
      Passes compiler sink (read :: reads) last taken

/-- A source is compiled on from where its first lines have led. -/
theorem Passes.run_append {here : Compiler Family} {taken : σ} {before : List Read}
    (passed : Passes compiler sink before here taken) (after : List Read) :
    compiler.run sink (before ++ after) = here.run taken after := by
  induction passed with
  | nil => rfl
  | cons first rest ih =>
    rw [List.cons_append, run, first]
    exact ih

/-- A source that is passed to its end succeeds. -/
theorem Passes.run_eq {here : Compiler Family} {taken : σ} {before : List Read}
    (passed : Passes compiler sink before here taken) :
    compiler.run sink before = ⟨none, here, taken⟩ := by
  have whole := passed.run_append []
  rwa [List.append_nil] at whole

/-- Lines that pass are followed by one more line that passes. -/
theorem Passes.snoc {here next : Compiler Family} {taken more : σ} {before : List Read}
    {read : Read} (passed : Passes compiler sink before here taken)
    (stepped : here.step taken read = (.ok .next, next, more)) :
    Passes compiler sink (before ++ [read]) next more := by
  induction passed with
  | nil => exact .cons stepped .nil
  | cons first rest ih => exact .cons first (ih stepped)

/-- A line that fails ends the call, and the call leaves what the line leaves. -/
theorem run_of_error {read : Read} {failure : LocatedError}
    (failed : (compiler.step sink read).1 = .error failure) (after : List Read) :
    compiler.run sink (read :: after) =
      ⟨some failure, (compiler.step sink read).2.1, (compiler.step sink read).2.2⟩ := by
  rw [run]
  generalize compiler.step sink read = result at failed ⊢
  obtain ⟨outcome, next, more⟩ := result
  obtain rfl : outcome = .error failure := failed
  rfl

/-- A call that fails has come to a line that fails. -/
theorem exists_step_of_failure {source : List Read} {failure : LocatedError}
    (failed : (compiler.run sink source).failure = some failure) :
    ∃ before read after here taken, source = before ++ read :: after ∧
      Passes compiler sink before here taken ∧ (here.step taken read).1 = .error failure := by
  induction source generalizing compiler sink with
  | nil => cases failed
  | cons read rest ih =>
    rw [run] at failed
    cases stepped : compiler.step sink read with
    | mk outcome result =>
      rw [stepped] at failed
      rcases outcome with reason | progress
      · obtain rfl := Option.some.inj failed
        exact ⟨[], read, rest, compiler, sink, rfl, .nil, congrArg Prod.fst stepped⟩
      · cases progress with
        | stop => cases failed
        | next =>
          obtain ⟨before, last, after, here, taken, rfl, passed, stopped⟩ := ih failed
          exact ⟨read :: before, last, after, here, taken, rfl, .cons stepped passed, stopped⟩

/-- A compiler that lines have led to is ready. -/
theorem Passes.ready {here : Compiler Family} {taken : σ} {before : List Read}
    (passed : Passes compiler sink before here taken) (ready : compiler.Ready) : here.Ready := by
  induction passed with
  | nil => exact ready
  | @cons compiler middle last sink between taken read reads first rest ih =>
    have next := ready.step sink read
    rw [first] at next
    exact ih next

/-- A closing line where no function is open is one too many. -/
theorem step_finish_of_none (ready : compiler.Ready) (sink : σ) {raw : String}
    (closing : (Reading.of (textOf raw)).construct? = some .finish)
    (bare : compiler.state.function = none) :
    (compiler.step sink (.ok raw)).1 =
      .error ⟨.structural .underflow, compiler.state.line, some (textOf raw)⟩ := by
  have function : compiler.state.scope.function = none := bare
  have answer : ((Reading.of (textOf raw)).effect (textOf raw) compiler.state.scope).answer = _ :=
    Reading.answer_of_finish ready.sound closing
  rw [step_eq ready]
  dsimp only
  rw [answer, function]
  rfl

/-- A closing line where a function is open succeeds, unless the sink refuses a line. -/
theorem step_finish_of_some (ready : compiler.Ready) (sink : σ) {raw : String}
    (closing : (Reading.of (textOf raw)).construct? = some .finish)
    (opened : compiler.state.function ≠ none) :
    (compiler.step sink (.ok raw)).1 = .ok .next ∨
      ∃ lines words, (Sink.writeAll sink lines).1 = some words ∧
        (compiler.step sink (.ok raw)).1 =
          .error ⟨.io words, compiler.state.line, some (textOf raw)⟩ := by
  have function : compiler.state.scope.function.isSome := Option.isSome_iff_ne_none.mpr opened
  have answer : ((Reading.of (textOf raw)).effect (textOf raw) compiler.state.scope).answer = _ :=
    Reading.answer_of_finish ready.sound closing
  rw [step_eq ready]
  dsimp only
  rw [answer, if_pos function]
  dsimp only
  split
  · exact .inl rfl
  · rename_i words rest refused
    exact .inr ⟨_, words, congrArg Prod.fst refused, rfl⟩

end Steps

/-- One compiler comes from another by calls, with any sinks and sources. -/
inductive Later (first : Compiler Family) : Compiler Family → Prop where
  /-- There has been no call. -/
  | refl : Later first first
  /-- There has been one more call. -/
  | call {σ : Type} [Sink σ] {compiler : Compiler Family} (before : Later first compiler)
      (sink : σ) (source : List Read) : Later first (compiler.compile sink source).compiler

/-- A compiler with the standard table that has been used by calls only. -/
def Reachable (compiler : Compiler Family) : Prop :=
  ∃ options, Later (new options Family.standard) compiler

/-- A compiler is ready after every call. -/
theorem Later.ready {first compiler : Compiler Family} (later : Later first compiler)
    (start : first.Ready) : compiler.Ready := by
  induction later with
  | refl => exact start
  | call before sink source ih => exact ih.compile sink source

/-- A namespace in force is followed by one in force after every call. -/
theorem Later.space? {first compiler : Compiler Family} (later : Later first compiler)
    (start : first.Ready) (found : first.state.scope.space?.isSome) :
    compiler.state.scope.space?.isSome := by
  induction later with
  | refl => exact found
  | @call σ _ compiler before sink source ih =>
    have both := run_induction
      (fun (compiler : Compiler Family) (sink : σ) read
        (held : compiler.Ready ∧ compiler.state.scope.space?.isSome) =>
        ⟨held.1.step sink read, space?_step held.1 sink read held.2⟩)
      source sink ⟨(before.ready start).restart, ih⟩
    exact both.2

/-- A compiler with the standard table is ready before the first call. -/
theorem ready_new (options : Options) : (new options Family.standard).Ready :=
  ⟨rfl, Scope.sound_initial options, rfl, rfl⟩

/-- A compiler is ready however it has been used. -/
theorem Reachable.ready {compiler : Compiler Family} (reachable : compiler.Reachable) :
    compiler.Ready := by
  obtain ⟨options, later⟩ := reachable
  exact later.ready (ready_new options)

/-- The invariant of compilers. After every call (i) a namespace is in force if a function is
open, (ii) a function is open if a block is, (iii) the numbers of the open blocks grow from the
outermost one, begin with one at least and have been counted, (iv) no line waits in the listing
and the listing is indented as the state says, and (v) once a namespace is in force one is after
every later call. So a closing line that a call comes to fails, unless the sink refuses a line,
exactly where no function is open, and then because it is one too many. -/
theorem reachable_invariant {compiler : Compiler Family} (reachable : compiler.Reachable) :
    (compiler.state.function.isSome → ∃ space, compiler.state.space = .ok space) ∧
    (compiler.state.blocks.blocks ≠ [] → compiler.state.function.isSome) ∧
    ((compiler.state.blocks.blocks.reverse.map Block.id).Pairwise (· < ·) ∧
      ∀ block ∈ compiler.state.blocks.blocks,
        1 ≤ block.id ∧ block.id ≤ compiler.state.blocks.counter) ∧
    (compiler.listing.lines = [] ∧ compiler.listing.indent = compiler.state.indent) ∧
    ((∃ space, compiler.state.space = .ok space) →
      ∀ later, Later compiler later → ∃ space, later.state.space = .ok space) ∧
    ∀ {σ : Type} [Sink σ] (sink taken : σ) (before : List Read) (here : Compiler Family)
      (raw : String) (after : List Read),
      Passes compiler.restart sink before here taken →
      (Reading.of (textOf raw)).construct? = some .finish →
      (here.state.function = none →
        (compiler.compile sink (before ++ .ok raw :: after)).failure =
          some ⟨.structural .underflow, here.state.line, some (textOf raw)⟩) ∧
      (here.state.function ≠ none →
        (∃ next more, Passes compiler.restart sink (before ++ [.ok raw]) next more) ∨
        ∃ lines words, (Sink.writeAll taken lines).1 = some words ∧
          (compiler.compile sink (before ++ .ok raw :: after)).failure =
            some ⟨.io words, here.state.line, some (textOf raw)⟩) := by
  have ready := reachable.ready
  have space_iff : ∀ other : Compiler Family,
      (∃ space, other.state.space = .ok space) ↔ other.state.scope.space?.isSome := by
    intro other
    simp only [State.space_eq_ok_iff, Option.isSome_iff_exists]
  refine ⟨fun opened => (space_iff compiler).mpr (ready.sound.space_of_function opened),
    ready.sound.function_of_block, ⟨?_, ?_⟩, ⟨ready.taken, ready.aligned⟩, ?_, ?_⟩
  · rw [List.pairwise_map, List.pairwise_reverse]
    exact ready.sound.ids_ordered
  · intro block member
    exact ⟨ready.sound.ids_positive block member, ready.sound.ids_counted block member⟩
  · intro found later called
    exact (space_iff later).mpr (called.space? ready ((space_iff compiler).mp found))
  · intro σ _ sink taken before here raw after passed closing
    have there := passed.ready ready.restart
    have call : compiler.compile sink (before ++ .ok raw :: after) =
        here.run taken (.ok raw :: after) := passed.run_append _
    rw [call]
    constructor
    · intro bare
      rw [run_of_error (step_finish_of_none there taken closing bare)]
    · intro opened
      rcases step_finish_of_some there taken closing opened with next | refused
      · exact .inl ⟨_, _, passed.snoc (Prod.ext next rfl)⟩
      · obtain ⟨lines, words, refusal, failed⟩ := refused
        refine .inr ⟨lines, words, refusal, ?_⟩
        rw [run_of_error failed]

/-- A block is left open by a call, and so is its function. -/
theorem reachable_invariant_open_block :
    let compiler := ((new {} Family.standard).compile ([] : List Listing.Line)
      [.ok "namespace K", .ok "function A \x7b", .ok "\x7b"]).compiler
    compiler.state.blocks.blocks = [⟨.plain, 1⟩] ∧ compiler.state.function.isSome :=
  have opened : ((new {} Family.standard).compile ([] : List Listing.Line)
      [.ok "namespace K", .ok "function A \x7b", .ok "\x7b"]).compiler.state.blocks.blocks =
        [⟨.plain, 1⟩] := by decide +kernel
  ⟨opened,
    (reachable_invariant ⟨{}, .call .refl ([] : List Listing.Line) _⟩).2.1 (by simp [opened])⟩

end Compiler

end LineAsm
