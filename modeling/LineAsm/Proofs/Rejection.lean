import LineAsm.Proofs.Calls
/-!
# Lines that are rejected

A line that is rejected ends the call, and the compiler can be used again. What the line leaves of
the scope is known: the scope before it, but for the opening of a loop in a function, which leaves
its block open when its operands cannot be compared (`Compiler.rejected_of_step`). Two compilers
with one scope do the same from then on, indentation apart (`Compiler.Alike.run`); so a call after
a rejected line that has left the scope goes on as if the line had not been there.
-/

namespace LineAsm

namespace Compiler

/-- The statements of some lines, without their indentation. -/
def statements (lines : List Listing.Line) : List Statement := lines.map (·.statement)

/-- The statements of lines under one indentation. -/
@[simp] theorem statements_map (indent : String) (written : List Statement) :
    statements (written.map (Listing.Line.mk indent)) = written := by
  simp [statements, Function.comp_def]

/-- The statements of lines that follow each other. -/
@[simp] theorem statements_append (first last : List Listing.Line) :
    statements (first ++ last) = statements first ++ statements last := List.map_append

/-- One line of a call that writes to a list. -/
theorem step_list {compiler : Compiler Family} (ready : compiler.Ready)
    (lines : List Listing.Line) (raw : String) :
    compiler.step lines (.ok raw) =
      let text := textOf raw
      let effect := (Reading.of text).effect text compiler.state.scope
      let indent := (compiler.toDraft.indentedBy text).listing.indent
      match effect.answer with
      | .error cause =>
        (.error ⟨cause, compiler.state.line, some text⟩, compiler.left text effect.scope, lines)
      | .ok progress =>
        (.ok progress, (compiler.left text effect.scope).advance,
          lines ++ effect.written.map (Listing.Line.mk indent)) := by
  rw [step_eq ready]
  dsimp only
  generalize (Reading.of (textOf raw)).effect (textOf raw) compiler.state.scope = effect
  cases effect.answer with
  | error cause => rfl
  | ok progress =>
    dsimp only
    rw [Sink.writeAll_list]

/-- A source of one line gives what the line gives. -/
theorem compile_single {compiler : Compiler Family} (ready : compiler.Ready)
    (lines : List Listing.Line) (raw : String) :
    let effect := (Reading.of (textOf raw)).effect (textOf raw) compiler.state.scope
    let outcome := compiler.compile lines [.ok raw]
    (∀ progress, effect.answer = .ok progress → outcome.failure = none ∧
      statements outcome.sink = statements lines ++ effect.written) ∧
    ∀ cause, effect.answer = .error cause →
      outcome.failure = some ⟨cause, 1, some (textOf raw)⟩ ∧ outcome.sink = lines := by
  intro effect outcome
  have step := step_list ready.restart lines raw
  have start : compiler.restart.state.scope = compiler.state.scope := rfl
  rw [start] at step
  have call : outcome = compiler.restart.run lines [.ok raw] := rfl
  constructor
  · intro progress passed
    dsimp only at step
    rw [passed] at step
    rw [call, run, step]
    have written (indent : String) :
        statements (lines ++ effect.written.map (Listing.Line.mk indent)) =
          statements lines ++ effect.written := by
      rw [statements_append, statements_map]
    cases progress <;> exact ⟨rfl, written _⟩
  · intro cause failed
    dsimp only at step
    rw [failed] at step
    rw [call, run, step]
    exact ⟨rfl, rfl⟩

/-- Two compilers with the lists they write to, which differ in indentation at most. -/
structure Alike (left right : Compiler Family) (lines others : List Listing.Line) : Prop where
  /-- Both go on from one scope. -/
  scope : left.state.scope = right.state.scope
  /-- Both are at one line of their sources. -/
  line : left.state.line = right.state.line
  /-- Both have written the same statements. -/
  written : statements lines = statements others

section Alike

variable {left right : Compiler Family} {lines others : List Listing.Line}

/-- One line does the same to both compilers. -/
theorem Alike.step (alike : Alike left right lines others) (ready : left.Ready)
    (other : right.Ready) (read : Read) :
    (left.step lines read).1 = (right.step others read).1 ∧
      Alike (left.step lines read).2.1 (right.step others read).2.1
        (left.step lines read).2.2 (right.step others read).2.2 := by
  cases read with
  | error words =>
    rw [step_error ready, step_error other, alike.line]
    exact ⟨rfl, alike⟩
  | ok raw =>
    rw [step_list ready, step_list other]
    dsimp only
    rw [alike.scope, alike.line]
    generalize (Reading.of (textOf raw)).effect (textOf raw) right.state.scope = effect
    have lines : ∀ scope, (left.left (textOf raw) scope).state.line =
        (right.left (textOf raw) scope).state.line := by
      intro scope
      rw [line_left, line_left, alike.line]
    cases effect.answer with
    | error cause =>
      refine ⟨rfl, ⟨?_, lines _, alike.written⟩⟩
      rw [scope_left, scope_left]
    | ok progress =>
      refine ⟨rfl, ⟨?_, congrArg (· + 1) (lines _), ?_⟩⟩
      · rw [scope_advance, scope_advance, scope_left, scope_left]
      · simp only [statements_append, statements_map, alike.written]

/-- One source does the same to both compilers. -/
theorem Alike.run (alike : Alike left right lines others) (ready : left.Ready)
    (other : right.Ready) (source : List Read) :
    (left.run lines source).failure = (right.run others source).failure ∧
      Alike (left.run lines source).compiler (right.run others source).compiler
        (left.run lines source).sink (right.run others source).sink := by
  induction source generalizing left right lines others with
  | nil => exact ⟨rfl, alike⟩
  | cons read rest ih =>
    obtain ⟨same, next⟩ := alike.step ready other read
    have first := ready.step lines read
    have second := other.step others read
    simp only [Compiler.run]
    generalize left.step lines read = result at same next first ⊢
    generalize right.step others read = result' at same next second ⊢
    obtain ⟨outcome, left, lines⟩ := result
    obtain ⟨_, right, others⟩ := result'
    obtain rfl := same
    rcases outcome with failure | progress
    · exact ⟨rfl, next⟩
    · cases progress with
      | next => exact ih next first second
      | stop => exact ⟨rfl, next⟩

end Alike

/-- What calls give one after the other, each of which writes to a list of its own: why the call
failed, if it did, the statements that it wrote and the scope that it left. -/
def calls (compiler : Compiler Family) :
    List (List Read) → List (Option LocatedError × List Statement × Scope)
  | [] => []
  | source :: rest =>
    let outcome := compiler.compile ([] : List Listing.Line) source
    (outcome.failure, statements outcome.sink, outcome.compiler.state.scope) ::
      calls outcome.compiler rest

/-- Two compilers with one scope give the same by all calls, indentation apart. -/
theorem calls_congr {left right : Compiler Family} (ready : left.Ready) (other : right.Ready)
    (same : left.state.scope = right.state.scope) (sources : List (List Read)) :
    left.calls sources = right.calls sources := by
  induction sources generalizing left right with
  | nil => rfl
  | cons source rest ih =>
    have start : Alike left.restart right.restart [] [] := ⟨same, rfl, rfl⟩
    obtain ⟨failure, alike⟩ := start.run ready.restart other.restart source
    have first := ready.compile ([] : List Listing.Line) source
    have second := other.compile ([] : List Listing.Line) source
    simp only [calls]
    rw [ih first second alike.scope]
    exact congrArg (· :: _) (Prod.ext failure (Prod.ext alike.written alike.scope))

section Rejected

variable {σ : Type} [Sink σ] {compiler : Compiler Family} {sink : σ} {read : Read}
  {failure : LocatedError}

/-- A line that fails, but not by reading or writing, has been rejected for its text. -/
theorem rejected_of_step (ready : compiler.Ready)
    (failed : (compiler.step sink read).1 = .error failure)
    (rejected : ∀ words, failure.cause ≠ .io words) :
    ∃ raw, read = .ok raw ∧ failure.text = some (textOf raw) ∧
      failure.line = compiler.state.line ∧
      (compiler.step sink read).2.1.state.scope =
        (Reading.of (textOf raw)).scopeOnFailure compiler.state.scope := by
  cases read with
  | error words =>
    rw [step_error ready] at failed
    cases failed
    exact absurd rfl (rejected words)
  | ok raw =>
    refine ⟨raw, rfl, ?_⟩
    rw [scope_step ready]
    rw [step_eq ready] at failed
    dsimp only at failed
    cases answer : ((Reading.of (textOf raw)).effect (textOf raw) compiler.state.scope).answer with
    | error cause =>
      rw [answer] at failed
      cases failed
      exact ⟨rfl, rfl, Reading.scope_of_error ready.sound answer⟩
    | ok progress =>
      rw [answer] at failed
      dsimp only at failed
      split at failed
      · cases failed
      · cases failed
        exact absurd rfl (rejected _)

end Rejected

end Compiler

namespace Reading

/-- A line that opens a loop in a function. -/
def OpensLoop (reading : Reading) (scope : Scope) : Prop :=
  (∃ left condition right, reading.construct? = some (.looping left condition right)) ∧
    scope.function.isSome

variable {reading : Reading} {scope : Scope}

/-- The opening of a loop that fails leaves its block. -/
theorem scopeOnFailure_of_opensLoop (opens : reading.OpensLoop scope) :
    reading.scopeOnFailure scope =
      { scope with blocks := scope.blocks.start .looping } := by
  obtain ⟨⟨left, condition, right, said⟩, function⟩ := opens
  simp only [scopeOnFailure, said, Flow.scopeOnFailure, function, ↓reduceIte]

/-- Every other line that fails leaves the scope as it is. -/
theorem scopeOnFailure_of_not_opensLoop (other : ¬ reading.OpensLoop scope) :
    reading.scopeOnFailure scope = scope := by
  unfold scopeOnFailure
  split
  · rename_i construct said
    cases construct with
    | looping left condition right =>
      have closed : ¬ scope.function.isSome := fun function =>
        other ⟨⟨left, condition, right, said⟩, function⟩
      exact if_neg closed
    | _ => rfl
  · rfl

end Reading

namespace Compiler

/-- A line that a call rejects leaves the scope that it found, and later calls go on as if the line
had not been there, indentation apart; but the opening of a loop in a function leaves one more
block open. -/
theorem rejected_line {σ : Type} [Sink σ] {compiler : Compiler Family}
    (reachable : compiler.Reachable) (sink : σ) (source : List Read) {failure : LocatedError}
    (failed : (compiler.compile sink source).failure = some failure)
    (rejected : ∀ words, failure.cause ≠ .io words) :
    ∃ before raw after here taken,
      source = before ++ .ok raw :: after ∧ Passes compiler.restart sink before here taken ∧
      failure.text = some (textOf raw) ∧ failure.line = here.state.line ∧
      let last := (compiler.compile sink source).compiler
      let opens := (Reading.of (textOf raw)).OpensLoop here.state.scope
      (last.state.scope = here.state.scope ↔ ¬ opens) ∧
      (opens → last.state.scope =
        { here.state.scope with blocks := here.state.blocks.start .looping }) ∧
      (¬ opens → ∀ sources, last.calls sources = here.calls sources) := by
  have ready := reachable.ready.restart
  obtain ⟨before, read, after, here, taken, rfl, passed, stopped⟩ :=
    exists_step_of_failure failed
  have there := passed.ready ready
  obtain ⟨raw, rfl, text, line, left⟩ := rejected_of_step there stopped rejected
  have last : (compiler.compile sink (before ++ .ok raw :: after)).compiler =
      (here.step taken (.ok raw)).2.1 := by
    have call := passed.run_append (.ok raw :: after)
    rw [run_of_error stopped] at call
    exact congrArg Outcome.compiler call
  refine ⟨before, raw, after, here, taken, rfl, passed, text, line, ?_⟩
  dsimp only
  rw [last, left]
  have changed : ∀ scope : Scope,
      { scope with blocks := scope.blocks.start .looping } ≠ scope := by
    intro scope same
    have counter : scope.blocks.counter + 1 = scope.blocks.counter :=
      congrArg (fun other : Scope => other.blocks.counter) same
    omega
  refine ⟨⟨fun same opens => ?_, Reading.scopeOnFailure_of_not_opensLoop⟩,
    Reading.scopeOnFailure_of_opensLoop, fun other sources => ?_⟩
  · rw [Reading.scopeOnFailure_of_opensLoop opens] at same
    exact changed _ same
  · refine calls_congr (there.step taken (.ok raw)) there ?_ sources
    rw [left, Reading.scopeOnFailure_of_not_opensLoop other]

/-- A loop whose left operand is a number is rejected, and its block stays open. -/
theorem rejected_line_number :
    let compiler := ((new {} Family.standard).compile ([] : List Listing.Line)
      [.ok "namespace K", .ok "function A \x7b"]).compiler
    let outcome := compiler.compile ([] : List Listing.Line) [.ok "while 5 < EAX \x7b"]
    (∃ failure, outcome.failure = some failure ∧ ∀ words, failure.cause ≠ .io words) ∧
      outcome.compiler.state.scope =
        { compiler.state.scope with blocks := compiler.state.blocks.start .looping } := by
  intro compiler outcome
  have failed : outcome.failure = some ⟨.emission (.invalidOperands (.immediateDestination "5")),
      1, some "while 5 < EAX \x7b"⟩ := by decide +kernel
  have rejected : ∀ words, CompileError.emission (.invalidOperands (.immediateDestination "5")) ≠
      .io words := nofun
  refine ⟨⟨_, failed, rejected⟩, ?_⟩
  obtain ⟨before, raw, after, here, taken, split, passed, -, -, -, opened, -⟩ :=
    rejected_line ⟨{}, .call .refl ([] : List Listing.Line) _⟩ _ _ failed rejected
  obtain ⟨rfl, alone⟩ : before = [] ∧ .ok "while 5 < EAX \x7b" :: [] = .ok raw :: after := by
    cases before with
    | nil => exact ⟨rfl, split⟩
    | cons read rest => simp at split
  cases passed
  obtain rfl : "while 5 < EAX \x7b" = raw := Except.ok.inj (List.cons.inj alone).1
  have opens : (Reading.of (textOf "while 5 < EAX \x7b")).OpensLoop compiler.state.scope :=
    ⟨⟨⟨.integer, "5", 6⟩, .below, ⟨.register, "EAX", 10⟩, by decide +kernel⟩, by decide +kernel⟩
  exact opened opens

end Compiler

end LineAsm
