import LineAsm.Proofs.Sinks
import LineAsm.Proofs.Sources
import LineAsm.Proofs.Steps
/-!
# Sources in two parts

A source can be cut between two lines and its parts compiled by two calls. A call knows of the lines
before it by the compiler they have left, and of their number by the line number only
(`Compiler.run_later`); and it knows nothing of the lines behind a failure or the end marker
(`Compiler.run_append_of_ended`). So the two calls do what one call does with the whole source
(`Compiler.compile_append`).
-/

namespace LineAsm

/-- A failure as many lines further on. -/
def LocatedError.later (failure : LocatedError) (count : Nat) : LocatedError :=
  { failure with line := failure.line + count }

namespace Compiler

/-- A compiler as many lines further on. -/
def later (compiler : Compiler Family) (count : Nat) : Compiler Family :=
  { compiler with state := { compiler.state with line := compiler.state.line + count } }

/-- The outcome of a call as many lines further on. -/
def Outcome.later {σ : Type} (outcome : Outcome Family σ) (count : Nat) : Outcome Family σ :=
  ⟨outcome.failure.map (·.later count), outcome.compiler.later count, outcome.sink⟩

section Numbers

variable {σ : Type} [Sink σ] {compiler : Compiler Family}

/-- The line number does not matter for being ready. -/
theorem Ready.later (ready : compiler.Ready) (count : Nat) : (compiler.later count).Ready :=
  ⟨ready.standard, ready.sound, ready.taken, ready.aligned⟩

/-- What a line leaves does not depend on its number. -/
theorem left_later (compiler : Compiler Family) (text : String) (scope : Scope) (count : Nat) :
    (compiler.later count).left text scope = (compiler.left text scope).later count := by
  unfold left Draft.indentedBy
  split <;> rfl

/-- A line does the same further on in a source, the line number apart. -/
theorem step_later (ready : compiler.Ready) (sink : σ) (read : Read) (count : Nat) :
    (compiler.later count).step sink read =
      ((compiler.step sink read).1.mapError (·.later count),
        (compiler.step sink read).2.1.later count, (compiler.step sink read).2.2) := by
  cases read with
  | error words =>
    rw [step_error ready, step_error (ready.later count)]
    rfl
  | ok raw =>
    have scope : (compiler.later count).state.scope = compiler.state.scope := rfl
    have indent : ((compiler.later count).toDraft.indentedBy (textOf raw)).listing.indent =
        (compiler.toDraft.indentedBy (textOf raw)).listing.indent := by
      unfold Draft.indentedBy
      split <;> rfl
    have advanced : ∀ other : Compiler Family,
        (other.later count).advance = other.advance.later count := by
      intro other
      simp only [Compiler.later, advance, Nat.add_right_comm]
    rw [step_eq ready, step_eq (ready.later count)]
    dsimp only
    rw [scope, indent, left_later, advanced]
    generalize (Reading.of (textOf raw)).effect (textOf raw) compiler.state.scope = effect
    cases effect.answer with
    | error cause => rfl
    | ok progress =>
      dsimp only
      split <;> rfl

/-- A source does the same further on, the line numbers apart. -/
theorem run_later (ready : compiler.Ready) (sink : σ) (source : List Read) (count : Nat) :
    (compiler.later count).run sink source = (compiler.run sink source).later count := by
  induction source generalizing compiler sink with
  | nil => rfl
  | cons read rest ih =>
    have next := ready.step sink read
    rw [run, run, step_later ready]
    generalize compiler.step sink read = result at next ⊢
    obtain ⟨answer, after, taken⟩ := result
    rcases answer with failure | progress
    · rfl
    · cases progress with
      | next => exact ih next taken
      | stop => rfl

end Numbers

section Parts

variable {σ : Type} [Sink σ] {compiler : Compiler Family} {sink : σ}

/-- A source that succeeds without the end marker has been passed line by line. -/
theorem passes_of_run (ready : compiler.Ready) {source : List Read}
    (succeeded : (compiler.run sink source).failure = none)
    (unmarked : ∀ read ∈ source, ¬ read.IsMarker) :
    Passes compiler sink source (compiler.run sink source).compiler
      (compiler.run sink source).sink := by
  have known := ends compiler sink source
  generalize compiler.run sink source = outcome at known succeeded ⊢
  cases known with
  | done passed => exact passed
  | @stopped before here last taken written read passed stepped after =>
    have marker := (step_stop_iff (passed.ready ready) (congrArg Prod.fst stepped)).mp rfl
    exact absurd marker (unmarked read (by simp))
  | failed passed stepped after => cases succeeded

/-- Behind a failure or the end marker nothing is read. -/
theorem run_append_of_ended (ready : compiler.Ready) {front : List Read}
    (ended : (compiler.run sink front).failure ≠ none ∨ ∃ read ∈ front, read.IsMarker)
    (rest : List Read) : compiler.run sink (front ++ rest) = compiler.run sink front := by
  have known := ends compiler sink front
  generalize compiler.run sink front = outcome at known ended ⊢
  cases known with
  | done passed =>
    obtain failed | ⟨read, member, marker⟩ := ended
    · exact absurd rfl failed
    · exact absurd marker (passed.unmarked ready read member)
  | stopped passed stepped after =>
    rw [List.append_assoc, passed.run_append, List.cons_append, run, stepped]
  | failed passed stepped after =>
    rw [List.append_assoc, passed.run_append, List.cons_append, run, stepped]

/-- Lines that succeed without the end marker are followed by a call that begins behind them. -/
theorem run_append_of_going (ready : compiler.Ready) (first : compiler.state.line = 1)
    {front : List Read} (succeeded : (compiler.run sink front).failure = none)
    (unmarked : ∀ read ∈ front, ¬ read.IsMarker) (rest : List Read) :
    compiler.run sink (front ++ rest) =
      ((compiler.run sink front).compiler.compile (compiler.run sink front).sink rest).later
        front.length := by
  have passed := passes_of_run ready succeeded unmarked
  have there := passed.ready ready
  have counted := passed.line ready
  generalize (compiler.run sink front).compiler = middle at passed there counted ⊢
  have again : middle.restart.later front.length = middle := by
    have number : 1 + front.length = middle.state.line := by rw [counted, first]
    simp only [restart, Compiler.later, number]
  rw [passed.run_append, ← again]
  exact run_later there.restart _ rest front.length

end Parts

/-- A source that begins with whole lines. If the lines alone succeed without the end marker, the
whole source does what a call with the lines and then a call with the rest do, line numbers apart,
and what it writes to a text is what the one call writes and then what the other does. If the lines
alone fail or meet the end marker, the whole source does what the lines do, whatever the rest is. -/
theorem compile_append {σ : Type} [Sink σ] {compiler : Compiler Family}
    (reachable : compiler.Reachable) (sink : σ) {front : List (List UInt8)}
    (unbroken : ∀ line ∈ front, Source.lineFeed ∉ line) (rest : List UInt8)
    (broken : Option String) :
    let lines := Source.ofBytes (Source.terminated front) none
    let whole := Source.ofBytes (Source.terminated front ++ rest) broken
    let first := compiler.compile sink lines
    let text := compiler.compile "" lines
    let ended := ∃ read ∈ lines, read.IsMarker
    (first.failure = none ∧ ¬ ended →
      compiler.compile sink whole =
        (first.compiler.compile first.sink (Source.ofBytes rest broken)).later front.length) ∧
    (text.failure = none ∧ ¬ ended →
      (compiler.compile "" whole).sink =
        text.sink ++ (text.compiler.compile "" (Source.ofBytes rest broken)).sink) ∧
    (first.failure ≠ none ∨ ended → compiler.compile sink whole = first) := by
  intro lines whole first text ended
  have ready := reachable.ready.restart
  have parts : whole = lines ++ Source.ofBytes rest broken :=
    Source.ofBytes_terminated_append unbroken rest broken
  have length : lines.length = front.length :=
    (congrArg List.length (Source.ofBytes_terminated unbroken)).trans
      (List.length_map _)
  have going : ∀ {τ : Type} [Sink τ] (other : τ),
      (compiler.compile other lines).failure = none ∧ ¬ ended →
        compiler.compile other whole = ((compiler.compile other lines).compiler.compile
          (compiler.compile other lines).sink (Source.ofBytes rest broken)).later
            front.length := by
    intro τ _ other succeeded
    have unmarked : ∀ read ∈ lines, ¬ read.IsMarker := fun read member marker =>
      succeeded.2 ⟨read, member, marker⟩
    rw [parts, ← length]
    exact run_append_of_going ready rfl succeeded.1 unmarked _
  refine ⟨going sink, fun succeeded => ?_, fun stopped => ?_⟩
  · have again : text.compiler.restart.Ready := (ready.run "" lines).restart
    have written : ∀ start : String,
        (text.compiler.compile start (Source.ofBytes rest broken)).sink =
        start ++ Listing.written (text.compiler.compile ([] : List Listing.Line)
          (Source.ofBytes rest broken)).sink := fun start =>
      congrArg Outcome.sink (run_text again start (Source.ofBytes rest broken))
    rw [going "" succeeded, written "", String.empty_append]
    exact written text.sink
  · rw [parts]
    exact run_append_of_ended ready stopped _

/-- A function is opened by one call and closed by the next, as it is by one call with both; behind
a line that fails not even bytes that are no text are read. -/
theorem compile_append_function :
    let compiler := ((new {} Family.standard).compile "" [.ok "namespace K"]).compiler
    let opening := [Text.encode "function A \x7b", Text.encode " \x7b"]
    let wrong := [Text.encode "break"]
    compiler.Reachable ∧ (∀ line ∈ opening ++ wrong, Source.lineFeed ∉ line) ∧
    compiler.compile "" (Source.ofBytes (Source.terminated opening ++ Text.encode "\x7d") none) =
      ((compiler.compile "" (Source.ofBytes (Source.terminated opening) none)).compiler.compile
        (compiler.compile "" (Source.ofBytes (Source.terminated opening) none)).sink
        (Source.ofBytes (Text.encode "\x7d") none)).later 2 ∧
    compiler.compile "" (Source.ofBytes (Source.terminated wrong ++ [255]) (some "lost")) =
      compiler.compile "" (Source.ofBytes (Source.terminated wrong) none) := by
  intro compiler opening wrong
  have reachable : compiler.Reachable := ⟨{}, .call .refl "" _⟩
  have unbroken : ∀ line ∈ opening ++ wrong, Source.lineFeed ∉ line := by decide +kernel
  obtain ⟨first, second⟩ := List.forall_mem_append.mp unbroken
  have succeeds : (compiler.compile "" (Source.ofBytes (Source.terminated opening) none)).failure =
      none := by decide +kernel
  have unmarked : ¬ ∃ read ∈ Source.ofBytes (Source.terminated opening) none, read.IsMarker := by
    decide +kernel
  have fails : (compiler.compile "" (Source.ofBytes (Source.terminated wrong) none)).failure ≠
      none := by decide +kernel
  exact ⟨reachable, unbroken, (compile_append reachable "" first _ none).1 ⟨succeeds, unmarked⟩,
    (compile_append reachable "" second [255] (some "lost")).2.2 (.inl fails)⟩

end Compiler

end LineAsm
