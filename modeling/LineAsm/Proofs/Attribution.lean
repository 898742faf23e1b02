import LineAsm.Proofs.Continuation
/-!
# Failures and their lines

A call that fails has written what the lines before the failing one write, and nothing of that line:
its number is the number of the lines before it and one more, its text is the line as it was read,
and what waited in the listing is dropped (`Compiler.step_failed`). From then on a compiler is its
state and nothing else (`Compiler.later_eq_resuming`). A call that succeeds has counted the lines
that it has read, the end marker among them (`Compiler.line_of_succeeded`). Together these are
`Compiler.failing_line`.
-/

namespace LineAsm

/-- The lines of a source that are read when none fails: up to the end marker, if there is one. -/
def Source.consumed : List Read → List Read
  | [] => []
  | read :: rest => if read.IsMarker then [read] else read :: consumed rest

/-- Lines that are all before the end marker are all read. -/
theorem Source.consumed_append {before : List Read} (unmarked : ∀ read ∈ before, ¬ read.IsMarker)
    (rest : List Read) :
    Source.consumed (before ++ rest) = before ++ Source.consumed rest := by
  induction before with
  | nil => rfl
  | cons read before ih =>
    obtain ⟨going, others⟩ := List.forall_mem_cons.mp unmarked
    rw [List.cons_append, Source.consumed, if_neg going, ih others, List.cons_append]

namespace Compiler

/-- A compiler that goes on from a state and has no line waiting. -/
def resuming (state : State) : Compiler Family :=
  { state, listing := { indent := state.indent }, table := Family.standard }

/-- What is ready is its state and nothing else. -/
theorem Ready.eq_resuming {compiler : Compiler Family} (ready : compiler.Ready) :
    compiler = resuming compiler.state := by
  obtain ⟨standard, -, taken, aligned⟩ := ready
  obtain ⟨⟨state, ⟨indent, lines⟩⟩, table⟩ := compiler
  obtain rfl : table = Family.standard := standard
  obtain rfl : lines = [] := taken
  obtain rfl : indent = state.indent := aligned
  rfl

section Failing

variable {σ : Type} [Sink σ] {compiler : Compiler Family} {sink : σ}

/-- What a sink has become after a line it would have become by being given lines. -/
theorem exists_writeAll_of_step (ready : compiler.Ready) (sink : σ) (read : Read) :
    ∃ lines, (compiler.step sink read).2.2 = (Sink.writeAll sink lines).2 := by
  have known := steps ready sink read
  generalize compiler.step sink read = result at known ⊢
  cases known with
  | lost | failed => exact ⟨[], rfl⟩
  | refused answered written | passed answered written => exact ⟨_, congrArg Prod.snd written.symm⟩

/-- A sink stays unfailing while lines are passed. -/
theorem Passes.unfailing {here : Compiler Family} {taken : σ} {before : List Read}
    (passed : Passes compiler sink before here taken) (ready : compiler.Ready)
    (unfailing : Sink.Unfailing sink) : Sink.Unfailing taken := by
  induction passed with
  | nil => exact unfailing
  | @cons compiler middle last sink between taken read reads first rest ih =>
    have next := ready.step sink read
    obtain ⟨lines, written⟩ := exists_writeAll_of_step ready sink read
    rw [first] at next written
    have kept := unfailing.after lines
    rw [← written] at kept
    exact ih next kept

/-- A line that fails has written nothing, and the failure names its number and its text. -/
theorem step_failed (ready : compiler.Ready) (unfailing : Sink.Unfailing sink) {read : Read}
    {failure : LocatedError} (failed : (compiler.step sink read).1 = .error failure) :
    failure.line = compiler.state.line ∧ failure.text = read.toOption.map textOf ∧
      (compiler.step sink read).2.1.state.line = compiler.state.line ∧
      (compiler.step sink read).2.2 = sink := by
  have known := steps ready sink read
  generalize compiler.step sink read = result at known failed ⊢
  cases known with
  | lost words =>
    cases failed
    exact ⟨rfl, rfl, rfl, rfl⟩
  | failed answered =>
    cases failed
    exact ⟨rfl, rfl, line_left compiler _ _, rfl⟩
  | @refused raw words progress taken answered written =>
    have accepted := unfailing (compiler.linesOf raw)
    rw [written] at accepted
    cases accepted
  | passed answered written => cases failed

/-- A call that succeeds has counted the lines that it has read. -/
theorem line_of_succeeded (ready : compiler.Ready) {source : List Read}
    (succeeded : (compiler.run sink source).failure = none) :
    (compiler.run sink source).compiler.state.line =
      compiler.state.line + (Source.consumed source).length := by
  have known := ends compiler sink source
  generalize compiler.run sink source = outcome at known succeeded ⊢
  cases known with
  | done passed =>
    have whole := Source.consumed_append (passed.unmarked ready) []
    rw [List.append_nil, Source.consumed, List.append_nil] at whole
    rw [whole]
    exact passed.line ready
  | @stopped before here last taken written read passed stepped after =>
    have there := passed.ready ready
    have answer := congrArg Prod.fst stepped
    have marker : read.IsMarker := (step_stop_iff there answer).mp rfl
    have counted := line_of_step there answer
    rw [stepped, passed.line ready] at counted
    rw [Source.consumed_append (passed.unmarked ready), Source.consumed, if_pos marker,
      List.length_append, List.length_singleton, ← Nat.add_assoc]
    exact counted
  | failed passed stepped after => cases succeeded

end Failing

/-- However a compiler is used, it is its state and nothing else: no line waits in it. -/
theorem later_eq_resuming {first later : Compiler Family} (ready : first.Ready)
    (called : Later first later) : later = resuming later.state :=
  (called.ready ready).eq_resuming

/-- A call that writes to an unfailing sink and fails. The line of the failure is the line that the
state is at; the lines of the source before it succeed alone and write the same; and the text of the
failure is what was read of the line behind them, less one more carriage return at its end, if the
line could be read at all. Whatever the call gives, no line waits in the compiler after it or after
any later call, and if it succeeds the state is one line behind the lines that were read. -/
theorem failing_line {σ : Type} [Sink σ] {compiler : Compiler Family}
    (reachable : compiler.Reachable) {sink : σ} (unfailing : Sink.Unfailing sink)
    (bytes : List UInt8) (broken : Option String) :
    let outcome := compiler.compile sink (Source.ofBytes bytes broken)
    (∀ failure, outcome.failure = some failure →
      outcome.compiler.state.line = failure.line ∧
      ∃ front rest read,
        bytes = Source.terminated front ++ rest ∧ (∀ line ∈ front, Source.lineFeed ∉ line) ∧
        failure.line = front.length + 1 ∧
        Source.Begins rest broken read ∧ failure.text = read.toOption.map textOf ∧
        let alone := compiler.compile sink (Source.ofBytes (Source.terminated front) none)
        alone.failure = none ∧ alone.sink = outcome.sink) ∧
    (∀ later, Later outcome.compiler later → later = resuming later.state) ∧
    (outcome.failure = none → outcome.compiler.state.line =
      (Source.consumed (Source.ofBytes bytes broken)).length + 1) := by
  intro outcome
  have ready := reachable.ready.restart
  refine ⟨fun failure failed => ?_, fun later called => ?_, fun succeeded => ?_⟩
  · obtain ⟨before, read, after, here, taken, split, passed, stopped⟩ :=
      exists_step_of_failure failed
    have there := passed.ready ready
    obtain ⟨line, text, left, unwritten⟩ :=
      step_failed there (passed.unfailing ready unfailing) stopped
    have counted : here.state.line = 1 + before.length := passed.line ready
    obtain ⟨front, rest, shape, unbroken, length, alone, begins⟩ := Source.exists_place split
    have call : outcome = ⟨some failure, (here.step taken read).2.1, taken⟩ := by
      have whole := passed.run_append (read :: after)
      rw [← split, run_of_error stopped, unwritten] at whole
      exact whole
    have first : compiler.compile sink before = ⟨none, here, taken⟩ := by
      have whole := passed.run_append []
      rwa [List.append_nil] at whole
    rw [call]
    refine ⟨left.trans line.symm, front, rest, read, shape, unbroken, ?_, begins, text, ?_⟩
    · rw [line, counted, length, Nat.add_comm]
    · rw [alone, first]
      exact ⟨rfl, rfl⟩
  · exact later_eq_resuming (ready.run sink _) called
  · have counted := line_of_succeeded ready succeeded
    exact counted.trans (Nat.add_comm _ _)

/-- After a call that failed, a loop that cannot be opened fails on the third line. Of the three
carriage returns behind it one is left, and the two lines before it have written all there is. -/
theorem failing_line_loop :
    let compiler := ((new {} Family.standard).compile "" [.ok "break"]).compiler
    let bytes := Text.encode
      "namespace K\nfunction A \x7b\n while 5 < EAX \x7b\r\r\r\nEAX++\n"
    let outcome := compiler.compile "" (Source.ofBytes bytes none)
    compiler.Reachable ∧ Sink.Unfailing "" ∧
    outcome.failure = some ⟨.emission (.invalidOperands (.immediateDestination "5")), 3,
      some " while 5 < EAX \x7b\r"⟩ ∧
    outcome.compiler.state.line = 3 ∧
    ∃ front rest, bytes = Source.terminated front ++ rest ∧ 3 = front.length + 1 ∧
      (compiler.compile "" (Source.ofBytes (Source.terminated front) none)).failure = none ∧
      (compiler.compile "" (Source.ofBytes (Source.terminated front) none)).sink =
        outcome.sink := by
  intro compiler bytes outcome
  have reachable : compiler.Reachable := ⟨{}, .call .refl "" _⟩
  have unfailing : Sink.Unfailing "" := Sink.unfailing_text ""
  have failed : outcome.failure = some ⟨.emission (.invalidOperands (.immediateDestination "5")),
      3, some " while 5 < EAX \x7b\r"⟩ := by decide +kernel
  obtain ⟨line, front, rest, read, shape, -, number, -, -, succeeds, same⟩ :=
    (failing_line reachable unfailing bytes none).1 _ failed
  exact ⟨reachable, unfailing, failed, line, front, rest, shape, number, succeeds, same⟩

end Compiler

end LineAsm
