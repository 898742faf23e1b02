import LineAsm.Proofs.Attribution
/-!
# Writers that fill up

A writer with limited room takes of some lines what fits, and refuses the rest
(`Sink.writeAll_within`). A call that writes to it does what it does with a writer without limit, up
to the line whose output does not fit; there it fails, and the writer is full
(`Compiler.run_within`). What the writer has taken is then the beginning of what the writer without
limit takes. The compiler has carried out the line all the same, and what could not be written is
gone: later calls go on as if it had been written (`Compiler.limited_compile`).
-/

namespace LineAsm

/-- The bytes of some lines as they are written. -/
def Listing.bytes (lines : List Listing.Line) : List UInt8 :=
  lines.flatMap fun line => Text.encode line.written

namespace LimitedWriter

/-- A writer without limit that has taken some bytes. -/
def free (taken : List UInt8) : LimitedWriter := ⟨none, taken⟩

/-- A writer that takes no more than a number of bytes in all, and has taken some of them. -/
def within (limit : Nat) (taken : List UInt8) : LimitedWriter :=
  ⟨some (limit - taken.length), taken⟩

/-- A line is taken whole by a writer without limit. -/
theorem write_free (taken : List UInt8) (line : Listing.Line) :
    Sink.write (free taken) line = (none, free (taken ++ Text.encode line.written)) := rfl

/-- A line is taken as far as there is room. -/
theorem write_within {limit : Nat} {taken : List UInt8} (bound : taken.length ≤ limit)
    (line : Listing.Line) :
    Sink.write (within limit taken) line =
      (if (taken ++ Text.encode line.written).length ≤ limit then none else some full,
        within limit ((taken ++ Text.encode line.written).take limit)) := by
  have shape : (taken ++ Text.encode line.written).take limit =
      taken ++ (Text.encode line.written).take (limit - taken.length) := by
    rw [List.take_append, List.take_of_length_le bound]
  have room : limit - (taken ++ (Text.encode line.written).take (limit - taken.length)).length =
      limit - taken.length - (Text.encode line.written).length := by
    simp only [List.length_append, List.length_take]
    omega
  have fits : (taken ++ Text.encode line.written).length ≤ limit ↔
      (Text.encode line.written).length ≤ limit - taken.length := by
    simp only [List.length_append]
    omega
  rw [shape, within, within, room]
  simp only [fits]
  rfl

end LimitedWriter

namespace Sink

open LimitedWriter (free within full)

/-- A writer without limit takes all lines. -/
theorem writeAll_free (taken : List UInt8) (lines : List Listing.Line) :
    writeAll (free taken) lines = (none, free (taken ++ Listing.bytes lines)) := by
  induction lines generalizing taken with
  | nil => simp [writeAll, Listing.bytes]
  | cons line rest ih =>
    rw [writeAll, LimitedWriter.write_free]
    dsimp only
    rw [ih, List.append_assoc]
    rfl

/-- A writer with limited room takes some lines as far as there is room. -/
theorem writeAll_within {limit : Nat} {taken : List UInt8} (bound : taken.length ≤ limit)
    (lines : List Listing.Line) :
    writeAll (within limit taken) lines =
      (if (taken ++ Listing.bytes lines).length ≤ limit then none else some full,
        within limit ((taken ++ Listing.bytes lines).take limit)) := by
  induction lines generalizing taken with
  | nil =>
    rw [Listing.bytes, List.flatMap_nil, List.append_nil, if_pos bound,
      List.take_of_length_le bound]
    rfl
  | cons line rest ih =>
    have split : taken ++ Listing.bytes (line :: rest) =
        (taken ++ Text.encode line.written) ++ Listing.bytes rest := by
      rw [List.append_assoc]
      rfl
    rw [split, writeAll, LimitedWriter.write_within bound]
    by_cases fits : (taken ++ Text.encode line.written).length ≤ limit
    · rw [if_pos fits, List.take_of_length_le fits]
      exact ih fits
    · have more : ¬ ((taken ++ Text.encode line.written) ++ Listing.bytes rest).length ≤ limit := by
        rw [List.length_append]
        omega
      have cut : ((taken ++ Text.encode line.written) ++ Listing.bytes rest).take limit =
          (taken ++ Text.encode line.written).take limit :=
        List.take_append_of_le_length (by omega)
      rw [if_neg fits, if_neg more, cut]

end Sink

namespace Compiler

open LimitedWriter (free within full)

variable {compiler : Compiler Family}

/-- What a line does with a writer without limit and with one that has taken the same: both take its
lines, or the second becomes full. -/
inductive Fills (compiler : Compiler Family) (limit : Nat) (taken : List UInt8) (read : Read) :
    Prop where
  /-- The lines fit. -/
  | fits {answer : Except LocatedError Progress} {next : Compiler Family} {whole : List UInt8}
      (unlimited : compiler.step (free taken) read = (answer, next, free whole))
      (limited : compiler.step (within limit taken) read = (answer, next, within limit whole))
      (bound : whole.length ≤ limit)
  /-- The lines do not fit. -/
  | full {raw : String} {next : Compiler Family} {whole : List UInt8} (same : read = .ok raw)
      (unlimited : compiler.step (free taken) read = (.ok .next, next.advance, free whole))
      (limited : compiler.step (within limit taken) read =
        (.error ⟨.io LimitedWriter.full, compiler.state.line, some (textOf raw)⟩, next,
          within limit (whole.take limit)))
      (beyond : limit < whole.length)

/-- Every line does one of these things. -/
theorem fills (ready : compiler.Ready) {limit : Nat} {taken : List UInt8}
    (bound : taken.length ≤ limit) (read : Read) : Fills compiler limit taken read := by
  cases read with
  | error words => exact .fits (step_error ready _ words) (step_error ready _ words) bound
  | ok raw =>
    cases answered : (compiler.effectOf raw).answer with
    | error cause =>
      exact .fits (step_of_failed ready answered _) (step_of_failed ready answered _) bound
    | ok progress =>
      have unlimited := step_of_answered ready answered (free taken)
      have limited := step_of_answered ready answered (within limit taken)
      rw [Sink.writeAll_free] at unlimited
      rw [Sink.writeAll_within bound] at limited
      by_cases room : (taken ++ Listing.bytes (compiler.linesOf raw)).length ≤ limit
      · rw [if_pos room, List.take_of_length_le room] at limited
        exact .fits unlimited limited room
      · rw [if_neg room] at limited
        have going : progress = .next := by
          cases progress with
          | next => rfl
          | stop =>
            rw [linesOf_of_stop answered] at room
            exact absurd (by simpa [Listing.bytes] using bound) room
        subst going
        exact .full rfl unlimited limited (Nat.lt_of_not_le room)

/-- What a source does with a writer without limit and with one that has taken the same: both take
all the lines, or the second becomes full on the line whose output does not fit. -/
inductive Overflows (compiler : Compiler Family) (limit : Nat) (taken : List UInt8)
    (source : List Read) : Prop where
  /-- All the lines fit. -/
  | fits {failure : Option LocatedError} {last : Compiler Family} {whole : List UInt8}
      (unlimited : compiler.run (free taken) source = ⟨failure, last, free whole⟩)
      (limited : compiler.run (within limit taken) source = ⟨failure, last, within limit whole⟩)
      (bound : whole.length ≤ limit)
  /-- Some lines fit, and the next one does not. -/
  | full {before after : List Read} {raw : String} {here next : Compiler Family}
      {fitting whole : List UInt8} (split : source = before ++ .ok raw :: after)
      (passed : Passes compiler (free taken) before here (free fitting))
      (bound : fitting.length ≤ limit)
      (stepped : here.step (free fitting) (.ok raw) = (.ok .next, next.advance, free whole))
      (beyond : limit < whole.length)
      (limited : compiler.run (within limit taken) source =
        ⟨some ⟨.io LimitedWriter.full, here.state.line, some (textOf raw)⟩, next,
          within limit (whole.take limit)⟩)

/-- Every source does one of these things. -/
theorem run_within (ready : compiler.Ready) {limit : Nat} {taken : List UInt8}
    (bound : taken.length ≤ limit) (source : List Read) :
    Overflows compiler limit taken source := by
  induction source generalizing compiler taken with
  | nil => exact .fits rfl rfl bound
  | cons read rest ih =>
    cases fills ready bound read with
    | @full raw next whole same unlimited limited beyond =>
      subst same
      have split : (.ok raw :: rest : List Read) = [] ++ .ok raw :: rest := rfl
      exact .full split .nil bound unlimited beyond (by rw [run, limited])
    | @fits answer next whole unlimited limited room =>
      have further : next.Ready := by
        have kept := ready.step (free taken) read
        rwa [unlimited] at kept
      rcases answer with failure | progress
      · have one : compiler.run (free taken) (read :: rest) = ⟨some failure, next, free whole⟩ := by
          rw [run, unlimited]
        exact .fits one (by rw [run, limited]) room
      · cases progress with
        | stop =>
          have one : compiler.run (free taken) (read :: rest) = ⟨none, next, free whole⟩ := by
            rw [run, unlimited]
          exact .fits one (by rw [run, limited]) room
        | next =>
          have one : compiler.run (free taken) (read :: rest) = next.run (free whole) rest := by
            rw [run, unlimited]
          have other : compiler.run (within limit taken) (read :: rest) =
              next.run (within limit whole) rest := by rw [run, limited]
          cases ih further room with
          | fits whole more under => exact .fits (one.trans whole) (other.trans more) under
          | @full before after raw here last fitting all split passed under stepped beyond more =>
            have longer : read :: rest = (read :: before) ++ .ok raw :: after :=
              congrArg (read :: ·) split
            exact .full longer (.cons unlimited passed) under stepped beyond (other.trans more)

/-- A source that is written without limit adds its output to what has been taken. -/
theorem exists_run_free (ready : compiler.Ready) (taken : List UInt8) (source : List Read) :
    ∃ more, (compiler.run (free taken) source).sink = free (taken ++ more) := by
  have unfailing : Sink.Unfailing (free taken) := fun lines =>
    congrArg Prod.fst (Sink.writeAll_free taken lines)
  rw [run_of_unfailing ready unfailing, Sink.writeAll_free]
  exact ⟨_, rfl⟩

/-- What is taken without limit of the first lines of a source is where the output of the whole
source begins. -/
theorem exists_run_free_append (ready : compiler.Ready) {taken fitting : List UInt8}
    {before : List Read} {here : Compiler Family}
    (passed : Passes compiler (free taken) before here (free fitting)) (after : List Read) :
    ∃ more, (compiler.run (free taken) (before ++ after)).sink = free (fitting ++ more) := by
  rw [passed.run_append]
  exact exists_run_free (passed.ready ready) fitting after

/-- A call that writes to a writer with room for a number of bytes, beside the same call with a
writer without limit. If the output fits, both calls give the same. Otherwise the writer takes as
many bytes of the output as it has room for, and the call fails on the line whose output goes beyond
them: with the lines before it the output fits, and with this line, which is carried out, it does
not. No line waits in the compiler then or after any later call, and a later call gives what it
gives when the writer has taken the line: nothing that was not written is written later. -/
theorem limited_compile (reachable : compiler.Reachable) (source : List Read) (limit : Nat) :
    let whole := compiler.compile ({} : LimitedWriter) source
    let limited := compiler.compile ({ room := some limit } : LimitedWriter) source
    (whole.sink.accepted.length ≤ limit →
      limited.failure = whole.failure ∧ limited.compiler = whole.compiler ∧
        limited.sink.accepted = whole.sink.accepted) ∧
    (limit < whole.sink.accepted.length →
      limited.sink.accepted = whole.sink.accepted.take limit ∧
      ∃ before raw after, source = before ++ .ok raw :: after ∧
        limited.failure = some ⟨.io LimitedWriter.full, before.length + 1, some (textOf raw)⟩ ∧
        let fitting := compiler.compile ({} : LimitedWriter) before
        let beyond := compiler.compile ({} : LimitedWriter) (before ++ [.ok raw])
        fitting.failure = none ∧ fitting.sink.accepted.length ≤ limit ∧
        beyond.failure = none ∧ limit < beyond.sink.accepted.length ∧
        beyond.sink.accepted <+: whole.sink.accepted ∧
        (∀ later, Later limited.compiler later → later.listing.lines = []) ∧
        ∀ {τ : Type} [Sink τ] (sink : τ) (more : List Read),
          limited.compiler.compile sink more = beyond.compiler.compile sink more) := by
  intro whole limited
  have ready := reachable.ready.restart
  have nothing : ([] : List UInt8).length ≤ limit := Nat.zero_le limit
  have free_eq : whole = compiler.restart.run (free []) source := rfl
  have within_eq : limited = compiler.restart.run (within limit []) source := rfl
  cases run_within ready nothing source with
  | @fits failure last bytes unlimited restricted bound =>
    rw [free_eq, within_eq, unlimited, restricted]
    exact ⟨fun _ => ⟨rfl, rfl, rfl⟩, fun beyond => absurd bound (Nat.not_le_of_lt beyond)⟩
  | @full before after raw here next fitting bytes split passed bound stepped beyond restricted =>
    have carried : Passes compiler.restart (free []) (before ++ [.ok raw]) next.advance
        (free bytes) := passed.snoc stepped
    have parts : source = (before ++ [.ok raw]) ++ after := by
      rw [split, List.append_assoc, List.singleton_append]
    obtain ⟨more, rest⟩ := exists_run_free_append ready carried after
    have output : whole.sink = free (bytes ++ more) := by
      rw [free_eq, parts]
      exact rest
    have first : compiler.compile ({} : LimitedWriter) before = ⟨none, here, free fitting⟩ :=
      passed.run_eq
    have second : compiler.compile ({} : LimitedWriter) (before ++ [.ok raw]) =
        ⟨none, next.advance, free bytes⟩ := carried.run_eq
    have line : here.state.line = before.length + 1 := by
      rw [passed.line ready, Nat.add_comm]
      rfl
    rw [within_eq, restricted, output, line]
    have inside : bytes <+: bytes ++ more := List.prefix_append bytes more
    refine ⟨fun fits => absurd inside.length_le ?_,
      fun _ => ⟨?_, before, raw, after, split, rfl, ?_⟩⟩
    · have total : (bytes ++ more).length ≤ limit := fits
      omega
    · exact (List.take_append_of_le_length (by omega)).symm
    · rw [first, second]
      have left : next.Ready := by
        have kept := ready.run (within limit []) source
        rwa [restricted] at kept
      exact ⟨rfl, bound, rfl, beyond, inside, fun later called => (called.ready left).taken,
        fun sink more => rfl⟩

/-- A writer becomes full within a line of the code that opens a loop, on the third line of the
source. The loop is open then, and nothing of its opening waits in the compiler. -/
theorem limited_compile_loop :
    let compiler := new {} Family.standard
    let source : List Read := [.ok "namespace K", .ok "function A \x7b", .ok "while EAX < 5 \x7b"]
    let whole := compiler.compile ({} : LimitedWriter) source
    let limited := compiler.compile ({ room := some 72 } : LimitedWriter) source
    compiler.Reachable ∧ 72 < whole.sink.accepted.length ∧
    limited.sink.accepted = whole.sink.accepted.take 72 ∧
    limited.failure = some ⟨.io LimitedWriter.full, 3, some "while EAX < 5 \x7b"⟩ ∧
    limited.compiler.state.blocks.blocks = [⟨.looping, 1⟩] ∧
    ∀ later, Later limited.compiler later → later.listing.lines = [] := by
  intro compiler source whole limited
  have reachable : compiler.Reachable := ⟨{}, .refl⟩
  have beyond : 72 < whole.sink.accepted.length := by decide +kernel
  have failed : limited.failure =
      some ⟨.io LimitedWriter.full, 3, some "while EAX < 5 \x7b"⟩ := by decide +kernel
  have opened : limited.compiler.state.blocks.blocks = [⟨.looping, 1⟩] := by decide +kernel
  obtain ⟨taken, before, raw, after, -, -, -, -, -, -, -, empty, -⟩ :=
    (limited_compile reachable source 72).2 beyond
  exact ⟨reachable, beyond, taken, failed, opened, empty⟩

end Compiler

end LineAsm
