import LineAsm.Proofs.Rejection
/-!
# Sinks that take every line

A sink is unfailing when it refuses no line, however many it is given (`Sink.Unfailing`). What a
compiler does does not depend on such a sink: the call ends as it does with a list, and the sink has
been given the lines of the list (`Compiler.run_of_unfailing`). A text has then grown by these
lines, each with its line feed (`Sink.writeAll_text`).
-/

namespace LineAsm

/-- Some lines as they are written to a text. -/
def Listing.written (lines : List Listing.Line) : String :=
  String.join (lines.map Listing.Line.written)

namespace Sink

variable {σ : Type} [Sink σ] {sink : σ}

/-- A sink that refuses no line, however many it is given. -/
def Unfailing (sink : σ) : Prop := ∀ lines, (writeAll sink lines).1 = none

/-- Lines handed over in two parts: the second part follows when none of the first is refused. -/
theorem writeAll_append (sink : σ) (first last : List Listing.Line) :
    writeAll sink (first ++ last) =
      match writeAll sink first with
      | (none, middle) => writeAll middle last
      | (some words, middle) => (some words, middle) := by
  induction first generalizing sink with
  | nil => rfl
  | cons line first ih =>
    simp only [List.cons_append, writeAll]
    cases Sink.write sink line with
    | mk refused middle =>
      cases refused with
      | none => exact ih middle
      | some words => rfl

/-- An unfailing sink takes all lines. -/
theorem Unfailing.writeAll_eq (unfailing : Unfailing sink) (lines : List Listing.Line) :
    writeAll sink lines = (none, (writeAll sink lines).2) :=
  Prod.ext (unfailing lines) rfl

/-- An unfailing sink takes lines in two parts as it takes them at once. -/
theorem Unfailing.writeAll_append (unfailing : Unfailing sink) (first last : List Listing.Line) :
    writeAll sink (first ++ last) = writeAll (writeAll sink first).2 last := by
  rw [Sink.writeAll_append, unfailing.writeAll_eq first]

/-- An unfailing sink stays unfailing. -/
theorem Unfailing.after (unfailing : Unfailing sink) (lines : List Listing.Line) :
    Unfailing (writeAll sink lines).2 := by
  intro more
  rw [← unfailing.writeAll_append]
  exact unfailing (lines ++ more)

/-- A text grows by the lines it is given. -/
theorem writeAll_text (text : String) (lines : List Listing.Line) :
    writeAll text lines = (none, text ++ Listing.written lines) := by
  induction lines generalizing text with
  | nil => simp [writeAll, Listing.written]
  | cons line rest ih =>
    have written : Sink.write text line = (none, text ++ line.written) := rfl
    have joined : Listing.written (line :: rest) = line.written ++ Listing.written rest := by
      simp [Listing.written, String.join_cons]
    simp only [writeAll, written, ih, joined, String.append_assoc]

/-- A text is unfailing. -/
theorem unfailing_text (text : String) : Unfailing text := fun lines =>
  congrArg Prod.fst (writeAll_text text lines)

end Sink

namespace Compiler

section Unfailing

variable {σ : Type} [Sink σ] {compiler : Compiler Family} {sink : σ}

/-- A source is compiled into an unfailing sink as it is into a list of the lines that the sink
has been given. -/
theorem run_writeAll (ready : compiler.Ready) (unfailing : Sink.Unfailing sink)
    (lines : List Listing.Line) (source : List Read) :
    compiler.run (Sink.writeAll sink lines).2 source =
      ⟨(compiler.run lines source).failure, (compiler.run lines source).compiler,
        (Sink.writeAll sink (compiler.run lines source).sink).2⟩ := by
  induction source generalizing compiler lines with
  | nil => rfl
  | cons read rest ih =>
    cases read with
    | error words => rw [run, run, step_error ready, step_error ready]
    | ok raw =>
      have next := (ready.left (textOf raw)
        (Reading.sound_effect (textOf raw) ready.sound)).advance
      rw [run, run, step_eq ready, step_list ready]
      dsimp only
      generalize (Reading.of (textOf raw)).effect (textOf raw) compiler.state.scope = effect
        at next ⊢
      generalize (compiler.toDraft.indentedBy (textOf raw)).listing.indent = indent
      obtain ⟨answer, scope, written⟩ := effect
      cases answer with
      | error cause => rfl
      | ok progress =>
        have taken : Sink.writeAll (Sink.writeAll sink lines).2
            (written.map (Listing.Line.mk indent)) = (none, (Sink.writeAll sink
              (lines ++ written.map (Listing.Line.mk indent))).2) := by
          rw [← unfailing.writeAll_append]
          exact unfailing.writeAll_eq _
        dsimp only
        rw [taken]
        cases progress with
        | next => exact ih next _
        | stop => rfl

/-- A source is compiled into an unfailing sink as it is into a list, and the sink is given the
lines of the list. -/
theorem run_of_unfailing (ready : compiler.Ready) (unfailing : Sink.Unfailing sink)
    (source : List Read) :
    compiler.run sink source =
      ⟨(compiler.run ([] : List Listing.Line) source).failure,
        (compiler.run ([] : List Listing.Line) source).compiler,
        (Sink.writeAll sink (compiler.run ([] : List Listing.Line) source).sink).2⟩ :=
  run_writeAll ready unfailing [] source

/-- A source is compiled into a text as it is into a list, and the text grows by the lines. -/
theorem run_text (ready : compiler.Ready) (text : String) (source : List Read) :
    compiler.run text source =
      ⟨(compiler.run ([] : List Listing.Line) source).failure,
        (compiler.run ([] : List Listing.Line) source).compiler,
        text ++ Listing.written (compiler.run ([] : List Listing.Line) source).sink⟩ := by
  rw [run_of_unfailing ready (Sink.unfailing_text text), Sink.writeAll_text]

end Unfailing

end Compiler

end LineAsm
