import LineAsm.Proofs.Laying
import LineAsm.Proofs.Printing
import LineAsm.Proofs.Simulation
/-!
# Structured control flow is preserved

A program of one function that compiles is a list of lines that a machine can run. From the entry
of the function a run returns exactly when the structured execution of the program ends, with the
same straight lines executed and the same memory (`Compiler.control_flow_preserved`).
-/

namespace LineAsm

/-- Code that is laid out outside of all blocks does not leave one. -/
theorem Layout.ending_ne_leave {σ : Type} {machine : Machine σ} {frame : Frame} {code : Code}
    {memory last : σ} {performed : List Written} {ending : Ending}
    (executes : Executes machine frame.space code memory performed ending last)
    {before after : Nat} {statements : List Statement}
    (layout : Layout frame none before code after statements) : ending ≠ .leave := by
  have outside : ∀ ending : Ending, ending.outside ≠ .leave := by
    intro ending
    cases ending <;> decide
  induction executes generalizing before after statements with
  | next front back front_ih back_ih =>
    cases layout with
    | seq head rest => exact back_ih rest
  | stop early front ih =>
    cases layout with
    | seq head rest => exact ih head
  | leave => cases layout
  | again holds within more within_ih more_ih => exact more_ih layout
  | skip | straight | exit | otherwise | finished => nofun
  | group | conditional | broken => exact outside _

section Function

variable {σ : Type} {machine : Machine σ} {frame : Frame} {count : Nat} {code : Code}
  {body : List Statement}

/-- The entry of a function is its first statement. -/
theorem Layout.labelAt?_entry (layout : Layout frame none 0 code count body) :
    labelAt? (functionCode frame body) (Symbol.entry frame).text = some 0 :=
  (Placed.whole (functionCode frame body)).label layout.distinct

/-- The body of a function stands behind its entry, and the exit behind the body. -/
theorem Layout.stands (layout : Layout frame none 0 code count body)
    (readable : Readable (functionCode frame body)) :
    Stands (functionCode frame body) frame none 0 (0 + 1 + body.length) (0 + 1) body ∧
      Placed (functionCode frame body) (0 + 1 + body.length)
        [.label (.exit frame), .instruction .ret []] := by
  have whole := Placed.whole (functionCode frame body)
  have ends := whole.tail.right
  exact ⟨⟨readable, whole.tail.left, layout.distinct, ends.label layout.distinct, nofun⟩, ends⟩

/-- Code that ends without leaving a block goes on at the exit, and comes to the return. -/
theorem Machine.reaches_ret {program : List Statement} (readable : Readable program)
    {ended beyond : Nat} (ends : Placed program ended [.label (.exit frame), .instruction .ret []])
    {ending : Ending} (stays : ending ≠ .leave) (memory : σ) (compared : Nat × Nat)
    (earlier : List Written) :
    machine.Reaches (written program) ⟨ending.place ended beyond ended, memory, compared, earlier⟩
      ⟨ended + 1, memory, compared, earlier⟩ := by
  have passed : machine.next? (written program) ⟨ended, memory, compared, earlier⟩ =
      some ⟨ended + 1, memory, compared, earlier⟩ := next?_label (readable.label ends.head)
  cases ending with
  | leave => exact absurd rfl stays
  | through | exit => exact ⟨1, run_one passed⟩

/-- From its entry, a function returns exactly when the structured execution of its body ends, with
the same lines executed and the same memory. -/
theorem Layout.yields_iff (layout : Layout frame none 0 code count body)
    (readable : Readable (functionCode frame body)) (memory : σ) (compared : Nat × Nat)
    (performed : List Written) (last : σ) :
    machine.Yields (written (functionCode frame body)) ⟨0, memory, compared, []⟩ performed last ↔
      ∃ ending, ending ≠ .leave ∧
        Executes machine frame.space code memory performed ending last := by
  obtain ⟨stands, ends⟩ := layout.stands readable
  have ret : (written (functionCode frame body))[0 + 1 + body.length + 1]? =
      some (.instruction "ret" []) := readable.instruction ends.tail.head
  have entered : machine.next? (written (functionCode frame body)) ⟨0, memory, compared, []⟩ =
      some ⟨0 + 1, memory, compared, []⟩ := Machine.next?_label (readable.label rfl)
  constructor
  · rintro ⟨steps, final, returns, rfl, rfl⟩
    obtain ⟨rest, -, further⟩ := returns.through ⟨1, Machine.run_one entered⟩
    obtain ⟨trace, ending, memory, noted, more, -, executes, back⟩ :=
      layout.executes stands further
    have stays := Layout.ending_ne_leave executes layout
    obtain ⟨least, -, there⟩ :=
      back.through (Machine.reaches_ret readable ends stays memory noted ([] ++ trace))
    rw [there.eq_of_ret ret]
    exact ⟨ending, stays, executes⟩
  · rintro ⟨ending, stays, executes⟩
    obtain ⟨noted, reached⟩ := Layout.reaches executes layout stands compared []
    obtain ⟨steps, run⟩ := (Machine.Reaches.trans ⟨1, Machine.run_one entered⟩ reached).trans
      (Machine.reaches_ret readable ends stays last noted ([] ++ performed))
    exact ⟨steps, _, ⟨run, ret⟩, rfl, rfl⟩

end Function

/-- A function that counts a register while it is less than two, and leaves the loop when it is
more than zero. -/
def Program.counting : Program where
  frame := ⟨"K", "A"⟩
  declaration := ⟨"namespace K", by decide +kernel⟩
  opening := {
    raw := "function A \x7b"
    tokens := [⟨.keyword, "function", 0⟩, ⟨.identifier, "A", 9⟩, ⟨.symbol, "\x7b", 11⟩]
    read := by decide +kernel
    spelled := rfl }
  body := .looping
    { raw := "while EAX < 2 \x7b"
      word := ⟨.keyword, "while", 0⟩
      left := ⟨.register, "EAX", 6⟩
      symbol := ⟨.symbol, "<", 10⟩
      right := ⟨.integer, "2", 12⟩
      brace := ⟨.symbol, "\x7b", 14⟩
      read := by decide +kernel
      asks := rfl
      opens := rfl }
    (.seq (.straight ⟨"EAX++", .counting, [⟨.register, "EAX", 0⟩, ⟨.symbol, "++", 3⟩],
        by decide +kernel, rfl⟩)
      (.conditional
        { raw := "if EAX > 0 \x7b"
          word := ⟨.keyword, "if", 0⟩
          left := ⟨.register, "EAX", 3⟩
          symbol := ⟨.symbol, ">", 7⟩
          right := ⟨.integer, "0", 9⟩
          brace := ⟨.symbol, "\x7b", 11⟩
          read := by decide +kernel
          asks := rfl
          opens := rfl }
        (.exit ⟨"return", [⟨.keyword, "return", 0⟩], by decide +kernel, rfl⟩)
        ⟨"\x7d", [⟨.symbol, "\x7d", 0⟩], by decide +kernel, rfl⟩))
    ⟨"\x7d", [⟨.symbol, "\x7d", 0⟩], by decide +kernel, rfl⟩
  closing := ⟨"\x7d", [⟨.symbol, "\x7d", 0⟩], by decide +kernel, rfl⟩

/-- A machine whose memory is one register that instructions count up. -/
def Machine.counter : Machine Nat where
  read operand memory :=
    match operand with
    | "0" => 0
    | "2" => 2
    | _ => memory
  perform _ memory := memory + 1
  disturb _ _ compared := compared

namespace Compiler

/-- A program that compiles becomes the statements of a function around a layout of its body. -/
theorem layout_of_compiled {options : Options} {program : Program}
    (compiled : ((new options Family.standard).compile ([] : List Listing.Line)
      program.source).failure = none) :
    ∃ count body, Layout program.frame none 0 program.body count body ∧
      executable (statements ((new options Family.standard).compile ([] : List Listing.Line)
        program.source).sink) = functionCode program.frame body := by
  obtain ⟨passages, last, lines, read, written⟩ :=
    transcribed_of_compiled (fun raw member => program.ne_marker member) compiled
  obtain ⟨count, body, layout, executed⟩ := program.layout lines read
  refine ⟨count, body, layout, ?_⟩
  have call : statements ((new options Family.standard).compile ([] : List Listing.Line)
      program.source).sink = writtenBy passages := written
  rw [call]
  exact executed

/-- Structured control flow is preserved. A program that compiles becomes lines of assembly, in
which the name of the function, behind that of its namespace, is a label. From there, a machine that
reads the lines comes to a return with some straight lines executed and some memory left exactly
when the structured execution of the program executes these lines and leaves this memory. -/
theorem control_flow_preserved {σ : Type} (machine : Machine σ) (options : Options)
    (program : Program)
    (compiled : ((new options Family.standard).compile ([] : List Listing.Line)
      program.source).failure = none) :
    let code := written (executable (statements ((new options Family.standard).compile
      ([] : List Listing.Line) program.source).sink))
    ∃ entry, Written.labelAt? code (program.frame.space ++ "_" ++ program.frame.function) =
        some entry ∧
      ∀ memory compared performed last,
        machine.Yields code ⟨entry, memory, compared, []⟩ performed last ↔
          program.Executes machine memory performed last := by
  obtain ⟨count, body, layout, executed⟩ := layout_of_compiled compiled
  have readable : Readable (functionCode program.frame body) := fun statement member =>
    (printable_executable ⟨options, .refl⟩ program.source executed
      (isCode_functionCode layout.isCode) statement member).isReadable
  dsimp only
  rw [executed]
  refine ⟨0, ?_, ?_⟩
  · rw [readable.labelAt?_written]
    exact layout.labelAt?_entry
  · intro memory compared performed last
    exact layout.yields_iff readable memory compared performed last

/-- The function compiles, counts once and then returns from inside the loop. -/
theorem control_flow_preserved_counting :
    ((new {} Family.standard).compile ([] : List Listing.Line)
      Program.counting.source).failure = none ∧
    Program.counting.Executes Machine.counter 0 [.instruction "inc" ["EAX"]] 1 := by
  have compiled : ((new {} Family.standard).compile ([] : List Listing.Line)
      Program.counting.source).failure = none := by decide +kernel
  have code : written (executable (statements ((new {} Family.standard).compile
      ([] : List Listing.Line) Program.counting.source).sink)) = [
        .label "K_A",
        .label "K_A_Block1_Begin",
        .instruction "cmp" ["EAX", "2"],
        .instruction "jae" ["K_A_Block1_End"],
        .instruction "inc" ["EAX"],
        .instruction "cmp" ["EAX", "0"],
        .instruction "jbe" ["K_A_Block2_End"],
        .instruction "jmp" ["K_A_Exit"],
        .label "K_A_Block2_End",
        .instruction "jmp" ["K_A_Block1_Begin"],
        .label "K_A_Block1_End",
        .label "K_A_Exit",
        .instruction "ret" []] := by decide +kernel
  obtain ⟨entry, found, preserved⟩ := control_flow_preserved .counter {} .counting compiled
  rw [code] at found preserved
  have first : some entry = some 0 := found.symm.trans (by decide +kernel)
  cases first
  refine ⟨compiled, (preserved 0 (0, 0) _ 1).mp ⟨9, ⟨12, 1, (1, 0), _⟩, ⟨?_, ?_⟩, rfl, rfl⟩⟩
  · rfl
  · rfl

end Compiler

end LineAsm
