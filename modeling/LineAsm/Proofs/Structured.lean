import LineAsm.Proofs.Machine
import LineAsm.Proofs.Sayings
/-!
# Structured code

The body of a function can be read as structured code: straight lines, groups, conditional blocks,
loops, and lines that leave the innermost block or the function, nested to any depth (`Code`). Each
part carries the lines that say it, by their words. A big-step relation says what the code does with
the memory of a machine, which straight lines of assembly it executes and how it ends (`Executes`):
whether a block is entered is what the symbol of its question says of the numbers that the machine
reads from the operands (`Machine.Satisfies`). A program is one function of such a body, with the
declaration of its namespace before it (`Program`).
-/

namespace LineAsm

/-- A line of a straight family. -/
structure Straight where
  /-- The line as it is read. -/
  raw : String
  /-- The family that owns the line. -/
  family : Family
  /-- The tokens of the line. -/
  tokens : List Token
  /-- The line is read as these tokens of this family. -/
  read : Reading.of (Compiler.textOf raw) = .owned family tokens
  /-- The family is one of those made of straight instructions. -/
  straight : family.isStraight = true

/-- The instructions of a straight line under a namespace. -/
def Straight.code (line : Straight) (space : String) : List Statement :=
  ((line.family.emit line.tokens).effect { Scope.initial {} with declared := some space }).written

/-- An operation without operands, as it is written in a straight line. -/
theorem Statement.isOrdinary_other {text : String}
    (known : text ∈ ["pushad", "popad", "nop", "cli", "sti", "hlt", "iret"]) :
    (instruction (.other text) []).IsOrdinary := by
  simp only [List.mem_cons, List.not_mem_nil, or_false] at known
  obtain rfl | rfl | rfl | rfl | rfl | rfl | rfl := known
  all_goals rfl

/-- A straight line is made of ordinary instructions. -/
theorem Straight.plain (line : Straight) :
    (line.family.emit line.tokens).Plain Statement.IsOrdinary := by
  obtain ⟨raw, family, tokens, read, straight⟩ := line
  by_cases bare : family = .plain
  · subst bare
    obtain ⟨scanned, pattern, member, matched⟩ := Reading.exists_matches_of_owned read
    obtain ⟨code, branch, same⟩ := Family.exists_branch member matched
      (Token.classified_of_ofLine scanned)
    rw [same]
    cases branch with
    | save | restore => exact Emission.plain_instruction (Statement.isOrdinary_other (by decide))
    | operation word =>
      have lowered : ∀ name ∈ ["NOP", "CLI", "STI", "HLT", "IRet"], Text.lower name ∈
          ["pushad", "popad", "nop", "cli", "sti", "hlt", "iret"] := by decide +kernel
      obtain _ | ⟨listed, ⟨⟩⟩ := Pattern.fits_of_matchesLine matched
      have name := List.contains_iff_mem.mp (Bool.and_eq_true_iff.mp listed).2
      exact Emission.plain_instruction (Statement.isOrdinary_other (lowered _ name))
  · exact (Family.common_emit straight bare tokens).mono fun _ common => common.isOrdinary

/-- The instructions of a straight line are ordinary. -/
theorem Straight.code_isOrdinary (line : Straight) (space : String) :
    ∀ statement ∈ line.code space, statement.IsOrdinary :=
  (line.plain.still _).2

/-- A straight line is made of instructions. -/
theorem Straight.code_isInstruction (line : Straight) (space : String) :
    ∀ statement ∈ line.code space, statement.isInstruction = true :=
  fun statement member => (line.code_isOrdinary space statement member).isInstruction

/-- Structured code, with its lines. -/
inductive Code where
  /-- No line. -/
  | skip
  /-- One part after another. -/
  | seq (first second : Code)
  /-- A straight line. -/
  | straight (line : Straight)
  /-- The innermost block is left. -/
  | leave (line : Phrase ["break"])
  /-- The function returns. -/
  | exit (line : Phrase ["return"])
  /-- A block that only groups lines. -/
  | group (opening : Phrase ["\x7b"]) (inner : Code) (closing : Phrase ["\x7d"])
  /-- A block that runs when the answer to a question is yes. -/
  | conditional (opening : Question "if") (inner : Code) (closing : Phrase ["\x7d"])
  /-- A block that runs while the answer to a question is yes. -/
  | looping (opening : Question "while") (inner : Code) (closing : Phrase ["\x7d"])

/-- The lines of structured code. -/
def Code.lines : Code → List String
  | .skip => []
  | .seq first second => first.lines ++ second.lines
  | .straight line => [line.raw]
  | .leave line => [line.raw]
  | .exit line => [line.raw]
  | .group opening inner closing => opening.raw :: (inner.lines ++ [closing.raw])
  | .conditional opening inner closing => opening.raw :: (inner.lines ++ [closing.raw])
  | .looping opening inner closing => opening.raw :: (inner.lines ++ [closing.raw])

/-- No line of structured code is the end marker. -/
theorem Code.ne_marker (code : Code) {raw : String} (member : raw ∈ code.lines) :
    Reading.of (Compiler.textOf raw) ≠ .marker := by
  induction code with
  | skip => cases member
  | seq front back front_ih back_ih =>
    rcases List.mem_append.mp member with first | second
    · exact front_ih first
    · exact back_ih second
  | straight line =>
    rw [List.mem_singleton.mp member, line.read]
    nofun
  | leave line =>
    rw [List.mem_singleton.mp member]
    exact line.leave.ne_marker
  | exit line =>
    rw [List.mem_singleton.mp member]
    exact line.exit.ne_marker
  | group opening inner closing ih =>
    exact opening.group.ne_marker_around closing.finish ih member
  | conditional opening inner closing ih =>
    exact opening.conditional.ne_marker_around closing.finish ih member
  | looping opening inner closing ih =>
    exact opening.looping.ne_marker_around closing.finish ih member

/-- How structured code ends. -/
inductive Ending where
  /-- Execution has come to the end of the code. -/
  | through
  /-- The innermost block around the code is left. -/
  | leave
  /-- The function returns. -/
  | exit
deriving DecidableEq, Repr

/-- How a block ends when the code in it ends so: a block that is left is over. -/
def Ending.outside : Ending → Ending
  | .through | .leave => .through
  | .exit => .exit

section Execution

variable {σ : Type}

/-- The answer to a question is yes: its symbol says so of the numbers that the machine reads from
its operands, as they are spelled under a namespace. -/
def Machine.Satisfies (machine : Machine σ) (space : String) {keyword : String}
    (question : Question keyword) (memory : σ) : Prop :=
  ∃ meaning, Comparison.meaning? question.symbol.value = some meaning ∧
    meaning (machine.read (question.first space) memory)
      (machine.read (question.second space) memory)

/-- What structured code does under a namespace: from one memory to another, with the straight
lines of assembly executed on the way, and how it ends. -/
inductive Executes (machine : Machine σ) (space : String) :
    Code → σ → List Written → Ending → σ → Prop where
  /-- Nothing is done. -/
  | skip {memory : σ} : Executes machine space .skip memory [] .through memory
  /-- The second part follows the first when that comes to its end. -/
  | next {first second : Code} {memory middle last : σ} {before after : List Written}
      {ending : Ending} (front : Executes machine space first memory before .through middle)
      (back : Executes machine space second middle after ending last) :
      Executes machine space (.seq first second) memory (before ++ after) ending last
  /-- The second part is passed over when the first does not come to its end. -/
  | stop {first second : Code} {memory last : σ} {performed : List Written} {ending : Ending}
      (early : ending ≠ .through)
      (front : Executes machine space first memory performed ending last) :
      Executes machine space (.seq first second) memory performed ending last
  /-- A straight line performs its instructions. -/
  | straight {line : Straight} {memory : σ} :
      Executes machine space (.straight line) memory (written (line.code space)) .through
        (machine.performAll (written (line.code space)) memory)
  /-- The innermost block is left. -/
  | leave {line : Phrase ["break"]} {memory : σ} :
      Executes machine space (.leave line) memory [] .leave memory
  /-- The function returns. -/
  | exit {line : Phrase ["return"]} {memory : σ} :
      Executes machine space (.exit line) memory [] .exit memory
  /-- The code of a group is executed. -/
  | group {opening : Phrase ["\x7b"]} {inner : Code} {closing : Phrase ["\x7d"]}
      {memory last : σ} {performed : List Written} {ending : Ending}
      (within : Executes machine space inner memory performed ending last) :
      Executes machine space (.group opening inner closing) memory performed ending.outside last
  /-- A conditional block is executed when the answer to its question is yes. -/
  | conditional {opening : Question "if"} {inner : Code} {closing : Phrase ["\x7d"]}
      {memory last : σ} {performed : List Written} {ending : Ending}
      (holds : machine.Satisfies space opening memory)
      (within : Executes machine space inner memory performed ending last) :
      Executes machine space (.conditional opening inner closing) memory performed ending.outside
        last
  /-- A conditional block is passed over when the answer to its question is no. -/
  | otherwise {opening : Question "if"} {inner : Code} {closing : Phrase ["\x7d"]} {memory : σ}
      (fails : ¬ machine.Satisfies space opening memory) :
      Executes machine space (.conditional opening inner closing) memory [] .through memory
  /-- A loop is over when the answer to its question is no. -/
  | finished {opening : Question "while"} {inner : Code} {closing : Phrase ["\x7d"]} {memory : σ}
      (fails : ¬ machine.Satisfies space opening memory) :
      Executes machine space (.looping opening inner closing) memory [] .through memory
  /-- A loop goes on when the answer to its question is yes and the code in it comes to its end. -/
  | again {opening : Question "while"} {inner : Code} {closing : Phrase ["\x7d"]}
      {memory middle last : σ} {before after : List Written} {ending : Ending}
      (holds : machine.Satisfies space opening memory)
      (within : Executes machine space inner memory before .through middle)
      (more : Executes machine space (.looping opening inner closing) middle after ending last) :
      Executes machine space (.looping opening inner closing) memory (before ++ after) ending last
  /-- A loop is over when the code in it does not come to its end. -/
  | broken {opening : Question "while"} {inner : Code} {closing : Phrase ["\x7d"]}
      {memory last : σ} {performed : List Written} {ending : Ending}
      (holds : machine.Satisfies space opening memory) (early : ending ≠ .through)
      (within : Executes machine space inner memory performed ending last) :
      Executes machine space (.looping opening inner closing) memory performed ending.outside last

end Execution

/-- A namespace and one function with a structured body. -/
structure Program where
  /-- The function and its namespace. -/
  frame : Frame
  /-- The line that declares the namespace. -/
  declaration : Declaring frame.space
  /-- The line that opens the function. -/
  opening : Phrase ["function", frame.function, "\x7b"]
  /-- The body of the function. -/
  body : Code
  /-- The line that closes the function. -/
  closing : Phrase ["\x7d"]

/-- The lines of a program. -/
def Program.lines (program : Program) : List String :=
  program.declaration.raw :: program.opening.raw :: (program.body.lines ++ [program.closing.raw])

/-- A program as a source. -/
def Program.source (program : Program) : List Read := program.lines.map .ok

/-- No line of a program is the end marker. -/
theorem Program.ne_marker (program : Program) {raw : String} (member : raw ∈ program.lines) :
    Reading.of (Compiler.textOf raw) ≠ .marker := by
  rcases List.mem_cons.mp member with rfl | member
  · exact program.declaration.ne_marker
  · exact program.opening.function.ne_marker_around program.closing.finish program.body.ne_marker
      member

/-- The structured execution of a program: its body comes to its end or returns. -/
def Program.Executes {σ : Type} (program : Program) (machine : Machine σ) (memory : σ)
    (performed : List Written) (last : σ) : Prop :=
  ∃ ending, ending ≠ .leave ∧
    LineAsm.Executes machine program.frame.space program.body memory performed ending last

end LineAsm
