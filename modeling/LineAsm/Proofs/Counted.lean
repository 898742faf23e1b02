import LineAsm.Proofs.Sparing
import Mathlib.Algebra.Group.Nat.Defs
/-!
# Counted code

The body of a function can be made of counted blocks only, nested to any depth, around lines that
spare the count register (`Counted`). Such code compiles to its statements (`Counted.laidOut`): a
block loads its count into the count register, and ends with an instruction that counts the
register down and goes back unless it is zero. The register is loaded in front of the block only,
and nothing saves it.
-/

namespace LineAsm

/-- A number of 32 bits that a counted block is given as its count. -/
structure Times where
  /-- The token of the number. -/
  token : Token
  /-- The number. -/
  value : Nat
  /-- The token is a number. -/
  integer : token.kind = .integer
  /-- The token says the number. -/
  said : Port.value? token.value.toList = some value
  /-- The number has 32 bits. -/
  bound : value < 2 ^ 32

namespace Times

/-- The rounds that a count stands for where it is counted down before it is looked at: a count of
zero becomes the largest number first. -/
def rounds (times : Times) : Nat := if times.value = 0 then 2 ^ 32 else times.value

/-- The rounds are one more than a number of 32 bits, and so is the count as far as 32 bits tell. -/
theorem exists_rounds (times : Times) :
    ∃ rounds, rounds < 2 ^ 32 ∧ times.rounds = rounds + 1 ∧
      BitVec.ofNat 32 times.value = BitVec.ofNat 32 (rounds + 1) := by
  have small := times.bound
  unfold rounds
  by_cases zero : times.value = 0
  · refine ⟨2 ^ 32 - 1, by omega, ?_, ?_⟩
    · rw [if_pos zero]
      rfl
    · rw [zero]
      rfl
  · obtain ⟨rounds, positive⟩ := Nat.exists_eq_succ_of_ne_zero zero
    refine ⟨rounds, by omega, ?_, ?_⟩
    · rw [if_neg zero, positive]
    · rw [positive]

/-- Blocks take as many rounds together as their counts say exactly if no count is zero. -/
theorem prod_rounds_eq_iff (around : List Times) :
    (around.map rounds).prod = (around.map value).prod ↔ ∀ times ∈ around, times.value ≠ 0 := by
  have nonzero : (around.map rounds).prod ≠ 0 := by
    intro zeroes
    obtain ⟨count, member, zero⟩ := List.prod_eq_zero_iff_exists_zero_nat.mp zeroes
    obtain ⟨times, -, rfl⟩ := List.mem_map.mp member
    obtain ⟨rounds, -, same, -⟩ := times.exists_rounds
    omega
  constructor
  · intro same times member zero
    have product : (around.map value).prod = 0 :=
      List.prod_eq_zero_iff_exists_zero_nat.mpr ⟨0, List.mem_map.mpr ⟨times, member, zero⟩, rfl⟩
    exact nonzero (same.trans product)
  · intro positive
    apply congrArg List.prod
    apply List.map_congr_left
    intro times member
    exact if_neg (positive times member)

/-- The instruction that loads the count. -/
def load (times : Times) : Statement :=
  .instruction .mov [.register "ECX", .immediate times.token.value]

/-- A number is loaded, for it is not the count register. -/
theorem countLoad_eq (times : Times) : Flow.countLoad times.token = [times.load] := by
  have unlike : ∀ letters ∈ Text.spellings ['E', 'C', 'X'], Port.value? letters = none := by
    decide +kernel
  have other : Text.sameLetters times.token.value "ECX" = false := by
    by_contra same
    have spelled := Text.mem_spellings (by decide) (eq_of_beq (Bool.of_not_eq_false same))
    have absent := unlike _ spelled
    rw [times.said] at absent
    cases absent
  have copied : Operand.verbatim times.token = .immediate times.token.value := by
    rw [Operand.verbatim, times.integer]
  rw [Flow.countLoad, other, copied]
  rfl

end Times

/-- Code made of counted blocks around lines that spare the count register, with its lines. -/
inductive Counted where
  /-- No line. -/
  | skip
  /-- One part after another. -/
  | seq (first second : Counted)
  /-- A line that spares the count register. -/
  | straight (line : Sparing)
  /-- A block that runs a counted number of times. -/
  | again (times : Times) (opening : Saying (.counted times.token)) (inner : Counted)
      (closing : Saying .finish)

namespace Counted

/-- The lines of the code. -/
def lines : Counted → List String
  | .skip => []
  | .seq first second => first.lines ++ second.lines
  | .straight line => [line.raw]
  | .again _ opening inner closing => opening.raw :: (inner.lines ++ [closing.raw])

/-- The number of blocks in the code. -/
def blocks : Counted → Nat
  | .skip | .straight _ => 0
  | .seq first second => first.blocks + second.blocks
  | .again _ _ inner _ => inner.blocks + 1

/-- The statements of the code in a function, after some blocks. -/
def statements (frame : Frame) : Counted → Nat → List Statement
  | .skip, _ => []
  | .seq first second, before =>
    first.statements frame before ++ second.statements frame (before + first.blocks)
  | .straight line, _ => line.code frame.space
  | .again times _ inner _, before =>
    times.load :: .label (.block frame (before + 1) .begin) ::
      (inner.statements frame (before + 1) ++
        [.instruction .loop [.target (.block frame (before + 1) .begin)],
          .label (.block frame (before + 1) .finish)])

/-- The instructions of all lines spare the count register under a namespace. -/
def Spares (space : String) : Counted → Prop
  | .skip => True
  | .seq first second => first.Spares space ∧ second.Spares space
  | .straight line => ∀ statement ∈ line.code space, statement.SparesCount
  | .again _ _ inner _ => inner.Spares space

/-- No line of the code is the end marker. -/
theorem ne_marker (code : Counted) {raw : String} (member : raw ∈ code.lines) :
    Reading.of (Compiler.textOf raw) ≠ .marker := by
  induction code with
  | skip => cases member
  | seq front back front_ih back_ih =>
    rcases List.mem_append.mp member with first | second
    · exact front_ih first
    · exact back_ih second
  | straight line =>
    rw [List.mem_singleton.mp member, line.read]
    nofun
  | again times opening inner closing ih => exact opening.ne_marker_around closing ih member

/-- The labels of the statements are edges of the blocks of the code, each placed once. -/
theorem numbered {frame : Frame} {code : Counted} (spares : code.Spares frame.space)
    (before : Nat) :
    Numbered frame before (before + code.blocks) (labelled (code.statements frame before)) := by
  induction code generalizing before with
  | skip => exact .nil before
  | seq front back front_ih back_ih =>
    have first := front_ih spares.1 before
    have second := back_ih spares.2 (before + front.blocks)
    have count : before + front.blocks + back.blocks = before + (Counted.seq front back).blocks :=
      Nat.add_assoc before front.blocks back.blocks
    rw [count] at second
    change Numbered frame before _ (labelled (front.statements frame before ++ _))
    rw [labelled_append]
    exact first.append second
  | straight line =>
    change Numbered frame before before (labelled (line.code frame.space))
    rw [labelled_instructions fun statement member => (spares statement member).isInstruction]
    exact .nil before
  | again times opening inner closing ih =>
    have both : [Edge.begin, Edge.finish].Nodup := by decide
    have inside := ih spares (before + 1)
    have count : before + 1 + inner.blocks =
        before + (Counted.again times opening inner closing).blocks := by
      have blocks : (Counted.again times opening inner closing).blocks = inner.blocks + 1 := rfl
      omega
    rw [count] at inside
    refine ((Numbered.edges both before).append inside).perm ?_
    change (Symbol.block frame (before + 1) .begin ::
      labelled (inner.statements frame (before + 1) ++
        [.instruction .loop [.target (.block frame (before + 1) .begin)],
          .label (.block frame (before + 1) .finish)])).Perm _
    rw [labelled_append]
    exact List.perm_append_comm.cons _

/-- The code compiles to its statements, in which all lines spare the count register. -/
theorem laidOut (code : Counted) (frame : Frame) :
    LaidOutAs code.lines frame fun _ before after body =>
      after = before + code.blocks ∧ body = code.statements frame before ∧
        code.Spares frame.space := by
  induction code with
  | skip =>
    intro first last passages lines read framed
    obtain ⟨count, left, same, executed⟩ := LaidOutAs.nil frame lines read framed
    exact ⟨count, left, same, executed, trivial⟩
  | seq front back front_ih back_ih =>
    intro first last passages lines read framed
    obtain ⟨total, left, middle, head, rest, ⟨rfl, rfl, here⟩, ⟨rfl, rfl, there⟩, executed⟩ :=
      front_ih.append back_ih lines read framed
    exact ⟨_, left, Nat.add_assoc _ _ _, executed, here, there⟩
  | straight line =>
    intro first last passages lines read framed
    obtain ⟨passage, rfl, same⟩ := List.map_eq_singleton_iff.mp read
    obtain ⟨holds, rfl, rfl⟩ := lines.single
    obtain ⟨kept, executed, spared⟩ := line.executed holds same (Scope.declared_of_frame framed)
    refine ⟨passage.before.blocks.counter, kept, rfl, ?_, spared⟩
    rw [writtenBy, List.flatMap_singleton, executed]
    rfl
  | again times opening inner closing ih =>
    intro first last passages lines read framed
    obtain ⟨count, after, head, body, left, rule, ⟨rfl, rfl, spared⟩, executed⟩ :=
      ih.block opening closing rfl (by decide) lines read framed
    refine ⟨_, left, ?_, ?_, spared⟩
    · have blocks : (Counted.again times opening inner closing).blocks = inner.blocks + 1 := rfl
      omega
    · rw [executed]
      cases rule with
      | counted found =>
        rw [framed] at found
        cases found
        rw [times.countLoad_eq]
        rfl

end Counted

/-- A namespace and one function with a body of counted code. -/
structure CountedProgram where
  /-- The function and its namespace. -/
  frame : Frame
  /-- The line that declares the namespace. -/
  declaration : Declaring frame.space
  /-- The line that opens the function. -/
  opening : Saying (.function frame.function)
  /-- The body of the function. -/
  body : Counted
  /-- The line that closes the function. -/
  closing : Saying .finish

namespace CountedProgram

/-- The lines of a program. -/
def lines (program : CountedProgram) : List String :=
  program.declaration.raw :: program.opening.raw :: (program.body.lines ++ [program.closing.raw])

/-- A program as a source. -/
def source (program : CountedProgram) : List Read := program.lines.map .ok

/-- No line of a program is the end marker. -/
theorem ne_marker (program : CountedProgram) {raw : String} (member : raw ∈ program.lines) :
    Reading.of (Compiler.textOf raw) ≠ .marker := by
  rcases List.mem_cons.mp member with rfl | member
  · exact program.declaration.ne_marker
  · exact program.opening.ne_marker_around program.closing program.body.ne_marker member

/-- A program that compiles becomes the statements of a function around those of its body, in which
all lines spare the count register. -/
theorem executable_of_compiled {options : Options} {program : CountedProgram}
    (compiled : ((Compiler.new options Family.standard).compile ([] : List Listing.Line)
      program.source).failure = none) :
    program.body.Spares program.frame.space ∧
      executable (Compiler.statements ((Compiler.new options Family.standard).compile
        ([] : List Listing.Line) program.source).sink) =
        functionCode program.frame (program.body.statements program.frame 0) := by
  obtain ⟨passages, last, lines, read, written⟩ :=
    Compiler.transcribed_of_compiled (fun raw member => program.ne_marker member) compiled
  obtain ⟨count, body, ⟨-, rfl, spared⟩, executed⟩ :=
    (program.body.laidOut program.frame).function program.declaration program.opening
      program.closing lines read
  refine ⟨spared, ?_⟩
  have call : Compiler.statements ((Compiler.new options Family.standard).compile
      ([] : List Listing.Line) program.source).sink = writtenBy passages := written
  rw [call]
  exact executed

end CountedProgram

end LineAsm
