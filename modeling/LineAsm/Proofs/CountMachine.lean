import LineAsm.Proofs.Counted
import Mathlib.Computability.StateTransition
/-!
# Machines with a count register

A machine runs a list of statements in which a register counts (`CountMachine`). A counted block is
entered with its count in the register. Where the statements in it leave the register as it is, the
block is over after as many rounds as the count says; a count of zero is counted down to the largest
number first (`CountMachine.BlockAt.runs`). Where they leave zero in the register, as another block
does, the register is counted down to the largest number each time before the block goes back, and
the block is never over (`CountMachine.BlockAt.not_mem_eval`).
-/

namespace LineAsm

open StateTransition

/-- A transition function that always comes back to points of a kind does not come to an end from
one of them. -/
theorem not_mem_eval_of_recurring {α : Type} {f : α → Option α} {kind : α → Prop}
    (again : ∀ point, kind point → ∃ next, kind next ∧ Reaches₁ f point next) {start : α}
    (first : kind start) (last : α) : last ∉ eval f start := by
  intro ended
  have never : ∀ point, kind point → ¬ Reaches f start point := by
    refine evalInduction ended ?_
    intro current reaches_end ih point here reached
    obtain ⟨next, there, more⟩ := again point here
    have beyond : Reaches₁ f current next := Relation.TransGen.trans_right reached more
    obtain ⟨middle, moved, rest⟩ := Relation.TransGen.head'_iff.mp beyond
    exact ih middle moved next there rest
  exact never start first .refl

/-- What executes instructions where one register counts: what an instruction and the count down
make of the memory, and what the memory holds in the count register. -/
structure CountMachine (σ : Type) where
  /-- The memory after an instruction. -/
  perform : Statement → σ → σ
  /-- The number in the count register. -/
  count : σ → BitVec 32
  /-- The memory after the count register has been counted down. -/
  countDown : σ → σ
  /-- Loading a count puts it into the count register. -/
  count_load : ∀ (times : Times) (memory : σ),
    count (perform times.load memory) = BitVec.ofNat 32 times.value
  /-- An instruction that spares the count register leaves the number in it. -/
  count_spared : ∀ {statement : Statement}, statement.SparesCount → ∀ memory : σ,
    count (perform statement memory) = count memory
  /-- Counting down takes one from the number in the count register. -/
  count_countDown : ∀ memory : σ, count (countDown memory) = count memory - 1

namespace CountMachine

variable {σ : Type}

/-- A point of a run. -/
structure Point (σ : Type) where
  /-- The position of the next statement. -/
  position : Nat
  /-- The memory of the machine. -/
  memory : σ
  /-- The positions of the instructions that were performed so far, in order. -/
  performed : List Nat

/-- The point after the statement at a point, unless execution ends there: a label is passed, the
end of a counted block counts down and goes back unless the count is zero, and every other
instruction that goes on with the next statement is performed. -/
def next? (machine : CountMachine σ) (program : List Statement) (point : Point σ) :
    Option (Point σ) :=
  match program[point.position]? with
  | some (.label _) => some { point with position := point.position + 1 }
  | some (.instruction .loop [⟨.target symbol, _⟩]) =>
    let memory := machine.countDown point.memory
    if machine.count memory = 0 then some { point with position := point.position + 1, memory }
    else (labelAt? program symbol.text).map fun position => { point with position, memory }
  | some (.instruction mnemonic operands) =>
    if mnemonic.isSequential then
      some {
        position := point.position + 1
        memory := machine.perform (.instruction mnemonic operands) point.memory
        performed := point.performed ++ [point.position] }
    else none
  | _ => none

/-- From any memory, a run leads from one position to another and performs the instructions at some
positions on the way, and it leaves a number in the count register that depends on the one
before. -/
def Runs (machine : CountMachine σ) (program : List Statement) (start finish : Nat)
    (trail : List Nat) (left : BitVec 32 → BitVec 32) : Prop :=
  ∀ memory performed, ∃ last, machine.count last = left (machine.count memory) ∧
    Reaches (machine.next? program) ⟨start, memory, performed⟩
      ⟨finish, last, performed ++ trail⟩

section Steps

variable {machine : CountMachine σ} {program : List Statement} {point : Point σ}

/-- A label is passed. -/
theorem next?_label {symbol : Symbol} (here : program[point.position]? = some (.label symbol)) :
    machine.next? program point = some { point with position := point.position + 1 } := by
  rw [next?, here]

/-- An instruction that goes on with the next statement is performed. -/
theorem next?_sequential {mnemonic : Mnemonic} {operands : List Operand}
    (sequential : mnemonic.isSequential = true)
    (here : program[point.position]? = some (.instruction mnemonic operands)) :
    machine.next? program point = some {
      position := point.position + 1
      memory := machine.perform (.instruction mnemonic operands) point.memory
      performed := point.performed ++ [point.position] } := by
  rw [next?, here]
  dsimp only
  split
  · rename_i same
    cases same
  · rename_i same
    cases same
    cases sequential
  · rename_i same
    cases same
    rw [if_pos sequential]
  · rename_i other
    exact absurd rfl (other mnemonic operands)

/-- The end of a counted block is passed when the count comes to zero, and goes back otherwise. -/
theorem next?_loop {symbol : Symbol} {position : Nat}
    (here : program[point.position]? = some (.instruction .loop [.target symbol]))
    (found : labelAt? program symbol.text = some position) :
    machine.next? program point =
      if machine.count point.memory = 1 then
        some ⟨point.position + 1, machine.countDown point.memory, point.performed⟩
      else some ⟨position, machine.countDown point.memory, point.performed⟩ := by
  have gone : machine.next? program point =
      if machine.count (machine.countDown point.memory) = 0 then
        some ⟨point.position + 1, machine.countDown point.memory, point.performed⟩
      else (labelAt? program symbol.text).map fun position =>
        ⟨position, machine.countDown point.memory, point.performed⟩ := by
    rw [next?, here]
    rfl
  have zero : machine.count (machine.countDown point.memory) = 0 ↔
      machine.count point.memory = 1 := by
    rw [machine.count_countDown, BitVec.sub_eq_iff_eq_add]
    rfl
  rw [gone, found, Option.map_some]
  simp only [zero]

/-- Execution ends at an instruction that goes on elsewhere, unless it is the end of a counted
block. -/
theorem next?_departing {mnemonic : Mnemonic} {operands : List Operand}
    (departs : mnemonic.isSequential = false)
    (other : mnemonic = .loop → ∀ symbol dword, operands ≠ [⟨.target symbol, dword⟩])
    (here : program[point.position]? = some (.instruction mnemonic operands)) :
    machine.next? program point = none := by
  rw [next?, here]
  dsimp only
  split
  · rename_i same
    cases same
  · rename_i same
    cases same
    exact absurd rfl (other rfl _ _)
  · rename_i same
    cases same
    rw [departs, if_neg Bool.false_ne_true]
  · rfl

/-- Execution ends at a return. -/
theorem next?_ret (here : program[point.position]? = some (.instruction .ret [])) :
    machine.next? program point = none := by
  rw [next?, here]
  rfl

/-- A run may stay where it is. -/
theorem Runs.refl (start : Nat) : machine.Runs program start start [] id := by
  intro memory performed
  refine ⟨memory, rfl, ?_⟩
  rw [List.append_nil]
  exact .refl

/-- A run may be followed by another. -/
theorem Runs.trans {start middle finish : Nat} {trail more : List Nat}
    {left further : BitVec 32 → BitVec 32} (front : machine.Runs program start middle trail left)
    (back : machine.Runs program middle finish more further) :
    machine.Runs program start finish (trail ++ more) (further ∘ left) := by
  intro memory performed
  obtain ⟨between, counted, reached⟩ := front memory performed
  obtain ⟨last, ended, onward⟩ := back between (performed ++ trail)
  refine ⟨last, ?_, ?_⟩
  · rw [ended, counted]
    rfl
  · rw [← List.append_assoc]
    exact reached.trans onward

/-- Instructions that spare the count register are performed one after the other, and leave the
number in it. -/
theorem runs_spared {code : List Statement} (spares : ∀ statement ∈ code, statement.SparesCount)
    {position : Nat} (placed : Placed program position code) :
    machine.Runs program position (position + code.length) (List.range' position code.length)
      id := by
  induction code generalizing position with
  | nil => exact .refl position
  | cons statement code ih =>
    have spared := spares statement List.mem_cons_self
    have others : ∀ other ∈ code, other.SparesCount :=
      fun other member => spares other (List.mem_cons_of_mem statement member)
    have first : machine.Runs program position (position + 1) [position] id := by
      intro memory performed
      refine ⟨machine.perform statement memory, machine.count_spared spared memory, ?_⟩
      cases statement with
      | instruction mnemonic operands =>
        have sequential := (Bool.and_eq_true_iff.mp spared.1).1
        exact .single (next?_sequential sequential placed.head)
      | _ => exact spared.elim
    have whole := first.trans (ih others placed.tail)
    have length : position + (statement :: code).length = position + 1 + code.length := by
      rw [List.length_cons]
      omega
    rw [length, List.length_cons, List.range'_succ]
    exact whole

end Steps

/-- A counted block stands in a program: its load, its label, some statements in it, the instruction
that goes back, and the label at its end. -/
structure BlockAt (program : List Statement) (times : Times) (start size : Nat) (symbol : Symbol) :
    Prop where
  /-- The load stands first. -/
  load : program[start]? = some times.load
  /-- The label follows. -/
  label : program[start + 1]? = some (.label symbol)
  /-- No label before has its name. -/
  found : labelAt? program symbol.text = some (start + 1)
  /-- Behind the statements in the block the label is gone back to. -/
  back : program[start + 2 + size]? = some (.instruction .loop [.target symbol])
  /-- A label is last. -/
  finish : ∃ other, program[start + 2 + size + 1]? = some (.label other)

namespace BlockAt

variable {machine : CountMachine σ} {program : List Statement} {times : Times}
  {start size : Nat} {symbol : Symbol} {trail : List Nat}

/-- The block is entered with its count in the register. -/
theorem enters (block : BlockAt program times start size symbol) :
    machine.Runs program start (start + 1) [start] fun _ => BitVec.ofNat 32 times.value := by
  intro memory performed
  refine ⟨machine.perform times.load memory, machine.count_load times memory, ?_⟩
  exact .single (next?_sequential rfl block.load)

/-- The label of the block is passed. -/
theorem passes (block : BlockAt program times start size symbol) :
    machine.Runs program (start + 1) (start + 2) [] id := by
  intro memory performed
  refine ⟨memory, rfl, ?_⟩
  rw [List.append_nil]
  exact .single (next?_label block.label)

/-- The block is over when one was left in the count register. -/
theorem ends (block : BlockAt program times start size symbol) {memory : σ}
    (one : machine.count memory = 1) (performed : List Nat) :
    machine.count (machine.countDown memory) = 0 ∧
      Reaches (machine.next? program) ⟨start + 2 + size, memory, performed⟩
        ⟨start + (size + 4), machine.countDown memory, performed⟩ := by
  obtain ⟨other, finish⟩ := block.finish
  have down : machine.next? program ⟨start + 2 + size, memory, performed⟩ =
      some ⟨start + 2 + size + 1, machine.countDown memory, performed⟩ := by
    rw [next?_loop block.back block.found, if_pos one]
  have past : machine.next? program
      ⟨start + 2 + size + 1, machine.countDown memory, performed⟩ =
        some ⟨start + 2 + size + 1 + 1, machine.countDown memory, performed⟩ :=
    next?_label finish
  have place : start + 2 + size + 1 + 1 = start + (size + 4) := by omega
  constructor
  · rw [machine.count_countDown, one]
    rfl
  · rw [place] at past
    exact .head down (.single past)

/-- The block goes back to its label when any other number was left in the count register. -/
theorem returns (block : BlockAt program times start size symbol) {memory : σ}
    (other : machine.count memory ≠ 1) (performed : List Nat) :
    machine.next? program ⟨start + 2 + size, memory, performed⟩ =
      some ⟨start + 1, machine.countDown memory, performed⟩ := by
  rw [next?_loop block.back block.found, if_neg other]

/-- A block whose statements leave the number in the count register is over after as many rounds as
the number says, and leaves zero. -/
theorem runs_rounds (block : BlockAt program times start size symbol)
    (inner : machine.Runs program (start + 2) (start + 2 + size) trail id) {rounds : Nat}
    (bound : rounds < 2 ^ 32) (memory : σ) (performed : List Nat)
    (counts : machine.count memory = BitVec.ofNat 32 (rounds + 1)) :
    ∃ last, machine.count last = 0 ∧
      Reaches (machine.next? program) ⟨start + 1, memory, performed⟩
        ⟨start + (size + 4), last,
          performed ++ (List.replicate (rounds + 1) trail).flatten⟩ := by
  -- The induction is on the rounds that follow the one at hand.
  induction rounds generalizing memory performed with
  | zero =>
    obtain ⟨middle, kept, reached⟩ := block.passes.trans inner memory performed
    have one : machine.count middle = 1 := kept.trans counts
    obtain ⟨zero, past⟩ := block.ends one (performed ++ trail)
    refine ⟨machine.countDown middle, zero, ?_⟩
    rw [List.replicate_one, List.flatten_singleton]
    exact reached.trans past
  | succ rounds ih =>
    obtain ⟨middle, kept, reached⟩ := block.passes.trans inner memory performed
    have left : machine.count middle = BitVec.ofNat 32 (rounds + 2) := kept.trans counts
    have other : machine.count middle ≠ 1 := by
      rw [left]
      intro same
      have numbers := congrArg BitVec.toNat same
      have one : (1 : BitVec 32).toNat = 1 := rfl
      rw [BitVec.toNat_ofNat, one] at numbers
      omega
    have fewer : machine.count (machine.countDown middle) = BitVec.ofNat 32 (rounds + 1) := by
      rw [machine.count_countDown, left, BitVec.sub_eq_iff_eq_add]
      exact BitVec.ofNat_add (rounds + 1) 1
    obtain ⟨last, zero, further⟩ :=
      ih (by omega) (machine.countDown middle) (performed ++ trail) fewer
    refine ⟨last, zero, ?_⟩
    rw [List.replicate_succ, List.flatten_cons, ← List.append_assoc]
    exact reached.trans (.head (block.returns other (performed ++ trail)) further)

/-- A block whose statements leave the number in the count register takes the rounds that its count
stands for, and leaves zero. -/
theorem runs (block : BlockAt program times start size symbol)
    (inner : machine.Runs program (start + 2) (start + 2 + size) trail id) :
    machine.Runs program start (start + (size + 4))
      (start :: (List.replicate times.rounds trail).flatten) fun _ => 0 := by
  intro memory performed
  obtain ⟨loaded, counts, reached⟩ := block.enters memory performed
  obtain ⟨rounds, bound, same, number⟩ := times.exists_rounds
  obtain ⟨last, zero, further⟩ :=
    block.runs_rounds inner bound loaded (performed ++ [start]) (counts.trans number)
  refine ⟨last, zero, ?_⟩
  rw [same, List.append_cons]
  exact reached.trans further

/-- A block whose statements leave zero in the count register is never over. -/
theorem not_mem_eval (block : BlockAt program times start size symbol)
    (inner : machine.Runs program (start + 2) (start + 2 + size) trail fun _ => 0) (memory : σ)
    (performed : List Nat) (last : Point σ) :
    last ∉ eval (machine.next? program) ⟨start, memory, performed⟩ := by
  have again : ∀ point : Point σ, point.position = start + 1 →
      ∃ next : Point σ, next.position = start + 1 ∧
        Reaches₁ (machine.next? program) point next := by
    rintro ⟨position, memory, performed⟩ rfl
    obtain ⟨middle, zero, reached⟩ := block.passes.trans inner memory performed
    -- Zero is counted down to the largest number, so the block goes back from any memory.
    have other : machine.count middle ≠ 1 := by
      rw [zero]
      show (0 : BitVec 32) ≠ 1
      decide
    have back := block.returns other (performed ++ trail)
    exact ⟨_, rfl, .tail' reached back⟩
  obtain ⟨loaded, -, entered⟩ := block.enters memory performed
  rw [reaches_eval entered]
  exact not_mem_eval_of_recurring again rfl last

end BlockAt

end CountMachine

end LineAsm
