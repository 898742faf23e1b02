import LineAsm.Proofs.Families
import LineAsm.Proofs.Programs
import LineAsm.Proofs.Written
/-!
# Machines that run lines of assembly

A machine runs the lines of a program as they are written, with a program counter. A label names the
place where it stands, and an operation is known by its name (`Operation.named`): a jump goes on at
the label of the name it is given, a comparison notes two numbers for the jumps after it, and a
conditional jump tests them. How operands are read and what all other operations do is left to the
machine. A run is counted in steps (`Machine.run`); steps that are known to happen are taken by
every run that returns (`Machine.Returns.skip`).
-/

namespace LineAsm

/-- What an operation does to the order of execution. -/
inductive Operation where
  /-- The next line follows. -/
  | straight
  /-- Two numbers are compared, and the next line follows. -/
  | compare
  /-- Execution goes on at a label. -/
  | jump
  /-- Execution goes on at a label if the numbers compared last pass a test, and with the next line
  otherwise. -/
  | jumpIf (test : Nat → Nat → Bool)
  /-- Execution goes on where the line does not say. -/
  | away

namespace Operation

/-- The operation of a name. A conditional jump tests unsigned numbers, the left one first. -/
def named (name : String) : Operation :=
  match name with
  | "cmp" => .compare
  | "jmp" => .jump
  | "je" => .jumpIf fun left right => decide (left = right)
  | "jne" => .jumpIf fun left right => decide (left ≠ right)
  | "jb" => .jumpIf fun left right => decide (left < right)
  | "ja" => .jumpIf fun left right => decide (right < left)
  | "jbe" => .jumpIf fun left right => decide (left ≤ right)
  | "jae" => .jumpIf fun left right => decide (right ≤ left)
  | "loop" | "call" | "ret" => .away
  | _ => .straight

/-- The jump that is taken when a condition holds tests this condition. -/
theorem exists_named_jump (condition : Condition) :
    ∃ test, named condition.jump = .jumpIf test ∧
      ∀ left right, test left right = true ↔ condition.Holds left right := by
  cases condition with
  | equal => exact ⟨_, rfl, fun left right => decide_eq_true_iff⟩
  | notEqual => exact ⟨_, rfl, fun left right => decide_eq_true_iff⟩
  | below => exact ⟨_, rfl, fun left right => decide_eq_true_iff⟩
  | above => exact ⟨_, rfl, fun left right => decide_eq_true_iff⟩
  | atMost => exact ⟨_, rfl, fun left right => decide_eq_true_iff⟩
  | atLeast => exact ⟨_, rfl, fun left right => decide_eq_true_iff⟩

/-- Behind a common operation the next line follows. -/
theorem named_of_isCommon {mnemonic : Mnemonic} (common : mnemonic.isCommon = true) :
    named mnemonic.text = .straight := by
  cases mnemonic <;> first | rfl | cases common

end Operation

namespace Written

/-- A line behind which the next line follows, and which is neither a label nor a comparison. -/
def IsStraight : Written → Prop
  | .label _ => False
  | .instruction operation _ => Operation.named operation = .straight

/-- The name that a label gives to its place. -/
def label? : Written → Option String
  | .label name => some name
  | .instruction _ _ => none

/-- The position of the first label of a name. -/
def labelAt? (program : List Written) (name : String) : Option Nat :=
  program.findIdx? fun line => line.label? == some name

end Written

/-- The lines of statements as they are written. -/
def written (code : List Statement) : List Written :=
  code.map fun statement => Written.ofText statement.text

/-- An instruction behind which the next line follows. -/
def Statement.IsOrdinary : Statement → Prop
  | .instruction mnemonic _ => Operation.named mnemonic.text = .straight
  | _ => False

namespace Statement

/-- An instruction of a common operation is ordinary. -/
theorem IsCommon.isOrdinary {statement : Statement} (common : statement.IsCommon) :
    statement.IsOrdinary := by
  cases statement with
  | instruction mnemonic operands => exact Operation.named_of_isCommon common
  | _ => exact common.elim

/-- An ordinary instruction is an instruction. -/
theorem IsOrdinary.isInstruction {statement : Statement} (ordinary : statement.IsOrdinary) :
    statement.isInstruction = true := by
  cases statement with
  | instruction mnemonic operands => rfl
  | _ => exact ordinary.elim

end Statement

/-- All statements of some code are read back from their texts. -/
def Readable (code : List Statement) : Prop := ∀ statement ∈ code, statement.IsReadable

namespace Readable

variable {code : List Statement} {position : Nat}

/-- A statement is written as its line. -/
theorem getElem?_written {statement : Statement} (here : code[position]? = some statement) :
    (written code)[position]? = some (Written.ofText statement.text) := by
  rw [written, List.getElem?_map, here, Option.map_some]

/-- A label is written as its name. -/
theorem label (readable : Readable code) {symbol : Symbol}
    (here : code[position]? = some (.label symbol)) :
    (written code)[position]? = some (.label symbol.text) := by
  have line : Written.ofText (Statement.label symbol).text = .label symbol.text :=
    readable _ (List.mem_of_getElem? here)
  rw [getElem?_written here, line]

/-- An instruction is written as its operation and its operands. -/
theorem instruction (readable : Readable code) {mnemonic : Mnemonic} {operands : List Operand}
    (here : code[position]? = some (.instruction mnemonic operands)) :
    (written code)[position]? =
      some (.instruction mnemonic.text (operands.map Operand.text)) := by
  have line : Written.ofText (Statement.instruction mnemonic operands).text =
      .instruction mnemonic.text (operands.map Operand.text) :=
    readable _ (List.mem_of_getElem? here)
  rw [getElem?_written here, line]

/-- An instruction behind which the next line follows is written as one. -/
theorem isStraight (readable : Readable code) {statement : Statement} (member : statement ∈ code)
    (ordinary : statement.IsOrdinary) : (Written.ofText statement.text).IsStraight := by
  cases statement with
  | instruction mnemonic operands =>
    have line : Written.ofText (Statement.instruction mnemonic operands).text =
        .instruction mnemonic.text (operands.map Operand.text) := readable _ member
    rw [line]
    exact ordinary
  | _ => exact ordinary.elim

/-- A label is found in the lines where it is found in the statements. -/
theorem labelAt?_written (readable : Readable code) (name : String) :
    Written.labelAt? (written code) name = labelAt? code name := by
  induction code with
  | nil => rfl
  | cons statement code ih =>
    have rest := ih fun other member => readable other (List.mem_cons_of_mem statement member)
    have first : ((Written.ofText statement.text).label? == some name) =
        statement.label?.any fun symbol => symbol.text == name := by
      have known := readable statement List.mem_cons_self
      cases statement with
      | label symbol =>
        have line : Written.ofText (Statement.label symbol).text = .label symbol.text := known
        rw [line]
        rfl
      | instruction mnemonic operands =>
        have line : Written.ofText (Statement.instruction mnemonic operands).text =
            .instruction mnemonic.text (operands.map Operand.text) := known
        rw [line]
        rfl
      | _ => exact known.elim
    unfold Written.labelAt? written labelAt? at rest ⊢
    rw [List.map_cons, List.findIdx?_cons, List.findIdx?_cons, first, rest]

end Readable

/-- What executes lines: a way to read operands from the memory, what a line makes of the memory,
and what it leaves of the numbers compared last. -/
structure Machine (σ : Type) where
  /-- The number that an operand stands for. -/
  read : String → σ → Nat
  /-- The memory after a line. -/
  perform : Written → σ → σ
  /-- What a line leaves of the numbers compared last. -/
  disturb : Written → σ → Nat × Nat → Nat × Nat

/-- A point of a run. -/
structure Point (σ : Type) where
  /-- The position of the next line. -/
  position : Nat
  /-- The memory of the machine. -/
  memory : σ
  /-- The numbers compared last. -/
  compared : Nat × Nat
  /-- The straight lines executed so far. -/
  performed : List Written

/-- The point after a line that has no effect of its own. -/
def Point.onward {σ : Type} (point : Point σ) : Point σ :=
  { point with position := point.position + 1 }

/-- The point at the label of a name. -/
def Point.goto? {σ : Type} (point : Point σ) (program : List Written) (name : String) :
    Option (Point σ) :=
  (Written.labelAt? program name).map fun position => { point with position }

namespace Machine

variable {σ : Type}

/-- The memory after some lines. -/
def performAll (machine : Machine σ) (lines : List Written) (memory : σ) : σ :=
  lines.foldl (fun memory line => machine.perform line memory) memory

/-- The point after an instruction, unless execution ends with it. -/
def obey? (machine : Machine σ) (program : List Written) (point : Point σ) (name : String)
    (operands : List String) : Option (Point σ) :=
  match Operation.named name, operands with
  | .compare, [left, right] =>
    some { point.onward with
      compared := (machine.read left point.memory, machine.read right point.memory) }
  | .jump, [target] => point.goto? program target
  | .jumpIf test, [target] =>
    if test point.compared.1 point.compared.2 then point.goto? program target
    else some point.onward
  | .straight, operands =>
    some {
      position := point.position + 1
      memory := machine.perform (.instruction name operands) point.memory
      compared := machine.disturb (.instruction name operands) point.memory point.compared
      performed := point.performed ++ [.instruction name operands] }
  | _, _ => none

/-- The point after the line at a point, unless execution ends there. -/
def next? (machine : Machine σ) (program : List Written) (point : Point σ) : Option (Point σ) :=
  match program[point.position]? with
  | some (.label _) => some point.onward
  | some (.instruction name operands) => machine.obey? program point name operands
  | none => none

/-- The point after a number of steps. -/
def run (machine : Machine σ) (program : List Written) : Nat → Point σ → Option (Point σ)
  | 0, point => some point
  | steps + 1, point => (machine.next? program point).bind (machine.run program steps)

/-- A run leads from one point to another. -/
def Reaches (machine : Machine σ) (program : List Written) (start finish : Point σ) : Prop :=
  ∃ steps, machine.run program steps start = some finish

/-- A run comes to a return after a number of steps. -/
structure Returns (machine : Machine σ) (program : List Written) (steps : Nat)
    (start last : Point σ) : Prop where
  /-- The run comes to the last point. -/
  reached : machine.run program steps start = some last
  /-- The last point is at a return. -/
  ret : program[last.position]? = some (.instruction "ret" [])

/-- A run from a point returns, when it has executed some straight lines and left a memory. -/
def Yields (machine : Machine σ) (program : List Written) (start : Point σ)
    (performed : List Written) (memory : σ) : Prop :=
  ∃ steps last, machine.Returns program steps start last ∧ last.performed = performed ∧
    last.memory = memory

section Steps

variable {machine : Machine σ} {program : List Written} {point : Point σ}

/-- A label is passed. -/
theorem next?_label {name : String} (here : program[point.position]? = some (.label name)) :
    machine.next? program point = some point.onward := by
  rw [next?, here]

/-- A straight line is performed. -/
theorem next?_straight {line : Written} (straight : line.IsStraight)
    (here : program[point.position]? = some line) :
    machine.next? program point = some {
      position := point.position + 1
      memory := machine.perform line point.memory
      compared := machine.disturb line point.memory point.compared
      performed := point.performed ++ [line] } := by
  cases line with
  | label name => exact straight.elim
  | instruction name operands =>
    have follows : Operation.named name = .straight := straight
    rw [next?, here]
    dsimp only [obey?]
    rw [follows]

/-- Execution ends at a return. -/
theorem next?_ret (here : program[point.position]? = some (.instruction "ret" [])) :
    machine.next? program point = none := by
  rw [next?, here]
  rfl

/-- A run goes on from the point after its first step. -/
theorem run_succ {after : Point σ} (moved : machine.next? program point = some after)
    (steps : Nat) : machine.run program (steps + 1) point = machine.run program steps after := by
  rw [run, moved, Option.bind_some]

/-- One step is a run. -/
theorem run_one {after : Point σ} (moved : machine.next? program point = some after) :
    machine.run program 1 point = some after := by
  rw [run_succ moved, run]

/-- A run is followed by a run from where it has come to. -/
theorem run_add {middle : Point σ} {steps : Nat}
    (reached : machine.run program steps point = some middle) (more : Nat) :
    machine.run program (steps + more) point = machine.run program more middle := by
  induction steps generalizing point with
  | zero =>
    rw [run, Option.some.injEq] at reached
    rw [Nat.zero_add, reached]
  | succ steps ih =>
    rw [run] at reached
    obtain ⟨after, moved, rest⟩ := Option.bind_eq_some_iff.mp reached
    have split : steps + 1 + more = steps + more + 1 := by omega
    rw [split, run_succ moved]
    exact ih rest

/-- A run may be followed by another. -/
theorem Reaches.trans {middle last : Point σ} (front : machine.Reaches program point middle)
    (back : machine.Reaches program middle last) : machine.Reaches program point last := by
  obtain ⟨steps, reached⟩ := front
  obtain ⟨more, further⟩ := back
  exact ⟨steps + more, (run_add reached more).trans further⟩

/-- A run that returns takes the steps that are known to happen. -/
theorem Returns.skip {middle last : Point σ} {steps known : Nat}
    (returns : machine.Returns program steps point last)
    (reached : machine.run program known point = some middle) :
    ∃ rest, steps = rest + known ∧ machine.Returns program rest middle last := by
  induction known generalizing point steps with
  | zero =>
    rw [run, Option.some.injEq] at reached
    rw [← reached]
    exact ⟨steps, rfl, returns⟩
  | succ known ih =>
    rw [run] at reached
    obtain ⟨after, moved, further⟩ := Option.bind_eq_some_iff.mp reached
    cases steps with
    | zero =>
      have stays := returns.reached
      rw [run, Option.some.injEq] at stays
      have ended := returns.ret
      rw [← stays] at ended
      rw [next?_ret ended] at moved
      cases moved
    | succ steps =>
      have next := returns.reached
      rw [run_succ moved] at next
      obtain ⟨rest, counted, back⟩ := ih ⟨next, returns.ret⟩ further
      exact ⟨rest, by omega, back⟩

/-- A run that returns comes through every point that is reached, and goes on no longer than
before. -/
theorem Returns.through {middle last : Point σ} {steps : Nat}
    (returns : machine.Returns program steps point last)
    (reached : machine.Reaches program point middle) :
    ∃ rest, rest ≤ steps ∧ machine.Returns program rest middle last := by
  obtain ⟨known, reached⟩ := reached
  obtain ⟨rest, counted, further⟩ := returns.skip reached
  exact ⟨rest, by omega, further⟩

/-- A run that is at a return stays there. -/
theorem Returns.eq_of_ret {last : Point σ} {steps : Nat}
    (returns : machine.Returns program steps point last)
    (here : program[point.position]? = some (.instruction "ret" [])) : last = point := by
  have reached := returns.reached
  cases steps with
  | zero =>
    rw [run, Option.some.injEq] at reached
    exact reached.symm
  | succ steps =>
    rw [run, next?_ret here] at reached
    cases reached

end Steps

section Statements

variable {machine : Machine σ} {code : List Statement} {point : Point σ}

/-- A comparison notes its numbers. -/
theorem next?_cmp (readable : Readable code) {left right : Operand}
    (here : code[point.position]? = some (.instruction .cmp [left, right])) :
    machine.next? (written code) point = some { point.onward with
      compared :=
        (machine.read left.text point.memory, machine.read right.text point.memory) } := by
  rw [next?, readable.instruction here]
  rfl

/-- A jump goes on at its label. -/
theorem next?_jmp (readable : Readable code) {symbol : Symbol} {position : Nat}
    (here : code[point.position]? = some (.instruction .jmp [.target symbol]))
    (found : labelAt? code symbol.text = some position) :
    machine.next? (written code) point = some { point with position } := by
  have gone : machine.next? (written code) point = point.goto? (written code) symbol.text := by
    rw [next?, readable.instruction here]
    rfl
  rw [gone, Point.goto?, readable.labelAt?_written, found, Option.map_some]

/-- A conditional jump goes on at its label exactly when its condition holds. -/
theorem next?_jumpIf (readable : Readable code) {condition : Condition} {symbol : Symbol}
    {position : Nat}
    (here : code[point.position]? = some (.instruction (.jumpIf condition) [.target symbol]))
    (found : labelAt? code symbol.text = some position) :
    (condition.Holds point.compared.1 point.compared.2 →
        machine.next? (written code) point = some { point with position }) ∧
      (¬ condition.Holds point.compared.1 point.compared.2 →
        machine.next? (written code) point = some point.onward) := by
  obtain ⟨test, named, tests⟩ := Operation.exists_named_jump condition
  have gone : machine.next? (written code) point =
      if test point.compared.1 point.compared.2 then some { point with position }
      else some point.onward := by
    rw [next?, readable.instruction here]
    change machine.obey? (written code) point condition.jump [symbol.text] = _
    unfold obey?
    rw [named]
    dsimp only
    rw [Point.goto?, readable.labelAt?_written, found, Option.map_some]
  rw [gone]
  constructor
  · intro holds
    rw [if_pos ((tests _ _).mpr holds)]
  · intro fails
    rw [if_neg (mt (tests _ _).mp fails)]

/-- Ordinary instructions are performed one after the other. -/
theorem run_straight (readable : Readable code) {front : List Statement}
    (ordinary : ∀ statement ∈ front, statement.IsOrdinary) (point : Point σ)
    (placed : Placed code point.position front) :
    ∃ compared, machine.run (written code) front.length point = some {
      position := point.position + front.length
      memory := machine.performAll (written front) point.memory
      compared
      performed := point.performed ++ written front } := by
  induction front generalizing point with
  | nil =>
    refine ⟨point.compared, ?_⟩
    have nothing : written [] = [] := rfl
    rw [nothing, List.append_nil]
    rfl
  | cons statement front ih =>
    have straight := readable.isStraight (List.mem_of_getElem? placed.head)
      (ordinary statement List.mem_cons_self)
    have moved : machine.next? (written code) point = _ :=
      next?_straight straight (Readable.getElem?_written placed.head)
    obtain ⟨compared, reached⟩ := ih
      (fun other member => ordinary other (List.mem_cons_of_mem statement member))
      ⟨point.position + 1, machine.perform (.ofText statement.text) point.memory,
        machine.disturb (.ofText statement.text) point.memory point.compared,
        point.performed ++ [.ofText statement.text]⟩ placed.tail
    refine ⟨compared, ?_⟩
    rw [List.length_cons, run_succ moved, reached]
    have count : point.position + 1 + front.length = point.position + (front.length + 1) := by
      omega
    rw [count, List.append_assoc]
    rfl

end Statements

end Machine

end LineAsm
