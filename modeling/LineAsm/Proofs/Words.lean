import LineAsm.Proofs.Numerals
import LineAsm.Proofs.Operands
import Mathlib.Logic.Function.Basic
/-!
# Words in registers and variables

A machine of words of 32 bits: a cell is one of eight registers, in any mix of upper and lower case,
or a variable, and an instruction of arithmetic changes one cell (`Statement.execute?`). What an
operand of an instruction reads is said by the token that names it (`Operand.meets_origin`),
and every number of a source has a value (`Token.isSome_value?`). Some code puts a word into a cell
when it leaves all other cells as they were (`Puts`); code that puts words into one cell, one after
the other, puts the last of them there (`Puts.append`).
-/

namespace LineAsm

/-- The registers of 32 bits. -/
inductive Register where
  /-- The accumulator. -/
  | eax
  /-- The base register. -/
  | ebx
  /-- The count register. -/
  | ecx
  /-- The data register. -/
  | edx
  /-- The source index. -/
  | esi
  /-- The destination index. -/
  | edi
  /-- The stack pointer. -/
  | esp
  /-- The base pointer. -/
  | ebp
deriving DecidableEq, Repr

namespace Register

/-- The name of a register. -/
def name : Register → String
  | .eax => "EAX"
  | .ebx => "EBX"
  | .ecx => "ECX"
  | .edx => "EDX"
  | .esi => "ESI"
  | .edi => "EDI"
  | .esp => "ESP"
  | .ebp => "EBP"

/-- Every register once. -/
def all : List Register := [.eax, .ebx, .ecx, .edx, .esi, .edi, .esp, .ebp]

/-- The register of a name, in any mix of upper and lower case. -/
def named? (name : String) : Option Register :=
  all.find? fun register => Text.sameLetters register.name name

end Register

/-- What holds a word. -/
inductive Cell where
  /-- A register. -/
  | register (register : Register)
  /-- A variable, by its name in the assembly. -/
  | variable (name : String)
deriving DecidableEq, Repr

/-- The words in all cells. -/
abbrev Words := Cell → BitVec 32

/-- Where an operand takes its word from. -/
inductive Origin where
  /-- The operand is the word. -/
  | word (value : BitVec 32)
  /-- The word is in a cell. -/
  | cell (cell : Cell)
deriving DecidableEq, Repr

/-- The word that comes from an origin. -/
def Origin.read (words : Words) : Origin → BitVec 32
  | .word value => value
  | .cell place => words place

/-- A word put into another cell is not read. -/
theorem Origin.read_update {origin : Origin} {cell : Cell} (other : origin ≠ .cell cell)
    (words : Words) (value : BitVec 32) :
    origin.read (Function.update words cell value) = origin.read words := by
  cases origin with
  | word value => rfl
  | cell place =>
    have apart : place ≠ cell := fun same => other (congrArg Origin.cell same)
    exact Function.update_of_ne apart value words

/-- Where an operand of an instruction takes its word from, if it is a word. -/
def Operand.origin? (operand : Operand) : Option Origin :=
  match operand.form with
  | .register name => (Register.named? name).map fun register => .cell (.register register)
  | .immediate digits => (Port.value? digits.toList).map fun value => .word (BitVec.ofNat 32 value)
  | .variable symbol => some (.cell (.variable symbol.text))
  | .memory _ | .target _ | .word _ => none

/-- What an operation with one operand makes of its word. -/
def Mnemonic.unary? : Mnemonic → Option (BitVec 32 → BitVec 32)
  | .neg => some fun word => -word
  | .inc => some fun word => word + 1
  | .dec => some fun word => word - 1
  | _ => none

/-- What an operation with two operands makes of their words. -/
def Mnemonic.binary? : Mnemonic → Option (BitVec 32 → BitVec 32 → BitVec 32)
  | .mov => some fun _ source => source
  | .add => some fun target source => target + source
  | .sub => some fun target source => target - source
  | .and => some fun target source => target &&& source
  | .or => some fun target source => target ||| source
  | .xor => some fun target source => target ^^^ source
  | _ => none

/-- The words after a statement, if it is an instruction of arithmetic on words. -/
def Statement.execute? (words : Words) : Statement → Option Words
  | .instruction mnemonic [target] =>
    match mnemonic.unary?, target.origin? with
    | some change, some (.cell cell) => some (Function.update words cell (change (words cell)))
    | _, _ => none
  | .instruction mnemonic [target, source] =>
    match mnemonic.binary?, target.origin?, source.origin? with
    | some operation, some (.cell cell), some origin =>
      some (Function.update words cell (operation (words cell) (origin.read words)))
    | _, _, _ => none
  | _ => none

/-- The words after some statements. -/
def executeAll? (code : List Statement) (words : Words) : Option Words :=
  code.foldlM Statement.execute? words

/-- Code that puts a word into a cell, made of the words before, and leaves all other cells. -/
def Puts (code : List Statement) (cell : Cell) (value : Words → BitVec 32) : Prop :=
  ∀ words, executeAll? code words = some (Function.update words cell (value words))

section Puts

variable {mnemonic : Mnemonic} {target source : Operand} {cell : Cell}
  {first second : List Statement} {value last : Words → BitVec 32}

/-- An operation with one operand puts what it makes of it there. -/
theorem puts_unary {change : BitVec 32 → BitVec 32} (known : mnemonic.unary? = some change)
    (names : target.origin? = some (.cell cell)) :
    Puts [.instruction mnemonic [target]] cell fun words => change (words cell) := by
  intro words
  simp [executeAll?, Statement.execute?, known, names]

/-- An operation with two operands puts what it makes of them into the first. -/
theorem puts_binary {operation : BitVec 32 → BitVec 32 → BitVec 32} {origin : Origin}
    (known : mnemonic.binary? = some operation) (names : target.origin? = some (.cell cell))
    (reads : source.origin? = some origin) :
    Puts [.instruction mnemonic [target, source]] cell fun words =>
      operation (words cell) (origin.read words) := by
  intro words
  simp [executeAll?, Statement.execute?, known, names, reads]

/-- Of two words that are put into one cell, the second one stays, made of the first. -/
theorem Puts.append (one : Puts first cell value) (other : Puts second cell last) :
    Puts (first ++ second) cell fun words =>
      last (Function.update words cell (value words)) := by
  intro words
  have start : executeAll? first words = some (Function.update words cell (value words)) :=
    one words
  have further := other (Function.update words cell (value words))
  unfold executeAll? at start further ⊢
  rw [List.foldlM_append, start]
  refine further.trans ?_
  rw [Function.update_idem]

/-- The word may be said in another way. -/
theorem Puts.congr (one : Puts first cell value) (same : ∀ words, value words = last words) :
    Puts first cell last := by
  intro words
  rw [one words, same]

end Puts

/-- Where a token takes its word from, in a namespace: a register of 32 bits, a number or a
variable. -/
def Token.origin? (space : String) (token : Token) : Option Origin :=
  match token.kind with
  | .register =>
    (Register.named? token.value).map fun register => .cell (.register register)
  | .integer =>
    (Port.value? token.value.toList).map fun value => .word (BitVec.ofNat 32 value)
  | .identifier => some (.cell (.variable (space ++ "_" ++ token.value)))
  | _ => none

/-- Tokens that say the same take their words from one origin. -/
theorem Token.origin?_of_same {left right : Token} (same : left.same right = true)
    (space : String) : left.origin? space = right.origin? space := by
  obtain ⟨kinds, values⟩ := Token.same_iff.mp same
  simp only [origin?, kinds, values]

/-- The namespace that qualifies the variables of a state. -/
def State.named (state : State) : String := state.declared.getD ""

namespace Operand

/-- The word of an operand does not depend on its stated width. -/
@[simp] theorem origin?_sized (operand : Operand) : operand.sized.origin? = operand.origin? := by
  obtain ⟨form, width⟩ := operand
  cases form <;> rfl

/-- The operand that a token names has its word from where the token says. -/
theorem meets_origin (token : Token) (state : State) :
    Meets (fun operand => operand.origin? = token.origin? state.named) (fun _ => True)
      (ofToken token state) := by
  obtain ⟨kind, value, column⟩ := token
  cases kind with
  | identifier =>
    unfold ofToken
    cases space : state.qualifier with
    | error cause => trivial
    | ok name =>
      have found := State.qualifier_eq_ok_iff.mp space
      have declared : state.declared = some name := (Option.filter_eq_some_iff.mp found).1
      have named : state.named = name := by rw [State.named, declared, Option.getD_some]
      rw [named]
      rfl
  | register | integer | memory => rfl
  | _ => trivial

/-- A sized operand that a token names has its word from where the token says. -/
theorem meets_origin_sized (token : Token) (state : State) :
    Meets (fun operand => operand.origin? = token.origin? state.named) (fun _ => True)
      (sizedOfToken token state) := by
  have known := meets_origin token state
  unfold sizedOfToken
  cases named : ofToken token state with
  | error cause => trivial
  | ok operand =>
    rw [named] at known
    exact (origin?_sized operand).trans known

/-- Two operands that are asked for together have their words from where their tokens say. -/
theorem meets_origins (destination source : Token) (state : State) :
    Meets (fun operands => ∃ first second, operands = [first, second] ∧
        first.origin? = destination.origin? state.named ∧
        second.origin? = source.origin? state.named) (fun _ => True)
      (pair destination source state) := by
  by_cases number : destination.kind = .integer
  · rw [pair, if_pos (beq_iff_eq.mpr number)]
    trivial
  · by_cases both : (destination.isMemory && source.isMemory) = true
    · rw [pair, if_neg (mt beq_iff_eq.mp number), if_pos both]
      trivial
    · rw [pair_eq_bind number (Bool.of_not_eq_true both)]
      have start : Meets (fun operand => operand.origin? = destination.origin? state.named)
          (fun _ => True) (if destination.isMemory && source.kind == .integer
            then sizedOfToken destination state else ofToken destination state) := by
        split
        · exact meets_origin_sized destination state
        · exact meets_origin destination state
      refine start.bind fun first one => (meets_origin source state).bind fun second other => ?_
      exact ⟨first, second, rfl, one, other⟩

end Operand

namespace Token

/-- A token that is a number has a value. -/
theorem isSome_value? {line : String} {tokens : List Token} (read : ofLine line = .ok tokens)
    {token : Token} (member : token ∈ tokens) (number : token.kind = .integer) :
    (Port.value? token.value.toList).isSome = true := by
  have kept : token.kind.isRemark = false := by
    rw [number]
    rfl
  have classed := class_of_ofLine read member kept
  rw [number] at classed
  exact classed.isSome_value?

end Token

end LineAsm
