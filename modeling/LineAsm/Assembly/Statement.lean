import LineAsm.Assembly.Symbol
/-!
# Statements of the assembly

A line of assembly is a comment, a label, an instruction, a datum, text copied from the source,
or nothing. Instructions keep the form of their operands, so that what a line does can be read
from the statement and not only from its text; `Statement.text` is the one place that decides
how a statement is written.
-/

namespace LineAsm

/-- How two operands of a comparison relate, as unsigned numbers. -/
inductive Condition where
  /-- Left and right are one number. -/
  | equal
  /-- Left and right are two numbers. -/
  | notEqual
  /-- Left is less than right. -/
  | below
  /-- Left is greater than right. -/
  | above
  /-- Left is not greater than right. -/
  | atMost
  /-- Left is not less than right. -/
  | atLeast
deriving DecidableEq, Repr

namespace Condition

/-- The condition that holds exactly when another does not. -/
def negate : Condition → Condition
  | .equal => .notEqual
  | .notEqual => .equal
  | .below => .atLeast
  | .above => .atMost
  | .atMost => .above
  | .atLeast => .below

/-- Negating twice gives the condition back. -/
@[simp] theorem negate_negate (condition : Condition) : condition.negate.negate = condition := by
  cases condition <;> rfl

/-- Whether the condition holds of two numbers. -/
def Holds (condition : Condition) (left right : Nat) : Prop :=
  match condition with
  | .equal => left = right
  | .notEqual => left ≠ right
  | .below => left < right
  | .above => right < left
  | .atMost => left ≤ right
  | .atLeast => right ≤ left

/-- A negated condition holds exactly when the condition does not. -/
theorem negate_holds_iff (condition : Condition) (left right : Nat) :
    condition.negate.Holds left right ↔ ¬ condition.Holds left right := by
  cases condition <;> simp only [negate, Holds] <;> omega

/-- The jump taken when the condition holds. -/
def jump : Condition → String
  | .equal => "je"
  | .notEqual => "jne"
  | .below => "jb"
  | .above => "ja"
  | .atMost => "jbe"
  | .atLeast => "jae"

end Condition

/-- The operation of an instruction. -/
inductive Mnemonic where
  /-- Copy the second operand to the first. -/
  | mov
  /-- Add the second operand to the first. -/
  | add
  /-- Subtract the second operand from the first. -/
  | sub
  /-- Keep the bits that both operands have. -/
  | and
  /-- Set the bits that the second operand has. -/
  | or
  /-- Flip the bits that the second operand has. -/
  | xor
  /-- Change the sign. -/
  | neg
  /-- Count up by one. -/
  | inc
  /-- Count down by one. -/
  | dec
  /-- Shift to the left. -/
  | shl
  /-- Shift to the right. -/
  | shr
  /-- Rotate to the left. -/
  | rol
  /-- Rotate to the right. -/
  | ror
  /-- Put on the stack. -/
  | push
  /-- Take from the stack. -/
  | pop
  /-- Read from a port. -/
  | input
  /-- Write to a port. -/
  | output
  /-- Compare two numbers, for the jumps that follow. -/
  | cmp
  /-- Test the bits that both operands have, for the jumps that follow. -/
  | test
  /-- Jump. -/
  | jmp
  /-- Jump when the last comparison had a given outcome. -/
  | jumpIf (condition : Condition)
  /-- Count the count register down and jump unless it is zero. -/
  | loop
  /-- Call a function. -/
  | call
  /-- Return from a function. -/
  | ret
  /-- An operation known by its text only. -/
  | other (text : String)
deriving DecidableEq, Repr

/-- How an operation is written. -/
def Mnemonic.text : Mnemonic → String
  | .mov => "mov"
  | .add => "add"
  | .sub => "sub"
  | .and => "and"
  | .or => "or"
  | .xor => "xor"
  | .neg => "neg"
  | .inc => "inc"
  | .dec => "dec"
  | .shl => "shl"
  | .shr => "shr"
  | .rol => "rol"
  | .ror => "ror"
  | .push => "push"
  | .pop => "pop"
  | .input => "in"
  | .output => "out"
  | .cmp => "cmp"
  | .test => "test"
  | .jmp => "jmp"
  | .jumpIf condition => condition.jump
  | .loop => "loop"
  | .call => "call"
  | .ret => "ret"
  | .other text => text

/-- What an operand refers to. -/
inductive Operand.Form where
  /-- A register, by the name the source gives it. -/
  | register (name : String)
  /-- A number, in the digits of the source. -/
  | immediate (digits : String)
  /-- The memory at an address written between brackets. -/
  | memory (address : String)
  /-- The memory of a variable. -/
  | variable (symbol : Symbol)
  /-- A place in the code. -/
  | target (symbol : Symbol)
  /-- A word copied as it stands. -/
  | word (text : String)
deriving DecidableEq, Repr

/-- An operand, with an explicit width where the other operand does not tell it. -/
structure Operand where
  /-- What the operand refers to. -/
  form : Operand.Form
  /-- Whether its width is stated to be 32 bits. -/
  dword : Bool := false
deriving DecidableEq, Repr

namespace Operand

/-- How what an operand refers to is written. -/
def Form.text : Form → String
  | .register name => name
  | .immediate digits => digits
  | .memory address => address
  | .variable symbol => "[" ++ symbol.text ++ "]"
  | .target symbol => symbol.text
  | .word text => text

/-- Memory named by an address or by a variable. -/
def Form.isMemory : Form → Bool
  | .memory _ => true
  | .variable _ => true
  | _ => false

/-- How an operand is written. -/
def text (operand : Operand) : String :=
  if operand.dword then "dword " ++ operand.form.text else operand.form.text

/-- An operand whose width is stated if nothing else can tell it: numbers and memory. -/
def sized (operand : Operand) : Operand :=
  match operand.form with
  | .immediate _ | .memory _ | .variable _ => { operand with dword := true }
  | _ => operand

end Operand

/-- What a variable holds at the start. -/
inductive Datum where
  /-- The number zero. -/
  | zero
  /-- A number, in the digits of the source. -/
  | number (digits : String)
  /-- A quoted text with a zero byte after it. -/
  | text (quoted : String)
deriving DecidableEq, Repr

/-- The directive that lays out a datum. -/
def Datum.directive : Datum → String
  | .zero => "dd 0"
  | .number digits => "dd " ++ digits
  | .text quoted => "db " ++ quoted ++ ", 0"

/-- What one line of assembly says. -/
inductive Statement where
  /-- Nothing. -/
  | blank
  /-- Text copied as it stands. -/
  | raw (text : String)
  /-- A remark for the reader. -/
  | comment (text : String)
  /-- A name for the place that follows. -/
  | label (symbol : Symbol)
  /-- An operation and its operands. -/
  | instruction (mnemonic : Mnemonic) (operands : List Operand)
  /-- A variable and what it holds. -/
  | datum (symbol : Symbol) (value : Datum)
deriving DecidableEq, Repr

/-- How a statement is written, without indentation. -/
def Statement.text : Statement → String
  | .blank => ""
  | .raw text => text
  | .comment text => "; " ++ text
  | .label symbol => symbol.text ++ ":"
  | .instruction mnemonic [] => mnemonic.text
  | .instruction mnemonic operands =>
    mnemonic.text ++ " " ++ String.intercalate ", " (operands.map Operand.text)
  | .datum symbol value => symbol.text ++ " " ++ value.directive

end LineAsm
