import LineAsm.Dialect.Arithmetic
import LineAsm.Dialect.Flow
import LineAsm.Dialect.Transfer
import LineAsm.Table
/-!
# The families of the dialect

The dialect has eleven families of lines. The standard table lists them in the order of
declaration, which matters for two pairs: saving and restoring all registers also reads as a
push or pop, and counting by one also reads as arithmetic, so the narrower family comes first.
-/

namespace LineAsm

/-- The families of lines of the dialect, in order of priority. -/
inductive Family where
  /-- Declarations of a namespace. -/
  | space
  /-- Comments, and assembly to be copied out. -/
  | remarks
  /-- Reads and writes of ports. -/
  | ports
  /-- Operations without operands. -/
  | plain
  /-- Counting up or down by one. -/
  | counting
  /-- Pushes and pops. -/
  | stack
  /-- Assignments. -/
  | assignments
  /-- Comparisons that only set flags. -/
  | comparisons
  /-- Arithmetic on two or three operands. -/
  | arithmetic
  /-- Shifts and rotations. -/
  | shifts
  /-- Functions, blocks, labels, jumps and variables. -/
  | flow
deriving DecidableEq, Repr

namespace Family

open Emission

/-- The standard table. -/
def standard : Table Family :=
  [.space, .remarks, .ports, .plain, .counting, .stack, .assignments, .comparisons, .arithmetic,
    .shifts, .flow]

/-- The name of a family. -/
def name : Family → String
  | .space => "namespace"
  | .remarks => "comments"
  | .ports => "ports"
  | .plain => "zero-param-ops"
  | .counting => "increment-decrement"
  | .stack => "push-pop"
  | .assignments => "assignments"
  | .comparisons => "comparisons"
  | .arithmetic => "math"
  | .shifts => "shift-rotate"
  | .flow => "flow"

/-- The family of a given name. -/
def named? (name : String) : Option Family := standard.find? fun family => family.name == name

/-- The name of a family names that family. -/
theorem named?_name (family : Family) : named? family.name = some family := by
  cases family <;> decide

/-- The symbols of arithmetic. -/
def arithmeticSymbols : Pattern.Element := .oneOf ["+", "-", "&", "|", "^"]

/-- The symbols of comparisons that decide a block. -/
def conditionSymbols : Pattern.Element := .oneOf ["=", "!=", "<", ">", "<=", ">="]

/-- The lines of a family. -/
def patterns : Family → List Pattern
  | .space => [[.text "namespace", .kind .identifier]]
  | .remarks => [[.kind .comment], [.kind .literal]]
  | .ports =>
    [[.text "Port", .kind .memory, .text "=", .kind .register],
      [.kind .register, .text "=", .text "Port", .kind .memory]]
  | .plain =>
    [[.text "+", .text "All"], [.text "-", .text "All"],
      [.oneOf ["NOP", "CLI", "STI", "HLT", "IRet"]]]
  | .counting =>
    [[Pattern.destination, .text "++"], [Pattern.destination, .text "--"],
      [Pattern.destination, .text "=", .same 0, .text "+", .text "1"],
      [Pattern.destination, .text "=", .same 0, .text "-", .text "1"]]
  | .stack => [[.text "+", Pattern.operand], [.text "-", Pattern.operand]]
  | .assignments => [[Pattern.destination, .text "=", Pattern.operand]]
  | .comparisons => [[Pattern.operand, .oneOf ["?=", "?&"], Pattern.operand]]
  | .arithmetic =>
    [[Pattern.destination, arithmeticSymbols, Pattern.operand],
      [Pattern.destination, .text "=", Pattern.operand, arithmeticSymbols, Pattern.operand]]
  | .shifts =>
    [[Pattern.destination, .oneOf ["<<", ">>", "<~", "~>"], .kinds [.integer, .register]]]
  | .flow =>
    [[.text "function", .kind .identifier, .text "\x7b"],
      [.text "\x7d"],
      [.text "\x7b"],
      [.text "return"],
      [.text "break"],
      [.text "if", Pattern.operand, conditionSymbols, Pattern.operand, .text "\x7b"],
      [.text "while", Pattern.operand, conditionSymbols, Pattern.operand, .text "\x7b"],
      [.text "repeat", .kinds [.integer, .register], .text "times", .text "\x7b"],
      [.kind .identifier, .text ":", .text "\x7b"],
      [.kind .identifier, .text ":"],
      [.text "goto", .kind .identifier],
      [.text "call", .kind .identifier],
      [.text "var", .kind .identifier],
      [.text "var", .kind .identifier, .text "=", .kinds [.integer, .text]]]

/-- A line that declares the namespace for the lines after it. -/
def declare : List Token → Emission Unit
  | _ :: token :: _ => update fun state => { state with declared := some token.value }
  | tokens => unexpected tokens

/-- A line that is a remark: assembly is copied out, and a comment is kept if comments are. -/
def remark : List Token → Emission Unit
  | token :: _ => do
    if token.kind == .literal then write (.raw token.value)
    else if (← look State.options).keepComments then
      write (if token.value.isEmpty then .raw ";" else .comment token.value)
  | [] => unexpected []

/-- The code of a line of a family. -/
def emit : Family → List Token → Emission Unit
  | .space => declare
  | .remarks => remark
  | .ports => Transfer.ports
  | .plain => Transfer.plain
  | .counting => Arithmetic.count
  | .stack => Transfer.stack
  | .assignments => Transfer.assign
  | .comparisons => Transfer.compare
  | .arithmetic => Arithmetic.combine
  | .shifts => Arithmetic.move
  | .flow => Flow.line

instance : Emitter Family where
  name := name
  patterns := patterns
  emit := emit

/-- No pattern of the standard table is shadowed. -/
theorem shadowings_standard : Table.shadowings standard = [] := by decide +kernel

end Family

end LineAsm
