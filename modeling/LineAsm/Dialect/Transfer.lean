import LineAsm.Dialect.Port
/-!
# Moves, comparisons, the stack and ports

Lines that become one instruction: assignments, comparisons that only set flags, pushes and
pops, reads and writes of ports, and operations without operands.
-/

namespace LineAsm.Transfer

open Emission

/-- A line that assigns its second operand to its first. -/
def assign : List Token → Emission Unit
  | destination :: _ :: source :: _ => do
    let operands ← ask (Operand.pair destination source)
    instruction .mov operands
  | tokens => unexpected tokens

/-- A line that compares two operands, or tests the bits that they share. -/
def compare : List Token → Emission Unit
  | left :: symbol :: right :: _ => do
    let operands ← ask (Operand.pair left right)
    instruction (if symbol.value == "?=" then .cmp else .test) operands
  | tokens => unexpected tokens

/-- A line that pushes an operand or pops into one. -/
def stack : List Token → Emission Unit
  | sign :: token :: _ => do
    if sign.value == "+" then
      let operand ← ask (Operand.sizedOfToken token)
      instruction .push [operand]
    else
      if token.kind == .integer then reject (.immediatePop token.value)
      let operand ← ask (Operand.sizedOfToken token)
      instruction .pop [operand]
  | tokens => unexpected tokens

/-- The operand that a port names, or a rejection of the line. -/
def port (token : Token) : Emission Operand :=
  match Port.operand token with
  | .ok operand => pure operand
  | .error cause => reject cause

/-- A line that writes a register to a port, or reads a port into a register. -/
def ports : List Token → Emission Unit
  | [first, second, _, fourth] => do
    if first.value == "Port" then
      let place ← port second
      instruction .output [place, .verbatim fourth]
    else
      let place ← port fourth
      instruction .input [.verbatim first, place]
  | tokens => unexpected tokens

/-- A line without operands: all registers to or from the stack, or an operation that is
written in lower case. -/
def plain : List Token → Emission Unit
  | [sign, _] => instruction (.other (if sign.value == "+" then "pushad" else "popad")) []
  | [token] => instruction (.other (Text.lower token.value)) []
  | tokens => unexpected tokens

end LineAsm.Transfer
