import LineAsm.Dialect.Operands
/-!
# Arithmetic, shifts and counting

A line of arithmetic names a destination and two operands, or a destination that is also the
left operand. When the destination is neither operand, the left operand is loaded into it
first. When the destination is the right operand that is not possible: the operands are
exchanged, and a difference is made by negating the destination and adding the other operand.
-/

namespace LineAsm.Arithmetic

open Emission

/-- The operation of an arithmetic symbol. -/
def operation (symbol : String) : Mnemonic :=
  match symbol with
  | "+" => .add
  | "-" => .sub
  | "&" => .and
  | "|" => .or
  | _ => .xor

/-- The operation of a shift symbol. -/
def shift (symbol : String) : Mnemonic :=
  match symbol with
  | "<<" => .shl
  | ">>" => .shr
  | "<~" => .rol
  | _ => .ror

/-- Combine the destination with one operand, in place. -/
def inPlace (destination symbol source : Token) : Emission Unit := do
  let operands ← ask (Operand.pair destination source)
  instruction (operation symbol.value) operands

/-- Combine an operand on the left with the destination on the right. -/
def reversed (destination left symbol : Token) : Emission Unit := do
  let operands ← ask (Operand.pair destination left)
  if symbol.value == "-" then
    let negated ← ask (Operand.sizedOfToken destination)
    instruction .neg [negated]
    instruction .add operands
  else instruction (operation symbol.value) operands

/-- Load the left operand into the destination and combine it with the right one. -/
def loaded (destination left symbol right : Token) : Emission Unit := do
  if destination.isMemory && (left.isMemory || right.isMemory) then
    reject (.needsRegister destination.value left.value right.value)
  let load ← ask (Operand.pair destination left)
  let operands ← ask (Operand.pair destination right)
  instruction .mov load
  instruction (operation symbol.value) operands

/-- A line of arithmetic on two or three operands. -/
def combine : List Token → Emission Unit
  | [destination, symbol, source] => inPlace destination symbol source
  | [destination, _, left, symbol, right] =>
    if destination.same left then inPlace destination symbol right
    else if destination.same right then reversed destination left symbol
    else loaded destination left symbol right
  | tokens => unexpected tokens

/-- A line that counts its destination up or down by one. -/
def count : List Token → Emission Unit
  | destination :: rest => do
    let up := (destination :: rest).any fun token => token.value == "++" || token.value == "+"
    let operand ← ask (Operand.sizedOfToken destination)
    instruction (if up then .inc else .dec) [operand]
  | [] => unexpected []

/-- A line that shifts or rotates its destination by a number or by the count register. -/
def move : List Token → Emission Unit
  | destination :: symbol :: amount :: _ => do
    if amount.kind == .register && !Text.sameLetters amount.value "CL" then
      reject (.badCount amount.value)
    let operand ← ask (Operand.sizedOfToken destination)
    instruction (shift symbol.value) [operand, .verbatim amount]
  | tokens => unexpected tokens

end LineAsm.Arithmetic
