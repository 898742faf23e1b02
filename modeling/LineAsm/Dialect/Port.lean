import LineAsm.Dialect.Operands
import LineAsm.Text.Blank
/-!
# Ports

A port is written between brackets: the port register, in any case, or a number of one byte.
All brackets at the ends and the blanks inside them are dropped.
-/

namespace LineAsm

namespace Port

/-- The value of a digit, up to hexadecimal. -/
def digit? (base : Nat) (c : Char) : Option Nat :=
  let value :=
    if c.isDigit then some (c.toNat - '0'.toNat)
    else if 'a' ≤ c && c ≤ 'f' then some (c.toNat - 'a'.toNat + 10)
    else if 'A' ≤ c && c ≤ 'F' then some (c.toNat - 'A'.toNat + 10)
    else none
  value.filter (· < base)

/-- The value of some digits, at least one, after an optional plus sign. -/
def number? (base : Nat) (cs : List Char) : Option Nat :=
  match if cs.head? = some '+' then cs.tail else cs with
  | [] => none
  | digits => digits.foldlM (fun value c => (digit? base c).map (value * base + ·)) 0

/-- The value of a number that is hexadecimal after its mark and decimal otherwise. -/
def value? : List Char → Option Nat
  | '0' :: 'x' :: digits => number? 16 digits
  | '0' :: 'X' :: digits => number? 16 digits
  | digits => number? 10 digits

/-- The text of a port, without brackets and blanks. -/
def inside (text : String) : String :=
  let opened := text.toList.dropWhile (· == '[')
  .ofList (Text.trimChars (opened.reverse.dropWhile (· == ']')).reverse)

/-- The operand that a port names. -/
def operand (token : Token) : Except OperandError Operand :=
  let port := inside token.value
  if Text.sameLetters port "DX" then .ok (.register port)
  else if (value? port.toList).any (· < 256) then .ok (.immediate port)
  else .error (.badPort port)

end Port

end LineAsm
