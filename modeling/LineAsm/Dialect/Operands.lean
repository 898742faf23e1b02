import LineAsm.Emission
/-!
# Operands of the dialect

Registers, numbers and addresses are operands as they are written; an identifier is a variable
of the namespace in force. Two operands fit one instruction when the first can be written to
and at most one of them is memory. A number written to memory does not tell its width, so the
memory is then said to be 32 bits wide.
-/

namespace LineAsm

/-- A token that names memory: an address or a variable. -/
def Token.isMemory (token : Token) : Bool := token.kind == .memory || token.kind == .identifier

namespace Operand

/-- A register, as it is written. -/
def register (name : String) : Operand := ⟨.register name, false⟩

/-- A number, as it is written. -/
def immediate (digits : String) : Operand := ⟨.immediate digits, false⟩

/-- A place in the code. -/
def target (symbol : Symbol) : Operand := ⟨.target symbol, false⟩

/-- A token copied as it stands, in the form its kind has as an operand. -/
def verbatim (token : Token) : Operand :=
  match token.kind with
  | .register => register token.value
  | .integer => immediate token.value
  | .memory => ⟨.memory token.value, false⟩
  | _ => ⟨.word token.value, false⟩

/-- The operand that a token names. -/
def ofToken (token : Token) (state : State) : Except CompileError Operand :=
  match token.kind with
  | .identifier => do return ⟨.variable (.member (← state.qualifier) token.value), false⟩
  | .register | .integer | .memory => .ok (verbatim token)
  | _ => .error (.emission (.invalidOperands (.notOperand token.value)))

/-- The operand that a token names, with its width stated where nothing else tells it. -/
def sizedOfToken (token : Token) (state : State) : Except CompileError Operand :=
  (ofToken token state).map sized

/-- The operands of an instruction that writes to the first. -/
def pair (destination source : Token) (state : State) : Except CompileError (List Operand) :=
  if destination.kind == .integer then
    .error (.emission (.invalidOperands (.immediateDestination destination.value)))
  else if destination.isMemory && source.isMemory then
    .error (.emission (.invalidOperands (.bothMemory destination.value source.value)))
  else do
    let first ←
      if destination.isMemory && source.kind == .integer then sizedOfToken destination state
      else ofToken destination state
    return [first, ← ofToken source state]

end Operand

end LineAsm
