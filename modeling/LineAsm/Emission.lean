import LineAsm.Assembly.Listing
import LineAsm.State
/-!
# Writing the code of one line

The code of a line is written by steps that read and change the state and add to the listing.
A step may fail; what was changed and written before it stays changed and written, so that the
caller decides what becomes of it.
-/

namespace LineAsm

/-- The state and the listing, as they stand while a line is compiled. -/
structure Draft where
  /-- What the lines before have left. -/
  state : State
  /-- The lines written so far. -/
  listing : Listing := {}
deriving DecidableEq, Repr

/-- A step of writing, which may fail and keeps what was done before it failed. -/
abbrev Emission := EStateM CompileError Draft

namespace Emission

/-- Ask the state, without changing it. -/
def ask {α : Type} (question : State → Except CompileError α) : Emission α := fun draft =>
  match question draft.state with
  | .ok answer => .ok answer draft
  | .error cause => .error cause draft

/-- Look something up in the state. -/
def look {α : Type} (view : State → α) : Emission α := ask fun state => .ok (view state)

/-- Change the state. -/
def update (change : State → State) : Emission Unit := fun draft =>
  .ok () { draft with state := change draft.state }

/-- Write a statement. -/
def write (statement : Statement) : Emission Unit := fun draft =>
  .ok () { draft with listing := draft.listing.add statement }

/-- Write an instruction. -/
def instruction (mnemonic : Mnemonic) (operands : List Operand) : Emission Unit :=
  write (.instruction mnemonic operands)

/-- Write a label. -/
def label (symbol : Symbol) : Emission Unit := write (.label symbol)

/-- Fail for a given cause. -/
def fail {α : Type} (cause : CompileError) : Emission α := fun draft => .error cause draft

/-- Fail because of the operands. -/
def reject {α : Type} (cause : OperandError) : Emission α :=
  fail (.emission (.invalidOperands cause))

/-- Fail because the tokens of the line have no shape that can be written. -/
def unexpected {α : Type} (tokens : List Token) : Emission α :=
  fail (.dialect (.unrecognized (String.intercalate " " (tokens.map Token.value))))

end Emission

end LineAsm
