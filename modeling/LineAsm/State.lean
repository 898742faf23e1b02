import LineAsm.Assembly.Symbol
import LineAsm.Error
/-!
# The state between lines

What one line of source leaves for the lines after it: the declared namespace, the open
function, the latest label, the open blocks, the indentation and the line number. The state
also says how the symbols of a line are qualified.
-/

namespace LineAsm

/-- What the output holds besides the code. -/
structure Options where
  /-- Each line of source is repeated as a comment before its code. -/
  echoSource : Bool := true
  /-- Comment lines of the source are kept. -/
  keepComments : Bool := true
deriving DecidableEq, Repr

/-- What one line of source leaves for the next. -/
structure State where
  /-- The namespace declared last. -/
  declared : Option String := none
  /-- The open function. -/
  function : Option String := none
  /-- The latest label of the open function. -/
  label : Option String := none
  /-- The open blocks. -/
  blocks : OpenBlocks := {}
  /-- The indentation of the latest line that was not blank. -/
  indent : String := ""
  /-- The number of the line being compiled. It has no bound: no source has as many lines as a
  machine word can count. -/
  line : Nat := 1
  /-- What the output holds besides the code. -/
  options : Options := {}
deriving DecidableEq, Repr

namespace State

/-- The state before the first line. -/
def initial (options : Options) : State := { options }

/-- The namespace in force. An empty name is as good as none. -/
def space (state : State) : Except ConfigError String :=
  match state.declared with
  | some name => if name.isEmpty then .error .namespaceUnavailable else .ok name
  | none => .error .namespaceUnavailable

/-- The namespace that qualifies a symbol. -/
def qualifier (state : State) : Except CompileError String := state.space.mapError .config

/-- The open function, which a construct needs. -/
def frame (state : State) (construct : String) : Except CompileError Frame :=
  match state.function with
  | none => .error (.emission (.outsideFunction construct))
  | some function => do return ⟨← state.qualifier, function⟩

/-- The symbol of a label of the source: one of the open function, or else of the namespace. -/
def labelSymbol (state : State) (name : String) : Except CompileError Symbol := do
  let space ← state.qualifier
  match state.function with
  | some function => return .inner ⟨space, function⟩ name
  | none => return .member space name

/-- The symbol of an edge of a block. -/
def blockSymbol (state : State) (block : Block) (edge : Edge) : Except CompileError Symbol := do
  return .block (← state.frame "block") block.id edge

end State

end LineAsm
