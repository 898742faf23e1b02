import LineAsm.Dialect.Operands
/-!
# Functions, blocks, labels and variables

A line of this family is first read as a construct and then written. A function begins with its
entry label and ends with its exit label and a return. A conditional or looping block jumps to
its end when its condition does not hold; a looping or counted block begins with a label that
its end jumps back to. Every block ends with a label that a line inside can jump to.
-/

namespace LineAsm

/-- What a line of control flow says. -/
inductive Construct where
  /-- A function begins. -/
  | function (name : String)
  /-- The innermost block ends, or else the function. -/
  | finish
  /-- A block begins that only groups lines. -/
  | group
  /-- The function returns. -/
  | exit
  /-- The innermost block is left. -/
  | leave
  /-- A block begins that runs when a condition holds. -/
  | conditional (left : Token) (condition : Condition) (right : Token)
  /-- A block begins that runs while a condition holds. -/
  | looping (left : Token) (condition : Condition) (right : Token)
  /-- A block begins that runs a counted number of times. -/
  | counted (count : Token)
  /-- A block begins that has a name. -/
  | labelled (name : String)
  /-- A place is named. -/
  | label (name : String)
  /-- Execution goes on at a label. -/
  | jump (name : String)
  /-- A function is called. -/
  | call (name : String)
  /-- A variable is declared, with or without a value at the start. -/
  | declare (name : String) (value : Option Token)
deriving DecidableEq, Repr

namespace Construct

/-- The condition of a comparison symbol. -/
def condition (symbol : String) : Condition :=
  match symbol with
  | "=" => .equal
  | "!=" => .notEqual
  | "<" => .below
  | ">" => .above
  | "<=" => .atMost
  | _ => .atLeast

/-- The construct that the words of a line say. -/
def ofTokens? : List Token → Option Construct
  | [⟨_, "function", _⟩, name, ⟨_, "\x7b", _⟩] => some (.function name.value)
  | [⟨_, "\x7d", _⟩] => some .finish
  | [⟨_, "\x7b", _⟩] => some .group
  | [⟨_, "return", _⟩] => some .exit
  | [⟨_, "break", _⟩] => some .leave
  | [⟨_, "if", _⟩, left, symbol, right, ⟨_, "\x7b", _⟩] =>
    some (.conditional left (condition symbol.value) right)
  | [⟨_, "while", _⟩, left, symbol, right, ⟨_, "\x7b", _⟩] =>
    some (.looping left (condition symbol.value) right)
  | [⟨_, "repeat", _⟩, count, ⟨_, "times", _⟩, ⟨_, "\x7b", _⟩] => some (.counted count)
  | [name, ⟨_, ":", _⟩, ⟨_, "\x7b", _⟩] => some (.labelled name.value)
  | [name, ⟨_, ":", _⟩] => some (.label name.value)
  | [⟨_, "goto", _⟩, name] => some (.jump name.value)
  | [⟨_, "call", _⟩, name] => some (.call name.value)
  | [⟨_, "var", _⟩, name] => some (.declare name.value none)
  | [⟨_, "var", _⟩, name, ⟨_, "=", _⟩, value] => some (.declare name.value (some value))
  | _ => none

end Construct

namespace Flow

open Emission

/-- Open a block, and give it back with its number. -/
def start (kind : Block.Kind) : Emission Block := do
  let block ← look fun state => state.blocks.next kind
  update fun state => { state with blocks := state.blocks.start kind }
  return block

/-- The symbol of an edge of a block. -/
def edge (block : Block) (place : Edge) : Emission Symbol :=
  ask fun state => state.blockSymbol block place

/-- Compare two operands. -/
def compare (left right : Token) : Emission Unit := do
  let operands ← ask (Operand.pair left right)
  instruction .cmp operands

/-- The open function, without which a construct fails. -/
def insideFunction (construct : String) : Emission Frame := ask fun state => state.frame construct

/-- Begin a function: no function may be open, and its blocks are counted afresh. -/
def beginFunction (name : String) : Emission Unit := do
  if let some function ← look State.function then
    fail (.emission (.nestedFunction function))
  let space ← ask State.qualifier
  update fun state => { state with function := some name, label := none, blocks := .empty }
  label (.entry ⟨space, name⟩)

/-- End a block: the code of a loop goes back to its begin, and every block has its end named. -/
def endBlock (block : Block) : Emission Unit := do
  let begin ← edge block .begin
  let finish ← edge block .finish
  match block.kind with
  | .looping => instruction .jmp [.target begin]
  | .counted => instruction .loop [.target begin]
  | .plain | .conditional | .labelled => pure ()
  label finish

/-- End the open function: its exit is named, and it returns there. -/
def endFunction : Emission Unit := do
  match ← look State.function with
  | none => fail (.structural .underflow)
  | some function =>
    update fun state => { state with function := none }
    let space ← ask State.qualifier
    update fun state => { state with label := none }
    label (.exit ⟨space, function⟩)
    instruction .ret []

/-- End the innermost block, or the function when no block is open. -/
def close : Emission Unit := do
  match (← look State.blocks).finish with
  | .ok (block, blocks) =>
    update fun state => { state with blocks }
    endBlock block
  | .error _ => endFunction

/-- Declare a variable: zero, a number, or a quoted text. -/
def declare (name : String) (value : Option Token) : Emission Unit := do
  let space ← ask State.qualifier
  write (.datum (.member space name)
    (match value with
      | none => .zero
      | some token => if token.kind == .text then .text token.value else .number token.value))

/-- Name a place and remember its label; an opening of a block comes before the name. -/
def place (text : String) (opening : Emission Unit) : Emission Unit := do
  let symbol ← ask fun state => state.labelSymbol text
  update fun state => { state with label := some text }
  opening
  label symbol

/-- Write the code of a construct. -/
def emit : Construct → Emission Unit
  | .function name => beginFunction name
  | .finish => close
  | .group => do
    let _ ← insideFunction "\x7b"
    let _ ← start .plain
  | .exit => do
    let frame ← insideFunction "return"
    instruction .jmp [.target (.exit frame)]
  | .leave => do
    match (← look State.blocks).current with
    | none => fail (.emission (.noOpenBlock "break"))
    | some block =>
      let finish ← edge block .finish
      instruction .jmp [.target finish]
  | .conditional left condition right => do
    let _ ← insideFunction "if"
    compare left right
    let block ← start .conditional
    let finish ← edge block .finish
    instruction (.jumpIf condition.negate) [.target finish]
  | .looping left condition right => do
    let _ ← insideFunction "while"
    let block ← start .looping
    let begin ← edge block .begin
    let finish ← edge block .finish
    label begin
    compare left right
    instruction (.jumpIf condition.negate) [.target finish]
  | .counted count => do
    let _ ← insideFunction "repeat"
    let block ← start .counted
    let begin ← edge block .begin
    unless Text.sameLetters count.value "ECX" do
      instruction .mov [.register "ECX", .verbatim count]
    label begin
  | .labelled text => do
    let _ ← insideFunction "label block"
    place text do
      let _ ← start .labelled
  | .label text => place text (pure ())
  | .jump text => do
    let symbol ← ask fun state => state.labelSymbol text
    instruction .jmp [.target symbol]
  | .call text => do
    let space ← ask State.qualifier
    instruction .call [.target (.entry ⟨space, text⟩)]
  | .declare name value => declare name value

/-- The code of a line of control flow. -/
def line (tokens : List Token) : Emission Unit :=
  match Construct.ofTokens? tokens with
  | some construct => emit construct
  | none => unexpected tokens

end Flow

end LineAsm
