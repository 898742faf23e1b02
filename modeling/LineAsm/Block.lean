/-!
# Open blocks

The blocks open at a place of a function form a stack: an opening pushes a block, an end pops
the innermost one. Each block has a number of its own within its function, counted by one
counter for all kinds. An end does not give its number back; the counter returns to zero only
when the stack is cleared for the next function.
-/

namespace LineAsm

/-- What opened a block. -/
inductive Block.Kind where
  /-- A block that only groups lines. -/
  | plain
  /-- A block run when a condition holds. -/
  | conditional
  /-- A block with a name. -/
  | labelled
  /-- A block run a counted number of times. -/
  | counted
  /-- A block run while a condition holds. -/
  | looping
deriving DecidableEq, Repr

/-- The name of a kind of block. -/
def Block.Kind.name : Block.Kind → String
  | .plain => "block"
  | .conditional => "if"
  | .labelled => "label"
  | .counted => "repeat"
  | .looping => "while"

/-- Every kind once, in order of declaration. -/
def Block.Kind.all : List Block.Kind := [.plain, .conditional, .labelled, .counted, .looping]

/-- The kind of a given name. -/
def Block.Kind.named? (name : String) : Option Block.Kind :=
  Block.Kind.all.find? fun kind => kind.name == name

/-- The name of a kind of block names that kind. -/
theorem Block.Kind.named?_name (kind : Block.Kind) : Block.Kind.named? kind.name = some kind := by
  cases kind <;> decide

/-- An open block. -/
structure Block where
  /-- What opened it. -/
  kind : Block.Kind
  /-- Its number within the function. -/
  id : Nat
deriving DecidableEq, Repr

/-- How the ends of blocks can fail to match their openings. -/
inductive BlockError where
  /-- There is an end and no open block. -/
  | underflow
deriving DecidableEq, Repr

/-- What is wrong with the ends of blocks. -/
def BlockError.message : BlockError → String
  | .underflow => "block end without a matching block start"

/-- The open blocks, and the number of blocks opened since the last clearing. -/
structure OpenBlocks where
  /-- The open blocks, innermost first. -/
  blocks : List Block := []
  /-- The number given to the latest block. It has no bound: a machine word that counts the blocks
  of a function would be full only after more lines than can ever be read. -/
  counter : Nat := 0
deriving DecidableEq, Repr

namespace OpenBlocks

/-- No block is open and none has been. -/
def empty : OpenBlocks := {}

/-- The block that an opening makes: the kind asked for, under the next number. -/
def next (stack : OpenBlocks) (kind : Block.Kind) : Block := ⟨kind, stack.counter + 1⟩

/-- Open a block. -/
def start (stack : OpenBlocks) (kind : Block.Kind) : OpenBlocks :=
  ⟨stack.next kind :: stack.blocks, stack.counter + 1⟩

/-- End the innermost block. -/
def finish (stack : OpenBlocks) : Except BlockError (Block × OpenBlocks) :=
  match stack.blocks with
  | [] => .error .underflow
  | block :: rest => .ok (block, { stack with blocks := rest })

/-- The innermost open block. -/
def current (stack : OpenBlocks) : Option Block := stack.blocks.head?

/-- The number of open blocks. -/
def depth (stack : OpenBlocks) : Nat := stack.blocks.length

/-- The block just opened is the innermost one. -/
@[simp] theorem current_start (stack : OpenBlocks) (kind : Block.Kind) :
    (stack.start kind).current = some (stack.next kind) := rfl

/-- Ending the block just opened leaves the stack as it was, the counter apart. -/
@[simp] theorem finish_start (stack : OpenBlocks) (kind : Block.Kind) :
    (stack.start kind).finish =
      .ok (stack.next kind, { stack with counter := stack.counter + 1 }) := rfl

end OpenBlocks

end LineAsm
