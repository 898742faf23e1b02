/-!
# Symbols of the assembly

Every name of the source becomes a symbol qualified by the namespace it was declared in, and
names of a function's inside by the function as well. The exit of a function and the edges of
its blocks have symbols of their own, made from the function and the number of the block.
-/

namespace LineAsm

/-- A function and the namespace that qualifies it. -/
structure Frame where
  /-- The namespace. -/
  space : String
  /-- The function. -/
  function : String
deriving DecidableEq, Repr

/-- The qualified name of a function. -/
def Frame.name (frame : Frame) : String := frame.space ++ "_" ++ frame.function

/-- The two places of a block that jumps go to. -/
inductive Edge where
  /-- Where a block is entered again. -/
  | begin
  /-- Where a block is left. -/
  | finish
deriving DecidableEq, Repr

/-- How an edge is written in a symbol. -/
def Edge.name : Edge → String
  | .begin => "Begin"
  | .finish => "End"

/-- A name of the assembly. -/
inductive Symbol where
  /-- A name used as it stands. -/
  | plain (name : String)
  /-- A variable or label outside functions. -/
  | member (space name : String)
  /-- The entry of a function. -/
  | entry (frame : Frame)
  /-- A label inside a function. -/
  | inner (frame : Frame) (name : String)
  /-- The place where a function returns. -/
  | exit (frame : Frame)
  /-- An edge of a numbered block of a function. -/
  | block (frame : Frame) (id : Nat) (edge : Edge)
deriving DecidableEq, Repr

/-- How a symbol is written: its parts joined by underscores. -/
def Symbol.text : Symbol → String
  | .plain name => name
  | .member space name => space ++ "_" ++ name
  | .entry frame => frame.name
  | .inner frame name => frame.name ++ "_" ++ name
  | .exit frame => frame.name ++ "_Exit"
  | .block frame id edge => frame.name ++ "_Block" ++ toString id ++ "_" ++ edge.name

end LineAsm
