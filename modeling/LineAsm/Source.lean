import LineAsm.Text.Bytes
import LineAsm.Text.Parts
/-!
# Reading a source

A source is read line by line. A line ends at a line feed, which is dropped together with one
carriage return before it; what follows the last line feed is a line only when it is not empty.
Bytes that are no UTF-8 text make the reading of their line fail. The reading of a source can
also fail where its bytes end; the line begun there is then lost.
-/

namespace LineAsm

/-- What one attempt to read a line gives: the line, or why there is none. -/
abbrev Read := Except String String

namespace Source

/-- A line without the carriage return that stands before its line feed. -/
def dropReturn {α : Type} [BEq α] (carriageReturn : α) (line : List α) : List α :=
  if line.getLast? == some carriageReturn then line.dropLast else line

/-- The lines of some items: those that end at a line feed, and the one begun after them. -/
def lines {α : Type} [BEq α] (lineFeed carriageReturn : α) (items : List α) :
    List (List α) × List α :=
  let cut := Text.parts lineFeed items
  (cut.dropLast.map (dropReturn carriageReturn), cut.getLast?.getD [])

/-- The words of a failure to read bytes that are no text. -/
def notText : String := "stream did not contain valid UTF-8"

/-- The line that some bytes encode. -/
def ofLine (bytes : List UInt8) : Read :=
  match Text.decode? bytes with
  | some text => .ok text
  | none => .error notText

/-- The lines of a text. -/
def ofText (text : String) : List Read :=
  let (complete, begun) := lines '\n' '\r' text.toList
  (if begun.isEmpty then complete else complete ++ [begun]).map fun line => .ok (.ofList line)

/-- The lines that some bytes encode, when reading ends or fails after them. -/
def ofBytes (bytes : List UInt8) (failure : Option String) : List Read :=
  let (complete, begun) := lines 10 13 bytes
  complete.map ofLine ++
    match failure with
    | some words => [.error words]
    | none => if begun.isEmpty then [] else [ofLine begun]

end Source

end LineAsm
