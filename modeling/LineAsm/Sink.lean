import LineAsm.Assembly.Listing
import LineAsm.Text.Bytes
/-!
# Where assembly is written

A sink takes the lines of assembly one after the other and may fail, having taken a part of a
line. The sinks here are a text, which takes everything; the list of the lines themselves; a
writer with limited room, which takes a prefix of what it is given; and a buffered text, which
hands on what it was given when its buffer is full.
-/

namespace LineAsm

/-- A receiver of lines of assembly. -/
class Sink (σ : Type) where
  /-- Take one line, or as much of it as there is room for; the words say why the rest was
  refused. -/
  write : σ → Listing.Line → Option String × σ

/-- A line as it is written to a text, with its line feed. -/
def Listing.Line.written (line : Listing.Line) : String := line.text ++ "\n"

/-- A text takes every line. -/
instance : Sink String where
  write text line := (none, text ++ line.written)

/-- A list takes every line as it is. -/
instance : Sink (List Listing.Line) where
  write lines line := (none, lines ++ [line])

/-- A writer of bytes that may run out of room. -/
structure LimitedWriter where
  /-- The number of bytes that it still takes, if there is a limit. -/
  room : Option Nat := none
  /-- The bytes it has taken. -/
  accepted : List UInt8 := []
deriving DecidableEq, Repr

namespace LimitedWriter

/-- The words of a writer without room. -/
def full : String := "disk full"

/-- Take bytes as far as there is room. -/
def put (writer : LimitedWriter) (bytes : List UInt8) : Option String × LimitedWriter :=
  match writer.room with
  | none => (none, { writer with accepted := writer.accepted ++ bytes })
  | some room =>
    (if bytes.length ≤ room then none else some full,
      ⟨some (room - bytes.length), writer.accepted ++ bytes.take room⟩)

instance : Sink LimitedWriter where
  write writer line := writer.put (Text.encode line.written)

end LimitedWriter

/-- A text behind a buffer: what was handed on, and what waits in the buffer. -/
structure BufferedText where
  /-- The text handed on. -/
  delivered : String := ""
  /-- The text in the buffer. -/
  pending : String := ""
deriving DecidableEq, Repr

namespace BufferedText

/-- The number of bytes that a buffer holds. -/
def capacity : Nat := 8192

/-- Add a piece of text. The buffer is emptied before a piece that does not fit into what is
left of it, and a piece as large as the buffer is handed on at once. -/
def put (buffer : BufferedText) (piece : String) : BufferedText :=
  let buffer :=
    if piece.utf8ByteSize + buffer.pending.utf8ByteSize ≤ capacity then buffer
    else ⟨buffer.delivered ++ buffer.pending, ""⟩
  if capacity ≤ piece.utf8ByteSize then { buffer with delivered := buffer.delivered ++ piece }
  else { buffer with pending := buffer.pending ++ piece }

/-- Everything that was written. -/
def all (buffer : BufferedText) : String := buffer.delivered ++ buffer.pending

/-- A line and its line feed are two pieces. -/
instance : Sink BufferedText where
  write buffer line := (none, (buffer.put line.text).put "\n")

/-- Every piece is added to the end of what was written. -/
theorem all_put (buffer : BufferedText) (piece : String) :
    (buffer.put piece).all = buffer.all ++ piece := by
  unfold put all
  by_cases fits : piece.utf8ByteSize + buffer.pending.utf8ByteSize ≤ capacity <;>
    by_cases large : capacity ≤ piece.utf8ByteSize <;>
    simp only [fits, large, ↓reduceIte, String.append_assoc, String.append_empty,
      String.empty_append]
  have empty : buffer.pending = "" := by
    rw [← String.utf8ByteSize_eq_zero_iff]
    omega
  simp [empty]

end BufferedText

end LineAsm
