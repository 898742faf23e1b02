import LineAsm.Assembly.Statement
/-!
# Listings

A listing collects the lines written for one line of source. Lines wait in it until they are
taken out all at once or discarded, so that a line that fails half way leaves nothing behind.
Each line carries the indentation in force when it was written.
-/

namespace LineAsm

/-- A statement under the indentation it was written with. -/
structure Listing.Line where
  /-- The blank characters before the statement. -/
  indent : String
  /-- What the line says. -/
  statement : Statement
deriving DecidableEq, Repr

/-- How a line is written. -/
def Listing.Line.text (line : Line) : String := line.indent ++ line.statement.text

/-- The lines waiting to be taken, and the indentation of the next one. -/
structure Listing where
  /-- The blank characters that go before the next statement. -/
  indent : String := ""
  /-- The lines waiting, in the order they were written. -/
  lines : List Listing.Line := []
deriving DecidableEq, Repr

namespace Listing

/-- Change the indentation of the lines to come. -/
def setIndent (listing : Listing) (indent : String) : Listing := { listing with indent }

/-- Add a line at the end. -/
def add (listing : Listing) (statement : Statement) : Listing :=
  { listing with lines := listing.lines ++ [⟨listing.indent, statement⟩] }

/-- Drop the lines waiting. -/
def discard (listing : Listing) : Listing := { listing with lines := [] }

end Listing

end LineAsm
