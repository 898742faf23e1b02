import LineAsm.Text.Bytes
import LineAsm.Token.Lexeme
/-!
# Reading a line as tokens

The lexer passes over blank characters and reads the lexeme that begins at the next character,
until the line is used up. A character that is not blank and begins no lexeme is an error,
reported with the text from there to the next lexeme. A remark after a token ends the reading:
it is not a token, and only blanks may follow it.
-/

namespace LineAsm

/-- A place in a line where no lexeme begins. -/
structure LexError where
  /-- The text that cannot be read. -/
  text : String
  /-- The number of bytes of the line before that text. -/
  column : Nat
deriving DecidableEq, Repr

/-- What is wrong, without the place. -/
def LexError.cause (e : LexError) : String := "unexpected text \"" ++ e.text ++ "\" found"

/-- What is wrong and where, with columns counted from one. -/
def LexError.message (e : LexError) : String :=
  e.cause ++ " @ column " ++ toString (e.column + 1)

namespace Lexer

/-- The leading characters at which no lexeme begins. -/
def stray : List Char → List Char
  | [] => []
  | c :: rest => if (Lexeme.at? (c :: rest)).isSome then [] else c :: stray rest

/-- The error of an unreadable text that begins at a column. -/
def unexpected (column : Nat) (cs : List Char) : LexError :=
  ⟨.ofList (Text.dropBlankEnd cs), column⟩

/-- After the remark that ends a line only blanks may follow. -/
def finish (column : Nat) (cs : List Char) : Except LexError (List Token) :=
  match Text.dropBlank cs with
  | [] => .ok []
  | rest => .error (unexpected (column + Text.byteCount (cs.takeWhile Text.isBlank)) rest)

/-- The tokens of the rest of a line that begins at a column, with or without a token before. -/
def scan (column : Nat) (started : Bool) (cs : List Char) : Except LexError (List Token) :=
  match cs with
  | [] => .ok []
  | c :: rest =>
    if Text.isBlank c then scan (column + c.utf8Size) started rest
    else
      match _found : Lexeme.at? (c :: rest) with
      | none => .error (unexpected column (stray (c :: rest)))
      | some (kind, length) =>
        let lexeme := (c :: rest).take length
        let next := column + Text.byteCount lexeme
        if kind.isRemark && started then finish next ((c :: rest).drop length)
        else do
          let tokens ← scan next true ((c :: rest).drop length)
          return ⟨kind, Lexeme.value kind lexeme, column⟩ :: tokens
termination_by cs.length
decreasing_by
  · simp
  · have := Lexeme.at?_length _found
    simp only [List.length_drop, List.length_cons] at this ⊢
    omega

end Lexer

/-- The tokens of a line. -/
def Token.ofLine (line : String) : Except LexError (List Token) := Lexer.scan 0 false line.toList

/-- The kind that a text has as a token, when it is exactly one token. -/
def Token.classify (text : String) : Option Token.Kind :=
  match Token.ofLine text with
  | .ok [token] => some token.kind
  | _ => none

end LineAsm
