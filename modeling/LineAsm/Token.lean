import LineAsm.Text.Letters
/-!
# Tokens

A line is read as a list of tokens. A token has a kind, its text and the byte column at which
its lexeme begins. Words fall into three kinds by two fixed vocabularies: the keywords, in the
exact spelling listed, and the register names, in any mix of upper and lower case; every other
word is an identifier.
-/

namespace LineAsm

/-- What a token is. -/
inductive Token.Kind where
  /-- A remark, from two slashes to the end of the line. -/
  | comment
  /-- Assembly to be copied out, from two slashes and an exclamation mark to the end of the line. -/
  | literal
  /-- A word of the vocabulary of the dialect. -/
  | keyword
  /-- The name of a machine register. -/
  | register
  /-- A decimal or hexadecimal number. -/
  | integer
  /-- Any other word. -/
  | identifier
  /-- An address between square brackets. -/
  | memory
  /-- A text between single quotes. -/
  | text
  /-- An operator or a mark of punctuation. -/
  | symbol
deriving DecidableEq, Repr

/-- The name of a kind. -/
def Token.Kind.name : Token.Kind → String
  | .comment => "comment"
  | .literal => "literal"
  | .keyword => "keyword"
  | .register => "register"
  | .integer => "integer"
  | .identifier => "identifier"
  | .memory => "memory"
  | .text => "text"
  | .symbol => "symbol"

/-- Every kind once, in order of declaration. -/
def Token.Kind.all : List Token.Kind :=
  [.comment, .literal, .keyword, .register, .integer, .identifier, .memory, .text, .symbol]

/-- The kind of a given name. -/
def Token.Kind.named? (name : String) : Option Token.Kind :=
  Token.Kind.all.find? fun kind => kind.name == name

/-- The name of a kind names that kind. -/
theorem Token.Kind.named?_name (kind : Token.Kind) : Token.Kind.named? kind.name = some kind := by
  cases kind <;> decide

/-- A kind whose token runs to the end of the line and is not part of a statement. -/
def Token.Kind.isRemark (kind : Token.Kind) : Bool := kind == .comment || kind == .literal

/-- One token of a line. -/
structure Token where
  /-- What the token is. -/
  kind : Token.Kind
  /-- The text of the token: its lexeme, or what a remark says. -/
  value : String
  /-- The number of bytes of the line before the lexeme. -/
  column : Nat
deriving DecidableEq, Repr

namespace Token

/-- The words with a meaning of their own. -/
def keywords : List String :=
  ["namespace", "function", "return", "if", "while", "repeat", "times", "goto", "call", "var",
    "break"]

/-- The names of the registers. -/
def registers : List String :=
  ["EAX", "EBX", "ECX", "EDX", "ESI", "EDI", "ESP", "EBP", "AX", "BX", "CX", "DX", "SI", "DI",
    "SP", "BP", "AL", "AH", "BL", "BH", "CL", "CH", "DL", "DH"]

/-- A word is a keyword in its listed spelling only. -/
def isKeyword (word : String) : Bool := keywords.contains word

/-- A word names a register in any mix of upper and lower case. -/
def isRegister (word : String) : Bool := registers.any fun name => Text.sameLetters name word

/-- The kind of a word. -/
def wordKind (word : String) : Kind :=
  if isKeyword word then .keyword else if isRegister word then .register else .identifier

/-- Two tokens that say the same, wherever they stand. -/
def same (left right : Token) : Bool := left.kind == right.kind && left.value == right.value

/-- A token as it is shown: its column, counted from one, and its text. -/
def shown (token : Token) : String :=
  "[" ++ toString (token.column + 1) ++ "]=\"" ++ token.value ++ "\""

end Token

end LineAsm
