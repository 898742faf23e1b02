import LineAsm.Text.Blank
import LineAsm.Token
/-!
# Lexemes

A lexeme is the stretch of a line that one token is read from. `Lexeme.at?` reads the lexeme
that begins a run of characters: the class of its token and its number of characters, or
nothing when no class begins there. The classes are tried in a fixed order and each takes as
many characters as it can. No lexeme is empty or longer than the characters at hand
(`Lexeme.at?_length`).
-/

namespace LineAsm.Lexeme

open Token (Kind)

/-- A digit of a hexadecimal number. -/
def isHexDigit (c : Char) : Bool :=
  c.isDigit || ('a' ≤ c && c ≤ 'f') || ('A' ≤ c && c ≤ 'F')

/-- A character that begins a word. -/
def isWordStart (c : Char) : Bool := c.isAlpha || c == '_'

/-- A character that continues a word. -/
def isWordPart (c : Char) : Bool := c.isAlphanum || c == '_'

/-- The symbols of two characters. -/
def symbolPairs : List (Char × Char) :=
  [('+', '+'), ('-', '-'), ('<', '<'), ('>', '>'), ('<', '~'), ('~', '>'), ('?', '='),
    ('?', '&'), ('!', '='), ('<', '='), ('>', '=')]

/-- The symbols of one character. -/
def symbolMarks : List Char :=
  ['=', '+', '-', '*', '/', '&', '|', '^', '<', '>', '\x7b', '\x7d', ':', ',']

/-- The number of leading characters that pass a test. -/
def run (test : Char → Bool) (cs : List Char) : Nat := (cs.takeWhile test).length

/-- A remark runs to the end of the line; with an exclamation mark it is a literal. -/
def remark? : List Char → Option (Kind × Nat)
  | '/' :: '/' :: '!' :: rest => some (.literal, run (· != '\n') rest + 3)
  | '/' :: '/' :: rest => some (.comment, run (· != '\n') rest + 2)
  | _ => none

/-- An enclosed lexeme runs from its opening mark to the nearest closing mark. -/
def enclosed? (kind : Kind) (opening closing : Char) : List Char → Option (Kind × Nat)
  | [] => none
  | c :: rest =>
    if c = opening then (rest.findIdx? (· == closing)).map fun inside => (kind, inside + 2)
    else none

/-- A decimal number is a run of digits. -/
def decimal? (cs : List Char) : Option (Kind × Nat) :=
  match run Char.isDigit cs with
  | 0 => none
  | digits + 1 => some (.integer, digits + 1)

/-- A number is hexadecimal when at least one digit follows its mark, and decimal otherwise. -/
def integer? : List Char → Option (Kind × Nat)
  | '0' :: mark :: rest =>
    match mark == 'x' || mark == 'X', run isHexDigit rest with
    | true, digits + 1 => some (.integer, digits + 3)
    | _, _ => decimal? ('0' :: mark :: rest)
  | cs => decimal? cs

/-- A word is a letter or underscore followed by letters, digits and underscores. -/
def word? : List Char → Option (Kind × Nat)
  | [] => none
  | c :: rest =>
    if isWordStart c then
      some (Token.wordKind (.ofList (c :: rest.takeWhile isWordPart)), run isWordPart rest + 1)
    else none

/-- A symbol has two characters when it can, and one otherwise. -/
def symbol? : List Char → Option (Kind × Nat)
  | [] => none
  | c :: rest =>
    if rest.head?.any fun d => symbolPairs.contains (c, d) then some (.symbol, 2)
    else if symbolMarks.contains c then some (.symbol, 1)
    else none

/-- The lexeme at the front of some characters: the kind of its token, and its length. -/
def at? (cs : List Char) : Option (Kind × Nat) :=
  remark? cs |>.or (enclosed? .memory '[' ']' cs) |>.or (enclosed? .text '\x27' '\x27' cs)
    |>.or (integer? cs) |>.or (word? cs) |>.or (symbol? cs)

/-- What the token of a lexeme says: a remark loses its slashes and its blank ends, every other
lexeme is kept as it is written. -/
def value (kind : Kind) (lexeme : List Char) : String :=
  match kind with
  | .literal => Text.trim (.ofList (lexeme.drop 3))
  | .comment => Text.trim (.ofList (lexeme.drop 2))
  | _ => .ofList lexeme

section Length

variable {cs : List Char} {kind : Kind} {length : Nat}

/-- A run is no longer than the characters at hand. -/
theorem run_le (test : Char → Bool) (cs : List Char) : run test cs ≤ cs.length :=
  (List.takeWhile_sublist _).length_le

/-- A remark has its slashes and ends within the characters at hand. -/
theorem remark?_length (found : remark? cs = some (kind, length)) :
    0 < length ∧ length ≤ cs.length := by
  unfold remark? at found
  split at found
  · rename_i rest
    cases found
    have := run_le (· != '\n') rest
    simp only [List.length_cons]
    omega
  · rename_i rest _
    cases found
    have := run_le (· != '\n') rest
    simp only [List.length_cons]
    omega
  · contradiction

/-- An enclosed lexeme has its two marks and ends within the characters at hand. -/
theorem enclosed?_length {wanted : Kind} {opening closing : Char}
    (found : enclosed? wanted opening closing cs = some (kind, length)) :
    0 < length ∧ length ≤ cs.length := by
  cases cs with
  | nil => simp [enclosed?] at found
  | cons c rest =>
    simp only [enclosed?] at found
    split at found
    · obtain ⟨inside, closed, shape⟩ := Option.map_eq_some_iff.mp found
      cases shape
      have := (List.findIdx?_eq_some_iff_getElem.mp closed).1
      simp only [List.length_cons]
      omega
    · contradiction

/-- A decimal number has a digit and ends within the characters at hand. -/
theorem decimal?_length (found : decimal? cs = some (kind, length)) :
    0 < length ∧ length ≤ cs.length := by
  have bound := run_le Char.isDigit cs
  simp only [decimal?] at found
  split at found
  · contradiction
  · cases found
    omega

/-- A number has a digit and ends within the characters at hand. -/
theorem integer?_length (found : integer? cs = some (kind, length)) :
    0 < length ∧ length ≤ cs.length := by
  unfold integer? at found
  split at found
  · rename_i mark rest
    have := run_le isHexDigit rest
    split at found
    · cases found
      simp only [List.length_cons]
      omega
    · exact decimal?_length found
  · exact decimal?_length found

/-- A word has its first character and ends within the characters at hand. -/
theorem word?_length (found : word? cs = some (kind, length)) :
    0 < length ∧ length ≤ cs.length := by
  cases cs with
  | nil => simp [word?] at found
  | cons c rest =>
    have := run_le isWordPart rest
    simp only [word?] at found
    split at found
    · cases found
      simp only [List.length_cons]
      omega
    · contradiction

/-- A symbol has its first character and ends within the characters at hand. -/
theorem symbol?_length (found : symbol? cs = some (kind, length)) :
    0 < length ∧ length ≤ cs.length := by
  cases cs with
  | nil => simp [symbol?] at found
  | cons c rest =>
    simp only [symbol?] at found
    split at found
    · rename_i pair
      cases found
      cases rest with
      | nil => simp at pair
      | cons d rest => simp
    · split at found
      · cases found
        simp
      · contradiction

/-- A lexeme has a character and ends within the characters at hand. -/
theorem at?_length (found : at? cs = some (kind, length)) : 0 < length ∧ length ≤ cs.length := by
  simp only [at?, Option.or_assoc, Option.or_eq_some_iff] at found
  obtain found | ⟨_, found | ⟨_, found | ⟨_, found | ⟨_, found | ⟨_, found⟩⟩⟩⟩⟩ := found
  · exact remark?_length found
  · exact enclosed?_length found
  · exact enclosed?_length found
  · exact integer?_length found
  · exact word?_length found
  · exact symbol?_length found

end Length

end LineAsm.Lexeme
