import LineAsm.Proofs.Branches
import LineAsm.Proofs.Calls
import LineAsm.Proofs.Operands
/-!
# Lines of control flow by their words

A line says a construct when the standard table reads it so (`Saying`). What a line says can also be
told from its words alone: some constructs are said by fixed words (`Phrase`), and a question asks
with a symbol between two operands whether to enter a block (`Question`). Symbols have a meaning of
their own (`Comparison.meaning?`), which is that of the condition in the construct
(`Construct.exists_meaning`), and operands have a spelling of their own (`Token.reference`), in
which they are written (`Question.text_of_pair`).
-/

namespace LineAsm

/-- A line that says a construct. -/
structure Saying (construct : Construct) where
  /-- The line as it is read. -/
  raw : String
  /-- The line is a line of control flow and says the construct. -/
  said : (Reading.of (Compiler.textOf raw)).construct? = some construct

/-- A line that declares a namespace. -/
structure Declaring (space : String) where
  /-- The line as it is read. -/
  raw : String
  /-- The line is a declaration of the namespace. -/
  declares : (Reading.of (Compiler.textOf raw)).declares? = some space

/-- A line of control flow that is made of given words. -/
structure Phrase (words : List String) where
  /-- The line as it is read. -/
  raw : String
  /-- The tokens of the line. -/
  tokens : List Token
  /-- The line is read as these tokens of control flow. -/
  read : Reading.of (Compiler.textOf raw) = .owned .flow tokens
  /-- The tokens are the words. -/
  spelled : tokens.map Token.value = words

/-- A line of control flow that asks whether to enter a block: a keyword, two operands with a symbol
between them, and a brace. -/
structure Question (keyword : String) where
  /-- The line as it is read. -/
  raw : String
  /-- The keyword. -/
  word : Token
  /-- The operand before the symbol. -/
  left : Token
  /-- The symbol. -/
  symbol : Token
  /-- The operand behind the symbol. -/
  right : Token
  /-- The brace. -/
  brace : Token
  /-- The line is read as these tokens of control flow. -/
  read : Reading.of (Compiler.textOf raw) = .owned .flow [word, left, symbol, right, brace]
  /-- The first token is the keyword. -/
  asks : word.value = keyword
  /-- The last token is the brace. -/
  opens : brace.value = "\x7b"

/-- A line that says a construct is not the end marker. -/
theorem Saying.ne_marker {construct : Construct} (line : Saying construct) :
    Reading.of (Compiler.textOf line.raw) ≠ .marker := by
  intro marker
  have said := line.said
  rw [marker] at said
  cases said

/-- A line that declares a namespace is not the end marker. -/
theorem Declaring.ne_marker {space : String} (line : Declaring space) :
    Reading.of (Compiler.textOf line.raw) ≠ .marker := by
  intro marker
  have declares := line.declares
  rw [marker] at declares
  cases declares

/-- A declaration is of a namespace that has a name. -/
theorem Declaring.ne_empty {space : String} (line : Declaring space) : space ≠ "" :=
  Reading.declares?_ne_empty line.declares

/-- No line of a construct is the end marker if none of those between its ends is. -/
theorem Saying.ne_marker_around {construct : Construct} (opening : Saying construct)
    (closing : Saying .finish) {inner : List String} {raw : String}
    (within : raw ∈ inner → Reading.of (Compiler.textOf raw) ≠ .marker)
    (member : raw ∈ opening.raw :: (inner ++ [closing.raw])) :
    Reading.of (Compiler.textOf raw) ≠ .marker := by
  rcases List.mem_cons.mp member with rfl | rest
  · exact opening.ne_marker
  · rcases List.mem_append.mp rest with inside | last
    · exact within inside
    · rw [List.mem_singleton.mp last]
      exact closing.ne_marker

namespace Phrase

/-- A line of words says the construct that all tokens of these words say. -/
def saying {words : List String} (line : Phrase words) {construct : Construct}
    (all : ∀ tokens : List Token, tokens.map Token.value = words →
      Construct.ofTokens? tokens = some construct) : Saying construct where
  raw := line.raw
  said := by
    rw [line.read]
    exact all line.tokens line.spelled

/-- One token of one word. -/
theorem exists_of_map_singleton {tokens : List Token} {word : String}
    (spelled : tokens.map Token.value = [word]) :
    ∃ kind column, tokens = [⟨kind, word, column⟩] := by
  obtain ⟨⟨kind, value, column⟩, rfl, rfl⟩ := List.map_eq_singleton_iff.mp spelled
  exact ⟨kind, column, rfl⟩

/-- The innermost block is left. -/
def leave (line : Phrase ["break"]) : Saying .leave :=
  line.saying fun tokens spelled => by
    obtain ⟨kind, column, rfl⟩ := exists_of_map_singleton spelled
    rfl

/-- The function returns. -/
def exit (line : Phrase ["return"]) : Saying .exit :=
  line.saying fun tokens spelled => by
    obtain ⟨kind, column, rfl⟩ := exists_of_map_singleton spelled
    rfl

/-- A group begins. -/
def group (line : Phrase ["\x7b"]) : Saying .group :=
  line.saying fun tokens spelled => by
    obtain ⟨kind, column, rfl⟩ := exists_of_map_singleton spelled
    rfl

/-- A block or the function ends. -/
def finish (line : Phrase ["\x7d"]) : Saying .finish :=
  line.saying fun tokens spelled => by
    obtain ⟨kind, column, rfl⟩ := exists_of_map_singleton spelled
    rfl

/-- A function begins. -/
def function {name : String} (line : Phrase ["function", name, "\x7b"]) :
    Saying (.function name) :=
  line.saying fun tokens spelled => by
    obtain ⟨⟨_, _, _⟩, rest, rfl, rfl, others⟩ := List.map_eq_cons_iff.mp spelled
    obtain ⟨named, last, rfl, rfl, brace⟩ := List.map_eq_cons_iff.mp others
    obtain ⟨kind, column, rfl⟩ := exists_of_map_singleton brace
    rfl

end Phrase

/-- What a comparison symbol says of two numbers. -/
def Comparison.meaning? : String → Option (Nat → Nat → Prop)
  | "=" => some fun left right => left = right
  | "!=" => some fun left right => left ≠ right
  | "<" => some fun left right => left < right
  | ">" => some fun left right => left > right
  | "<=" => some fun left right => left ≤ right
  | ">=" => some fun left right => left ≥ right
  | _ => none

/-- The condition of a listed symbol is what the symbol says. -/
theorem Construct.exists_meaning {symbol : String}
    (listed : symbol ∈ ["=", "!=", "<", ">", "<=", ">="]) :
    ∃ meaning, Comparison.meaning? symbol = some meaning ∧
      ∀ left right, meaning left right ↔ (condition symbol).Holds left right := by
  simp only [List.mem_cons, List.not_mem_nil, or_false] at listed
  obtain rfl | rfl | rfl | rfl | rfl | rfl := listed
  all_goals exact ⟨_, rfl, fun left right => Iff.rfl⟩

section Operands

variable {token : Token} {state : State} {space : String} {operand : Operand}

/-- How an operand is spelled in the assembly under a namespace: an identifier is the memory of a
variable of the namespace, and anything else stands as it is. -/
def Token.reference (token : Token) (space : String) : String :=
  match token.kind with
  | .identifier => "[" ++ (space ++ "_" ++ token.value) ++ "]"
  | _ => token.value

/-- What a token names is spelled so. -/
theorem Operand.text_form_of_ofToken (declared : state.declared = some space)
    (asked : ofToken token state = .ok operand) :
    operand.form.text = token.reference space := by
  unfold Token.reference
  obtain ⟨kind, rfl⟩ | ⟨kind, rfl⟩ | ⟨kind, rfl⟩ | ⟨kind, name, qualified, rfl⟩ :=
    ofToken_cases asked
  · rw [kind]
    rfl
  · rw [kind]
    rfl
  · rw [kind]
    rfl
  · have force := State.qualifier_eq_ok_iff.mp qualified
    have same := declared.symm.trans (Option.filter_eq_some_iff.mp force).1
    rw [kind, Option.some.inj same]
    rfl

/-- An operand that a token names is written as it is spelled. -/
theorem Operand.text_of_ofToken (declared : state.declared = some space)
    (asked : ofToken token state = .ok operand) : operand.text = token.reference space := by
  rw [text, dword_of_ofToken asked, if_neg Bool.false_ne_true,
    text_form_of_ofToken declared asked]

/-- Memory whose width is stated is written with its width in front of it. -/
theorem Operand.text_of_sizedOfToken (declared : state.declared = some space)
    (memory : token.isMemory = true) (asked : sizedOfToken token state = .ok operand) :
    operand.text = "dword " ++ token.reference space := by
  unfold sizedOfToken at asked
  cases named : ofToken token state with
  | error cause =>
    rw [named] at asked
    cases asked
  | ok plain =>
    rw [named] at asked
    cases asked
    rw [text, dword_sized ((isMemory_of_ofToken named).trans memory), if_pos rfl, form_sized,
      text_form_of_ofToken declared named]

end Operands

namespace Question

variable {keyword space : String}

/-- A question asks with a listed symbol about two operands. -/
theorem accepted (question : Question keyword) :
    question.left.kind ∈ [Token.Kind.register, .integer, .identifier, .memory] ∧
      question.symbol.value ∈ ["=", "!=", "<", ">", "<=", ">="] ∧
      question.right.kind ∈ [Token.Kind.register, .integer, .identifier, .memory] := by
  obtain ⟨-, pattern, member, matched⟩ := Reading.exists_matches_of_owned question.read
  have length := (Pattern.matchesLine_iff.mp matched).1
  have shapes : ∀ pattern ∈ Family.flow.patterns, pattern.length = 5 →
      pattern[1]? = some Pattern.operand ∧ pattern[2]? = some Family.conditionSymbols ∧
        pattern[3]? = some Pattern.operand := by
    decide
  obtain ⟨second, third, fourth⟩ := shapes pattern member length
  refine ⟨?_, ?_, ?_⟩
  · exact Pattern.Element.kind_mem_of_kinds (Pattern.accepts_at matched second rfl)
  · have found := Pattern.accepts_at matched third rfl
    exact List.contains_iff_mem.mp (Bool.and_eq_true_iff.mp found).2
  · exact Pattern.Element.kind_mem_of_kinds (Pattern.accepts_at matched fourth rfl)

end Question

section Questions

variable {word left symbol right brace : Token}

/-- A line that asks with `if` says a conditional block. -/
theorem Construct.ofTokens?_if (asks : word.value = "if") (opens : brace.value = "\x7b") :
    ofTokens? [word, left, symbol, right, brace] =
      some (.conditional left (condition symbol.value) right) := by
  obtain ⟨_, _, _⟩ := word
  obtain ⟨_, _, _⟩ := brace
  subst asks opens
  rfl

/-- A line that asks with `while` says a loop. -/
theorem Construct.ofTokens?_while (asks : word.value = "while") (opens : brace.value = "\x7b") :
    ofTokens? [word, left, symbol, right, brace] =
      some (.looping left (condition symbol.value) right) := by
  obtain ⟨_, _, _⟩ := word
  obtain ⟨_, _, _⟩ := brace
  subst asks opens
  rfl

end Questions

namespace Question

variable {keyword space : String}

/-- The condition of a question in the construct that it says. -/
def condition (question : Question keyword) : Condition :=
  Construct.condition question.symbol.value

/-- A block begins that runs when a condition holds. -/
def conditional (question : Question "if") :
    Saying (.conditional question.left question.condition question.right) where
  raw := question.raw
  said := by
    rw [question.read]
    exact Construct.ofTokens?_if question.asks question.opens

/-- A block begins that runs while a condition holds. -/
def looping (question : Question "while") :
    Saying (.looping question.left question.condition question.right) where
  raw := question.raw
  said := by
    rw [question.read]
    exact Construct.ofTokens?_while question.asks question.opens

/-- How a question writes its first operand: memory that is compared with a number is said to be 32
bits wide. -/
def first (question : Question keyword) (space : String) : String :=
  if question.left.kind ∈ [Token.Kind.identifier, .memory] ∧ question.right.kind = .integer then
    "dword " ++ question.left.reference space
  else question.left.reference space

/-- How a question writes its second operand. -/
def second (question : Question keyword) (space : String) : String :=
  question.right.reference space

/-- The operands of the comparison that a question becomes are written so. -/
theorem text_of_pair (question : Question keyword) {left right : Operand}
    (compared : Operand.pairUnder (some space) question.left question.right = .ok [left, right]) :
    left.text = question.first space ∧ right.text = question.second space := by
  obtain ⟨-, -, one, other, same, placed, named⟩ := Operand.pair_eq_ok compared
  cases same
  refine ⟨?_, Operand.text_of_ofToken rfl named⟩
  have sort : question.left.isMemory = true ↔
      question.left.kind ∈ [Token.Kind.identifier, .memory] := by
    simp only [Token.isMemory, Bool.or_eq_true, beq_iff_eq, List.mem_cons, List.not_mem_nil,
      or_false]
    exact or_comm
  unfold first
  by_cases sized : question.left.isMemory = true ∧ question.right.kind = .integer
  · have stated : (question.left.isMemory && question.right.kind == .integer) = true := by
      rw [sized.1, sized.2]
      rfl
    rw [if_pos stated] at placed
    rw [if_pos ⟨sort.mp sized.1, sized.2⟩]
    exact Operand.text_of_sizedOfToken rfl sized.1 placed
  · have unstated : ¬ (question.left.isMemory && question.right.kind == .integer) = true := by
      rw [Bool.and_eq_true_iff, beq_iff_eq]
      exact sized
    rw [if_neg unstated] at placed
    rw [if_neg fun both => sized ⟨sort.mpr both.1, both.2⟩]
    exact Operand.text_of_ofToken rfl placed

end Question

end LineAsm
