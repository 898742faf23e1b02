import LineAsm.Token
/-!
# Patterns

A pattern describes lines of a fixed number of tokens, one element for each token. An element
asks for a text, for one of several texts, for a kind, for one of several kinds, or for a token
that says the same as an earlier one. What a remark says is never taken for a word or symbol.
-/

namespace LineAsm

/-- What a pattern asks of the token at one position. -/
inductive Pattern.Element where
  /-- Every token will do. -/
  | any
  /-- The token reads as given, and is no remark. -/
  | text (wanted : String)
  /-- The token reads as one of those given, and is no remark. -/
  | oneOf (wanted : List String)
  /-- The token has the given kind. -/
  | kind (wanted : Token.Kind)
  /-- The token has one of the given kinds. -/
  | kinds (wanted : List Token.Kind)
  /-- The token says the same as the one at an earlier position. -/
  | same (earlier : Nat)
deriving DecidableEq, Repr

/-- One element for each token of a line. -/
abbrev Pattern := List Pattern.Element

namespace Pattern

/-- Operands: registers, numbers, variables and addresses. -/
def operand : Element := .kinds [.register, .integer, .identifier, .memory]

/-- Operands that can be written to. -/
def destination : Element := .kinds [.register, .identifier, .memory]

/-- Whether an element accepts a token that follows some others on its line. -/
def Element.accepts (element : Element) (before : List Token) (token : Token) : Bool :=
  match element with
  | .any => true
  | .text wanted => !token.kind.isRemark && token.value == wanted
  | .oneOf wanted => !token.kind.isRemark && wanted.contains token.value
  | .kind wanted => token.kind == wanted
  | .kinds wanted => wanted.contains token.kind
  | .same earlier => before[earlier]?.any fun other => other.same token

/-- Whether the element at a position, if there is one, accepts the token there. -/
def acceptsAt (pattern : Pattern) (tokens : List Token) (position : Nat) : Bool :=
  match pattern[position]?, tokens[position]? with
  | some element, some token => element.accepts (tokens.take position) token
  | _, _ => false

/-- A pattern matches a line of as many tokens, when each element accepts its token. -/
def matchesLine (pattern : Pattern) (tokens : List Token) : Bool :=
  pattern.length == tokens.length && (List.range tokens.length).all (pattern.acceptsAt tokens)

/-- A pattern ends at a position of a line when it matches the line up to there. -/
def endsAt (pattern : Pattern) (tokens : List Token) (position : Nat) : Bool :=
  pattern.length == position + 1 && pattern.matchesLine (tokens.take pattern.length)

/-- A pattern matches a line exactly when they have one length and every position accepts. -/
theorem matchesLine_iff {pattern : Pattern} {tokens : List Token} :
    pattern.matchesLine tokens = true ↔
      pattern.length = tokens.length ∧
        ∀ position < tokens.length, pattern.acceptsAt tokens position = true := by
  simp [matchesLine]

/-- Inside a line, a pattern ends at a position exactly when it matches the tokens up to there. -/
theorem endsAt_eq_matchesLine {tokens : List Token} {position : Nat}
    (inside : position < tokens.length) (pattern : Pattern) :
    pattern.endsAt tokens position = pattern.matchesLine (tokens.take (position + 1)) := by
  by_cases length : pattern.length = position + 1
  · simp [endsAt, length]
  · have taken : (tokens.take (position + 1)).length = position + 1 := by
      simp only [List.length_take]
      omega
    have differs : (pattern.length == position + 1) = false := beq_false_of_ne length
    simp only [endsAt, matchesLine, taken, differs, Bool.false_and]

end Pattern

end LineAsm
