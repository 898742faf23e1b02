import LineAsm.Pattern
import LineAsm.Token.Lexer
/-!
# Coverage of patterns

One pattern covers another when, position by position, its element accepts whatever the other
one accepts. The judgement looks at the patterns alone: a text is accepted by a kind when it is
a single token of that kind, and an element that repeats an earlier position stands for the
element found there.
-/

namespace LineAsm.Pattern

/-- Whether an element accepts every token that reads as a given text. -/
def Element.acceptsText (element : Element) (text : String) : Bool :=
  match element with
  | .any => true
  | .text wanted => wanted == text
  | .oneOf wanted => wanted.contains text
  | .kind wanted => Token.classify text == some wanted
  | .kinds wanted => (Token.classify text).any wanted.contains
  | .same _ => false

/-- Whether an element accepts every token of a given kind. -/
def Element.acceptsKind (element : Element) (kind : Token.Kind) : Bool :=
  match element with
  | .any => true
  | .kind wanted => wanted == kind
  | .kinds wanted => wanted.contains kind
  | _ => false

/-- The element that a chain of repetitions leads to within a number of steps. -/
def Element.resolve? (pattern : Pattern) : Nat → Element → Option Element
  | 0, .same _ => none
  | steps + 1, .same earlier => pattern[earlier]? >>= Element.resolve? pattern steps
  | _, element => some element

/-- Whether an element accepts every token that an element of the covered pattern accepts. A
repetition covers a repetition of the same position, and a text where that position of the
covered pattern asks for the same text. -/
def Element.covers (covered : Pattern) : Element → Element → Bool
  | .any, _ => true
  | .same left, .same right => left == right
  | .same earlier, .text wanted => covered[earlier]? == some (.text wanted)
  | .same _, _ => false
  | element, other =>
    match other.resolve? covered covered.length with
    | some (.text wanted) => element.acceptsText wanted
    | some (.oneOf wanted) => wanted.all element.acceptsText
    | some (.kind wanted) => element.acceptsKind wanted
    | some (.kinds wanted) => wanted.all element.acceptsKind
    | _ => false

/-- Whether every line that the covered pattern describes is described by the covering one, as
far as the patterns show. -/
def covers (covering covered : Pattern) : Bool :=
  covering.length == covered.length &&
    (covering.zip covered).all fun (element, other) => element.covers covered other

end LineAsm.Pattern
