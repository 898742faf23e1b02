/-!
# Letters without case

Register names are written in any mix of upper and lower case, and some mnemonics are the
lower case of the word in the source. Only the letters a to z and A to Z have a case here.
-/

namespace LineAsm.Text

/-- A text with each letter from A to Z replaced by its lower case. -/
def lower (text : String) : String := .ofList (text.toList.map Char.toLower)

/-- Two texts that differ at most in the case of letters from a to z. -/
def sameLetters (left right : String) : Bool :=
  left.toList.map Char.toLower == right.toList.map Char.toLower

end LineAsm.Text
