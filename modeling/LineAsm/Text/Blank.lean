/-!
# Blank characters

The characters that separate words, indent lines and are trimmed are those with the Unicode
property White_Space. A text is trimmed by dropping them at its ends; its indentation is the
run of them at its front.
-/

namespace LineAsm.Text

/-- The code points with the property White_Space, as closed ranges. -/
def blankRanges : List (Nat × Nat) :=
  [(0x9, 0xd), (0x20, 0x20), (0x85, 0x85), (0xa0, 0xa0), (0x1680, 0x1680), (0x2000, 0x200a),
    (0x2028, 0x2029), (0x202f, 0x202f), (0x205f, 0x205f), (0x3000, 0x3000)]

/-- A character is blank when its code point lies in one of the ranges. -/
def isBlank (c : Char) : Bool :=
  blankRanges.any fun (low, high) => low ≤ c.toNat && c.toNat ≤ high

/-- Characters without their blank front. -/
def dropBlank (cs : List Char) : List Char := cs.dropWhile isBlank

/-- Characters without their blank end. -/
def dropBlankEnd (cs : List Char) : List Char := (dropBlank cs.reverse).reverse

/-- Characters without their blank ends. -/
def trimChars (cs : List Char) : List Char := dropBlankEnd (dropBlank cs)

/-- A text without its blank ends. -/
def trim (text : String) : String := .ofList (trimChars text.toList)

/-- The blank front of a text. -/
def indentation (text : String) : String := .ofList (text.toList.takeWhile isBlank)

/-- Nothing but blank characters, or nothing at all. -/
def allBlank (text : String) : Bool := text.toList.all isBlank

/-- Dropping the blank front leaves nothing exactly when every character is blank. -/
theorem dropBlank_eq_nil_iff {cs : List Char} : dropBlank cs = [] ↔ ∀ c ∈ cs, isBlank c = true := by
  induction cs with
  | nil => simp [dropBlank]
  | cons c cs ih =>
    cases blank : isBlank c with
    | true =>
      have step : dropBlank (c :: cs) = dropBlank cs := by
        simp only [dropBlank, List.dropWhile_cons, blank, ↓reduceIte]
      rw [step, ih]
      simp only [List.forall_mem_cons, blank, true_and]
    | false => simp [dropBlank, blank]

end LineAsm.Text
