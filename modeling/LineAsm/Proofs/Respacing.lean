import LineAsm.Proofs.LongestMatch
/-!
# Tokens under other spacing

The text of a token that is no remark is the longest lexeme wherever nothing or a blank follows it
(`Lexer.longest_of_scan`). So the tokens of a line survive when their texts are written with other
blanks around them, as long as blanks stand between any two (`Token.ofLine_spaced`): none of them is
split, and no two of them become one.
-/

namespace LineAsm

/-- Blanks at the front break the text before them. -/
theorem Text.breaks_append {blanks rest : List Char} (blank : ∀ c ∈ blanks, isBlank c = true)
    (apart : blanks = [] → rest = []) : Breaks (blanks ++ rest) := by
  cases blanks with
  | nil =>
    rw [apart rfl]
    nofun
  | cons c blanks =>
    intro first head
    rw [List.cons_append, List.head?_cons, Option.mem_some] at head
    exact blank first (head ▸ List.mem_cons_self)

/-- The texts of tokens, each with its gap behind it. -/
def Token.spaced : List Token → List String → String
  | token :: tokens, gap :: gaps => token.value ++ gap ++ spaced tokens gaps
  | _, _ => ""

namespace Lexer

variable {line : List Char} {column : Nat} {started : Bool} {tokens : List Token}

/-- The text of a token that is no remark is the longest lexeme wherever nothing or a blank follows
it. -/
theorem longest_of_scan (scanned : scan column started line = .ok tokens) :
    ∀ token ∈ tokens, token.kind.isRemark = false → ∀ after, Text.Breaks after →
      Lexeme.Longest token.kind token.value token.value.toList after := by
  intro token member kept after breaks
  obtain ⟨c, rest, length, visible, found, written⟩ :=
    exists_lexeme_of_scan scanned token member kept
  have again := Lexeme.at?_take_append found kept breaks
  have size : ((c :: rest).take length).length = length := by
    rw [List.length_take, Nat.min_eq_left (Lexeme.at?_length found).2]
  have longest := Lexeme.at?_eq_some_iff_longest.mp (again.trans (by rw [size]))
  rwa [value_of_kept kept, ← written, ← String.toList_ofList (l := (c :: rest).take length),
    ← written] at longest

/-- Texts that are the longest lexemes where blanks follow are read as tokens of their own. -/
theorem unplaced_scan_spaced {gaps : List String}
    (longest : ∀ token ∈ tokens, ∀ after, Text.Breaks after →
      Lexeme.Longest token.kind token.value token.value.toList after)
    (kept : ∀ token ∈ tokens, token.kind.isRemark = false) (fits : gaps.length = tokens.length)
    (blank : ∀ gap ∈ gaps, Text.allBlank gap = true) (apart : ∀ gap ∈ gaps.dropLast, gap ≠ "") :
    unplaced (scan column started (Token.spaced tokens gaps).toList) =
      .ok (tokens.map Token.unplaced) := by
  induction tokens generalizing gaps column started with
  | nil =>
    have bare : Token.spaced [] gaps = "" := by cases gaps <;> rfl
    rw [bare, String.toList_empty, scan]
    rfl
  | cons token tokens ih =>
    cases gaps with
    | nil => cases fits
    | cons gap gaps =>
      obtain ⟨first, others⟩ := List.forall_mem_cons.mp longest
      obtain ⟨plain, others_kept⟩ := List.forall_mem_cons.mp kept
      obtain ⟨white, others_blank⟩ := List.forall_mem_cons.mp blank
      have whites : ∀ c ∈ gap.toList, Text.isBlank c = true := List.all_eq_true.mp white
      have fits : gaps.length = tokens.length := Nat.succ.inj fits
      -- Only the gap behind the last token may be empty.
      have breaks : Text.Breaks (gap.toList ++ (Token.spaced tokens gaps).toList) := by
        refine Text.breaks_append whites fun empty => ?_
        cases gaps with
        | nil =>
          cases tokens with
          | nil => rfl
          | cons second tokens => cases fits
        | cons second gaps =>
          exact absurd (String.toList_eq_nil_iff.mp empty) (apart gap List.mem_cons_self)
      have others_apart : ∀ gap ∈ gaps.dropLast, gap ≠ "" := by
        intro other member
        cases gaps with
        | nil => cases member
        | cons second gaps => exact apart other (List.mem_cons_of_mem gap member)
      have rest := @ih (column + Text.byteCount token.value.toList) true gaps others others_kept
        fits others_blank others_apart
      rw [← unplaced_scan_append whites] at rest
      rw [Token.spaced, String.toList_append, String.toList_append, List.append_assoc,
        scan_of_longest (first _ breaks), plain, Bool.false_and, if_neg Bool.false_ne_true,
        unplaced_cons, rest]
      rfl

end Lexer

namespace Token

/-- Tokens survive under other spacing. The texts of tokens of which none is a remark are read as
tokens of the same kinds and texts when they are written one behind the other with any blanks
around them and at least one blank between any two; and each text alone has the kind of its
token. -/
theorem ofLine_spaced {line : String} {tokens : List Token} (read : ofLine line = .ok tokens)
    (kept : ∀ token ∈ tokens, token.kind.isRemark = false) {front : String} {gaps : List String}
    (margin : Text.allBlank front = true) (fits : gaps.length = tokens.length)
    (blank : ∀ gap ∈ gaps, Text.allBlank gap = true) (apart : ∀ gap ∈ gaps.dropLast, gap ≠ "") :
    (∃ again, ofLine (front ++ spaced tokens gaps) = .ok again ∧
      again.map (fun token => (token.kind, token.value)) =
        tokens.map fun token => (token.kind, token.value)) ∧
    ∀ token ∈ tokens, classify token.value = some token.kind := by
  have longest : ∀ token ∈ tokens, ∀ after, Text.Breaks after →
      Lexeme.Longest token.kind token.value token.value.toList after := by
    intro token member
    exact Lexer.longest_of_scan read token member (kept token member)
  have texts := @Lexer.unplaced_scan_spaced 0 false tokens gaps longest kept fits blank apart
  rw [← Lexer.unplaced_scan_append (List.all_eq_true.mp margin), ← String.toList_append] at texts
  refine ⟨?_, fun token member => classify_of_mem read member (kept token member)⟩
  cases outcome : ofLine (front ++ spaced tokens gaps) with
  | error cause =>
    rw [ofLine] at outcome
    rw [outcome] at texts
    cases texts
  | ok again =>
    rw [ofLine] at outcome
    rw [outcome] at texts
    have same : again.map unplaced = tokens.map unplaced := Except.ok.inj texts
    have said := congrArg (List.map fun token : Token => (token.kind, token.value)) same
    rw [List.map_map, List.map_map] at said
    exact ⟨again, rfl, said⟩

/-- A zero, a word that follows it at once, and slashes and blanks between marks survive under other
spacing. -/
theorem ofLine_spaced_fragments :
    let tokens : List Token := [⟨.integer, "0", 0⟩, ⟨.identifier, "xg", 1⟩, ⟨.symbol, "<", 3⟩,
      ⟨.text, "'//'", 4⟩, ⟨.memory, "['  ]", 8⟩]
    let gaps : List String := [" ", "\t", "\u3000 ", " ", ""]
    ofLine "0xg<'//'['  ]" = .ok tokens ∧ Text.allBlank " \n" = true ∧
    (∃ again, ofLine (" \n" ++ spaced tokens gaps) = .ok again ∧
      again.map (fun token => (token.kind, token.value)) =
        [(.integer, "0"), (.identifier, "xg"), (.symbol, "<"), (.text, "'//'"),
          (.memory, "['  ]")]) ∧
    ∀ token ∈ tokens, classify token.value = some token.kind := by
  intro tokens gaps
  have read : ofLine "0xg<'//'['  ]" = .ok tokens := ofLine_of_toOption (by decide +kernel)
  have margin : Text.allBlank " \n" = true := by decide
  exact ⟨read, margin, ofLine_spaced read (by decide) margin rfl (by decide) (by decide)⟩

end Token

end LineAsm
