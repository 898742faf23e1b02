import LineAsm.Token.Lexer
/-!
# Texts of tokens

Dispatch and emission rely on facts about the lexer: every token that is no remark has been read
from a lexeme of its kind, which is its text (`Lexer.exists_lexeme_of_scan`), and so has a text at
all (`Lexer.value_ne_empty_of_scan`). No namespace, function or label of a source has an empty
name.
-/

namespace LineAsm.Lexer

/-- After the remark that ends a line there is no token. -/
theorem finish_eq_ok {column : Nat} {cs : List Char} {tokens : List Token}
    (finished : finish column cs = .ok tokens) : tokens = [] := by
  unfold finish at finished
  split at finished
  · cases finished
    rfl
  · cases finished

/-- A lexeme that is no remark is the text of its token. -/
theorem value_of_kept {kind : Token.Kind} (kept : kind.isRemark = false) (lexeme : List Char) :
    Lexeme.value kind lexeme = String.ofList lexeme := by
  cases kind with
  | comment | literal => cases kept
  | _ => rfl

/-- Every token of a line that is no remark has been read from a lexeme that begins with a visible
character, and the lexeme is its text. -/
theorem exists_lexeme_of_scan {column : Nat} {started : Bool} {cs : List Char}
    {tokens : List Token} (scanned : scan column started cs = .ok tokens) :
    ∀ token ∈ tokens, token.kind.isRemark = false → ∃ c rest length, Text.isBlank c = false ∧
      Lexeme.at? (c :: rest) = some (token.kind, length) ∧
        token.value = String.ofList ((c :: rest).take length) := by
  fun_induction scan column started cs generalizing tokens with
  | case1 =>
    cases scanned
    nofun
  | case2 column started c rest blank ih => exact ih scanned
  | case3 => cases scanned
  | case4 column started c rest visible kind length found lexeme ended =>
    obtain rfl := finish_eq_ok scanned
    nofun
  | case5 column started c rest visible kind length found lexeme next going =>
    rename_i ih
    cases later : scan next true ((c :: rest).drop length) with
    | error cause =>
      rw [later] at scanned
      cases scanned
    | ok others =>
      rw [later] at scanned
      cases scanned
      intro token member kept
      rcases List.mem_cons.mp member with rfl | further
      · exact ⟨c, rest, length, Bool.of_not_eq_true visible, found, value_of_kept kept lexeme⟩
      · exact ih later token further kept

/-- Every token of a line that is no remark has a text. -/
theorem value_ne_empty_of_scan {column : Nat} {started : Bool} {cs : List Char}
    {tokens : List Token} (scanned : scan column started cs = .ok tokens) :
    ∀ token ∈ tokens, token.kind.isRemark = false → token.value ≠ "" := by
  intro token member kept
  obtain ⟨c, rest, length, -, found, written⟩ := exists_lexeme_of_scan scanned token member kept
  obtain ⟨positive, -⟩ := Lexeme.at?_length found
  obtain ⟨more, rfl⟩ : ∃ more, length = more + 1 := ⟨length - 1, by omega⟩
  intro empty
  have letters : (c :: rest).take (more + 1) = [] := by
    simpa using congrArg String.toList (written.symm.trans empty)
  cases letters

end LineAsm.Lexer
