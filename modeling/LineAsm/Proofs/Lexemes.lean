import LineAsm.Proofs.Lexing
/-!
# Lexemes on their own

The first character of a lexeme decides its class. A lexeme that is no remark is read again as the
same lexeme wherever nothing or a blank follows it (`Lexeme.at?_take_append`). So the text of a
token that is no remark, read on its own, is one token of the same kind (`Token.classify_of_mem`).
-/

namespace LineAsm

/-- Nothing, or a blank character first. -/
def Text.Breaks (cs : List Char) : Prop := ∀ c ∈ cs.head?, Text.isBlank c = true

/-- No character that prints in ASCII is blank. -/
theorem Text.isBlank_of_printable {c : Char} (low : 32 < c.toNat) (high : c.toNat < 127) :
    Text.isBlank c = false := by
  simp only [isBlank, blankRanges, List.any_cons, List.any_nil, Bool.or_eq_false_iff,
    Bool.and_eq_false_iff, decide_eq_false_iff_not, and_true]
  omega

namespace Lexeme

section Visible

variable {c : Char}

/-- A character between two that print is not blank. -/
theorem visible_of_between {low high : Char} (above : low ≤ c) (below : c ≤ high)
    (first : 32 < low.toNat) (last : high.toNat < 127) : Text.isBlank c = false := by
  have lower : low.toNat ≤ c.toNat := UInt32.le_iff_toNat_le.mp above
  have upper : c.toNat ≤ high.toNat := UInt32.le_iff_toNat_le.mp below
  exact Text.isBlank_of_printable (by omega) (by omega)

/-- A digit is not blank. -/
theorem visible_of_isDigit (digit : c.isDigit = true) : Text.isBlank c = false := by
  obtain ⟨low, high⟩ := Bool.and_eq_true_iff.mp digit
  have above : '0' ≤ c := of_decide_eq_true low
  have below : c ≤ '9' := of_decide_eq_true high
  exact visible_of_between above below (by decide) (by decide)

/-- A letter is not blank. -/
theorem visible_of_isAlpha (letter : c.isAlpha = true) : Text.isBlank c = false := by
  obtain capital | small := Bool.or_eq_true_iff.mp letter
  · have between : 'A' ≤ c ∧ c ≤ 'Z' := of_decide_eq_true capital
    exact visible_of_between between.1 between.2 (by decide) (by decide)
  · obtain ⟨low, high⟩ := Bool.and_eq_true_iff.mp small
    have above : 'a' ≤ c := of_decide_eq_true low
    have below : c ≤ 'z' := of_decide_eq_true high
    exact visible_of_between above below (by decide) (by decide)

/-- A hexadecimal digit is not blank. -/
theorem visible_of_isHexDigit (digit : isHexDigit c = true) : Text.isBlank c = false := by
  simp only [isHexDigit, Bool.or_eq_true, Bool.and_eq_true, decide_eq_true_eq] at digit
  obtain (decimal | small) | capital := digit
  · exact visible_of_isDigit decimal
  · exact visible_of_between small.1 small.2 (by decide) (by decide)
  · exact visible_of_between capital.1 capital.2 (by decide) (by decide)

/-- A character of a word is not blank. -/
theorem visible_of_isWordPart (part : isWordPart c = true) : Text.isBlank c = false := by
  simp only [isWordPart, Char.isAlphanum, Bool.or_eq_true, beq_iff_eq] at part
  obtain (letter | digit) | rfl := part
  · exact visible_of_isAlpha letter
  · exact visible_of_isDigit digit
  · decide

end Visible

section Runs

variable {test : Char → Bool} {after : List Char}

/-- The leading characters that pass a test, by their number. -/
theorem take_run (test : Char → Bool) (cs : List Char) :
    cs.take (run test cs) = cs.takeWhile test :=
  (List.prefix_iff_eq_take.mp (List.takeWhile_prefix test)).symm

/-- A run of visible characters ends where nothing or a blank follows. -/
theorem takeWhile_append (visible : ∀ c, test c = true → Text.isBlank c = false)
    (breaks : Text.Breaks after) (cs : List Char) :
    (cs.takeWhile test ++ after).takeWhile test = cs.takeWhile test := by
  have ended : after.takeWhile test = [] := by
    cases after with
    | nil => rfl
    | cons c rest =>
      have blank : Text.isBlank c = true := breaks c rfl
      have fails : ¬ test c = true := by
        intro passes
        rw [visible c passes] at blank
        cases blank
      exact List.takeWhile_cons_of_neg fails
  have passed : ∀ c ∈ cs.takeWhile test, test c = true :=
    List.all_eq_true.mp List.all_takeWhile
  rw [List.takeWhile_append_of_pos passed, ended, List.append_nil]

/-- The run of visible characters is as long where nothing or a blank follows it. -/
theorem run_append (visible : ∀ c, test c = true → Text.isBlank c = false)
    (breaks : Text.Breaks after) (cs : List Char) :
    run test (cs.take (run test cs) ++ after) = run test cs := by
  rw [take_run, run, takeWhile_append visible breaks, run]

/-- Characters without a line feed pass the test of a remark. -/
theorem ne_of_not_mem {text : List Char} (unbroken : '\n' ∉ text) :
    ∀ c ∈ text, (c != '\n') = true := by
  intro c member
  rw [bne_iff_ne]
  rintro rfl
  exact unbroken member

/-- Without a line feed the characters of a remark are all that follow its slashes. -/
theorem run_of_not_mem {text : List Char} (unbroken : '\n' ∉ text) :
    run (· != '\n') text = text.length := by
  rw [run, ← List.append_nil text, List.takeWhile_append_of_pos (ne_of_not_mem unbroken)]
  rfl

end Runs

section First

variable {c : Char} {rest : List Char}

/-- A remark begins with a slash. -/
theorem remark?_eq_none (other : c ≠ '/') : remark? (c :: rest) = none := by
  unfold remark?
  split
  · rename_i same
    exact absurd (List.cons.inj same).1 other
  · rename_i same
    exact absurd (List.cons.inj same).1 other
  · rfl

/-- After one slash a remark goes on with another. -/
theorem remark?_second {d : Char} (other : d ≠ '/') : remark? ('/' :: d :: rest) = none := by
  unfold remark?
  split
  · rename_i same
    exact absurd (List.cons.inj (List.cons.inj same).2).1 other
  · rename_i same
    exact absurd (List.cons.inj (List.cons.inj same).2).1 other
  · rfl

/-- Two slashes begin a remark. -/
theorem remark?_ne_none : remark? ('/' :: '/' :: rest) ≠ none := by
  unfold remark?
  split
  · nofun
  · nofun
  · rename_i other
    exact absurd rfl (other rest)

/-- Two slashes without an exclamation mark begin a comment. -/
theorem remark?_of_unmarked (unmarked : rest.head? ≠ some '!') :
    remark? ('/' :: '/' :: rest) = some (.comment, run (· != '\n') rest + 2) := by
  unfold remark?
  split
  · rename_i same
    rw [(List.cons.inj (List.cons.inj same).2).2] at unmarked
    exact absurd rfl unmarked
  · rename_i same
    rw [← (List.cons.inj (List.cons.inj same).2).2]
  · rename_i other
    exact absurd rfl (other rest)

/-- A remark has the kind of one. -/
theorem isRemark_of_remark? {cs : List Char} {kind : Token.Kind} {length : Nat}
    (found : remark? cs = some (kind, length)) : kind.isRemark = true := by
  unfold remark? at found
  split at found
  · cases found
    rfl
  · cases found
    rfl
  · cases found

/-- An enclosed lexeme begins with its opening mark. -/
theorem enclosed?_eq_none {kind : Token.Kind} {opening closing : Char} (other : c ≠ opening) :
    enclosed? kind opening closing (c :: rest) = none :=
  if_neg other

/-- A decimal number begins with a digit. -/
theorem decimal?_eq_none (other : c.isDigit = false) : decimal? (c :: rest) = none := by
  have short : run Char.isDigit (c :: rest) = 0 := by
    rw [run, List.takeWhile_cons_of_neg (by rw [other]; decide), List.length_nil]
  rw [decimal?, short]

/-- A run of digits is a decimal number. -/
theorem decimal?_eq_some (digit : c.isDigit = true) :
    decimal? (c :: rest) = some (.integer, run Char.isDigit (c :: rest)) := by
  have long : run Char.isDigit (c :: rest) = run Char.isDigit rest + 1 := by
    rw [run, List.takeWhile_cons_of_pos digit, List.length_cons, run]
  rw [decimal?, long]

/-- A number begins with a digit, and a digit begins a number. -/
theorem integer?_eq_none_iff : integer? (c :: rest) = none ↔ c.isDigit = false := by
  constructor
  · intro none
    cases digit : c.isDigit with
    | false => rfl
    | true =>
      unfold integer? at none
      split at none
      · split at none
        · cases none
        · rw [decimal?_eq_some (by decide)] at none
          cases none
      · rw [decimal?_eq_some digit] at none
        cases none
  · intro other
    unfold integer?
    split
    · rename_i same
      obtain ⟨rfl, -⟩ := List.cons.inj same
      cases other
    · exact decimal?_eq_none other

/-- A word goes on to the first character that is none of a word. -/
theorem word?_eq_some (start : isWordStart c = true) :
    word? (c :: rest) =
      some (Token.wordKind (.ofList (c :: rest.takeWhile isWordPart)), run isWordPart rest + 1) :=
  if_pos start

/-- A word begins with a letter or an underscore, and these begin a word. -/
theorem word?_eq_none_iff : word? (c :: rest) = none ↔ isWordStart c = false := by
  cases start : isWordStart c <;> simp [word?, start]

/-- An opening bracket begins an address or nothing. -/
theorem at?_bracket : at? ('[' :: rest) = enclosed? .memory '[' ']' ('[' :: rest) := by
  have symbol : symbol? ('[' :: rest) = none := by
    cases rest <;> simp [symbol?, symbolPairs, symbolMarks]
  simp only [at?, remark?_eq_none (by decide : '[' ≠ '/'),
    enclosed?_eq_none (by decide : '[' ≠ '\x27'),
    integer?_eq_none_iff.mpr (by decide : '['.isDigit = false),
    word?_eq_none_iff.mpr (by decide : isWordStart '[' = false), symbol, Option.none_or,
    Option.or_none]

/-- A quotation mark begins a quoted text or nothing. -/
theorem at?_quote : at? ('\x27' :: rest) = enclosed? .text '\x27' '\x27' ('\x27' :: rest) := by
  have symbol : symbol? ('\x27' :: rest) = none := by
    cases rest <;> simp [symbol?, symbolPairs, symbolMarks]
  simp only [at?, remark?_eq_none (by decide : '\x27' ≠ '/'),
    enclosed?_eq_none (by decide : '\x27' ≠ '['),
    integer?_eq_none_iff.mpr (by decide : '\x27'.isDigit = false),
    word?_eq_none_iff.mpr (by decide : isWordStart '\x27' = false), symbol, Option.none_or,
    Option.or_none]

/-- Other characters begin a remark, a number, a word or a symbol. -/
theorem at?_of_open (bracket : c ≠ '[') (quote : c ≠ '\x27') :
    at? (c :: rest) = (remark? (c :: rest)).or
      ((integer? (c :: rest)).or ((word? (c :: rest)).or (symbol? (c :: rest)))) := by
  simp only [at?, enclosed?_eq_none bracket, enclosed?_eq_none quote, Option.or_none,
    Option.or_assoc]

end First

section Kinds

variable {cs : List Char} {kind : Token.Kind} {length : Nat}

/-- An enclosed lexeme has the kind of its marks. -/
theorem kind_of_enclosed? {wanted : Token.Kind} {opening closing : Char}
    (found : enclosed? wanted opening closing cs = some (kind, length)) : kind = wanted := by
  unfold enclosed? at found
  split at found
  · cases found
  · split at found
    · obtain ⟨inside, -, shape⟩ := Option.map_eq_some_iff.mp found
      exact (Prod.mk.inj shape).1.symm
    · cases found

/-- A decimal number has the kind of numbers. -/
theorem kind_of_decimal? (found : decimal? cs = some (kind, length)) : kind = .integer := by
  unfold decimal? at found
  split at found <;> cases found
  rfl

/-- A number has the kind of numbers. -/
theorem kind_of_integer? (found : integer? cs = some (kind, length)) : kind = .integer := by
  unfold integer? at found
  split at found
  · split at found
    · cases found
      rfl
    · exact kind_of_decimal? found
  · exact kind_of_decimal? found

/-- A word is a keyword, a register or a name. -/
theorem wordKind_mem (word : String) :
    Token.wordKind word ∈ [Token.Kind.keyword, .register, .identifier] := by
  unfold Token.wordKind
  split
  · decide
  · split <;> decide

/-- No word is a remark. -/
theorem isRemark_wordKind (word : String) : (Token.wordKind word).isRemark = false := by
  have kinds : ∀ kind ∈ [Token.Kind.keyword, .register, .identifier], kind.isRemark = false := by
    decide
  exact kinds _ (wordKind_mem word)

/-- A word has one of three kinds. -/
theorem kind_of_word? (found : word? cs = some (kind, length)) :
    kind ∈ [Token.Kind.keyword, .register, .identifier] := by
  unfold word? at found
  split at found
  · cases found
  · split at found
    · cases found
      exact wordKind_mem _
    · cases found

/-- A symbol has the kind of symbols. -/
theorem kind_of_symbol? (found : symbol? cs = some (kind, length)) : kind = .symbol := by
  unfold symbol? at found
  split at found
  · cases found
  · split at found
    · cases found
      rfl
    · split at found
      · cases found
        rfl
      · cases found

/-- A lexeme that is a remark has been read as one. -/
theorem remark?_of_at? (found : at? cs = some (kind, length)) (remark : kind.isRemark = true) :
    remark? cs = some (kind, length) := by
  simp only [at?, Option.or_assoc, Option.or_eq_some_iff] at found
  obtain remark | ⟨-, memory | ⟨-, text | ⟨-, number | ⟨-, word | ⟨-, symbol⟩⟩⟩⟩⟩ := found
  · exact remark
  · rw [kind_of_enclosed? memory] at remark
    cases remark
  · rw [kind_of_enclosed? text] at remark
    cases remark
  · rw [kind_of_integer? number] at remark
    cases remark
  · have plain : ∀ kind ∈ [Token.Kind.keyword, .register, .identifier],
        kind.isRemark = false := by decide
    rw [plain kind (kind_of_word? word)] at remark
    cases remark
  · rw [kind_of_symbol? symbol] at remark
    cases remark

end Kinds

section Again

variable {cs after : List Char} {kind : Token.Kind} {length : Nat}

/-- An enclosed lexeme is read again whatever follows it. -/
theorem enclosed?_take_append {wanted : Token.Kind} {opening closing : Char}
    (found : enclosed? wanted opening closing cs = some (kind, length)) (after : List Char) :
    enclosed? wanted opening closing (cs.take length ++ after) = some (kind, length) := by
  cases cs with
  | nil => cases found
  | cons c rest =>
    by_cases same : c = opening
    · rw [enclosed?, if_pos same] at found
      obtain ⟨inside, closed, shape⟩ := Option.map_eq_some_iff.mp found
      cases shape
      obtain ⟨bound, closes, first⟩ := List.findIdx?_eq_some_iff_getElem.mp closed
      have again : (rest.take (inside + 1) ++ after).findIdx? (· == closing) = some inside := by
        refine List.findIdx?_eq_some_iff_getElem.mpr ⟨?_, ?_, ?_⟩
        · simp only [List.length_append, List.length_take]
          omega
        · rw [List.getElem_append_left (by simp only [List.length_take]; omega), List.getElem_take]
          exact closes
        · intro position before
          rw [List.getElem_append_left (by simp only [List.length_take]; omega), List.getElem_take]
          exact first position before
      rw [List.take_succ_cons, List.cons_append, enclosed?, if_pos same, again]
      rfl
    · rw [enclosed?_eq_none same] at found
      cases found

/-- A decimal number has all the leading digits. -/
theorem length_of_decimal? (found : decimal? cs = some (kind, length)) :
    length = run Char.isDigit cs := by
  unfold decimal? at found
  split at found
  · cases found
  · rename_i digits count
    cases found
    exact count.symm

/-- A decimal number is read again where nothing or a blank follows it. -/
theorem decimal?_take_append (found : decimal? cs = some (kind, length))
    (breaks : Text.Breaks after) : decimal? (cs.take length ++ after) = some (kind, length) := by
  unfold decimal? at found
  split at found
  · cases found
  · rename_i digits count
    cases found
    have again := run_append (fun c digit => visible_of_isDigit digit) breaks cs
    rw [count] at again
    rw [decimal?, again]

/-- A word is read again where nothing or a blank follows it. -/
theorem word?_take_append (found : word? cs = some (kind, length))
    (breaks : Text.Breaks after) : word? (cs.take length ++ after) = some (kind, length) := by
  cases cs with
  | nil => cases found
  | cons c rest =>
    by_cases start : isWordStart c = true
    · rw [word?_eq_some start] at found
      cases found
      have visible : ∀ c, isWordPart c = true → Text.isBlank c = false :=
        fun c part => visible_of_isWordPart part
      have count := run_append visible breaks rest
      have letters := takeWhile_append visible breaks rest
      rw [List.take_succ_cons, List.cons_append, word?_eq_some start, count, take_run, letters]
    · rw [word?_eq_none_iff.mpr (Bool.of_not_eq_true start)] at found
      cases found

/-- A number without a mark in its second place is decimal. -/
theorem integer?_eq_decimal? (unmarked : ∀ mark rest, cs = '0' :: mark :: rest →
    (mark == 'x' || mark == 'X') = false) : integer? cs = decimal? cs := by
  unfold integer?
  split
  · rename_i mark rest
    rw [unmarked mark rest rfl]
  · rfl

/-- The mark of a hexadecimal number is neither blank nor a digit. -/
theorem mark_apart {c : Char} (other : Text.isBlank c = true ∨ c.isDigit = true) :
    (c == 'x' || c == 'X') = false := by
  rw [Bool.or_eq_false_iff, beq_eq_false_iff_ne, beq_eq_false_iff_ne]
  constructor
  · rintro rfl
    revert other
    decide
  · rintro rfl
    revert other
    decide

/-- A number is read again where nothing or a blank follows it. -/
theorem integer?_take_append (found : integer? cs = some (kind, length))
    (breaks : Text.Breaks after) : integer? (cs.take length ++ after) = some (kind, length) := by
  have plain : decimal? cs = some (kind, length) →
      integer? (cs.take length ++ after) = some (kind, length) := by
    intro decimal
    have again := decimal?_take_append decimal breaks
    have digits : ∀ c ∈ cs.take length, c.isDigit = true := by
      rw [length_of_decimal? decimal, take_run]
      exact List.all_eq_true.mp List.all_takeWhile
    have present : cs.take length ≠ [] := by
      obtain ⟨positive, inside⟩ := decimal?_length decimal
      rw [← List.length_pos_iff, List.length_take]
      omega
    have unmarked : ∀ mark rest, cs.take length ++ after = '0' :: mark :: rest →
        (mark == 'x' || mark == 'X') = false := by
      intro mark rest shape
      rcases taken : cs.take length with _ | ⟨first, _ | ⟨second, others⟩⟩
      · exact absurd taken present
      · rw [taken] at shape
        obtain ⟨-, rfl⟩ := List.cons.inj shape
        exact mark_apart (.inl (breaks mark rfl))
      · rw [taken] at shape digits
        obtain ⟨-, same⟩ := List.cons.inj shape
        obtain ⟨rfl, -⟩ := List.cons.inj same
        exact mark_apart (.inr (digits second (by simp)))
    rw [integer?_eq_decimal? unmarked, again]
  unfold integer? at found
  split at found
  · rename_i mark rest
    split at found
    · rename_i digits marked count
      cases found
      have again := run_append (fun c digit => visible_of_isHexDigit digit) breaks rest
      rw [count] at again
      rw [List.take_succ_cons, List.take_succ_cons, List.cons_append, List.cons_append, integer?]
      simp only [marked, again]
    · exact plain found
  · exact plain found

/-- A symbol is read again where nothing or a blank follows it. -/
theorem symbol?_take_append (found : symbol? cs = some (kind, length))
    (breaks : Text.Breaks after) : symbol? (cs.take length ++ after) = some (kind, length) := by
  cases cs with
  | nil => cases found
  | cons c rest =>
    rw [symbol?] at found
    by_cases pair : (rest.head?.any fun d => symbolPairs.contains (c, d)) = true
    · rw [if_pos pair] at found
      cases found
      cases rest with
      | nil => cases pair
      | cons d rest => exact if_pos pair
    · rw [if_neg pair] at found
      by_cases mark : symbolMarks.contains c = true
      · rw [if_pos mark] at found
        cases found
        have alone : ¬ (after.head?.any fun d => symbolPairs.contains (c, d)) = true := by
          cases after with
          | nil => exact Bool.false_ne_true
          | cons d rest =>
            have blank : Text.isBlank d = true := breaks d rfl
            have visible : ∀ pair ∈ symbolPairs, Text.isBlank pair.2 = false := by decide
            intro pair
            rw [visible (c, d) (List.contains_iff_mem.mp pair)] at blank
            cases blank
        rw [List.take_succ_cons, List.take_zero, List.cons_append, List.nil_append, symbol?,
          if_neg alone, if_pos mark]
      · rw [if_neg mark] at found
        cases found

/-- Where no remark begins, none begins if nothing or a blank comes earlier. -/
theorem remark?_take_append {c : Char} {rest : List Char} (found : remark? (c :: rest) = none)
    (breaks : Text.Breaks after) (more : Nat) :
    remark? (c :: (rest.take more ++ after)) = none := by
  by_cases slash : c = '/'
  · subst slash
    have second : (rest.take more ++ after).head? ≠ some '/' := by
      have broken : after.head? ≠ some '/' := by
        intro same
        exact absurd (breaks '/' same) (by decide)
      rcases more with _ | more
      · exact broken
      · rcases rest with _ | ⟨d, rest⟩
        · exact broken
        · intro same
          have two : d = '/' := Option.some.inj same
          exact remark?_ne_none (two ▸ found)
    rcases others : rest.take more ++ after with _ | ⟨d, others⟩
    · rfl
    · rw [others] at second
      exact remark?_second fun same => second (congrArg some same)
  · exact remark?_eq_none slash

/-- A lexeme that is no remark is read again where nothing or a blank follows it. -/
theorem at?_take_append (found : at? cs = some (kind, length)) (kept : kind.isRemark = false)
    (breaks : Text.Breaks after) : at? (cs.take length ++ after) = some (kind, length) := by
  obtain ⟨positive, inside⟩ := at?_length found
  obtain ⟨more, rfl⟩ : ∃ more, length = more + 1 := ⟨length - 1, by omega⟩
  cases cs with
  | nil => cases inside
  | cons c rest =>
    have shape : (c :: rest).take (more + 1) ++ after = c :: (rest.take more ++ after) := rfl
    by_cases bracket : c = '['
    · subst bracket
      rw [at?_bracket] at found
      rw [shape, at?_bracket, ← shape]
      exact enclosed?_take_append found after
    · by_cases quote : c = '\x27'
      · subst quote
        rw [at?_quote] at found
        rw [shape, at?_quote, ← shape]
        exact enclosed?_take_append found after
      · simp only [at?_of_open bracket quote, Option.or_eq_some_iff] at found
        obtain remark | ⟨plain, found⟩ := found
        · rw [isRemark_of_remark? remark] at kept
          cases kept
        · rw [shape, at?_of_open bracket quote, remark?_take_append plain breaks, Option.none_or]
          obtain number | ⟨other, word | ⟨noWord, symbol⟩⟩ := found
          · rw [← shape, integer?_take_append number breaks]
            rfl
          · rw [integer?_eq_none_iff.mpr (integer?_eq_none_iff.mp other), Option.none_or, ← shape,
              word?_take_append word breaks]
            rfl
          · rw [integer?_eq_none_iff.mpr (integer?_eq_none_iff.mp other),
              word?_eq_none_iff.mpr (word?_eq_none_iff.mp noWord), Option.none_or, Option.none_or,
              ← shape, symbol?_take_append symbol breaks]

end Again

end Lexeme

/-- A lexeme on its own is read as one token. -/
theorem Lexer.scan_lexeme {c : Char} {rest : List Char} {kind : Token.Kind}
    (visible : Text.isBlank c = false)
    (found : Lexeme.at? (c :: rest) = some (kind, (c :: rest).length)) (column : Nat) :
    scan column false (c :: rest) = .ok [⟨kind, Lexeme.value kind (c :: rest), column⟩] := by
  unfold scan
  rw [if_neg (by rw [visible]; decide)]
  split
  · rename_i none
    rw [found] at none
    cases none
  · rename_i other length same
    obtain ⟨rfl, rfl⟩ := Prod.mk.inj (Option.some.inj (found.symm.trans same))
    have ended : (c :: rest).drop (c :: rest).length = [] := List.drop_length
    dsimp only
    rw [Bool.and_false, if_neg Bool.false_ne_true, ended, List.take_length, scan]
    rfl

namespace Token

/-- The tokens of a line, where it has some. -/
theorem ofLine_of_toOption {text : String} {line : List Token}
    (read : (ofLine text).toOption = some line) : ofLine text = .ok line := by
  cases outcome : ofLine text with
  | error cause =>
    rw [outcome] at read
    cases read
  | ok tokens =>
    rw [outcome] at read
    exact congrArg Except.ok (Option.some.inj read)

/-- The text of a token that is no remark is read as that token. -/
theorem ofLine_value {line : String} {tokens : List Token} (read : ofLine line = .ok tokens)
    {token : Token} (member : token ∈ tokens) (kept : token.kind.isRemark = false) :
    ofLine token.value = .ok [⟨token.kind, token.value, 0⟩] := by
  obtain ⟨c, rest, length, visible, found, written⟩ :=
    Lexer.exists_lexeme_of_scan read token member kept
  obtain ⟨positive, inside⟩ := Lexeme.at?_length found
  obtain ⟨more, rfl⟩ : ∃ more, length = more + 1 := ⟨length - 1, by omega⟩
  have nothing : Text.Breaks [] := nofun
  have again := Lexeme.at?_take_append found kept nothing
  have shape : (c :: rest).take (more + 1) = c :: rest.take more := rfl
  have size : (c :: rest.take more).length = more + 1 := by
    rw [← shape, List.length_take]
    omega
  rw [List.append_nil, shape, ← size] at again
  have alone := Lexer.scan_lexeme visible again 0
  rw [Lexer.value_of_kept kept] at alone
  rw [ofLine, written, String.toList_ofList, shape]
  exact alone

/-- The text of a token that is no remark has the kind of the token. -/
theorem classify_of_mem {line : String} {tokens : List Token} (read : ofLine line = .ok tokens)
    {token : Token} (member : token ∈ tokens) (kept : token.kind.isRemark = false) :
    classify token.value = some token.kind := by
  rw [classify, ofLine_value read member kept]

/-- Each token that is no remark has the kind that its text has alone. -/
def Classified (tokens : List Token) : Prop :=
  ∀ token ∈ tokens, token.kind.isRemark = false → classify token.value = some token.kind

/-- The tokens of a line are classified. -/
theorem classified_of_ofLine {line : String} {tokens : List Token}
    (read : ofLine line = .ok tokens) : Classified tokens :=
  fun _ => classify_of_mem read

/-- Of classified tokens the first ones are classified. -/
theorem Classified.take {tokens : List Token} (classified : Classified tokens) (count : Nat) :
    Classified (tokens.take count) :=
  fun token member => classified token (List.mem_of_mem_take member)

end Token

end LineAsm
