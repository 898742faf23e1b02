import LineAsm.Proofs.Columns
/-!
# Reading by longest match

The classes of lexemes are given by the way they are written (`Lexeme.Class`). The lexer tries the
classes in a fixed order, and each class takes as much as it can. Yet what is found at the front of
some characters is the longest lexeme of any class there (`Lexeme.at?_eq_some_iff_longest`), and
where nothing is found no lexeme of any class begins (`Lexeme.at?_eq_none_iff`). So the tokens of a
line, or the column of the first text that cannot be read, are those of the rule of longest match
(`Lexer.Reads`, `Token.reads_iff_ofLine`).
-/

namespace LineAsm

namespace Lexeme

/-- The lexemes of every class, with the kind of their tokens and what the tokens say. -/
inductive Class : Token.Kind → String → List Char → Prop where
  /-- Two slashes and an exclamation mark, and what follows them on the line. -/
  | literal {said : List Char} (unbroken : '\n' ∉ said) :
      Class .literal (Text.trim (.ofList said)) ('/' :: '/' :: '!' :: said)
  /-- Two slashes without an exclamation mark, and what follows them on the line. -/
  | comment {said : List Char} (unbroken : '\n' ∉ said) (unmarked : said.head? ≠ some '!') :
      Class .comment (Text.trim (.ofList said)) ('/' :: '/' :: said)
  /-- A text between square brackets. -/
  | memory {inside : List Char} (unclosed : ']' ∉ inside) :
      Class .memory (.ofList ('[' :: inside ++ [']'])) ('[' :: inside ++ [']'])
  /-- A text between single quotes. -/
  | text {inside : List Char} (unclosed : '\x27' ∉ inside) :
      Class .text (.ofList ('\x27' :: inside ++ ['\x27'])) ('\x27' :: inside ++ ['\x27'])
  /-- A zero, the mark of hexadecimal numbers and hexadecimal digits. -/
  | hexadecimal {mark : Char} {digits : List Char} (marked : (mark == 'x' || mark == 'X') = true)
      (present : digits ≠ []) (only : ∀ c ∈ digits, isHexDigit c = true) :
      Class .integer (.ofList ('0' :: mark :: digits)) ('0' :: mark :: digits)
  /-- Decimal digits. -/
  | decimal {digits : List Char} (present : digits ≠ []) (only : ∀ c ∈ digits, c.isDigit = true) :
      Class .integer (.ofList digits) digits
  /-- A letter or underscore, and letters, digits and underscores. -/
  | word {first : Char} {parts : List Char} (start : isWordStart first = true)
      (only : ∀ c ∈ parts, isWordPart c = true) :
      Class (Token.wordKind (.ofList (first :: parts))) (.ofList (first :: parts)) (first :: parts)
  /-- A symbol of two characters. -/
  | pair {first second : Char} (listed : (first, second) ∈ symbolPairs) :
      Class .symbol (.ofList [first, second]) [first, second]
  /-- A symbol of one character. -/
  | mark {only : Char} (listed : only ∈ symbolMarks) : Class .symbol (.ofList [only]) [only]

/-- A lexeme in front of other characters than which none of any class is longer there. -/
structure Longest (kind : Token.Kind) (said : String) (lexeme rest : List Char) : Prop where
  /-- It is a lexeme. -/
  classed : Class kind said lexeme
  /-- Every lexeme at the same place is at most as long. -/
  longest : ∀ {other : Token.Kind} {words : String} {prefixed : List Char},
    Class other words prefixed → prefixed <+: lexeme ++ rest → prefixed.length ≤ lexeme.length

section Found

variable {cs : List Char} {kind : Token.Kind} {length : Nat}

/-- A remark that is found is one. -/
theorem class_of_remark? (found : remark? cs = some (kind, length)) :
    Class kind (value kind (cs.take length)) (cs.take length) := by
  have unbroken (rest : List Char) : '\n' ∉ rest.takeWhile (· != '\n') := by
    intro member
    have other := List.all_eq_true.mp List.all_takeWhile _ member
    simp at other
  unfold remark? at found
  split at found
  · rename_i rest
    cases found
    have taken : ('/' :: '/' :: '!' :: rest).take (run (· != '\n') rest + 3) =
        '/' :: '/' :: '!' :: rest.takeWhile (· != '\n') := by
      rw [← take_run]
      rfl
    rw [taken]
    exact .literal (unbroken rest)
  · rename_i rest plain
    cases found
    have taken : ('/' :: '/' :: rest).take (run (· != '\n') rest + 2) =
        '/' :: '/' :: rest.takeWhile (· != '\n') := by
      rw [← take_run]
      rfl
    have unmarked : (rest.takeWhile (· != '\n')).head? ≠ some '!' := by
      cases rest with
      | nil => nofun
      | cons c rest =>
        intro first
        rw [List.takeWhile_cons] at first
        split at first
        · rw [List.head?_cons, Option.some.injEq] at first
          exact plain rest (by rw [first])
        · cases first
    rw [taken]
    exact .comment (unbroken rest) unmarked
  · cases found

/-- An enclosed lexeme that is found is its marks around a text without the closing one. -/
theorem shape_of_enclosed? {wanted : Token.Kind} {opening closing : Char}
    (found : enclosed? wanted opening closing cs = some (kind, length)) :
    ∃ inside, closing ∉ inside ∧ cs.take length = opening :: inside ++ [closing] := by
  cases cs with
  | nil => cases found
  | cons c rest =>
    by_cases same : c = opening
    · rw [enclosed?, if_pos same] at found
      obtain ⟨inside, closed, shape⟩ := Option.map_eq_some_iff.mp found
      cases shape
      obtain ⟨bound, closes, first⟩ := List.findIdx?_eq_some_iff_getElem.mp closed
      refine ⟨rest.take inside, ?_, ?_⟩
      · intro member
        obtain ⟨position, before, at_⟩ := List.mem_take_iff_getElem.mp member
        have early := first position (by omega)
        rw [at_] at early
        simp at early
      · have last : rest[inside] = closing := by simpa using closes
        rw [List.take_succ_cons, List.take_succ_eq_append_getElem bound, last, same,
          List.cons_append]
    · rw [enclosed?_eq_none same] at found
      cases found

/-- A number that is found is one. -/
theorem class_of_integer? (found : integer? cs = some (kind, length)) :
    Class kind (value kind (cs.take length)) (cs.take length) := by
  obtain rfl := kind_of_integer? found
  have plain : decimal? cs = some (.integer, length) →
      Class .integer (value .integer (cs.take length)) (cs.take length) := by
    intro decimal
    obtain ⟨positive, inside⟩ := decimal?_length decimal
    rw [Lexer.value_of_kept rfl]
    refine .decimal ?_ ?_
    · rw [← List.length_pos_iff, List.length_take]
      omega
    · rw [length_of_decimal? decimal, take_run]
      exact List.all_eq_true.mp List.all_takeWhile
  unfold integer? at found
  split at found
  · rename_i mark rest
    split at found
    · rename_i digits marked count
      cases found
      have taken : ('0' :: mark :: rest).take (digits + 3) =
          '0' :: mark :: rest.takeWhile isHexDigit := by
        rw [← take_run, count]
        rfl
      rw [taken, Lexer.value_of_kept rfl]
      refine .hexadecimal marked ?_ (List.all_eq_true.mp List.all_takeWhile)
      rw [← List.length_pos_iff]
      unfold run at count
      omega
    · exact plain found
  · exact plain found

/-- A word that is found is one. -/
theorem class_of_word? (found : word? cs = some (kind, length)) :
    Class kind (value kind (cs.take length)) (cs.take length) := by
  cases cs with
  | nil => cases found
  | cons c rest =>
    by_cases start : isWordStart c = true
    · rw [word?_eq_some start] at found
      obtain ⟨rfl, rfl⟩ := Prod.mk.inj (Option.some.inj found)
      rw [Lexer.value_of_kept (isRemark_wordKind _), List.take_succ_cons, take_run]
      exact .word start (List.all_eq_true.mp List.all_takeWhile)
    · rw [word?_eq_none_iff.mpr (Bool.of_not_eq_true start)] at found
      cases found

/-- A symbol that is found is one. -/
theorem class_of_symbol? (found : symbol? cs = some (kind, length)) :
    Class kind (value kind (cs.take length)) (cs.take length) := by
  cases cs with
  | nil => cases found
  | cons c rest =>
    rw [symbol?] at found
    by_cases listed : (rest.head?.any fun d => symbolPairs.contains (c, d)) = true
    · rw [if_pos listed] at found
      cases found
      cases rest with
      | nil => cases listed
      | cons d rest => exact .pair (List.contains_iff_mem.mp listed)
    · rw [if_neg listed] at found
      by_cases mark : symbolMarks.contains c = true
      · rw [if_pos mark] at found
        cases found
        exact .mark (List.contains_iff_mem.mp mark)
      · rw [if_neg mark] at found
        cases found

/-- What is found at the front of some characters is a lexeme. -/
theorem class_of_at? (found : at? cs = some (kind, length)) :
    Class kind (value kind (cs.take length)) (cs.take length) := by
  simp only [at?, Option.or_assoc, Option.or_eq_some_iff] at found
  obtain remark | ⟨-, memory | ⟨-, text | ⟨-, number | ⟨-, word | ⟨-, symbol⟩⟩⟩⟩⟩ := found
  · exact class_of_remark? remark
  · obtain ⟨inside, unclosed, shape⟩ := shape_of_enclosed? memory
    rw [kind_of_enclosed? memory, shape]
    exact .memory unclosed
  · obtain ⟨inside, unclosed, shape⟩ := shape_of_enclosed? text
    rw [kind_of_enclosed? text, shape]
    exact .text unclosed
  · exact class_of_integer? number
  · exact class_of_word? word
  · exact class_of_symbol? symbol

end Found

section Everywhere

variable {c : Char} {kind : Token.Kind} {said : String} {lexeme rest : List Char}

/-- A letter or an underscore is no digit. -/
theorem isDigit_of_isWordStart (start : isWordStart c = true) : c.isDigit = false := by
  refine Bool.eq_false_iff.mpr fun digit => ?_
  have high : c ≤ '9' := of_decide_eq_true (Bool.and_eq_true_iff.mp digit).2
  have below : c.toNat ≤ 57 := UInt32.le_iff_toNat_le.mp high
  obtain letter | underscore := Bool.or_eq_true_iff.mp start
  · obtain capital | small := Bool.or_eq_true_iff.mp letter
    · have between : 'A' ≤ c ∧ c ≤ 'Z' := of_decide_eq_true capital
      have above : 65 ≤ c.toNat := UInt32.le_iff_toNat_le.mp between.1
      omega
    · have low : 'a' ≤ c := of_decide_eq_true (Bool.and_eq_true_iff.mp small).1
      have above : 97 ≤ c.toNat := UInt32.le_iff_toNat_le.mp low
      omega
  · obtain rfl := eq_of_beq underscore
    cases digit

/-- The symbols of one character begin no lexeme but a remark or a symbol. -/
theorem symbolMarks_apart : ∀ c ∈ symbolMarks,
    c ≠ '[' ∧ c ≠ '\x27' ∧ c.isDigit = false ∧ isWordStart c = false := by
  simp only [symbolMarks, List.forall_mem_cons, List.not_mem_nil, false_imp_iff, implies_true,
    and_true]
  and_intros <;> decide

/-- The symbols of two characters begin no lexeme but a symbol. -/
theorem symbolPairs_apart : ∀ pair ∈ symbolPairs, pair.1 ≠ '/' ∧
    pair.1 ≠ '[' ∧ pair.1 ≠ '\x27' ∧ pair.1.isDigit = false ∧ isWordStart pair.1 = false := by
  simp only [symbolPairs, List.forall_mem_cons, List.not_mem_nil, false_imp_iff, implies_true,
    and_true]
  and_intros <;> decide

/-- A digit begins a number. -/
theorem at?_of_isDigit (digit : c.isDigit = true) : at? (c :: rest) = integer? (c :: rest) := by
  have other (mark : Char) (undigit : mark.isDigit = false) : c ≠ mark := by
    rintro rfl
    rw [undigit] at digit
    cases digit
  rw [at?_of_open (other '[' (by decide)) (other '\x27' (by decide)),
    remark?_eq_none (other '/' (by decide)), Option.none_or]
  cases found : integer? (c :: rest) with
  | none =>
    rw [integer?_eq_none_iff.mp found] at digit
    cases digit
  | some lexeme => rfl

/-- A letter or an underscore begins a word. -/
theorem at?_of_isWordStart (start : isWordStart c = true) :
    at? (c :: rest) = word? (c :: rest) := by
  have other (mark : Char) (unstart : isWordStart mark = false) : c ≠ mark := by
    rintro rfl
    rw [unstart] at start
    cases start
  rw [at?_of_open (other '[' (by decide)) (other '\x27' (by decide)),
    remark?_eq_none (other '/' (by decide)),
    integer?_eq_none_iff.mpr (isDigit_of_isWordStart start), Option.none_or, Option.none_or,
    word?_eq_some start, Option.some_or]

/-- What begins no number, word or enclosed lexeme begins a remark or a symbol. -/
theorem at?_of_apart (apart : c ≠ '[' ∧ c ≠ '\x27' ∧ c.isDigit = false ∧ isWordStart c = false) :
    at? (c :: rest) = (remark? (c :: rest)).or (symbol? (c :: rest)) := by
  obtain ⟨bracket, quote, digit, start⟩ := apart
  rw [at?_of_open bracket quote, integer?_eq_none_iff.mpr digit, word?_eq_none_iff.mpr start,
    Option.none_or, Option.none_or]

/-- A remark has two slashes at least. -/
theorem two_le_of_remark? {cs : List Char} {length : Nat}
    (found : remark? cs = some (kind, length)) : 2 ≤ length := by
  unfold remark? at found
  split at found
  · cases found
    omega
  · cases found
    omega
  · cases found

/-- A run is as long as any characters at the front that pass the test. -/
theorem le_run {test : Char → Bool} {front : List Char} (passed : ∀ c ∈ front, test c = true)
    (rest : List Char) : front.length ≤ run test (front ++ rest) := by
  rw [run, List.takeWhile_append_of_pos passed, List.length_append]
  exact Nat.le_add_right _ _

/-- A lexeme between two marks is found where it stands. -/
theorem enclosed?_append {opening closing : Char} {inside : List Char}
    (unclosed : closing ∉ inside) (rest : List Char) :
    enclosed? kind opening closing (opening :: inside ++ [closing] ++ rest) =
      some (kind, (opening :: inside ++ [closing]).length) := by
  have none : inside.findIdx? (· == closing) = none := by
    refine List.findIdx?_eq_none_iff.mpr fun c member => beq_false_of_ne ?_
    rintro rfl
    exact unclosed member
  simp [enclosed?, List.findIdx?_append, List.findIdx?_cons, none]

/-- Where digits stand a number is found that has all of them. -/
theorem exists_integer? {digits : List Char} (present : digits ≠ [])
    (only : ∀ c ∈ digits, c.isDigit = true) (rest : List Char) :
    ∃ length, integer? (digits ++ rest) = some (.integer, length) ∧ digits.length ≤ length := by
  have plain : decimal? (digits ++ rest) =
      some (.integer, run Char.isDigit (digits ++ rest)) := by
    cases digits with
    | nil => exact absurd rfl present
    | cons c digits => exact decimal?_eq_some (only c List.mem_cons_self)
  unfold integer?
  split
  · rename_i mark tail shape
    split
    · -- The mark of a hexadecimal number is no digit, so the zero is the only one.
      rename_i more marked count
      refine ⟨more + 3, rfl, ?_⟩
      rcases digits with _ | ⟨zero, _ | ⟨second, digits⟩⟩
      · exact Nat.zero_le _
      · exact Nat.le_add_left 1 _
      · have digit := only second (List.mem_cons_of_mem _ List.mem_cons_self)
        rw [(List.cons.inj (List.cons.inj shape).2).1] at digit
        rw [mark_apart (.inr digit)] at marked
        cases marked
    · rw [← shape]
      exact ⟨_, plain, le_run only rest⟩
  · exact ⟨_, plain, le_run only rest⟩

/-- Wherever a lexeme stands one is found that is at least as long, and of its kind if it is as
long. -/
def Stands (kind : Token.Kind) (lexeme : List Char) : Prop :=
  ∀ rest, ∃ found length, at? (lexeme ++ rest) = some (found, length) ∧ lexeme.length ≤ length ∧
    (length = lexeme.length → found = kind)

/-- A remark is found where it stands. A comment of two slashes in front of an exclamation mark is
a part of a literal. -/
theorem stands_comment {text : List Char} (unbroken : '\n' ∉ text)
    (unmarked : text.head? ≠ some '!') : Stands .comment ('/' :: '/' :: text) := by
  intro rest
  by_cases marked : (text ++ rest).head? = some '!'
  · obtain rfl : text = [] := by
      cases text with
      | nil => rfl
      | cons c more => exact absurd marked unmarked
    cases rest with
    | nil => cases marked
    | cons c more =>
      obtain rfl : c = '!' := Option.some.inj marked
      refine ⟨.literal, run (· != '\n') more + 3, at?_of_remark? rfl, ?_, ?_⟩
      · simp only [List.length_cons, List.length_nil]
        omega
      · simp only [List.length_cons, List.length_nil]
        omega
  · exact ⟨.comment, _, at?_of_remark? (remark?_of_unmarked marked),
      Nat.add_le_add_right (le_run (ne_of_not_mem unbroken) rest) 2, fun _ => rfl⟩

/-- A hexadecimal number is found where it stands, with the digits that follow. -/
theorem stands_hexadecimal {mark : Char} {digits : List Char}
    (marked : (mark == 'x' || mark == 'X') = true) (present : digits ≠ [])
    (only : ∀ c ∈ digits, isHexDigit c = true) : Stands .integer ('0' :: mark :: digits) := by
  intro rest
  have bound := le_run only rest
  have positive := List.length_pos_iff.mpr present
  obtain ⟨more, count⟩ : ∃ more, run isHexDigit (digits ++ rest) = more + 1 :=
    ⟨run isHexDigit (digits ++ rest) - 1, by omega⟩
  have found : integer? ('0' :: mark :: (digits ++ rest)) = some (.integer, more + 3) := by
    simp only [integer?, marked, count]
  refine ⟨.integer, more + 3, (at?_of_isDigit (by decide)).trans found, ?_, fun _ => rfl⟩
  simp only [List.length_cons]
  omega

/-- A decimal number is found where it stands, with the digits that follow or as the zero of a
hexadecimal number. -/
theorem stands_decimal {digits : List Char} (present : digits ≠ [])
    (only : ∀ c ∈ digits, c.isDigit = true) : Stands .integer digits := by
  intro rest
  obtain ⟨length, found, bound⟩ := exists_integer? present only rest
  cases digits with
  | nil => exact absurd rfl present
  | cons c digits =>
    have digit := only c List.mem_cons_self
    exact ⟨.integer, length, (at?_of_isDigit digit).trans found, bound, fun _ => rfl⟩

/-- A word is found where it stands, with the letters that follow. -/
theorem stands_word {first : Char} {parts : List Char} (start : isWordStart first = true)
    (only : ∀ c ∈ parts, isWordPart c = true) :
    Stands (Token.wordKind (.ofList (first :: parts))) (first :: parts) := by
  intro rest
  have letters : (parts ++ rest).takeWhile isWordPart = parts ++ rest.takeWhile isWordPart :=
    List.takeWhile_append_of_pos only
  have read : at? (first :: (parts ++ rest)) = _ :=
    (at?_of_isWordStart start).trans (word?_eq_some start)
  refine ⟨_, _, read, Nat.add_le_add_right (le_run only rest) 1, fun whole => ?_⟩
  have ended : rest.takeWhile isWordPart = [] := by
    rw [run, letters, List.length_append, List.length_cons] at whole
    exact List.length_eq_zero_iff.mp (by omega)
  rw [letters, ended, List.append_nil]

/-- A symbol of two characters is found where it stands. -/
theorem stands_pair {first second : Char} (listed : (first, second) ∈ symbolPairs) :
    Stands .symbol [first, second] := by
  intro rest
  obtain ⟨slash, apart⟩ := symbolPairs_apart (first, second) listed
  have found : symbol? (first :: second :: rest) = some (.symbol, 2) :=
    if_pos (List.contains_iff_mem.mpr listed)
  have read : at? (first :: second :: rest) = some (.symbol, 2) := by
    rw [at?_of_apart apart, remark?_eq_none slash, Option.none_or, found]
  exact ⟨.symbol, 2, read, Nat.le_refl _, fun _ => rfl⟩

/-- A symbol of one character is found where it stands, or a remark or a symbol of two that it
begins. -/
theorem stands_mark {c : Char} (listed : c ∈ symbolMarks) : Stands .symbol [c] := by
  intro rest
  have begins : at? (c :: rest) = _ := at?_of_apart (symbolMarks_apart c listed)
  cases remark : remark? (c :: rest) with
  | some lexeme =>
    obtain ⟨found, length⟩ := lexeme
    have long := two_le_of_remark? remark
    refine ⟨found, length, at?_of_remark? remark, ?_, ?_⟩
    · rw [List.length_singleton]
      omega
    · rw [List.length_singleton]
      omega
  | none =>
    rw [remark, Option.none_or, symbol?] at begins
    by_cases pair : (rest.head?.any fun d => symbolPairs.contains (c, d)) = true
    · rw [if_pos pair] at begins
      exact ⟨.symbol, 2, begins, Nat.le_succ 1, fun _ => rfl⟩
    · rw [if_neg pair, if_pos (List.contains_iff_mem.mpr listed)] at begins
      exact ⟨.symbol, 1, begins, Nat.le_refl 1, fun _ => rfl⟩

/-- Lexemes of every class are found where they stand. -/
theorem Class.stands (classed : Class kind said lexeme) : Stands kind lexeme := by
  cases classed with
  | literal unbroken =>
    intro rest
    exact ⟨.literal, _, at?_of_remark? rfl,
      Nat.add_le_add_right (le_run (ne_of_not_mem unbroken) rest) 3, fun _ => rfl⟩
  | comment unbroken unmarked => exact stands_comment unbroken unmarked
  | memory unclosed =>
    intro rest
    exact ⟨.memory, _, at?_bracket.trans (enclosed?_append unclosed rest), Nat.le_refl _,
      fun _ => rfl⟩
  | text unclosed =>
    intro rest
    exact ⟨.text, _, at?_quote.trans (enclosed?_append unclosed rest), Nat.le_refl _,
      fun _ => rfl⟩
  | hexadecimal marked present only => exact stands_hexadecimal marked present only
  | decimal present only => exact stands_decimal present only
  | word start only => exact stands_word start only
  | pair listed => exact stands_pair listed
  | mark listed => exact stands_mark listed

/-- What a lexeme says is decided by its kind. -/
theorem Class.said_eq (classed : Class kind said lexeme) : said = value kind lexeme := by
  cases classed with
  | literal | comment | memory | text | hexadecimal | decimal | pair | mark => rfl
  | word start only => exact (Lexer.value_of_kept (isRemark_wordKind _) _).symm

/-- What is found at the front of some characters is the longest lexeme there. -/
theorem longest_of_at? {cs : List Char} {length : Nat} (found : at? cs = some (kind, length)) :
    Longest kind (value kind (cs.take length)) (cs.take length) (cs.drop length) := by
  refine ⟨class_of_at? found, fun {other words front} classed before => ?_⟩
  rw [List.take_append_drop] at before
  obtain ⟨rest, rfl⟩ := before
  obtain ⟨kind, size, again, bound, -⟩ := classed.stands rest
  obtain ⟨rfl, rfl⟩ := Prod.mk.inj (Option.some.inj (found.symm.trans again))
  rw [List.length_take, Nat.min_eq_left (at?_length found).2]
  exact bound

/-- The longest lexeme at the front of some characters is what is found there. -/
theorem Longest.at?_eq_some (longest : Longest kind said lexeme rest) :
    at? (lexeme ++ rest) = some (kind, lexeme.length) := by
  obtain ⟨found, length, read, bound, same⟩ := longest.classed.stands rest
  have inside := (at?_length read).2
  have short := longest.longest (class_of_at? read) (List.take_prefix _ _)
  rw [List.length_take, Nat.min_eq_left inside] at short
  obtain rfl : length = lexeme.length := by omega
  rw [read, same rfl]

/-- The lexeme found is the longest one of any class. -/
theorem at?_eq_some_iff_longest :
    at? (lexeme ++ rest) = some (kind, lexeme.length) ↔
      Longest kind (value kind lexeme) lexeme rest := by
  constructor
  · intro found
    have longest := longest_of_at? found
    rwa [List.take_left, List.drop_left] at longest
  · exact Longest.at?_eq_some

/-- No lexeme is found exactly where none of any class begins. -/
theorem at?_eq_none_iff {cs : List Char} :
    at? cs = none ↔ ∀ kind said lexeme, Class kind said lexeme → ¬ lexeme <+: cs := by
  constructor
  · rintro nothing kind said lexeme classed ⟨rest, rfl⟩
    obtain ⟨found, length, read, -⟩ := classed.stands rest
    rw [nothing] at read
    cases read
  · intro absent
    cases found : at? cs with
    | none => rfl
    | some lexeme => exact absurd (List.take_prefix _ _) (absent _ _ _ (class_of_at? found))

/-- No lexeme begins with a blank. -/
theorem visible_of_at? {length : Nat} (found : at? (c :: rest) = some (kind, length)) :
    Text.isBlank c = false := by
  refine Bool.eq_false_iff.mpr fun blank => ?_
  have other (mark : Char) (visible : Text.isBlank mark = false) : c ≠ mark := by
    rintro rfl
    rw [visible] at blank
    cases blank
  have digit : c.isDigit = false := Bool.eq_false_iff.mpr fun digit =>
    absurd blank (Bool.eq_false_iff.mp (visible_of_isDigit digit))
  have start : isWordStart c = false := by
    refine Bool.eq_false_iff.mpr fun start => absurd blank (Bool.eq_false_iff.mp ?_)
    obtain letter | underscore := Bool.or_eq_true_iff.mp start
    · exact visible_of_isAlpha letter
    · rw [beq_iff_eq.mp underscore]
      decide
  rw [at?_of_apart ⟨other '[' (by decide), other '\x27' (by decide), digit, start⟩,
    remark?_eq_none (other '/' (by decide)), symbol?_eq_none blank] at found
  cases found

/-- In a line a remark is followed by nothing. -/
theorem Longest.rest_eq_nil (longest : Longest kind said lexeme rest)
    (remark : kind.isRemark = true) (unbroken : '\n' ∉ lexeme ++ rest) : rest = [] := by
  have nothing : ∀ c ∈ ([] : List Char), Text.isBlank c = true := nofun
  rw [← List.append_nil (lexeme ++ rest)] at unbroken
  obtain ⟨whole, -⟩ := remark?_append_blank_of_some nothing
    (remark?_of_at? longest.at?_eq_some remark) unbroken
  rw [List.length_append] at whole
  exact List.length_eq_zero_iff.mp (by omega)

end Everywhere

end Lexeme

namespace Lexer

open Lexeme (Class Longest)

/-- How the rest of a line is read by the rule of longest match, from a column on and with or
without a token before: as tokens, or up to the column of a character that cannot be read. -/
inductive Reads : Nat → Bool → List Char → Except Nat (List Token) → Prop where
  /-- The line is used up. -/
  | nil {column : Nat} {started : Bool} : Reads column started [] (.ok [])
  /-- A blank character is passed over. -/
  | blank {column : Nat} {started : Bool} {c : Char} {rest : List Char}
      {result : Except Nat (List Token)} (white : Text.isBlank c = true)
      (further : Reads (column + c.utf8Size) started rest result) :
      Reads column started (c :: rest) result
  /-- With a visible character no lexeme of any class begins. -/
  | stray {column : Nat} {started : Bool} {c : Char} {rest : List Char}
      (visible : Text.isBlank c = false)
      (absent : ∀ kind said lexeme, Class kind said lexeme → ¬ lexeme <+: c :: rest) :
      Reads column started (c :: rest) (.error column)
  /-- A comment or literal after a token ends the reading. -/
  | stop {column : Nat} {kind : Token.Kind} {said : String} {lexeme rest : List Char}
      (longest : Longest kind said lexeme rest) (remark : kind.isRemark = true) :
      Reads column true (lexeme ++ rest) (.ok [])
  /-- The longest lexeme is a token. -/
  | token {column : Nat} {started : Bool} {kind : Token.Kind} {said : String}
      {lexeme rest : List Char} {result : Except Nat (List Token)}
      (longest : Longest kind said lexeme rest) (going : (kind.isRemark && started) = false)
      (further : Reads (column + Text.byteCount lexeme) true rest result) :
      Reads column started (lexeme ++ rest)
        (result.map fun tokens => ⟨kind, said, column⟩ :: tokens)

variable {column : Nat} {started : Bool} {cs : List Char}

/-- Where the longest lexeme stands it is read. -/
theorem scan_of_longest {kind : Token.Kind} {said : String} {lexeme rest : List Char}
    (longest : Longest kind said lexeme rest) :
    scan column started (lexeme ++ rest) =
      if kind.isRemark && started then finish (column + Text.byteCount lexeme) rest
      else do
        let tokens ← scan (column + Text.byteCount lexeme) true rest
        return ⟨kind, said, column⟩ :: tokens := by
  have found := longest.at?_eq_some
  have said_eq := longest.classed.said_eq
  cases lexeme with
  | nil => exact absurd (Lexeme.at?_length found).1 (Nat.lt_irrefl 0)
  | cons c more =>
    rw [List.cons_append] at found ⊢
    rw [scan_of_some (Lexeme.visible_of_at? found) found, ← List.cons_append, List.take_left,
      List.drop_left, said_eq]

/-- A token in front of others is in front of them when only the column of an error is kept. -/
theorem mapError_cons (token : Token) (result : Except LexError (List Token)) :
    (do return token :: (← result)).mapError LexError.column =
      (result.mapError LexError.column).map fun tokens => token :: tokens := by
  cases result <;> rfl

/-- The lexer reads by the rule of longest match. -/
theorem reads_scan (unbroken : '\n' ∉ cs) :
    Reads column started cs ((scan column started cs).mapError LexError.column) := by
  fun_induction scan column started cs with
  | case1 column started => exact .nil
  | case2 column started c rest blank ih =>
    exact .blank blank (ih fun member => unbroken (List.mem_cons_of_mem c member))
  | case3 column started c rest visible none =>
    exact .stray (Bool.of_not_eq_true visible) (Lexeme.at?_eq_none_iff.mp none)
  | case4 column started c rest visible kind length found lexeme next ended =>
    obtain ⟨remark, rfl⟩ := Bool.and_eq_true_iff.mp ended
    have longest := Lexeme.longest_of_at? found
    have whole : lexeme ++ (c :: rest).drop length = c :: rest := List.take_append_drop _ _
    have line : '\n' ∉ lexeme ++ (c :: rest).drop length := by rwa [whole]
    have nothing := longest.rest_eq_nil remark line
    have reads : Reads column true _ (.ok []) := .stop longest remark
    rw [whole] at reads
    rw [nothing]
    exact reads
  | case5 column started c rest visible kind length found lexeme next going ih =>
    have longest := Lexeme.longest_of_at? found
    have whole : lexeme ++ (c :: rest).drop length = c :: rest := List.take_append_drop _ _
    have further := ih fun member => unbroken (List.mem_of_mem_drop member)
    have reads := Reads.token longest (Bool.of_not_eq_true going) further
    rw [whole] at reads
    exact (mapError_cons _ _).symm ▸ reads

/-- By the rule of longest match a line is read in one way, which is that of the lexer. -/
theorem Reads.eq_scan {result : Except Nat (List Token)} (reads : Reads column started cs result)
    (unbroken : '\n' ∉ cs) : result = (scan column started cs).mapError LexError.column := by
  induction reads with
  | nil =>
    rw [scan]
    rfl
  | @blank column started c rest result white further ih =>
    rw [scan_of_blank white]
    exact ih fun member => unbroken (List.mem_cons_of_mem c member)
  | stray visible absent =>
    rw [scan_of_none visible (Lexeme.at?_eq_none_iff.mpr absent)]
    rfl
  | stop longest remark =>
    rw [scan_of_longest longest, remark, Bool.and_true, if_pos rfl,
      longest.rest_eq_nil remark unbroken]
    rfl
  | @token column started kind said lexeme rest result longest going further ih =>
    have rest_eq := ih fun member => unbroken (List.mem_append_right lexeme member)
    rw [scan_of_longest longest, going, if_neg Bool.false_ne_true, mapError_cons, ← rest_eq]

end Lexer

/-- A token of a line that is no remark is a lexeme of its kind. -/
theorem Token.class_of_ofLine {line : String} {tokens : List Token}
    (read : ofLine line = .ok tokens) {token : Token} (member : token ∈ tokens)
    (kept : token.kind.isRemark = false) :
    Lexeme.Class token.kind token.value token.value.toList := by
  obtain ⟨c, rest, length, -, found, written⟩ :=
    Lexer.exists_lexeme_of_scan read token member kept
  have classed := Lexeme.class_of_at? found
  rw [Lexer.value_of_kept kept] at classed
  rwa [written, String.toList_ofList]

/-- A lexeme that is a register is the name of one. -/
theorem Lexeme.Class.isRegister {said : String} {lexeme : List Char}
    (classed : Class .register said lexeme) : Token.isRegister said = true := by
  generalize kind_eq : Token.Kind.register = kind at classed
  cases classed with
  | word start only =>
    unfold Token.wordKind at kind_eq
    split at kind_eq
    · cases kind_eq
    · split at kind_eq
      · assumption
      · cases kind_eq
  | _ => cases kind_eq

/-- A token that is a register has the name of one. -/
theorem Token.isRegister_of_kind {line : String} {tokens : List Token}
    (read : ofLine line = .ok tokens) {token : Token} (member : token ∈ tokens)
    (register : token.kind = .register) : isRegister token.value = true := by
  have kept : token.kind.isRemark = false := by
    rw [register]
    rfl
  have classed := class_of_ofLine read member kept
  rw [register] at classed
  exact classed.isRegister

/-- A line is read by the rule of longest match. The tokens of a line, or else the column of the
text that cannot be read, are those of the reading that passes over blanks, takes the longest
lexeme of any class where one begins, stops at a comment or literal once there is a token, and
fails at a visible character with which no lexeme begins. -/
theorem Token.reads_iff_ofLine {line : String} (unbroken : '\n' ∉ line.toList)
    (result : Except Nat (List Token)) :
    Lexer.Reads 0 false line.toList result ↔
      (Token.ofLine line).mapError LexError.column = result := by
  constructor
  · intro reads
    exact (reads.eq_scan unbroken).symm
  · rintro rfl
    exact Lexer.reads_scan unbroken

/-- By longest match the first two of three symbols are one, a number has the digits that are
hexadecimal, and slashes between quotes are text; a bracket that is not closed cannot be read. -/
theorem Token.reads_iff_ofLine_mixed :
    ('\n' ∉ "x<<=0x1Fg '//'//!".toList ∧
      Lexer.Reads 0 false "x<<=0x1Fg '//'//!".toList (.ok [⟨.identifier, "x", 0⟩,
        ⟨.symbol, "<<", 1⟩, ⟨.symbol, "=", 3⟩, ⟨.integer, "0x1F", 4⟩, ⟨.identifier, "g", 8⟩,
        ⟨.text, "'//'", 10⟩])) ∧
    '\n' ∉ "'é' + [EAX".toList ∧ Lexer.Reads 0 false "'é' + [EAX".toList (.error 7) := by
  have first : '\n' ∉ "x<<=0x1Fg '//'//!".toList := by decide +kernel
  have second : '\n' ∉ "'é' + [EAX".toList := by decide +kernel
  refine ⟨⟨first, (Token.reads_iff_ofLine first _).mpr ?_⟩, second,
    (Token.reads_iff_ofLine second _).mpr ?_⟩
  · have read : (Token.ofLine "x<<=0x1Fg '//'//!").toOption = some [⟨.identifier, "x", 0⟩,
        ⟨.symbol, "<<", 1⟩, ⟨.symbol, "=", 3⟩, ⟨.integer, "0x1F", 4⟩, ⟨.identifier, "g", 8⟩,
        ⟨.text, "'//'", 10⟩] := by decide +kernel
    rw [Token.ofLine_of_toOption read]
    rfl
  · with_unfolding_all rfl

end LineAsm
