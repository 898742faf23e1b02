import LineAsm.Dialect.Port
import LineAsm.Proofs.LongestMatch
import Mathlib.Data.Nat.Digits.Defs
import Mathlib.Tactic.Ring
/-!
# Numerals

The numbers of the dialect by the way they are written: digits of a base stand for a number
(`Port.Spells`), and a numeral is hexadecimal after its mark and decimal otherwise
(`Port.Numeral`). A numeral without a sign is what the lexer takes for a number
(`Port.exists_numeral_iff_class`). What the value of a port is read from is a numeral too, but a
plus sign in front of its digits is read over (`Port.value?_eq_some_iff`).
-/

namespace LineAsm

namespace Port

/-- Digits of a base, at least one and in any case, stand for a number. -/
def Spells (base : Nat) (digits : List Char) (value : Nat) : Prop :=
  digits ≠ [] ∧ ∃ figures : List Nat, (∀ figure ∈ figures, figure < base) ∧
    digits.map Char.toLower = figures.map Nat.digitChar ∧
      value = Nat.ofDigits base figures.reverse

/-- A numeral, with a sign or none in front of its digits, stands for a number. -/
inductive Numeral (sign : List Char) : List Char → Nat → Prop where
  /-- A zero, the mark of hexadecimal numbers and hexadecimal digits. -/
  | hexadecimal {mark : Char} {digits : List Char} {value : Nat}
      (marked : mark = 'x' ∨ mark = 'X') (spelled : Spells 16 digits value) :
      Numeral sign ('0' :: mark :: (sign ++ digits)) value
  /-- Decimal digits. -/
  | decimal {digits : List Char} {value : Nat} (spelled : Spells 10 digits value) :
      Numeral sign (sign ++ digits) value

section Digits

variable {base : Nat} {c : Char} {figure : Nat}

/-- The hexadecimal digits are among the first 128 characters. -/
theorem toNat_of_isHexDigit (digit : Lexeme.isHexDigit c = true) : c.toNat < 128 := by
  have below {last : Char} (high : c ≤ last) (narrow : last.toNat < 128) : c.toNat < 128 :=
    Nat.lt_of_le_of_lt (UInt32.le_iff_toNat_le.mp high) narrow
  simp only [Lexeme.isHexDigit, Bool.or_eq_true, Bool.and_eq_true, decide_eq_true_eq] at digit
  obtain (decimal | small) | large := digit
  · have high : c ≤ '9' := of_decide_eq_true (Bool.and_eq_true_iff.mp decimal).2
    exact below high (by decide)
  · exact below small.2 (by decide)
  · exact below large.2 (by decide)

/-- Only hexadecimal digits have a value. -/
theorem isHexDigit_of_digit? (valued : digit? base c = some figure) :
    Lexeme.isHexDigit c = true := by
  obtain ⟨within, -⟩ := Option.filter_eq_some_iff.mp valued
  unfold Lexeme.isHexDigit
  split at within
  · rename_i decimal
    rw [decimal, Bool.true_or, Bool.true_or]
  · split at within
    · rename_i small
      rw [small, Bool.or_true, Bool.true_or]
    · split at within
      · rename_i large
        rw [large, Bool.or_true]
      · cases within

/-- A character whose lower case is one of the first 128 is one of them itself. -/
theorem toNat_of_toLower (narrow : c.toLower.toNat < 128) : c.toNat < 128 := by
  unfold Char.toLower at narrow
  split at narrow
  · rename_i capital
    exact Nat.lt_of_le_of_lt (UInt32.le_iff_toNat_le.mp capital.2) (by decide)
  · exact narrow

/-- A character whose lower case is a digit up to hexadecimal is among the first 128. -/
theorem toNat_of_digitChar (below : figure < 16) (lower : c.toLower = Nat.digitChar figure) :
    c.toNat < 128 := by
  have known : ∀ figure < 16, (Nat.digitChar figure).toNat < 128 := by decide
  exact toNat_of_toLower (lower ▸ known figure below)

/-- A digit up to hexadecimal. -/
theorem digit?_sixteen : digit? 16 c = some figure ↔
    figure < 16 ∧ c.toLower = Nat.digitChar figure := by
  have computed (ascii : c.toNat < 128) : ∀ figure < 16,
      digit? 16 c = some figure ↔ c.toLower = Nat.digitChar figure := by
    have known : ∀ code < 128, ∀ figure < 16, digit? 16 (Char.ofNat code) = some figure ↔
        (Char.ofNat code).toLower = Nat.digitChar figure := by decide +kernel
    have mine := known c.toNat ascii
    rwa [Char.ofNat_toNat] at mine
  constructor
  · intro valued
    have below : figure < 16 :=
      of_decide_eq_true (Option.filter_eq_some_iff.mp valued).2
    have ascii := toNat_of_isHexDigit (isHexDigit_of_digit? valued)
    exact ⟨below, (computed ascii figure below).mp valued⟩
  · rintro ⟨below, lower⟩
    exact (computed (toNat_of_digitChar below lower) figure below).mpr lower

/-- A digit has a value in every base up to sixteen that is larger. -/
theorem digit?_eq_some_iff (small : base ≤ 16) :
    digit? base c = some figure ↔ figure < base ∧ c.toLower = Nat.digitChar figure := by
  have narrowed : digit? base c = some figure ↔ figure < base ∧ digit? 16 c = some figure := by
    unfold digit?
    simp only [Option.filter_eq_some_iff, decide_eq_true_eq]
    constructor
    · rintro ⟨value, below⟩
      exact ⟨below, value, below.trans_le small⟩
    · rintro ⟨below, value, -⟩
      exact ⟨value, below⟩
  rw [narrowed, digit?_sixteen]
  constructor
  · rintro ⟨below, -, lower⟩
    exact ⟨below, lower⟩
  · rintro ⟨below, lower⟩
    exact ⟨below, below.trans_le small, lower⟩

/-- Digits that follow a number. -/
theorem foldlM_eq_some_iff (small : base ≤ 16) {digits : List Char} {start value : Nat} :
    digits.foldlM (fun value c => (digit? base c).map (value * base + ·)) start = some value ↔
      ∃ figures : List Nat, (∀ figure ∈ figures, figure < base) ∧
        digits.map Char.toLower = figures.map Nat.digitChar ∧
          value = Nat.ofDigits base (figures.reverse ++ [start]) := by
  induction digits generalizing start with
  | nil =>
    constructor
    · intro known
      obtain rfl := Option.some.inj known
      exact ⟨[], List.forall_mem_nil _, rfl, Nat.ofDigits_singleton.symm⟩
    · rintro ⟨figures, -, letters, rfl⟩
      obtain rfl := List.map_eq_nil_iff.mp letters.symm
      exact congrArg some Nat.ofDigits_singleton.symm
  | cons c rest ih =>
    -- The digit in front is the last of the number before the other digits follow.
    have shift (figure : Nat) (figures : List Nat) :
        Nat.ofDigits base (figures.reverse ++ [start * base + figure]) =
          Nat.ofDigits base ((figure :: figures).reverse ++ [start]) := by
      rw [List.reverse_cons, List.append_assoc, List.singleton_append, Nat.ofDigits_append,
        Nat.ofDigits_append, Nat.ofDigits_singleton, Nat.ofDigits_cons, Nat.ofDigits_singleton]
      ring
    rw [List.foldlM_cons]
    constructor
    · intro known
      obtain ⟨next, first, others⟩ := Option.bind_eq_some_iff.mp known
      obtain ⟨figure, valued, rfl⟩ := Option.map_eq_some_iff.mp first
      obtain ⟨below, lower⟩ := (digit?_eq_some_iff small).mp valued
      obtain ⟨figures, bounded, letters, rfl⟩ := ih.mp others
      refine ⟨figure :: figures, List.forall_mem_cons.mpr ⟨below, bounded⟩, ?_, shift _ _⟩
      rw [List.map_cons, List.map_cons, lower, letters]
    · rintro ⟨figures, bounded, letters, rfl⟩
      obtain ⟨figure, figures, rfl, lower, letters⟩ := List.map_eq_cons_iff.mp letters.symm
      obtain ⟨below, bounded⟩ := List.forall_mem_cons.mp bounded
      have valued := (digit?_eq_some_iff small).mpr ⟨below, lower.symm⟩
      rw [valued, Option.map_some]
      exact ih.mpr ⟨figures, bounded, letters.symm, (shift _ _).symm⟩

end Digits

section Numbers

variable {base : Nat} {sign cs digits : List Char} {value : Nat}

/-- Digits have the value they spell. -/
theorem spells_iff_foldlM (small : base ≤ 16) : Spells base digits value ↔ digits ≠ [] ∧
    digits.foldlM (fun value c => (digit? base c).map (value * base + ·)) 0 = some value := by
  rw [Spells, foldlM_eq_some_iff small]
  simp only [Nat.ofDigits_append_zero]

/-- What is no digit, such as a sign or a mark, is not among digits that spell a number. -/
theorem Spells.not_mem {c : Char} (spelled : Spells base digits value)
    (foreign : ∀ figure < base, Nat.digitChar figure ≠ c.toLower) : c ∉ digits := by
  intro member
  obtain ⟨-, figures, bounded, letters, -⟩ := spelled
  have lower := List.mem_map_of_mem (f := Char.toLower) member
  rw [letters] at lower
  obtain ⟨figure, among, same⟩ := List.mem_map.mp lower
  exact foreign figure (bounded figure among) same

/-- In a numeral every character is a digit up to hexadecimal, the mark or of the sign. -/
theorem Numeral.not_mem {c : Char} (numeral : Numeral sign digits value)
    (foreign : ∀ figure < 16, Nat.digitChar figure ≠ c.toLower) (unmarked : c.toLower ≠ 'x')
    (unsigned : c ∉ sign) : c ∉ digits := by
  intro member
  cases numeral with
  | hexadecimal marked spelled =>
    rcases List.mem_cons.mp member with rfl | member
    · exact foreign 0 (by decide) (by decide)
    · rcases List.mem_cons.mp member with rfl | member
      · rcases marked with rfl | rfl <;> exact unmarked (by decide)
      · rcases List.mem_append.mp member with first | later
        · exact unsigned first
        · exact spelled.not_mem foreign later
  | decimal spelled =>
    rcases List.mem_append.mp member with first | later
    · exact unsigned first
    · exact spelled.not_mem (fun figure below => foreign figure (below.trans (by decide))) later

/-- Some digits have a value with or without a plus sign. -/
theorem number?_eq_some_iff (small : base ≤ 16) : number? base cs = some value ↔
    ∃ sign digits, (sign = [] ∨ sign = ['+']) ∧ cs = sign ++ digits ∧
      Spells base digits value := by
  have plus : ∀ figure < base, Nat.digitChar figure ≠ '+'.toLower := by
    have known : ∀ figure < 16, Nat.digitChar figure ≠ '+'.toLower := by decide
    exact fun figure below => known figure (below.trans_le small)
  by_cases first : cs.head? = some '+'
  · obtain ⟨rest, rfl⟩ := List.head?_eq_some_iff.mp first
    have after : number? base ('+' :: rest) = some value ↔ Spells base rest value := by
      rw [spells_iff_foldlM small, number?, if_pos first, List.tail_cons]
      cases rest <;> simp
    refine after.trans ⟨fun spelled => ⟨['+'], rest, .inr rfl, rfl, spelled⟩, ?_⟩
    rintro ⟨sign, digits, rfl | rfl, shape, spelled⟩
    · obtain rfl : '+' :: rest = digits := shape
      exact absurd List.mem_cons_self (spelled.not_mem plus)
    · exact (List.cons.inj shape).2 ▸ spelled
  · have plain : number? base cs = some value ↔ Spells base cs value := by
      rw [spells_iff_foldlM small, number?, if_neg first]
      cases cs <;> simp
    refine plain.trans ⟨fun spelled => ⟨[], cs, .inl rfl, rfl, spelled⟩, ?_⟩
    rintro ⟨sign, digits, rfl | rfl, rfl, spelled⟩
    · exact spelled
    · exact absurd rfl first

/-- After the mark a numeral is hexadecimal. -/
theorem numeral_iff_of_mark {mark : Char} (marked : mark = 'x' ∨ mark = 'X')
    (plain : '0' ∉ sign) : Numeral sign ('0' :: mark :: cs) value ↔
      ∃ digits, cs = sign ++ digits ∧ Spells 16 digits value := by
  constructor
  · intro numeral
    generalize whole : '0' :: mark :: cs = word at numeral
    cases numeral with
    | hexadecimal _ spelled => exact ⟨_, (List.cons.inj (List.cons.inj whole).2).2, spelled⟩
    | decimal spelled =>
      cases sign with
      | nil =>
        have foreign : ∀ figure < 10, Nat.digitChar figure ≠ mark.toLower := by
          rcases marked with rfl | rfl <;> decide
        have member : mark ∈ '0' :: mark :: cs := by simp
        rw [whole] at member
        exact absurd member (spelled.not_mem foreign)
      | cons c rest =>
        obtain rfl := (List.cons.inj whole).1
        exact absurd List.mem_cons_self plain
  · rintro ⟨digits, rfl, spelled⟩
    exact .hexadecimal marked spelled

/-- Without the mark a numeral is decimal. -/
theorem numeral_iff_of_unmarked (unmarked : ∀ mark rest, cs = '0' :: mark :: rest →
      ¬ (mark = 'x' ∨ mark = 'X')) :
    Numeral sign cs value ↔ ∃ digits, cs = sign ++ digits ∧ Spells 10 digits value := by
  constructor
  · intro numeral
    cases numeral with
    | hexadecimal marked _ => exact absurd marked (unmarked _ _ rfl)
    | decimal spelled => exact ⟨_, rfl, spelled⟩
  · rintro ⟨digits, rfl, spelled⟩
    exact .decimal spelled

/-- The values are those of the numerals without a sign or with a plus sign in front of the
digits. -/
theorem value?_eq_some_iff :
    value? cs = some value ↔ Numeral [] cs value ∨ Numeral ['+'] cs value := by
  have signs {base : Nat} {cs : List Char} (small : base ≤ 16) : number? base cs = some value ↔
      (∃ digits, cs = [] ++ digits ∧ Spells base digits value) ∨
        ∃ digits, cs = ['+'] ++ digits ∧ Spells base digits value := by
    rw [number?_eq_some_iff small]
    constructor
    · rintro ⟨sign, digits, rfl | rfl, rest⟩
      · exact .inl ⟨digits, rest⟩
      · exact .inr ⟨digits, rest⟩
    · rintro (⟨digits, rest⟩ | ⟨digits, rest⟩)
      · exact ⟨[], digits, .inl rfl, rest⟩
      · exact ⟨['+'], digits, .inr rfl, rest⟩
  unfold value?
  split
  · rw [signs (by decide), numeral_iff_of_mark (.inl rfl) (by decide),
      numeral_iff_of_mark (.inl rfl) (by decide)]
  · rw [signs (by decide), numeral_iff_of_mark (.inr rfl) (by decide),
      numeral_iff_of_mark (.inr rfl) (by decide)]
  · rename_i small large
    have unmarked : ∀ mark rest, cs = '0' :: mark :: rest → ¬ (mark = 'x' ∨ mark = 'X') := by
      rintro mark rest rfl (rfl | rfl)
      · exact small rest rfl
      · exact large rest rfl
    rw [signs (by decide), numeral_iff_of_unmarked unmarked, numeral_iff_of_unmarked unmarked]

end Numbers

section Classes

variable {base : Nat} {digits word : List Char}

/-- Characters spell a number if they are all digits. -/
theorem exists_spells_iff {test : Char → Bool}
    (each : ∀ c, (∃ figure < base, c.toLower = Nat.digitChar figure) ↔ test c = true) :
    (∃ value, Spells base digits value) ↔ digits ≠ [] ∧ ∀ c ∈ digits, test c = true := by
  have every : (∀ c ∈ digits, test c = true) ↔ ∃ figures : List Nat,
      (∀ figure ∈ figures, figure < base) ∧
        digits.map Char.toLower = figures.map Nat.digitChar := by
    induction digits with
    | nil => exact iff_of_true (List.forall_mem_nil _) ⟨[], List.forall_mem_nil _, rfl⟩
    | cons c rest ih =>
      rw [List.forall_mem_cons, ih, ← each]
      constructor
      · rintro ⟨⟨figure, below, lower⟩, figures, bounded, letters⟩
        refine ⟨figure :: figures, List.forall_mem_cons.mpr ⟨below, bounded⟩, ?_⟩
        rw [List.map_cons, List.map_cons, lower, letters]
      · rintro ⟨figures, bounded, letters⟩
        obtain ⟨figure, figures, rfl, lower, letters⟩ := List.map_eq_cons_iff.mp letters.symm
        obtain ⟨below, bounded⟩ := List.forall_mem_cons.mp bounded
        exact ⟨⟨figure, below, lower.symm⟩, figures, bounded, letters.symm⟩
  rw [every]
  constructor
  · rintro ⟨value, present, figures, bounded, letters, -⟩
    exact ⟨present, figures, bounded, letters⟩
  · rintro ⟨present, figures, bounded, letters⟩
    exact ⟨_, present, figures, bounded, letters, rfl⟩

/-- A test of the first 128 characters, if it is passed where the lower case is a digit there, is
passed where it is one anywhere. -/
theorem exists_digitChar_iff (small : base ≤ 16) {test : Char → Bool}
    (narrow : ∀ c, test c = true → c.toNat < 128)
    (computed : ∀ code < 128, (∃ figure < base, (Char.ofNat code).toLower = Nat.digitChar figure) ↔
      test (Char.ofNat code) = true) (c : Char) :
    (∃ figure < base, c.toLower = Nat.digitChar figure) ↔ test c = true := by
  by_cases ascii : c.toNat < 128
  · have mine := computed c.toNat ascii
    rwa [Char.ofNat_toNat] at mine
  · refine iff_of_false ?_ fun passed => ascii (narrow c passed)
    rintro ⟨figure, below, lower⟩
    exact ascii (toNat_of_digitChar (below.trans_le small) lower)

/-- A character whose lower case is a digit up to hexadecimal is a hexadecimal digit. -/
theorem exists_digitChar_iff_isHexDigit (c : Char) :
    (∃ figure < 16, c.toLower = Nat.digitChar figure) ↔ Lexeme.isHexDigit c = true :=
  exists_digitChar_iff (by decide) (fun _ => toNat_of_isHexDigit) (by decide +kernel) c

/-- A character whose lower case is a decimal digit is one. -/
theorem exists_digitChar_iff_isDigit (c : Char) :
    (∃ figure < 10, c.toLower = Nat.digitChar figure) ↔ c.isDigit = true := by
  refine exists_digitChar_iff (by decide) (fun c digit => toNat_of_isHexDigit ?_)
    (by decide +kernel) c
  rw [Lexeme.isHexDigit, digit, Bool.true_or, Bool.true_or]

/-- The numerals without a sign are the lexemes of numbers. -/
theorem exists_numeral_iff_class :
    (∃ value, Numeral [] word value) ↔ Lexeme.Class .integer (.ofList word) word := by
  constructor
  · rintro ⟨value, numeral⟩
    cases numeral with
    | hexadecimal marked spelled =>
      obtain ⟨present, only⟩ :=
        (exists_spells_iff exists_digitChar_iff_isHexDigit).mp ⟨value, spelled⟩
      exact .hexadecimal (by simpa using marked) present only
    | decimal spelled =>
      obtain ⟨present, only⟩ :=
        (exists_spells_iff exists_digitChar_iff_isDigit).mp ⟨value, spelled⟩
      exact .decimal present only
  · intro classed
    generalize kind_eq : Token.Kind.integer = kind at classed
    generalize said_eq : String.ofList word = said at classed
    cases classed with
    | hexadecimal marked present only =>
      obtain ⟨value, spelled⟩ :=
        (exists_spells_iff exists_digitChar_iff_isHexDigit).mpr ⟨present, only⟩
      exact ⟨value, .hexadecimal (by simpa using marked) spelled⟩
    | decimal present only =>
      obtain ⟨value, spelled⟩ :=
        (exists_spells_iff exists_digitChar_iff_isDigit).mpr ⟨present, only⟩
      exact ⟨value, .decimal spelled⟩
    | @word first parts start only =>
      have letters := Lexeme.wordKind_mem (.ofList (first :: parts))
      rw [← kind_eq] at letters
      exact absurd letters (by decide)
    | _ => cases kind_eq

end Classes

end Port

/-- A lexeme that is a number has a value. -/
theorem Lexeme.Class.isSome_value? {text : String} (classed : Class .integer text text.toList) :
    (Port.value? text.toList).isSome = true := by
  rw [← String.ofList_toList (s := text), String.toList_ofList] at classed
  obtain ⟨value, numeral⟩ := Port.exists_numeral_iff_class.mpr classed
  rw [Port.value?_eq_some_iff.mpr (.inl numeral)]
  rfl

end LineAsm
