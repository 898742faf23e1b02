import LineAsm.Proofs.Lexemes
/-!
# Blank ends of a line

The blank ends of a line do not change what its tokens say. Blank characters at the end of a line
change nothing (`Lexer.scan_append_blank`), and those at its front only move the columns of its
tokens, or of the text that cannot be read (`Lexer.unplaced_scan_append`). So a line is read as it
is read without its blank ends, but for columns (`Token.unplaced_ofLine_trim`).
-/

namespace LineAsm

namespace Text

variable {blanks : List Char}

/-- Blank characters at the front are dropped. -/
theorem dropBlank_append (blank : ∀ c ∈ blanks, isBlank c = true) (cs : List Char) :
    dropBlank (blanks ++ cs) = dropBlank cs := List.dropWhile_append_of_pos blank

/-- Blank characters are dropped as a whole. -/
theorem dropBlank_eq_nil (blank : ∀ c ∈ blanks, isBlank c = true) : dropBlank blanks = [] :=
  dropBlank_eq_nil_iff.mpr blank

/-- Blank characters at the end are dropped. -/
theorem dropBlankEnd_append (cs : List Char) (blank : ∀ c ∈ blanks, isBlank c = true) :
    dropBlankEnd (cs ++ blanks) = dropBlankEnd cs := by
  have turned : ∀ c ∈ blanks.reverse, isBlank c = true := fun c member =>
    blank c (List.mem_reverse.mp member)
  rw [dropBlankEnd, List.reverse_append, dropBlank_append turned, dropBlankEnd]

/-- What is dropped at the end is blank. -/
theorem exists_dropBlankEnd (cs : List Char) :
    ∃ blanks, cs = dropBlankEnd cs ++ blanks ∧ ∀ c ∈ blanks, isBlank c = true := by
  refine ⟨(cs.reverse.takeWhile isBlank).reverse, ?_, fun c member => ?_⟩
  · rw [dropBlankEnd, dropBlank, ← List.reverse_append, List.takeWhile_append_dropWhile,
      List.reverse_reverse]
  · exact List.all_eq_true.mp List.all_takeWhile c (List.mem_reverse.mp member)

/-- What is dropped at the front is blank. -/
theorem exists_dropBlank (cs : List Char) :
    ∃ blanks, cs = blanks ++ dropBlank cs ∧ ∀ c ∈ blanks, isBlank c = true :=
  ⟨cs.takeWhile isBlank, List.takeWhile_append_dropWhile.symm,
    List.all_eq_true.mp List.all_takeWhile⟩

/-- Blank characters at the end are trimmed. -/
theorem trimChars_append (cs : List Char) (blank : ∀ c ∈ blanks, isBlank c = true) :
    trimChars (cs ++ blanks) = trimChars cs := by
  unfold trimChars
  induction cs with
  | nil => rw [List.nil_append, dropBlank_eq_nil blank]; rfl
  | cons c rest ih =>
    cases visible : isBlank c with
    | true =>
      have step (cs : List Char) : dropBlank (c :: cs) = dropBlank cs := by
        simp only [dropBlank, List.dropWhile_cons, visible, ↓reduceIte]
      rw [List.cons_append, step, step, ih]
    | false =>
      have stays (cs : List Char) : dropBlank (c :: cs) = c :: cs := by
        simp [dropBlank, visible]
      rw [List.cons_append, stays, stays, ← List.cons_append, dropBlankEnd_append _ blank]

end Text

namespace Lexeme

variable {cs blanks : List Char} {kind : Token.Kind} {length : Nat}

/-- The characters of the symbols of two characters are visible. -/
theorem visible_of_mem_symbolPairs : ∀ pair ∈ symbolPairs,
    Text.isBlank pair.1 = false ∧ Text.isBlank pair.2 = false := by
  simp only [symbolPairs, List.forall_mem_cons, List.not_mem_nil, false_imp_iff, implies_true,
    and_true]
  and_intros <;> decide

/-- The symbols of one character are visible. -/
theorem visible_of_mem_symbolMarks : ∀ mark ∈ symbolMarks, Text.isBlank mark = false := by
  simp only [symbolMarks, List.forall_mem_cons, List.not_mem_nil, false_imp_iff, implies_true,
    and_true]
  and_intros <;> decide

/-- No symbol begins with a blank. -/
theorem symbol?_eq_none {c : Char} (first : Text.isBlank c = true) (rest : List Char) :
    symbol? (c :: rest) = none := by
  have noPair : ¬ (rest.head?.any fun d => symbolPairs.contains (c, d)) = true := by
    cases rest with
    | nil => exact Bool.false_ne_true
    | cons d rest =>
      intro pair
      have visible := (visible_of_mem_symbolPairs (c, d) (List.contains_iff_mem.mp pair)).1
      exact absurd first (Bool.eq_false_iff.mp visible)
  have noMark : ¬ symbolMarks.contains c = true := fun mark =>
    absurd first (Bool.eq_false_iff.mp
      (visible_of_mem_symbolMarks c (List.contains_iff_mem.mp mark)))
  rw [symbol?, if_neg noPair, if_neg noMark]

/-- Where a remark begins, it is the lexeme. -/
theorem at?_of_remark? {cs : List Char} (found : remark? cs = some (kind, length)) :
    at? cs = some (kind, length) := by
  simp only [at?, found, Option.some_or]

/-- Where no lexeme begins, no remark does. -/
theorem remark?_of_none {cs : List Char} (nothing : at? cs = none) : remark? cs = none := by
  cases found : remark? cs with
  | none => rfl
  | some lexeme =>
    rw [at?_of_remark? found] at nothing
    cases nothing

/-- Where another lexeme begins, no remark does. -/
theorem remark?_of_kept {cs : List Char} (found : at? cs = some (kind, length))
    (kept : kind.isRemark = false) : remark? cs = none := by
  cases begins : remark? cs with
  | none => rfl
  | some lexeme =>
    obtain ⟨sort, size⟩ := lexeme
    obtain ⟨rfl, rfl⟩ := Prod.mk.inj (Option.some.inj (found.symm.trans (at?_of_remark? begins)))
    rw [isRemark_of_remark? begins] at kept
    cases kept

section Append

variable (blank : ∀ c ∈ blanks, Text.isBlank c = true)

include blank

/-- A run of visible characters is not continued by blanks. -/
theorem takeWhile_append_blank {test : Char → Bool}
    (visible : ∀ c, test c = true → Text.isBlank c = false) (cs : List Char) :
    (cs ++ blanks).takeWhile test = cs.takeWhile test := by
  induction cs with
  | nil =>
    cases blanks with
    | nil => rfl
    | cons c rest =>
      have fails : ¬ test c = true := by
        intro passes
        have seen := visible c passes
        rw [blank c List.mem_cons_self] at seen
        cases seen
      exact List.takeWhile_cons_of_neg fails
  | cons c rest ih => rw [List.cons_append, List.takeWhile_cons, List.takeWhile_cons, ih]

/-- A run of visible characters is as long when blanks follow. -/
theorem run_append_blank {test : Char → Bool}
    (visible : ∀ c, test c = true → Text.isBlank c = false) (cs : List Char) :
    run test (cs ++ blanks) = run test cs := by
  rw [run, takeWhile_append_blank blank visible, run]

/-- A visible character is not among blanks. -/
theorem not_mem_blank {c : Char} (visible : Text.isBlank c = false) : c ∉ blanks := by
  intro member
  rw [blank c member] at visible
  cases visible

/-- An enclosed lexeme does not change when blanks follow. -/
theorem enclosed?_append_blank {opening closing : Char} (one : Text.isBlank opening = false)
    (other : Text.isBlank closing = false) (cs : List Char) :
    enclosed? kind opening closing (cs ++ blanks) = enclosed? kind opening closing cs := by
  cases cs with
  | nil =>
    cases blanks with
    | nil => rfl
    | cons c rest =>
      have apart : c ≠ opening := fun same =>
        not_mem_blank blank one (same ▸ List.mem_cons_self)
      exact enclosed?_eq_none apart
  | cons c rest =>
    have none : blanks.findIdx? (· == closing) = none := by
      refine List.findIdx?_eq_none_iff.mpr fun d member => beq_false_of_ne ?_
      rintro rfl
      exact not_mem_blank blank other member
    rw [List.cons_append, enclosed?, enclosed?, List.findIdx?_append, none]
    simp

/-- A decimal number does not change when blanks follow. -/
theorem decimal?_append_blank (cs : List Char) : decimal? (cs ++ blanks) = decimal? cs := by
  rw [decimal?, run_append_blank blank (fun _ => visible_of_isDigit), decimal?]

/-- A number does not change when blanks follow. -/
theorem integer?_append_blank (cs : List Char) : integer? (cs ++ blanks) = integer? cs := by
  have zero : Text.isBlank '0' = false := by decide
  rcases cs with _ | ⟨c, _ | ⟨mark, rest⟩⟩
  · have unmarked : ∀ mark rest, [] ++ blanks = '0' :: mark :: rest →
        (mark == 'x' || mark == 'X') = false := by
      intro mark rest shape
      rw [List.nil_append] at shape
      exact absurd (shape ▸ List.mem_cons_self) (not_mem_blank blank zero)
    rw [integer?_eq_decimal? unmarked, decimal?_append_blank blank]
    rfl
  · have unmarked : ∀ mark rest, [c] ++ blanks = '0' :: mark :: rest →
        (mark == 'x' || mark == 'X') = false := by
      intro mark rest shape
      have split : blanks = mark :: rest := (List.cons.inj shape).2
      exact mark_apart (.inl (blank mark (split ▸ List.mem_cons_self)))
    have alone : ∀ mark rest, [c] = '0' :: mark :: rest →
        (mark == 'x' || mark == 'X') = false := nofun
    rw [integer?_eq_decimal? unmarked, integer?_eq_decimal? alone, decimal?_append_blank blank]
  · by_cases first : c = '0'
    · subst first
      have digits := run_append_blank blank (fun _ => visible_of_isHexDigit) rest
      have decimal := decimal?_append_blank blank ('0' :: mark :: rest)
      simp only [List.cons_append] at decimal ⊢
      simp only [integer?, digits, decimal]
    · have unmarked (rest : List Char) : ∀ mark' rest', c :: rest = '0' :: mark' :: rest' →
          (mark' == 'x' || mark' == 'X') = false := by
        intro mark' rest' shape
        exact absurd (List.cons.inj shape).1 first
      rw [List.cons_append, integer?_eq_decimal? (unmarked _), integer?_eq_decimal? (unmarked _),
        ← List.cons_append, decimal?_append_blank blank]

/-- A word does not change when blanks follow. -/
theorem word?_append_blank (cs : List Char) : word? (cs ++ blanks) = word? cs := by
  have visible : ∀ c, isWordPart c = true → Text.isBlank c = false :=
    fun _ => visible_of_isWordPart
  cases cs with
  | nil =>
    cases blanks with
    | nil => rfl
    | cons c rest =>
      refine word?_eq_none_iff.mpr (Bool.eq_false_iff.mpr fun start => ?_)
      have part : isWordPart c = true := by
        simp only [isWordStart, isWordPart, Char.isAlphanum, Bool.or_eq_true] at start ⊢
        exact start.imp_left .inl
      exact not_mem_blank blank (visible c part) List.mem_cons_self
  | cons c rest =>
    simp only [List.cons_append, word?, takeWhile_append_blank blank visible,
      run_append_blank blank visible]

/-- A symbol does not change when blanks follow. -/
theorem symbol?_append_blank (cs : List Char) : symbol? (cs ++ blanks) = symbol? cs := by
  rcases cs with _ | ⟨c, _ | ⟨d, rest⟩⟩
  · cases blanks with
    | nil => rfl
    | cons c rest => exact symbol?_eq_none (blank c List.mem_cons_self) rest
  · have noPair : ¬ (blanks.head?.any fun d => symbolPairs.contains (c, d)) = true := by
      cases blanks with
      | nil => exact Bool.false_ne_true
      | cons d rest =>
        intro pair
        have visible := (visible_of_mem_symbolPairs (c, d) (List.contains_iff_mem.mp pair)).2
        exact not_mem_blank blank visible List.mem_cons_self
    have alone : ¬ (([] : List Char).head?.any fun d => symbolPairs.contains (c, d)) = true :=
      Bool.false_ne_true
    rw [List.cons_append, List.nil_append, symbol?, symbol?, if_neg noPair, if_neg alone]
  · rfl

/-- Where no remark begins, none begins when blanks follow. -/
theorem remark?_append_blank {cs : List Char} (plain : remark? cs = none) :
    remark? (cs ++ blanks) = none := by
  have slash : Text.isBlank '/' = false := by decide
  rcases cs with _ | ⟨c, _ | ⟨d, rest⟩⟩
  · cases blanks with
    | nil => rfl
    | cons c rest =>
      refine remark?_eq_none fun same => ?_
      exact not_mem_blank blank slash (same ▸ List.mem_cons_self)
  · by_cases first : c = '/'
    · subst first
      cases blanks with
      | nil => rfl
      | cons d rest =>
        refine remark?_second fun same => ?_
        exact not_mem_blank blank slash (same ▸ List.mem_cons_self)
    · exact remark?_eq_none first
  · by_cases first : c = '/'
    · subst first
      by_cases second : d = '/'
      · subst second
        exact absurd plain remark?_ne_none
      · exact remark?_second second
    · exact remark?_eq_none first

/-- What is no remark does not change when blanks follow. -/
theorem at?_append_blank {cs : List Char} (plain : remark? cs = none) :
    at? (cs ++ blanks) = at? cs := by
  have bracket : Text.isBlank '[' = false ∧ Text.isBlank ']' = false := by decide
  have quote : Text.isBlank '\x27' = false := by decide
  simp only [at?, plain, remark?_append_blank blank plain, integer?_append_blank blank,
    enclosed?_append_blank blank bracket.1 bracket.2, enclosed?_append_blank blank quote quote,
    word?_append_blank blank, symbol?_append_blank blank]

/-- A remark runs to the end of its line, and takes the blanks that follow. -/
theorem remark?_append_blank_of_some {cs : List Char} (found : remark? cs = some (kind, length))
    (unbroken : '\n' ∉ cs ++ blanks) :
    length = cs.length ∧ remark? (cs ++ blanks) = some (kind, (cs ++ blanks).length) := by
  unfold remark? at found
  split at found
  · rename_i rest
    cases found
    simp only [List.cons_append, List.mem_cons, not_or] at unbroken
    obtain ⟨-, -, -, unbroken⟩ := unbroken
    have first : '\n' ∉ rest := fun member => unbroken (List.mem_append_left blanks member)
    refine ⟨by rw [run_of_not_mem first]; rfl, ?_⟩
    simp only [List.cons_append, remark?, run_of_not_mem unbroken, List.length_cons]
  · rename_i rest other
    cases found
    simp only [List.cons_append, List.mem_cons, not_or] at unbroken
    obtain ⟨-, -, unbroken⟩ := unbroken
    have first : '\n' ∉ rest := fun member => unbroken (List.mem_append_left blanks member)
    refine ⟨by rw [run_of_not_mem first]; rfl, ?_⟩
    -- A mark that would make the remark a literal is no blank.
    have unmarked : (rest ++ blanks).head? ≠ some '!' := by
      intro marked
      cases rest with
      | nil =>
        have member : '!' ∈ blanks := List.mem_of_mem_head? marked
        exact not_mem_blank blank (by decide : Text.isBlank '!' = false) member
      | cons c rest =>
        obtain rfl : c = '!' := Option.some.inj marked
        exact other rest rfl
    simp only [List.cons_append, remark?_of_unmarked unmarked, run_of_not_mem unbroken,
      List.length_cons]
  · cases found

/-- A lexeme begins a line exactly when it begins the line with blanks behind. -/
theorem isSome_at?_append_blank {cs : List Char} (unbroken : '\n' ∉ cs ++ blanks) :
    (at? (cs ++ blanks)).isSome = (at? cs).isSome := by
  cases found : remark? cs with
  | none => rw [at?_append_blank blank found]
  | some lexeme =>
    obtain ⟨-, further⟩ := remark?_append_blank_of_some blank found unbroken
    rw [at?_of_remark? found, at?_of_remark? further, Option.isSome_some, Option.isSome_some]

/-- What a remark says does not change when blanks follow. -/
theorem value_append_blank {cs : List Char} (found : remark? cs = some (kind, length)) :
    value kind (cs ++ blanks) = value kind cs := by
  have trimmed (cs : List Char) :
      Text.trim (.ofList (cs ++ blanks)) = Text.trim (.ofList cs) := by
    simp only [Text.trim, String.toList_ofList, Text.trimChars_append cs blank]
  unfold remark? at found
  split at found
  · cases found
    exact trimmed _
  · cases found
    exact trimmed _
  · cases found

end Append

end Lexeme

namespace Lexer

variable {cs rest : List Char} {c : Char} {column : Nat} {started : Bool}

/-- Blank characters are passed over. -/
theorem scan_of_blank (blank : Text.isBlank c = true) :
    scan column started (c :: rest) = scan (column + c.utf8Size) started rest := by
  rw [scan, if_pos blank]

/-- A visible character that begins no lexeme cannot be read. -/
theorem scan_of_none (visible : Text.isBlank c = false) (none : Lexeme.at? (c :: rest) = none) :
    scan column started (c :: rest) = .error (unexpected column (stray (c :: rest))) := by
  rw [scan, if_neg (Bool.eq_false_iff.mp visible)]
  split
  · rfl
  · rename_i some
    rw [none] at some
    cases some

/-- A visible character that begins a lexeme is read with it. -/
theorem scan_of_some {kind : Token.Kind} {length : Nat} (visible : Text.isBlank c = false)
    (found : Lexeme.at? (c :: rest) = some (kind, length)) :
    scan column started (c :: rest) =
      let lexeme := (c :: rest).take length
      let next := column + Text.byteCount lexeme
      if kind.isRemark && started then finish next ((c :: rest).drop length)
      else do
        let tokens ← scan next true ((c :: rest).drop length)
        return ⟨kind, Lexeme.value kind lexeme, column⟩ :: tokens := by
  rw [scan, if_neg (Bool.eq_false_iff.mp visible)]
  split
  · rename_i none
    rw [found] at none
    cases none
  · rename_i other size same
    obtain ⟨rfl, rfl⟩ := Prod.mk.inj (Option.some.inj (found.symm.trans same))
    rfl

/-- Where a lexeme begins a line, it is the first token. -/
theorem exists_cons_of_scan {length : Nat} {kind : Token.Kind} {tokens : List Token}
    (visible : Text.isBlank c = false) (found : Lexeme.at? (c :: rest) = some (kind, length))
    (scanned : scan column false (c :: rest) = .ok tokens) :
    ∃ token others, tokens = token :: others ∧ token.kind = kind := by
  rw [scan_of_some visible found] at scanned
  dsimp only at scanned
  rw [Bool.and_false, if_neg Bool.false_ne_true] at scanned
  generalize scan _ true _ = further at scanned
  cases further with
  | error cause => cases scanned
  | ok others =>
    cases scanned
    exact ⟨_, others, rfl, rfl⟩

/-- A remark is the last of its line, and no token behind another one. -/
theorem scan_of_remark {kind : Token.Kind} (visible : Text.isBlank c = false)
    (found : Lexeme.remark? (c :: rest) = some (kind, (c :: rest).length)) :
    scan column started (c :: rest) =
      .ok (if started then [] else [⟨kind, Lexeme.value kind (c :: rest), column⟩]) := by
  have remark := Lexeme.isRemark_of_remark? found
  rw [scan_of_some visible (Lexeme.at?_of_remark? found)]
  simp only [remark, List.drop_length, List.take_length, Bool.true_and]
  cases started with
  | true => rfl
  | false =>
    rw [scan]
    rfl

/-- A text without a lexeme is a part of the line. -/
theorem mem_of_mem_stray (member : c ∈ stray cs) : c ∈ cs := by
  induction cs with
  | nil => cases member
  | cons first rest ih =>
    rw [stray] at member
    split at member
    · cases member
    · exact List.mem_cons.mpr ((List.mem_cons.mp member).imp_right ih)

section Append

variable {blanks : List Char} (blank : ∀ c ∈ blanks, Text.isBlank c = true)

include blank

/-- Blanks at the front are passed over, and only the column changes. -/
theorem exists_scan_append (column : Nat) (started : Bool) (cs : List Char) :
    ∃ next, scan column started (blanks ++ cs) = scan next started cs := by
  induction blanks generalizing column with
  | nil => exact ⟨column, rfl⟩
  | cons c rest ih =>
    rw [List.cons_append, scan_of_blank (blank c List.mem_cons_self)]
    exact ih (fun d member => blank d (List.mem_cons_of_mem c member)) _

/-- Blanks are no tokens. -/
theorem scan_blanks (column : Nat) (started : Bool) : scan column started blanks = .ok [] := by
  obtain ⟨next, passed⟩ := exists_scan_append blank column started []
  rw [List.append_nil] at passed
  rw [passed, scan]

/-- Blanks may follow a text without a lexeme. -/
theorem stray_append_blank (unbroken : '\n' ∉ cs ++ blanks) :
    ∃ more, stray (cs ++ blanks) = stray cs ++ more ∧ ∀ c ∈ more, Text.isBlank c = true := by
  induction cs with
  | nil => exact ⟨stray blanks, rfl, fun c member => blank c (mem_of_mem_stray member)⟩
  | cons c rest ih =>
    obtain ⟨more, split, blanks⟩ := ih fun member => unbroken (List.mem_cons_of_mem c member)
    have begins := Lexeme.isSome_at?_append_blank blank unbroken
    rw [List.cons_append] at begins ⊢
    rw [stray, stray, begins]
    split
    · exact ⟨[], rfl, nofun⟩
    · exact ⟨more, by rw [split, List.cons_append], blanks⟩

/-- Blanks at the end of a line change nothing. -/
theorem scan_append_blank (unbroken : '\n' ∉ cs ++ blanks) :
    scan column started (cs ++ blanks) = scan column started cs := by
  fun_induction scan column started cs with
  | case1 column started => exact scan_blanks blank column started
  | case2 column started c rest visible ih =>
    rw [List.cons_append, scan_of_blank visible]
    exact ih fun member => unbroken (List.mem_cons_of_mem c member)
  | case3 column started c rest visible none =>
    have plain := Lexeme.remark?_of_none none
    obtain ⟨more, split, blanks⟩ := stray_append_blank blank unbroken
    have still := Lexeme.at?_append_blank blank plain
    rw [none, List.cons_append] at still
    rw [List.cons_append] at split ⊢
    rw [scan_of_none (Bool.of_not_eq_true visible) still, unexpected, unexpected, split,
      Text.dropBlankEnd_append _ blanks]
  | case4 column started c rest visible kind length found lexeme next ended =>
    obtain ⟨remark, rfl⟩ := Bool.and_eq_true_iff.mp ended
    obtain ⟨whole, further⟩ :=
      Lexeme.remark?_append_blank_of_some blank (Lexeme.remark?_of_at? found remark) unbroken
    rw [List.cons_append] at further ⊢
    rw [scan_of_remark (Bool.of_not_eq_true visible) further, whole, List.drop_length]
    rfl
  | case5 column started c rest visible kind length found lexeme next going ih =>
    by_cases remark : kind.isRemark = true
    · have front : started = false := by
        cases started with
        | false => rfl
        | true => exact absurd (Bool.and_eq_true_iff.mpr ⟨remark, rfl⟩) going
      have begins := Lexeme.remark?_of_at? found remark
      obtain ⟨whole, further⟩ := Lexeme.remark?_append_blank_of_some blank begins unbroken
      have value := Lexeme.value_append_blank blank begins
      rw [List.cons_append] at further value ⊢
      rw [scan_of_remark (Bool.of_not_eq_true visible) further, value, front]
      simp only [lexeme, whole, List.drop_length, List.take_length, scan]
      rfl
    · have plain := Lexeme.remark?_of_kept found (Bool.of_not_eq_true remark)
      have still := (Lexeme.at?_append_blank blank plain).trans found
      have inside := (Lexeme.at?_length found).2
      have kept : '\n' ∉ (c :: rest).drop length ++ blanks := by
        intro member
        obtain early | late := List.mem_append.mp member
        · exact unbroken (List.mem_append_left blanks (List.mem_of_mem_drop early))
        · exact unbroken (List.mem_append_right (c :: rest) late)
      have taken : (c :: rest ++ blanks).take length = (c :: rest).take length :=
        List.take_append_of_le_length inside
      have dropped : (c :: rest ++ blanks).drop length = (c :: rest).drop length ++ blanks :=
        List.drop_append_of_le_length inside
      rw [List.cons_append] at still taken dropped ⊢
      rw [scan_of_some (Bool.of_not_eq_true visible) still, taken, dropped]
      dsimp only
      rw [if_neg going, ih kept]

end Append

end Lexer

/-- A token without its place. -/
def Token.unplaced (token : Token) : Token := { token with column := 0 }

/-- A place where no lexeme begins, without the place. -/
def LexError.unplaced (error : LexError) : LexError := { error with column := 0 }

namespace Lexer

/-- What a line is read as, without places. -/
def unplaced : Except LexError (List Token) → Except LexError (List Token)
  | .ok tokens => .ok (tokens.map Token.unplaced)
  | .error error => .error error.unplaced

/-- A token in front of others has its own place. -/
theorem unplaced_cons (token : Token) (result : Except LexError (List Token)) :
    unplaced (do return token :: (← result)) = do return token.unplaced :: (← unplaced result) := by
  cases result <;> rfl

variable {cs : List Char} {column other : Nat} {started : Bool}

/-- What may follow a remark does not depend on the column. -/
theorem unplaced_finish (column other : Nat) (cs : List Char) :
    unplaced (finish column cs) = unplaced (finish other cs) := by
  unfold finish
  split <;> rfl

/-- What a line is read as does not depend on the column where it begins, but for places. -/
theorem unplaced_scan (column other : Nat) (started : Bool) (cs : List Char) :
    unplaced (scan column started cs) = unplaced (scan other started cs) := by
  fun_induction scan column started cs generalizing other with
  | case1 => rw [scan]
  | case2 column started c rest blank ih =>
    rw [scan_of_blank blank]
    exact ih _
  | case3 column started c rest visible none =>
    rw [scan_of_none (Bool.of_not_eq_true visible) none]
    rfl
  | case4 column started c rest visible kind length found lexeme next ended =>
    rw [scan_of_some (Bool.of_not_eq_true visible) found]
    dsimp only
    rw [if_pos ended]
    exact unplaced_finish _ _ _
  | case5 column started c rest visible kind length found lexeme next going ih =>
    rw [scan_of_some (Bool.of_not_eq_true visible) found]
    dsimp only
    rw [if_neg going]
    refine (unplaced_cons _ _).trans ((?_ : _ = _).trans (unplaced_cons _ _).symm)
    rw [ih]
    rfl

/-- Blanks at the front of a line only move the tokens. -/
theorem unplaced_scan_append {blanks : List Char} (blank : ∀ c ∈ blanks, Text.isBlank c = true)
    (column : Nat) (started : Bool) (cs : List Char) :
    unplaced (scan column started (blanks ++ cs)) = unplaced (scan column started cs) := by
  obtain ⟨next, passed⟩ := exists_scan_append blank column started cs
  rw [passed]
  exact unplaced_scan _ _ _ _

end Lexer

/-- A line is read as it is read without its blank ends, but for places. -/
theorem Token.unplaced_ofLine_trim {text : String} (unbroken : '\n' ∉ text.toList) :
    Lexer.unplaced (ofLine (Text.trim text)) = Lexer.unplaced (ofLine text) := by
  obtain ⟨front, whole, before⟩ := Text.exists_dropBlank text.toList
  obtain ⟨blanks, rest, after⟩ := Text.exists_dropBlankEnd (Text.dropBlank text.toList)
  have kept : '\n' ∉ Text.dropBlankEnd (Text.dropBlank text.toList) ++ blanks := by
    rw [← rest]
    intro member
    rw [whole] at unbroken
    exact unbroken (List.mem_append_right front member)
  have trimmed : (Text.trim text).toList = Text.dropBlankEnd (Text.dropBlank text.toList) := by
    rw [Text.trim, String.toList_ofList, Text.trimChars]
  calc Lexer.unplaced (Lexer.scan 0 false (Text.trim text).toList)
      = Lexer.unplaced (Lexer.scan 0 false (Text.dropBlank text.toList)) := by
        rw [trimmed, ← Lexer.scan_append_blank after kept, ← rest]
    _ = Lexer.unplaced (Lexer.scan 0 false (front ++ Text.dropBlank text.toList)) :=
        (Lexer.unplaced_scan_append before 0 false _).symm
    _ = Lexer.unplaced (Lexer.scan 0 false text.toList) := by rw [← whole]

end LineAsm
