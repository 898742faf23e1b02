import LineAsm.Proofs.Lexemes
import LineAsm.Proofs.Priority
/-!
# Coverage is sound

A pattern that covers another matches every line that the other one matches
(`Pattern.matchesLine_of_covers`), if its repetitions are of earlier positions; otherwise it matches
no line at all (`Pattern.forall_matchesLine_iff_of_covers`). An element that repeats a position
stands for the element that its chain of repetitions leads to, and the tokens along the chain all
say the same (`Pattern.exists_twin_of_resolve?`); so it is enough that the covering element accepts
what that last element accepts. A text is accepted by its kind because the text of a token decides
its kind.
-/

namespace LineAsm

/-- Tokens that say the same have one kind and one text. -/
theorem Token.same_iff {left right : Token} :
    left.same right = true ↔ left.kind = right.kind ∧ left.value = right.value := by
  simp [Token.same]

/-- Saying the same is passed on. -/
theorem Token.same_trans {first second third : Token} (one : first.same second = true)
    (other : second.same third = true) : first.same third = true := by
  rw [same_iff] at one other ⊢
  exact ⟨one.1.trans other.1, one.2.trans other.2⟩

namespace Pattern

/-- The position whose token an element repeats, if it repeats one. -/
def Element.repeats? : Element → Option Nat
  | .same earlier => some earlier
  | _ => none

/-- Every repetition is of an earlier position. -/
def Backward (pattern : Pattern) : Prop :=
  ∀ entry ∈ pattern.zipIdx, ∀ earlier ∈ entry.1.repeats?, earlier < entry.2

instance (pattern : Pattern) : Decidable pattern.Backward :=
  inferInstanceAs (Decidable (∀ entry ∈ pattern.zipIdx, ∀ earlier ∈ entry.1.repeats?,
    earlier < entry.2))

/-- In a backward pattern, what an element repeats stands before it. -/
theorem Backward.lt {pattern : Pattern} (backward : pattern.Backward) {position earlier : Nat}
    (asked : pattern[position]? = some (.same earlier)) : earlier < position :=
  backward (.same earlier, position) (List.mem_zipIdx_iff_getElem?.mpr asked) earlier rfl

section Elements

variable {element : Element} {token : Token} {before : List Token}

/-- An element that accepts a text accepts every token of that text. -/
theorem Element.accepts_of_acceptsText (accepted : element.acceptsText token.value = true)
    (kept : token.kind.isRemark = false) (known : Token.classify token.value = some token.kind)
    (before : List Token) : element.accepts before token = true := by
  cases element with
  | any => rfl
  | text wanted =>
    have same : wanted = token.value := eq_of_beq accepted
    simp [accepts, kept, same]
  | oneOf wanted =>
    have among : wanted.contains token.value = true := accepted
    rw [accepts, kept, among]
    rfl
  | kind wanted =>
    have same : Token.classify token.value = some wanted := eq_of_beq accepted
    rw [known] at same
    simp [accepts, Option.some.inj same]
  | kinds wanted =>
    rw [acceptsText, known] at accepted
    exact accepted
  | same earlier => cases accepted

/-- An element that accepts a kind accepts every token of that kind. -/
theorem Element.accepts_of_acceptsKind (accepted : element.acceptsKind token.kind = true)
    (before : List Token) : element.accepts before token = true := by
  cases element with
  | any => rfl
  | kind wanted =>
    have same : wanted = token.kind := eq_of_beq accepted
    simp [accepts, same]
  | kinds wanted => exact accepted
  | text wanted | oneOf wanted | same earlier => cases accepted

/-- A repetition accepts a token exactly when it says the same as the one at its position. -/
theorem Element.accepts_same_iff {earlier : Nat} :
    Element.accepts (.same earlier) before token = true ↔
      ∃ other, before[earlier]? = some other ∧ other.same token = true := by
  rw [accepts, Option.any_eq_true]

end Elements

/-- What stands among the items before a position stands there among all items, and before it. -/
theorem getElem?_take_eq_some_iff {α : Type} {items : List α} {item : α} {earlier position : Nat} :
    (items.take position)[earlier]? = some item ↔
      earlier < position ∧ items[earlier]? = some item := by
  rw [List.getElem?_take]
  by_cases before : earlier < position <;> simp [before]

section Lines

variable {covered covering : Pattern} {tokens : List Token} {position : Nat} {token : Token}

/-- The element at a position of a pattern that matches a line accepts the token there. -/
theorem accepts_at (matched : covered.matchesLine tokens = true) {element : Element}
    (asked : covered[position]? = some element) (present : tokens[position]? = some token) :
    element.accepts (tokens.take position) token = true := by
  obtain ⟨found, -, there, accepted⟩ := accepts_of_matchesLine matched asked
  obtain rfl := Option.some.inj (there.symm.trans present)
  exact accepted

/-- Along a chain of repetitions all tokens say the same: the element at its end has accepted a
token that says what the token at its beginning says. -/
theorem exists_twin_of_resolve? (matched : covered.matchesLine tokens = true) {steps : Nat}
    {element last : Element} (resolved : element.resolve? covered steps = some last)
    (accepted : element.accepts (tokens.take position) token = true)
    (present : tokens[position]? = some token) :
    ∃ place twin, tokens[place]? = some twin ∧ twin.same token = true ∧
      last.accepts (tokens.take place) twin = true := by
  have itself : token.same token = true := Token.same_iff.mpr ⟨rfl, rfl⟩
  induction steps generalizing element position token with
  | zero =>
    cases element with
    | same earlier => cases resolved
    | _ =>
      cases resolved
      exact ⟨position, token, present, itself, accepted⟩
  | succ steps ih =>
    cases element with
    | same earlier =>
      obtain ⟨next, asked, further⟩ := Option.bind_eq_some_iff.mp resolved
      obtain ⟨other, there, same⟩ := Element.accepts_same_iff.mp accepted
      have stands : tokens[earlier]? = some other := (getElem?_take_eq_some_iff.mp there).2
      have again : other.same other = true := Token.same_iff.mpr ⟨rfl, rfl⟩
      obtain ⟨place, twin, found, alike, taken⟩ :=
        ih further (accepts_at matched asked stands) stands again
      exact ⟨place, twin, found, Token.same_trans alike same, taken⟩
    | _ =>
      cases resolved
      exact ⟨position, token, present, itself, accepted⟩

/-- An element that covers another accepts the token that the other one has accepted. -/
theorem Element.accepts_of_covers (classified : Token.Classified tokens)
    (matched : covered.matchesLine tokens = true) {element other : Element}
    (asked : covered[position]? = some other) (present : tokens[position]? = some token)
    (back : ∀ earlier, element = .same earlier → earlier < position)
    (covers : element.covers covered other = true) :
    element.accepts (tokens.take position) token = true := by
  have accepted := accepts_at matched asked present
  unfold Element.covers at covers
  split at covers
  · rfl
  · rename_i left right
    obtain rfl : left = right := eq_of_beq covers
    exact accepted
  · -- The repeated position asks for the same text, and a text has one kind only.
    rename_i earlier wanted
    have before := back earlier rfl
    have repeated : covered[earlier]? = some (.text wanted) := eq_of_beq covers
    obtain ⟨first, member, there, agreed⟩ := accepts_of_matchesLine matched repeated
    simp only [accepts, Bool.and_eq_true, Bool.not_eq_true', beq_iff_eq] at accepted agreed
    have values : first.value = token.value := agreed.2.trans accepted.2.symm
    have kinds : some first.kind = some token.kind := by
      rw [← classified first member agreed.1, values,
        classified token (List.mem_of_getElem? present) accepted.1]
    refine accepts_same_iff.mpr ⟨first, ?_, Token.same_iff.mpr ⟨Option.some.inj kinds, values⟩⟩
    exact getElem?_take_eq_some_iff.mpr ⟨before, there⟩
  · cases covers
  · -- The covering element looks at the token alone, so the end of the chain decides.
    -- That end looks at its own token alone as well, which says what this one says.
    have known : token.kind.isRemark = false → Token.classify token.value = some token.kind :=
      classified token (List.mem_of_getElem? present)
    cases resolved : other.resolve? covered covered.length with
    | none =>
      simp only [resolved] at covers
      cases covers
    | some last =>
      simp only [resolved] at covers
      obtain ⟨place, twin, -, same, taken⟩ :=
        exists_twin_of_resolve? matched resolved accepted present
      obtain ⟨kinds, values⟩ := Token.same_iff.mp same
      cases last with
      | text wanted =>
        simp only [accepts, Bool.and_eq_true, Bool.not_eq_true', beq_iff_eq] at taken
        rw [kinds, values] at taken
        rw [← taken.2] at covers
        exact accepts_of_acceptsText covers taken.1 (known taken.1) _
      | oneOf wanted =>
        simp only [accepts, Bool.and_eq_true, Bool.not_eq_true', List.contains_iff_mem] at taken
        rw [kinds, values] at taken
        have asks := List.all_eq_true.mp covers token.value taken.2
        exact accepts_of_acceptsText asks taken.1 (known taken.1) _
      | kind wanted =>
        obtain rfl : token.kind = wanted := kinds.symm.trans (eq_of_beq taken)
        exact accepts_of_acceptsKind covers _
      | kinds wanted =>
        have among : token.kind ∈ wanted := kinds ▸ List.contains_iff_mem.mp taken
        exact accepts_of_acceptsKind (List.all_eq_true.mp covers token.kind among) _
      | any | same earlier => cases covers

/-- A pattern that covers another one matches every line that the other one matches. -/
theorem matchesLine_of_covers (backward : covering.Backward)
    (classified : Token.Classified tokens) (covers : covering.covers covered = true)
    (matched : covered.matchesLine tokens = true) : covering.matchesLine tokens = true := by
  obtain ⟨length, -⟩ := matchesLine_iff.mp matched
  simp only [Pattern.covers, Bool.and_eq_true, beq_iff_eq, List.all_eq_true] at covers
  obtain ⟨lengths, pairs⟩ := covers
  refine matchesLine_iff.mpr ⟨lengths.trans length, fun position inside => ?_⟩
  have here : covering[position]? = some covering[position] := List.getElem?_eq_getElem (by omega)
  have there : covered[position]? = some covered[position] := List.getElem?_eq_getElem (by omega)
  have present : tokens[position]? = some tokens[position] := List.getElem?_eq_getElem inside
  have pair : (covering[position], covered[position]) ∈ covering.zip covered :=
    List.mem_of_getElem? (List.getElem?_zip_eq_some.mpr ⟨here, there⟩)
  rw [acceptsAt, here, present]
  refine Element.accepts_of_covers classified matched there present ?_ (pairs _ pair)
  intro earlier repeats
  exact backward.lt (here.trans (congrArg some repeats))

/-- A pattern that repeats a position which is not earlier matches no line. -/
theorem matchesLine_eq_false_of_not_backward (forward : ¬ covering.Backward)
    (tokens : List Token) : covering.matchesLine tokens = false := by
  refine Bool.eq_false_iff.mpr fun matched => forward ?_
  rintro ⟨element, position⟩ listed earlier repeats
  have asked : covering[position]? = some element := List.mem_zipIdx_iff_getElem?.mp listed
  cases element with
  | same place =>
    obtain rfl := Option.some.inj repeats
    obtain ⟨token, -, -, accepted⟩ := accepts_of_matchesLine matched asked
    obtain ⟨other, there, -⟩ := Element.accepts_same_iff.mp accepted
    exact (getElem?_take_eq_some_iff.mp there).1
  | any | text _ | oneOf _ | kind _ | kinds _ => cases repeats

/-- A pattern that covers another one matches every line that the other one matches, exactly when
its own repetitions are all of earlier positions or there is no such line: a pattern with another
repetition matches no line at all, and can be found to cover one that does. -/
theorem forall_matchesLine_iff_of_covers (covers : covering.covers covered = true) :
    ((∀ text line, Token.ofLine text = .ok line → covered.matchesLine line = true →
        covering.matchesLine line = true) ↔
      covering.Backward ∨
        ∀ text line, Token.ofLine text = .ok line → covered.matchesLine line = false) ∧
    (¬ covering.Backward → ∀ line, covering.matchesLine line = false) := by
  refine ⟨⟨fun sound => ?_, ?_⟩, matchesLine_eq_false_of_not_backward⟩
  · refine or_iff_not_imp_left.mpr fun forward text line read => ?_
    refine Bool.eq_false_iff.mpr fun matched => ?_
    have both := sound text line read matched
    rw [matchesLine_eq_false_of_not_backward forward line] at both
    cases both
  · rintro (backward | nothing) text line read matched
    · exact matchesLine_of_covers backward (Token.classified_of_ofLine read) covers matched
    · rw [nothing text line read] at matched
      cases matched

/-- The pattern of arithmetic matches all lines that count by adding one. A pattern that repeats a
later position is found to cover one that matches a line of two words, and does not match it. -/
theorem forall_matchesLine_iff_of_covers_later :
    let counting : Pattern := [destination, .text "=", .same 0, .text "+", .text "1"]
    let arithmetic : Pattern :=
      [destination, .text "=", operand, .oneOf ["+", "-", "&", "|", "^"], operand]
    let words : Pattern := [.text "x", .text "x"]
    let later : Pattern := [.same 1, .text "x"]
    (arithmetic.covers counting = true ∧
      ∀ text line, Token.ofLine text = .ok line → counting.matchesLine line = true →
        arithmetic.matchesLine line = true) ∧
    later.covers words = true ∧ ∃ line, Token.ofLine "x x" = .ok line ∧
      words.matchesLine line = true ∧ later.matchesLine line = false := by
  intro counting arithmetic words later
  have narrow : arithmetic.covers counting = true := by decide +kernel
  have backward : arithmetic.Backward := by decide +kernel
  have judged : later.covers words = true := by decide +kernel
  have forward : ¬ later.Backward := by decide +kernel
  have read : Token.ofLine "x x" = .ok [⟨.identifier, "x", 0⟩, ⟨.identifier, "x", 2⟩] :=
    Token.ofLine_of_toOption (by decide +kernel)
  refine ⟨⟨narrow, (forall_matchesLine_iff_of_covers narrow).1.mpr (.inl backward)⟩, judged, _,
    read, by decide +kernel, (forall_matchesLine_iff_of_covers judged).2 forward _⟩

end Lines

end Pattern

end LineAsm
