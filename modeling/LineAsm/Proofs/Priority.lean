import LineAsm.Proofs.Lexemes
import LineAsm.Proofs.Reading
/-!
# The order of a table

A table has no shadowed pattern exactly when no emitter shadows a later one
(`Table.shadowings_eq_nil_iff`). Families of which none shadows the other never recognise a line
as ending at one place, since their patterns ask for different words or kinds somewhere
(`Family.eq_of_recognizes`). So a table of all the families reads every line as the standard table
does exactly when none of its patterns is shadowed (`Family.shadowings_eq_nil_iff_parse_eq`).
-/

namespace LineAsm

namespace Pattern

/-- The words that an element asks for, if it does. -/
def Element.words? : Element → Option (List String)
  | .text wanted => some [wanted]
  | .oneOf wanted => some wanted
  | _ => none

/-- The kinds that an element leaves to a token, if it asks for words or kinds. -/
def Element.kinds? : Element → Option (List Token.Kind)
  | .text wanted => some (Token.classify wanted).toList
  | .oneOf wanted => some (wanted.filterMap Token.classify)
  | .kind wanted => some [wanted]
  | .kinds wanted => some wanted
  | _ => none

/-- Two choices that leave nothing in common. -/
def shareNothing {α : Type} [BEq α] : Option (List α) → Option (List α) → Bool
  | some left, some right => left.all fun choice => !right.contains choice
  | _, _ => false

/-- No token is one of two choices that leave nothing in common. -/
theorem shareNothing_eq_false {α : Type} [BEq α] [LawfulBEq α] {left right : Option (List α)}
    {choice : α} (one : ∀ choices, left = some choices → choice ∈ choices)
    (other : ∀ choices, right = some choices → choice ∈ choices) :
    shareNothing left right = false := by
  cases left with
  | none => rfl
  | some first =>
    cases right with
    | none => rfl
    | some second =>
      have shared : second.contains choice = true := List.contains_iff_mem.mpr (other second rfl)
      rw [shareNothing, List.all_eq_false]
      exact ⟨choice, one first rfl, by rw [shared]; decide⟩

/-- Two elements that ask for different words or different kinds. -/
def Element.excludes (left right : Element) : Bool :=
  shareNothing left.words? right.words? || shareNothing left.kinds? right.kinds?

/-- Two patterns of different lengths, or with elements somewhere that exclude each other. -/
def apart (left right : Pattern) : Bool :=
  left.length != right.length || (left.zip right).any fun (one, other) => one.excludes other

section Accepting

variable {element left right : Element} {before : List Token} {token : Token}

/-- An accepted token is one of the words that are asked for. -/
theorem Element.mem_words (accepted : element.accepts before token = true) (words : List String)
    (asked : element.words? = some words) : token.value ∈ words := by
  cases element with
  | text wanted =>
    cases asked
    simp only [accepts, Bool.and_eq_true, beq_iff_eq] at accepted
    exact List.mem_singleton.mpr accepted.2
  | oneOf wanted =>
    cases asked
    simp only [accepts, Bool.and_eq_true, List.contains_iff_mem] at accepted
    exact accepted.2
  | any | kind _ | kinds _ | same _ => cases asked

/-- An accepted token of a line has one of the kinds that are left to it. -/
theorem Element.mem_kinds
    (lexed : token.kind.isRemark = false → Token.classify token.value = some token.kind)
    (accepted : element.accepts before token = true) (kinds : List Token.Kind)
    (left : element.kinds? = some kinds) : token.kind ∈ kinds := by
  cases element with
  | text wanted =>
    cases left
    simp only [accepts, Bool.and_eq_true, Bool.not_eq_true', beq_iff_eq] at accepted
    rw [← accepted.2, lexed accepted.1]
    exact List.mem_singleton.mpr rfl
  | oneOf wanted =>
    cases left
    simp only [accepts, Bool.and_eq_true, Bool.not_eq_true', List.contains_iff_mem] at accepted
    exact List.mem_filterMap.mpr ⟨token.value, accepted.2, lexed accepted.1⟩
  | kind wanted =>
    cases left
    exact List.mem_singleton.mpr (beq_iff_eq.mp accepted)
  | kinds wanted =>
    cases left
    exact List.contains_iff_mem.mp accepted
  | any | same _ => cases left

/-- No token of a line is accepted by elements that exclude each other. -/
theorem Element.excludes_eq_false
    (lexed : token.kind.isRemark = false → Token.classify token.value = some token.kind)
    (one : left.accepts before token = true) (other : right.accepts before token = true) :
    left.excludes right = false := by
  rw [Element.excludes, shareNothing_eq_false (mem_words one) (mem_words other),
    shareNothing_eq_false (mem_kinds lexed one) (mem_kinds lexed other)]
  rfl

end Accepting

/-- Every element of a pattern that matches a line accepts the token at its position. -/
theorem accepts_of_matchesLine {pattern : Pattern} {tokens : List Token}
    (matched : pattern.matchesLine tokens = true) {position : Nat} {element : Element}
    (asked : pattern[position]? = some element) :
    ∃ token ∈ tokens, tokens[position]? = some token ∧
      element.accepts (tokens.take position) token = true := by
  obtain ⟨length, accepts⟩ := matchesLine_iff.mp matched
  obtain ⟨bound, -⟩ := List.getElem?_eq_some_iff.mp asked
  rw [length] at bound
  have present := List.getElem?_eq_getElem bound
  have accepted := accepts position bound
  rw [acceptsAt, asked, present] at accepted
  exact ⟨tokens[position], List.getElem_mem bound, present, accepted⟩

/-- No line matches two patterns that are apart. -/
theorem apart_eq_false {left right : Pattern} {tokens : List Token}
    (classified : Token.Classified tokens)
    (one : left.matchesLine tokens = true) (other : right.matchesLine tokens = true) :
    left.apart right = false := by
  have same : left.length = right.length :=
    (matchesLine_iff.mp one).1.trans (matchesLine_iff.mp other).1.symm
  rw [apart, Bool.or_eq_false_iff, bne_eq_false_iff_eq, List.any_eq_false]
  refine ⟨same, ?_⟩
  rintro ⟨first, second⟩ member
  obtain ⟨position, found⟩ := List.mem_iff_getElem?.mp member
  obtain ⟨asked, wanted⟩ := List.getElem?_zip_eq_some.mp found
  obtain ⟨token, present, here, accepted⟩ := accepts_of_matchesLine one asked
  obtain ⟨again, -, there, agreed⟩ := accepts_of_matchesLine other wanted
  obtain rfl := Option.some.inj (here.symm.trans there)
  exact Bool.eq_false_iff.mp (Element.excludes_eq_false (classified token present) accepted agreed)

end Pattern

/-- Two lists with the same members, ordered alike where it matters, have the same first member that
passes a test. -/
theorem find?_eq_of_perm {α : Type} {ordered : α → α → Prop} {test : α → Bool}
    {left right : List α} (same : left.Perm right) (one : left.Pairwise ordered)
    (other : right.Pairwise ordered)
    (decided : ∀ a b, test a = true → test b = true → ordered a b → ordered b a → a = b) :
    left.find? test = right.find? test := by
  have passing : left.filter test = right.filter test := by
    refine List.Perm.eq_of_pairwise ?_ (one.sublist List.filter_sublist)
      (other.sublist List.filter_sublist) (same.filter test)
    intro a b here there before after
    exact decided a b (List.mem_filter.mp here).2 (List.mem_filter.mp there).2 before after
  rw [← List.head?_filter, passing, List.head?_filter]

/-- What comes after a member that passes a test is not the first that passes it. -/
theorem find?_ne_of_before {α : Type} {test : α → Bool} {earlier later : α} {list : List α}
    (distinct : list.Nodup) (before : [earlier, later].Sublist list)
    (passes : test earlier = true) : list.find? test ≠ some later := by
  intro found
  obtain ⟨-, front, back, rfl, failing⟩ := List.find?_eq_some_iff_append.mp found
  have alone : later ∉ back := (List.nodup_cons.mp (List.nodup_append.mp distinct).2.1).1
  obtain ⟨first, second, split, inFront, inBack⟩ := List.sublist_append_iff.mp before
  cases first with
  | nil =>
    obtain rfl : [earlier, later] = second := split
    have member : later ∈ back := by
      cases inBack with
      | cons _ further => exact further.subset (by simp)
      | cons_cons _ further => exact further.subset (by simp)
    exact alone member
  | cons head others =>
    obtain ⟨rfl, -⟩ := List.cons.inj split
    have fails := failing earlier (inFront.subset (by simp))
    rw [passes] at fails
    cases fails

/-- A token whose owner goes by another description. -/
def Claim.map {ε δ : Type} (describe : ε → δ) (claim : Claim ε) : Claim δ :=
  ⟨claim.token, claim.owner.map describe⟩

/-- A dispatched line whose owners go by another description. -/
def Dispatch.map {ε δ : Type} (describe : ε → δ) (dispatch : Dispatch ε) : Dispatch δ :=
  ⟨dispatch.claims.map (Claim.map describe), describe dispatch.owner⟩

/-- Owners that are described as themselves. -/
theorem Dispatch.map_id {ε : Type} : (Dispatch.map id : Dispatch ε → Dispatch ε) = id := by
  have claims : (Claim.map id : Claim ε → Claim ε) = id := by
    funext claim
    simp [Claim.map]
  funext dispatch
  simp [Dispatch.map, claims]

namespace Table

variable {ε : Type} [Emitter ε] {table : Table ε}

/-- An emitter shadows another when one of its patterns covers one of the other's. -/
def shadows (earlier later : ε) : Bool :=
  (Emitter.patterns later).any fun pattern =>
    (Emitter.patterns earlier).any fun other => other.covers pattern

/-- No emitter covers a pattern exactly when none of their patterns does. -/
theorem covering?_eq_none_iff {pattern : Pattern} :
    table.covering? pattern = none ↔ ∀ emitter ∈ table,
      ¬ ((Emitter.patterns emitter).any fun other => other.covers pattern) = true :=
  List.find?_eq_none

/-- No pattern is shadowed exactly when no emitter shadows a later one. -/
theorem shadowings_eq_nil_iff :
    table.shadowings = [] ↔ table.Pairwise fun earlier later => shadows earlier later = false := by
  rw [shadowings, List.flatMap_eq_nil_iff, List.pairwise_iff_getElem]
  constructor
  · intro clear i j early late before
    rw [shadows, List.any_eq_false]
    intro pattern member
    obtain ⟨index, place⟩ := List.mem_iff_getElem?.mp member
    have none := List.filterMap_eq_nil_iff.mp
      (clear (table[j], j) (List.mem_zipIdx_iff_getElem?.mpr (List.getElem?_eq_getElem late)))
      (pattern, index) (List.mem_zipIdx_iff_getElem?.mpr place)
    have preceding : table[i] ∈ table.take j :=
      List.mem_take_iff_getElem.mpr ⟨i, by omega, rfl⟩
    exact covering?_eq_none_iff.mp (Option.map_eq_none_iff.mp none) table[i] preceding
  · rintro clear ⟨later, position⟩ member
    have place : table[position]? = some later := List.mem_zipIdx_iff_getElem?.mp member
    obtain ⟨late, rfl⟩ := List.getElem?_eq_some_iff.mp place
    refine List.filterMap_eq_nil_iff.mpr ?_
    rintro ⟨pattern, index⟩ listed
    have mine := List.mem_of_getElem? (List.mem_zipIdx_iff_getElem?.mp listed)
    refine Option.map_eq_none_iff.mpr (covering?_eq_none_iff.mpr fun earlier preceding => ?_)
    obtain ⟨i, bound, rfl⟩ := List.mem_take_iff_getElem.mp preceding
    have before : i < position := by omega
    exact List.any_eq_false.mp (clear i position (by omega) late before) pattern mine

/-- A line is dispatched exactly when its last token has an owner. -/
theorem parse_eq_ok_iff {text : String} {dispatch : Dispatch ε} :
    table.parse text = .ok dispatch ↔ ∃ line, Token.ofLine text = .ok line ∧ line ≠ [] ∧
      table.owner? line (line.length - 1) = some dispatch.owner ∧
        dispatch.claims = table.claims line := by
  unfold parse
  cases read : Token.ofLine text with
  | error cause => simp
  | ok line =>
    dsimp only
    rw [trailing_eq_ok_iff]
    constructor
    · exact fun dispatched => ⟨line, rfl, dispatched⟩
    · rintro ⟨same, reread, dispatched⟩
      obtain rfl := Except.ok.inj reread
      exact dispatched

section Descriptions

variable {ε δ γ : Type}

/-- The owner of a line may be described before or after the line is dispatched. -/
theorem trailing_map (describe : ε → δ) (claims : List (Claim ε)) :
    trailing (claims.map (Claim.map describe)) =
      (trailing claims).map (Dispatch.map describe) := by
  unfold trailing
  rw [List.getLast?_map]
  cases claims.getLast? with
  | none => rfl
  | some claim =>
    obtain ⟨token, owner⟩ := claim
    cases owner <;> rfl

variable [Emitter ε] [Emitter δ] {table : Table ε} {other : Table δ}

/-- Tables whose owners of the tokens of a line have the same descriptions dispatch it alike. -/
theorem map_parse_congr {left : ε → γ} {right : δ → γ} {text : String}
    (owners : ∀ line, Token.ofLine text = .ok line → ∀ position < line.length,
      (table.owner? line position).map left = (other.owner? line position).map right) :
    (table.parse text).map (Dispatch.map left) = (other.parse text).map (Dispatch.map right) := by
  unfold parse
  cases read : Token.ofLine text with
  | error cause => rfl
  | ok line =>
    have same : (table.claims line).map (Claim.map left) =
        (other.claims line).map (Claim.map right) := by
      rw [claims, claims, List.map_map, List.map_map]
      refine List.map_congr_left ?_
      rintro ⟨token, position⟩ member
      have inside := (List.mem_zipIdx' member).1
      exact congrArg (Claim.mk token) (owners line read position inside)
    dsimp only
    rw [← trailing_map, ← trailing_map, same]

end Descriptions

/-- A line whose owners are described as themselves is dispatched as it is. -/
theorem map_id_parse (text : String) :
    (table.parse text).map (Dispatch.map id) = table.parse text := by
  rw [Dispatch.map_id]
  exact congrFun Except.map_id _

/-- Tables that have the same owners for all tokens of a line dispatch it alike. -/
theorem parse_congr {other : Table ε} {text : String}
    (owners : ∀ line, Token.ofLine text = .ok line → ∀ position < line.length,
      table.owner? line position = other.owner? line position) :
    table.parse text = other.parse text := by
  have mapped : (table.parse text).map (Dispatch.map id) =
      (other.parse text).map (Dispatch.map id) :=
    map_parse_congr fun line read position inside =>
      congrArg (Option.map id) (owners line read position inside)
  rwa [map_id_parse, map_id_parse] at mapped

end Table

namespace Family

/-- Every family is in the standard table. -/
theorem mem_standard (family : Family) : family ∈ standard := by
  cases family <;> decide

/-- The standard table lists each family once. -/
theorem nodup_standard : standard.Nodup := by decide

/-- Two families that do not shadow one another have no patterns in common. -/
theorem apart_of_not_shadows : ∀ left ∈ standard, ∀ right ∈ standard, left ≠ right →
    Table.shadows left right = false → Table.shadows right left = false →
      ∀ one ∈ left.patterns, ∀ other ∈ right.patterns, one.apart other = true := by
  decide +kernel

/-- Families of which none shadows the other never recognise a line as ending at one place. -/
theorem eq_of_recognizes {text : String} {line : List Token} (read : Token.ofLine text = .ok line)
    {position : Nat} (inside : position < line.length) {left right : Family}
    (one : Emitter.recognizes left line position = true)
    (other : Emitter.recognizes right line position = true)
    (clear : Table.shadows left right = false) (again : Table.shadows right left = false) :
    left = right := by
  by_contra distinct
  obtain ⟨first, mine, ends⟩ := List.any_eq_true.mp one
  obtain ⟨second, yours, stops⟩ := List.any_eq_true.mp other
  rw [Pattern.endsAt_eq_matchesLine inside] at ends stops
  have classified := (Token.classified_of_ofLine read).take (position + 1)
  have apart := apart_of_not_shadows left (mem_standard left) right (mem_standard right) distinct
    clear again first mine second yours
  rw [Pattern.apart_eq_false classified ends stops] at apart
  cases apart

/-- A line that matches a pattern of a family goes to the family, if this shadows no other family
and is shadowed by none. -/
theorem exists_parse {family : Family}
    (apart : ∀ other ∈ standard, other ≠ family →
      Table.shadows other family = false ∧ Table.shadows family other = false)
    {text : String} {tokens : List Token} (read : Token.ofLine text = .ok tokens)
    (present : tokens ≠ []) {pattern : Pattern} (member : pattern ∈ family.patterns)
    (matched : pattern.matchesLine tokens = true) :
    ∃ dispatch, Table.parse standard text = .ok dispatch ∧ dispatch.owner = family ∧
      dispatch.tokens = tokens := by
  have inside : tokens.length - 1 < tokens.length := by
    have := List.length_pos_iff.mpr present
    omega
  have recognized : Emitter.recognizes family tokens (tokens.length - 1) = true := by
    refine List.any_eq_true.mpr ⟨pattern, member, ?_⟩
    rw [Pattern.endsAt_eq_matchesLine inside, List.take_of_length_le (by omega)]
    exact matched
  obtain ⟨owner, owned⟩ : ∃ owner, Table.owner? standard tokens (tokens.length - 1) = some owner :=
    Option.isSome_iff_exists.mp
      (List.find?_isSome.mpr ⟨family, mem_standard family, recognized⟩)
  have same : owner = family := by
    by_contra distinct
    obtain ⟨before, after⟩ := apart owner (mem_standard owner) distinct
    have recognizes := List.find?_some owned
    exact distinct (eq_of_recognizes read inside recognizes recognized before after)
  refine ⟨⟨Table.claims standard tokens, owner⟩, ?_, same, Table.map_token_claims tokens⟩
  exact Table.parse_eq_ok_iff.mpr ⟨tokens, read, present, owned, rfl⟩

/-- Pushes and pops shadow the saving and restoring of all registers, arithmetic shadows counting by
one, and no other family shadows another. -/
theorem shadows_standard : ∀ earlier ∈ standard, ∀ later ∈ standard, earlier ≠ later →
    Table.shadows earlier later = true →
      (earlier = .stack ∧ later = .plain) ∨ (earlier = .arithmetic ∧ later = .counting) := by
  decide +kernel

/-- A family that shadows another takes over a line that the standard table leaves to the other. -/
theorem exists_line_of_shadows {earlier later : Family} (distinct : earlier ≠ later)
    (shadowed : Table.shadows earlier later = true) :
    ∃ text line, Token.ofLine text = .ok line ∧ line ≠ [] ∧
      Emitter.recognizes earlier line (line.length - 1) = true ∧
        Table.owner? standard line (line.length - 1) = some later := by
  obtain ⟨rfl, rfl⟩ | ⟨rfl, rfl⟩ := shadows_standard earlier (mem_standard earlier) later
    (mem_standard later) distinct shadowed
  · let line : List Token := [⟨.symbol, "+", 0⟩, ⟨.identifier, "All", 1⟩]
    have read : (Token.ofLine "+All").toOption = some line := by decide +kernel
    exact ⟨"+All", line, Token.ofLine_of_toOption read, by decide, by decide +kernel,
      by decide +kernel⟩
  · let line : List Token := [⟨.identifier, "x", 0⟩, ⟨.symbol, "=", 1⟩, ⟨.identifier, "x", 2⟩,
      ⟨.symbol, "+", 3⟩, ⟨.integer, "1", 4⟩]
    have read : (Token.ofLine "x=x+1").toOption = some line := by decide +kernel
    exact ⟨"x=x+1", line, Token.ofLine_of_toOption read, by decide, by decide +kernel,
      by decide +kernel⟩

/-- A table of all the families, in any order, reads every line as the standard table does exactly
when none of its patterns is shadowed. -/
theorem shadowings_eq_nil_iff_parse_eq {table : Table Family} (permuted : table.Perm standard) :
    table.shadowings = [] ↔ ∀ text, table.parse text = Table.parse standard text := by
  rw [Table.shadowings_eq_nil_iff]
  constructor
  · intro ordered text
    refine Table.parse_congr fun line read position inside => ?_
    refine find?_eq_of_perm permuted ordered (Table.shadowings_eq_nil_iff.mp shadowings_standard) ?_
    intro left right one other clear again
    exact eq_of_recognizes read inside one other clear again
  · intro alike
    rw [List.pairwise_iff_forall_sublist]
    intro earlier later before
    by_contra shadowed
    have distinct : earlier ≠ later := by
      have once := (permuted.nodup_iff.mpr nodup_standard).sublist before
      simpa using once
    obtain ⟨text, line, read, present, taken, owned⟩ :=
      exists_line_of_shadows distinct (Bool.of_not_eq_false shadowed)
    have dispatched : Table.parse standard text = .ok ⟨Table.claims standard line, later⟩ :=
      Table.parse_eq_ok_iff.mpr ⟨line, read, present, owned, rfl⟩
    rw [← alike text] at dispatched
    obtain ⟨again, reread, -, kept, -⟩ := Table.parse_eq_ok_iff.mp dispatched
    obtain rfl := Except.ok.inj (read.symm.trans reread)
    exact find?_ne_of_before (permuted.nodup_iff.mpr nodup_standard) before taken kept

/-- The families backwards, but for the two pairs whose order matters, read every line as the
standard table does; all of them backwards do not. -/
theorem shadowings_eq_nil_iff_parse_eq_backwards :
    let careful : Table Family := [.flow, .shifts, .counting, .arithmetic, .comparisons,
      .assignments, .plain, .stack, .ports, .remarks, .space]
    let careless : Table Family := standard.reverse
    (careful.Perm standard ∧ careful.shadowings = [] ∧
      ∀ text, careful.parse text = Table.parse standard text) ∧
    careless.Perm standard ∧ careless.shadowings ≠ [] ∧
      ∃ text, careless.parse text ≠ Table.parse standard text := by
  intro careful careless
  have permuted : careful.Perm standard := by decide
  have clear : careful.shadowings = [] := by decide +kernel
  have shadowed : careless.shadowings ≠ [] := by decide +kernel
  have reversed : careless.Perm standard := List.reverse_perm standard
  have differs : ¬ ∀ text, careless.parse text = Table.parse standard text :=
    fun alike => shadowed ((shadowings_eq_nil_iff_parse_eq reversed).mpr alike)
  exact ⟨⟨permuted, clear, (shadowings_eq_nil_iff_parse_eq permuted).mp clear⟩, reversed, shadowed,
    Classical.not_forall.mp differs⟩

end Family

end LineAsm
