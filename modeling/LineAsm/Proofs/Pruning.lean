import LineAsm.Dialect.Family
import LineAsm.Proofs.Coverage
import Mathlib.Data.List.Basic
import Mathlib.Data.List.Find
/-!
# Shadowed patterns decide nothing

The emitters of a table can be told apart by their places in it (`Registered`), and each can be left
with some of its patterns. If the patterns that the table reports as shadowed are taken away, all at
once, every token of every line keeps its owner (`Table.parse_pruned`): the owner recognises the
line by a pattern that no earlier emitter covers, since an emitter that covers it would recognise
the line as well, and before the owner (`Table.owner?_pruned`).
-/

namespace LineAsm

/-- An emitter at its place in a table, with the patterns that are left to it. -/
structure Registered (ε : Type) where
  /-- The number of emitters before it. -/
  position : Nat
  /-- The emitter. -/
  emitter : ε
  /-- The patterns by which it recognises a line. -/
  patterns : List Pattern
deriving DecidableEq, Repr

instance {ε : Type} [Emitter ε] : Emitter (Registered ε) where
  name registered := Emitter.name registered.emitter
  patterns := Registered.patterns
  emit registered := Emitter.emit registered.emitter

/-- Of two tests of which one implies the other, both find one first item if the first item that
passes the weaker test passes the stronger one too. -/
theorem find?_eq_of_imp {α : Type} {weak strong : α → Bool} {items : List α}
    (implies : ∀ item ∈ items, strong item = true → weak item = true)
    (passes : ∀ item, items.find? weak = some item → strong item = true) :
    items.find? strong = items.find? weak := by
  cases found : items.find? weak with
  | none =>
    refine List.find?_eq_none.mpr fun item member strongly => ?_
    exact List.find?_eq_none.mp found item member (implies item member strongly)
  | some item =>
    obtain ⟨-, front, back, rfl, failing⟩ := List.find?_eq_some_iff_append.mp found
    refine List.find?_eq_some_iff_append.mpr ⟨passes item found, front, back, rfl, ?_⟩
    intro earlier member
    have fails := failing earlier member
    rw [Bool.not_eq_true'] at fails ⊢
    refine Bool.eq_false_iff.mpr fun strongly => ?_
    rw [implies earlier (List.mem_append_left _ member) strongly] at fails
    cases fails

namespace Table

variable {ε : Type} [Emitter ε] {table : Table ε}

/-- The emitters of a table at their places, each with patterns that depend on the place. -/
def register (table : Table ε) (left : ε → Nat → List Pattern) : Table (Registered ε) :=
  table.zipIdx.map fun (emitter, position) => ⟨position, emitter, left emitter position⟩

/-- The emitters of a table at their places, with all their patterns. -/
def registered (table : Table ε) : Table (Registered ε) :=
  table.register fun emitter _ => Emitter.patterns emitter

/-- The patterns that are reported as shadowed, by the place of their emitter in the table and
their own place among the patterns of the emitter. -/
def shadowed (table : Table ε) : List (Nat × Nat) :=
  table.zipIdx.flatMap fun (later, position) =>
    (Emitter.patterns later).zipIdx.filterMap fun (pattern, index) =>
      (covering? (table.take position) pattern).map fun _ => (position, index)

/-- The emitters of a table at their places, with the patterns that are not shadowed. -/
def pruned (table : Table ε) : Table (Registered ε) :=
  table.register fun emitter position =>
    ((Emitter.patterns emitter).zipIdx.filter fun (_, index) =>
      !table.shadowed.contains (position, index)).map Prod.fst

/-- Emitters that recognise a line as ending at a position by their patterns. -/
def Usual (table : Table ε) : Prop :=
  ∀ emitter ∈ table, ∀ line position, Emitter.recognizes emitter line position =
    (Emitter.patterns emitter).any fun pattern => pattern.endsAt line position

/-- Some emitter covers a pattern exactly when one of its patterns does. -/
theorem isSome_covering?_iff {pattern : Pattern} :
    (table.covering? pattern).isSome ↔ ∃ earlier ∈ table,
      ∃ other ∈ Emitter.patterns earlier, other.covers pattern = true := by
  simp [covering?, List.find?_isSome]

/-- A pattern is reported as shadowed exactly when an emitter before its own covers it. -/
theorem mem_shadowed_iff {position index : Nat} :
    (position, index) ∈ table.shadowed ↔ ∃ later pattern, table[position]? = some later ∧
      (Emitter.patterns later)[index]? = some pattern ∧
        ∃ earlier ∈ table.take position,
          ∃ other ∈ Emitter.patterns earlier, other.covers pattern = true := by
  simp only [shadowed, List.mem_flatMap, List.mem_filterMap, Option.map_eq_some_iff]
  constructor
  · rintro ⟨⟨later, place⟩, listed, ⟨pattern, number⟩, named, earlier, covering, same⟩
    obtain ⟨rfl, rfl⟩ := Prod.mk.inj same
    exact ⟨later, pattern, List.mem_zipIdx_iff_getElem?.mp listed,
      List.mem_zipIdx_iff_getElem?.mp named,
      isSome_covering?_iff.mp (Option.isSome_iff_exists.mpr ⟨earlier, covering⟩)⟩
  · rintro ⟨later, pattern, stands, named, covered⟩
    obtain ⟨earlier, covering⟩ := Option.isSome_iff_exists.mp (isSome_covering?_iff.mpr covered)
    exact ⟨(later, position), List.mem_zipIdx_iff_getElem?.mpr stands, (pattern, index),
      List.mem_zipIdx_iff_getElem?.mpr named, earlier, covering, rfl⟩

/-- The reports name the shadowed patterns in order. -/
theorem map_shadowings :
    table.shadowings.map (fun report => (some report.later, report.pattern)) =
      table.shadowed.map fun (position, index) => (table.names[position]?, index) := by
  rw [shadowings, shadowed, List.map_flatMap, List.map_flatMap]
  refine List.flatMap_congr ?_
  rintro ⟨later, position⟩ listed
  have stands : table[position]? = some later := List.mem_zipIdx_iff_getElem?.mp listed
  have named : table.names[position]? = some (Emitter.name later) := by
    rw [names, List.getElem?_map, stands]
    rfl
  rw [List.map_filterMap, List.map_filterMap]
  refine List.filterMap_congr ?_
  rintro ⟨pattern, index⟩ -
  simp only [Option.map_map, Function.comp_def, named]

/-- Where a shadowed pattern ends, an emitter before its own recognises the line as ending. -/
theorem exists_recognizes_of_shadowed (usual : table.Usual)
    (backward : ∀ emitter ∈ table, ∀ pattern ∈ Emitter.patterns emitter, pattern.Backward)
    {text : String} {line : List Token} (read : Token.ofLine text = .ok line) {place : Nat}
    (inside : place < line.length) {position index : Nat} {later : ε} {pattern : Pattern}
    (stands : table[position]? = some later)
    (named : (Emitter.patterns later)[index]? = some pattern)
    (reported : (position, index) ∈ table.shadowed)
    (ends : pattern.endsAt line place = true) :
    ∃ earlier ∈ table.take position, Emitter.recognizes earlier line place = true := by
  obtain ⟨emitter, covered, there, found, earlier, before, other, owned, covering⟩ :=
    mem_shadowed_iff.mp reported
  obtain rfl := Option.some.inj (stands.symm.trans there)
  obtain rfl := Option.some.inj (named.symm.trans found)
  have member : earlier ∈ table := List.mem_of_mem_take before
  rw [Pattern.endsAt_eq_matchesLine inside] at ends
  have matched := Pattern.matchesLine_of_covers (backward earlier member other owned)
    ((Token.classified_of_ofLine read).take (place + 1)) covering ends
  refine ⟨earlier, before, ?_⟩
  rw [usual earlier member, List.any_eq_true]
  exact ⟨other, owned, by rw [Pattern.endsAt_eq_matchesLine inside, matched]⟩

/-- The owner of a token is found by its place, whatever patterns are left. -/
theorem owner?_register (left : ε → Nat → List Pattern) (line : List Token) (place : Nat) :
    (table.register left).owner? line place =
      (table.zipIdx.find? fun entry =>
        (left entry.1 entry.2).any fun pattern => pattern.endsAt line place).map
          fun entry => ⟨entry.2, entry.1, left entry.1 entry.2⟩ := by
  rw [owner?, register, List.find?_map]
  rfl

/-- The owner of a token is found by its place in a usual table. -/
theorem owner?_eq_zipIdx (usual : table.Usual) (line : List Token) (place : Nat) :
    table.owner? line place =
      (table.zipIdx.find? fun entry =>
        (Emitter.patterns entry.1).any fun pattern => pattern.endsAt line place).map Prod.fst := by
  have recognized : ∀ entry ∈ table.zipIdx, (Emitter.patterns entry.1).any
      (fun pattern => pattern.endsAt line place) = Emitter.recognizes entry.1 line place :=
    fun entry listed => (usual entry.1 (List.fst_mem_of_mem_zipIdx listed) line place).symm
  have numbered : (table.zipIdx.map Prod.fst).find? (Emitter.recognizes · line place) =
      (table.zipIdx.find? fun entry => Emitter.recognizes entry.1 line place).map Prod.fst :=
    List.find?_map
  rw [List.zipIdx_map_fst] at numbered
  rw [List.find?_congr recognized]
  exact numbered

/-- With all their patterns, emitters own what they own in their table. -/
theorem owner?_registered (usual : table.Usual) (line : List Token) (place : Nat) :
    (table.registered.owner? line place).map Registered.emitter = table.owner? line place := by
  rw [registered, owner?_register, Option.map_map, owner?_eq_zipIdx usual]
  rfl

/-- Without their shadowed patterns, emitters own what they own with all their patterns. -/
theorem owner?_pruned (usual : table.Usual)
    (backward : ∀ emitter ∈ table, ∀ pattern ∈ Emitter.patterns emitter, pattern.Backward)
    {text : String} {line : List Token} (read : Token.ofLine text = .ok line) {place : Nat}
    (inside : place < line.length) :
    (table.pruned.owner? line place).map Registered.position =
      (table.registered.owner? line place).map Registered.position := by
  rw [pruned, registered, owner?_register, owner?_register, Option.map_map, Option.map_map]
  refine congrArg (Option.map Prod.snd) (find?_eq_of_imp ?_ ?_)
  · -- A pattern that is left is one of the emitter.
    rintro ⟨emitter, position⟩ - recognized
    obtain ⟨pattern, member, ends⟩ := List.any_eq_true.mp recognized
    obtain ⟨⟨same, index⟩, kept, rfl⟩ := List.mem_map.mp member
    have named := List.mem_zipIdx_iff_getElem?.mp (List.mem_filter.mp kept).1
    exact List.any_eq_true.mpr ⟨same, List.mem_of_getElem? named, ends⟩
  · -- The pattern that decides is left, or else an emitter before would have been found.
    rintro ⟨emitter, position⟩ found
    obtain ⟨recognized, number, bound, here, failing⟩ := List.find?_eq_some_iff_getElem.mp found
    obtain ⟨pattern, member, ends⟩ := List.any_eq_true.mp recognized
    obtain ⟨index, named⟩ := List.mem_iff_getElem?.mp member
    have stands : table[position]? = some emitter :=
      List.mem_zipIdx_iff_getElem?.mp (List.mem_of_find?_eq_some found)
    have kept : (position, index) ∉ table.shadowed := by
      intro reported
      obtain ⟨earlier, before, taken⟩ := exists_recognizes_of_shadowed usual backward read inside
        stands named reported ends
      obtain ⟨first, early, rfl⟩ := List.mem_take_iff_getElem.mp before
      simp only [List.getElem_zipIdx, Nat.zero_add, Prod.mk.injEq] at here failing
      have fails := failing first (by omega)
      rw [usual _ (List.getElem_mem _)] at taken
      rw [taken] at fails
      cases fails
    refine List.any_eq_true.mpr ⟨pattern, List.mem_map.mpr ⟨(pattern, index), ?_, rfl⟩, ends⟩
    refine List.mem_filter.mpr ⟨List.mem_zipIdx_iff_getElem?.mpr named, ?_⟩
    simpa using kept

/-- A table of emitters that recognise lines by their patterns, whose repetitions are all of earlier
positions. Its reports name certain patterns of the emitters at certain places. If these patterns
are taken away from their emitters, all at once, every line is refused for the same reason as
before, or has the same tokens, each with an owner at the same place. -/
theorem parse_pruned (usual : table.Usual)
    (backward : ∀ emitter ∈ table, ∀ pattern ∈ Emitter.patterns emitter, pattern.Backward) :
    (table.shadowings.map fun report => (some report.later, report.pattern)) =
      (table.shadowed.map fun (position, index) => (table.names[position]?, index)) ∧
    ∀ text,
      (table.registered.parse text).map (Dispatch.map Registered.emitter) = table.parse text ∧
      (table.pruned.parse text).map (Dispatch.map Registered.position) =
        (table.registered.parse text).map (Dispatch.map Registered.position) := by
  refine ⟨map_shadowings, fun text => ⟨?_, ?_⟩⟩
  · have described : (table.registered.parse text).map (Dispatch.map Registered.emitter) =
        (table.parse text).map (Dispatch.map id) := by
      refine map_parse_congr fun line _ position _ => ?_
      rw [owner?_registered usual, Option.map_id, id]
    rw [described, map_id_parse]
  · exact map_parse_congr fun line read position inside =>
      owner?_pruned usual backward read inside

/-- Backwards, the standard table reports the last two patterns of counting and the first two of the
lines without operands. Without these it reads every line as it does with them. -/
theorem parse_pruned_backwards :
    let backwards : Table Family := Family.standard.reverse
    backwards.Usual ∧
    (∀ emitter ∈ backwards, ∀ pattern ∈ Emitter.patterns emitter, pattern.Backward) ∧
    backwards.shadowed = [(6, 2), (6, 3), (7, 0), (7, 1)] ∧
    ∀ text, (backwards.pruned.parse text).map (Dispatch.map Registered.position) =
      (backwards.registered.parse text).map (Dispatch.map Registered.position) := by
  intro backwards
  have usual : backwards.Usual := fun _ _ _ _ => rfl
  have backward : ∀ emitter ∈ backwards, ∀ pattern ∈ Emitter.patterns emitter,
      pattern.Backward := by decide +kernel
  have reported : backwards.shadowed = [(6, 2), (6, 3), (7, 0), (7, 1)] := by decide +kernel
  have unchanged := (parse_pruned usual backward).2
  exact ⟨usual, backward, reported, fun text => (unchanged text).2⟩

end Table

end LineAsm
