import LineAsm.Source
/-!
# Sources as bytes

The lines of a source are cut at its line feeds, one after the other: the first line of some bytes
does not depend on what follows its line feed (`Source.ofBytes_cons`). So a source that begins with
whole lines is read as these lines and then as what follows them (`Source.ofBytes_append`), and
every reading of a source comes from a place between two lines (`Source.exists_place`). How the
line at such a place is read is said by `Source.Begins`.
-/

namespace LineAsm

namespace Text

variable {α : Type} [BEq α]

/-- A list has at least one part. -/
theorem parts_ne_nil (separator : α) (items : List α) : parts separator items ≠ [] := by
  rw [parts]
  split <;> exact List.cons_ne_nil _ _

end Text

namespace Source

/-- The byte that ends a line. -/
def lineFeed : UInt8 := 10

/-- The byte that is dropped before the end of a line. -/
def carriageReturn : UInt8 := 13

/-- Some lines, each with its line feed. -/
def terminated (lines : List (List UInt8)) : List UInt8 := lines.flatMap (· ++ [lineFeed])

/-- How the first line of a source is read, where the source may break off after its bytes. -/
inductive Begins : List UInt8 → Option String → Read → Prop where
  /-- A whole line is read without its line feed and one carriage return before that. -/
  | whole {line : List UInt8} (unbroken : lineFeed ∉ line) (rest : List UInt8)
      (broken : Option String) :
      Begins (line ++ lineFeed :: rest) broken (ofLine (dropReturn carriageReturn line))
  /-- A last line without a line feed is read as it is, unless it is empty. -/
  | last {line : List UInt8} (unbroken : lineFeed ∉ line) (present : line ≠ []) :
      Begins line none (ofLine line)
  /-- Where the source breaks off, the line begun there is lost. -/
  | lost {line : List UInt8} (unbroken : lineFeed ∉ line) (words : String) :
      Begins line (some words) (.error words)

/-- The first line is read, and then the lines after its line feed. -/
theorem ofBytes_cons {line : List UInt8} (unbroken : lineFeed ∉ line) (rest : List UInt8)
    (broken : Option String) :
    ofBytes (line ++ lineFeed :: rest) broken =
      ofLine (dropReturn carriageReturn line) :: ofBytes rest broken := by
  have cut : Text.parts 10 (line ++ lineFeed :: rest) = line :: Text.parts 10 rest :=
    Text.parts_append_cons unbroken rest
  have more : Text.parts 10 rest ≠ [] := Text.parts_ne_nil 10 rest
  have split : lines 10 13 (line ++ lineFeed :: rest) =
      (dropReturn carriageReturn line :: (lines 10 13 rest).1, (lines 10 13 rest).2) := by
    simp only [lines, cut]
    rw [List.dropLast_cons_of_ne_nil more, List.getLast?_cons_of_ne_nil more]
    rfl
  unfold ofBytes
  rw [split]
  rfl

/-- Bytes without a line feed are at most one line. -/
theorem ofBytes_of_not_mem {line : List UInt8} (unbroken : lineFeed ∉ line)
    (broken : Option String) :
    ofBytes line broken =
      match broken with
      | some words => [.error words]
      | none => if line.isEmpty then [] else [ofLine line] := by
  have cut : Text.parts 10 line = [line] := Text.parts_of_not_mem unbroken
  simp only [ofBytes, lines, cut]
  rfl

/-- No bytes are no line. -/
theorem ofBytes_nil : ofBytes [] none = [] := ofBytes_of_not_mem List.not_mem_nil none

/-- Bytes either have a first line with its line feed, or no line feed. -/
theorem lineFeed_cases (bytes : List UInt8) :
    (∃ line rest, lineFeed ∉ line ∧ bytes = line ++ lineFeed :: rest) ∨ lineFeed ∉ bytes := by
  by_cases member : lineFeed ∈ bytes
  · obtain ⟨line, rest, split, unbroken⟩ := List.eq_append_cons_of_mem member
    exact .inl ⟨line, rest, unbroken, split⟩
  · exact .inr member

/-- A source that begins with whole lines is read line by line, and then as what follows them. -/
theorem ofBytes_append {front : List (List UInt8)} (unbroken : ∀ line ∈ front, lineFeed ∉ line)
    (rest : List UInt8) (broken : Option String) :
    ofBytes (terminated front ++ rest) broken =
      front.map (fun line => ofLine (dropReturn carriageReturn line)) ++ ofBytes rest broken := by
  induction front with
  | nil => rfl
  | cons line front ih =>
    obtain ⟨first, others⟩ := List.forall_mem_cons.mp unbroken
    have shape : terminated (line :: front) ++ rest =
        line ++ lineFeed :: (terminated front ++ rest) := by
      simp [terminated]
    rw [shape, ofBytes_cons first, ih others, List.map_cons, List.cons_append]

/-- Whole lines are read line by line. -/
theorem ofBytes_terminated {front : List (List UInt8)}
    (unbroken : ∀ line ∈ front, lineFeed ∉ line) :
    ofBytes (terminated front) none =
      front.map fun line => ofLine (dropReturn carriageReturn line) := by
  have whole := ofBytes_append unbroken [] none
  rwa [List.append_nil, ofBytes_nil, List.append_nil] at whole

/-- A source that begins with whole lines is read as these lines are read alone, and then as what
follows them. -/
theorem ofBytes_terminated_append {front : List (List UInt8)}
    (unbroken : ∀ line ∈ front, lineFeed ∉ line) (rest : List UInt8) (broken : Option String) :
    ofBytes (terminated front ++ rest) broken =
      ofBytes (terminated front) none ++ ofBytes rest broken := by
  rw [ofBytes_append unbroken, ofBytes_terminated unbroken]

/-- Each reading of a source comes from the place behind some whole lines, which are read as the
readings before it. -/
theorem exists_place {bytes : List UInt8} {broken : Option String} {before after : List Read}
    {read : Read} (split : ofBytes bytes broken = before ++ read :: after) :
    ∃ front rest, bytes = terminated front ++ rest ∧ (∀ line ∈ front, lineFeed ∉ line) ∧
      front.length = before.length ∧ ofBytes (terminated front) none = before ∧
      Begins rest broken read := by
  induction before generalizing bytes with
  | nil =>
    refine ⟨[], bytes, rfl, nofun, rfl, ofBytes_nil, ?_⟩
    obtain ⟨line, rest, unbroken, rfl⟩ | unbroken := lineFeed_cases bytes
    · rw [ofBytes_cons unbroken] at split
      obtain ⟨rfl, -⟩ := List.cons.inj split
      exact .whole unbroken rest broken
    · rw [ofBytes_of_not_mem unbroken] at split
      cases broken with
      | some words =>
        obtain ⟨rfl, -⟩ := List.cons.inj split
        exact .lost unbroken words
      | none =>
        cases bytes with
        | nil => cases split
        | cons byte bytes =>
          obtain ⟨rfl, -⟩ := List.cons.inj split
          exact .last unbroken (List.cons_ne_nil byte bytes)
  | cons first before ih =>
    obtain ⟨line, rest, unbroken, rfl⟩ | unbroken := lineFeed_cases bytes
    · rw [ofBytes_cons unbroken] at split
      obtain ⟨rfl, further⟩ := List.cons.inj split
      obtain ⟨front, last, rfl, others, length, alone, begins⟩ := ih further
      have every : ∀ other ∈ line :: front, lineFeed ∉ other :=
        List.forall_mem_cons.mpr ⟨unbroken, others⟩
      refine ⟨line :: front, last, ?_, every, congrArg (· + 1) length, ?_, begins⟩
      · simp [terminated]
      · rw [ofBytes_terminated every, List.map_cons, ← ofBytes_terminated others, alone]
    · -- Bytes without a line feed are read at most once, so no reading follows the first.
      rw [ofBytes_of_not_mem unbroken] at split
      cases broken with
      | some words => simp at split
      | none => cases bytes <;> simp at split

end Source

end LineAsm
