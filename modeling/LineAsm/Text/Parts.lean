/-!
# Parts between separators

A list is cut at every occurrence of a separator. `parts` has one element more than the list
has separators, so what follows the last separator is always the last part, empty or not.
-/

namespace LineAsm.Text

variable {α : Type} [BEq α]

/-- The parts of a list between occurrences of a separator. -/
def parts (separator : α) (items : List α) : List (List α) :=
  match _shape : items.dropWhile (· != separator) with
  | [] => [items]
  | _ :: rest => items.takeWhile (· != separator) :: parts separator rest
termination_by items.length
decreasing_by
  have short := (List.dropWhile_sublist (l := items) (· != separator)).length_le
  rw [_shape, List.length_cons] at short
  omega

/-- A list without the separator is its own only part. -/
theorem parts_of_not_mem [LawfulBEq α] {separator : α} {items : List α}
    (absent : separator ∉ items) : parts separator items = [items] := by
  have differs : ∀ item ∈ items, (item != separator) = true := by
    intro item member
    simp only [bne_iff_ne, ne_eq]
    rintro rfl
    exact absent member
  have all : items.dropWhile (· != separator) = [] := by
    rw [← List.append_nil items, List.dropWhile_append_of_pos differs]
    rfl
  rw [parts]
  split
  · rfl
  · rename_i shape
    rw [all] at shape
    contradiction

/-- What stands before the first separator is the first part. -/
theorem parts_append_cons [LawfulBEq α] {separator : α} {first : List α}
    (absent : separator ∉ first) (rest : List α) :
    parts separator (first ++ separator :: rest) = first :: parts separator rest := by
  have differs : ∀ item ∈ first, (item != separator) = true := by
    intro item member
    simp only [bne_iff_ne, ne_eq]
    rintro rfl
    exact absent member
  have dropped : (first ++ separator :: rest).dropWhile (· != separator) = separator :: rest := by
    rw [List.dropWhile_append_of_pos differs]
    simp
  have taken : (first ++ separator :: rest).takeWhile (· != separator) = first := by
    rw [List.takeWhile_append_of_pos differs]
    simp
  rw [parts]
  split
  · rename_i shape
    rw [dropped] at shape
    contradiction
  · rename_i shape
    rw [dropped] at shape
    obtain ⟨rfl, rfl⟩ := List.cons.inj shape
    rw [taken]

end LineAsm.Text
