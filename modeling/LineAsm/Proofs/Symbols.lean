import LineAsm.Assembly.Symbol
/-!
# Names of symbols

The entry and the exit of a function and the edges of its blocks are symbols made for the function
(`Symbol.MadeFor`). Two of them with one name are one symbol (`Symbol.eq_of_text`): the number of a
block is written in digits and ends at an underscore, so it can be read back.
-/

namespace LineAsm

/-- The digits of a number, up to the underscore after them, tell the number and what follows. -/
theorem digits_underscore_inj {id other : Nat} {rest more : List Char}
    (same : Nat.toDigits 10 id ++ '_' :: rest = Nat.toDigits 10 other ++ '_' :: more) :
    id = other ∧ rest = more := by
  have front : ∀ number : Nat, ∀ after : List Char,
      (Nat.toDigits 10 number ++ '_' :: after).takeWhile (· != '_') = Nat.toDigits 10 number := by
    intro number after
    rw [List.takeWhile_append_of_pos]
    · simp
    · intro c member
      simp only [bne_iff_ne, ne_eq]
      rintro rfl
      exact Nat.underscore_not_in_toDigits member
  have digits : Nat.toDigits 10 id = Nat.toDigits 10 other := by
    rw [← front id rest, same, front other more]
  have number : id = other := by
    rw [← Nat.ofDigitChars_ten_toDigits (n := id), digits, Nat.ofDigitChars_ten_toDigits]
  rw [digits] at same
  have tail := List.append_cancel_left same
  exact ⟨number, (List.cons.inj tail).2⟩

/-- How an edge is written in a symbol, letter by letter. -/
def Edge.letters : Edge → List Char
  | .begin => ['B', 'e', 'g', 'i', 'n']
  | .finish => ['E', 'n', 'd']

/-- The letters of an edge make up its name. -/
theorem Edge.toList_name (edge : Edge) : edge.name.toList = edge.letters := by
  cases edge <;> decide

/-- The letters of an edge tell the edge. -/
theorem Edge.eq_of_letters {edge other : Edge} (same : edge.letters = other.letters) :
    edge = other := by
  cases edge <;> cases other <;> first | rfl | cases same

namespace Symbol

variable {frame : Frame}

/-- The symbols made for a function: its entry, its exit and the edges of its blocks. -/
def MadeFor (frame : Frame) : Symbol → Prop
  | .entry owner | .exit owner | .block owner _ _ => owner = frame
  | .plain _ | .member _ _ | .inner _ _ => False

/-- What follows the name of the function in a symbol made for it. -/
def ending : Symbol → List Char
  | .exit _ => ['_', 'E', 'x', 'i', 't']
  | .block _ id edge =>
    ['_', 'B', 'l', 'o', 'c', 'k'] ++ (Nat.toDigits 10 id ++ '_' :: edge.letters)
  | _ => []

/-- A symbol made for a function is written as the name of the function and its ending. -/
theorem toList_text {symbol : Symbol} (made : symbol.MadeFor frame) :
    symbol.text.toList = frame.name.toList ++ symbol.ending := by
  cases symbol with
  | plain | member | inner => exact made.elim
  | entry owner =>
    obtain rfl : owner = frame := made
    have nothing : (entry owner).ending = [] := rfl
    rw [nothing, List.append_nil, text]
  | exit owner =>
    obtain rfl : owner = frame := made
    have letters : "_Exit".toList = ['_', 'E', 'x', 'i', 't'] := by decide
    rw [ending, text, String.toList_append, letters]
  | block owner id edge =>
    obtain rfl : owner = frame := made
    have letters : "_Block".toList = ['_', 'B', 'l', 'o', 'c', 'k'] := by decide
    have underscore : "_".toList = ['_'] := by decide
    have digits : (toString id).toList = Nat.toDigits 10 id := Nat.toList_repr
    simp only [ending, text, String.toList_append, letters, digits, underscore, edge.toList_name,
      List.append_assoc, List.singleton_append]

/-- Two symbols made for one function are the same if their endings are. -/
theorem eq_of_ending {symbol other : Symbol} (made : symbol.MadeFor frame)
    (alike : other.MadeFor frame) (same : symbol.ending = other.ending) : symbol = other := by
  cases symbol with
  | plain | member | inner => exact made.elim
  | entry owner =>
    cases other with
    | plain | member | inner => exact alike.elim
    | entry second => rw [show owner = frame from made, show second = frame from alike]
    | exit second => cases same
    | block second number edge => cases same
  | exit owner =>
    cases other with
    | plain | member | inner => exact alike.elim
    | entry second => cases same
    | exit second => rw [show owner = frame from made, show second = frame from alike]
    | block second number edge => cases same
  | block owner id edge =>
    cases other with
    | plain | member | inner => exact alike.elim
    | entry second => cases same
    | exit second => cases same
    | block second number place =>
      obtain ⟨rfl, places⟩ := digits_underscore_inj (List.append_cancel_left same)
      rw [show owner = frame from made, show second = frame from alike, Edge.eq_of_letters places]

/-- Two symbols made for one function are the same if their names are. -/
theorem eq_of_text {symbol other : Symbol} (made : symbol.MadeFor frame)
    (alike : other.MadeFor frame) (same : symbol.text = other.text) : symbol = other := by
  have texts := congrArg String.toList same
  rw [toList_text made, toList_text alike] at texts
  exact eq_of_ending made alike (List.append_cancel_left texts)

end Symbol

end LineAsm
