import LineAsm.Proofs.Expansions
import LineAsm.Proofs.LongestMatch
import LineAsm.Proofs.Words
/-!
# Widths of memory in expansions

Memory has no width of its own: an instruction accesses it with the width of its register operand,
or with 32 bits where that is stated (`Statement.width?`). The width is stated instruction by
instruction, from the one operand that stands beside the memory. So the two instructions that a line
of arithmetic on memory becomes have the widths of the two operands of the line, and they access the
destination with one width exactly if these operands have one (`Family.widths_of_expansion`).
-/

namespace LineAsm

/-- The registers of 32 bits, which are those that hold words. -/
def doubleRegisters : List String := Register.all.map Register.name

/-- The registers of 16 bits. -/
def wordRegisters : List String := ["AX", "BX", "CX", "DX", "SI", "DI", "SP", "BP"]

/-- The registers of 8 bits. -/
def byteRegisters : List String := ["AL", "AH", "BL", "BH", "CL", "CH", "DL", "DH"]

/-- Every register has one of three widths. -/
theorem registers_eq : Token.registers = doubleRegisters ++ wordRegisters ++ byteRegisters := rfl

/-- The width of the register of a name, in any mix of upper and lower case. -/
def registerWidth? (name : String) : Option Nat :=
  if doubleRegisters.any fun register => Text.sameLetters register name then some 32
  else if wordRegisters.any fun register => Text.sameLetters register name then some 16
  else if byteRegisters.any fun register => Text.sameLetters register name then some 8
  else none

/-- The name of a register has a width. -/
theorem isSome_registerWidth? {name : String} (known : Token.isRegister name = true) :
    (registerWidth? name).isSome = true := by
  rw [Token.isRegister, registers_eq, List.any_append, List.any_append, Bool.or_eq_true,
    Bool.or_eq_true] at known
  unfold registerWidth?
  split
  · rfl
  · split
    · rfl
    · rename_i wide middle
      obtain (double | word) | byte := known
      · exact absurd double wide
      · exact absurd word middle
      · rw [if_pos byte]
        rfl

/-- The width that a token gives to the memory it is combined with: the width of a register, and 32
bits otherwise. -/
def Token.width? (token : Token) : Option Nat :=
  if token.kind = .register then registerWidth? token.value else some 32

/-- The width of a register operand. -/
def Operand.width? (operand : Operand) : Option Nat :=
  match operand.form with
  | .register name => registerWidth? name
  | _ => none

namespace Statement

/-- What an instruction accesses as its first operand. -/
def accessed? : Statement → Option Operand.Form
  | .instruction _ (place :: _) => some place.form
  | _ => none

/-- The width with which an instruction accesses memory as its first operand: 32 bits if this is
stated, and the width of its register operand otherwise. -/
def width? : Statement → Option Nat
  | .instruction _ (place :: others) =>
    if place.dword then some 32 else others.findSome? Operand.width?
  | _ => none

end Statement

/-- A token of a line gives memory a width. -/
theorem Token.isSome_width? {line : String} {tokens : List Token}
    (read : ofLine line = .ok tokens) {token : Token} (member : token ∈ tokens) :
    token.width?.isSome = true := by
  unfold width?
  split
  · rename_i register
    exact isSome_registerWidth? (isRegister_of_kind read member register)
  · rfl

namespace Operand

variable {token target source : Token} {state : State} {operand : Operand}

/-- Memory and another operand are asked for with the width of the memory stated if the other is a
number. -/
theorem pair_memory {operands : List Operand} (memory : target.isMemory = true)
    (asked : pair target source state = .ok operands) :
    ∃ place second, ofToken target state = .ok place ∧ place.form.isMemory = true ∧
      operands = [⟨place.form, source.kind == .integer⟩, second] ∧ source.isMemory = false ∧
      ofToken source state = .ok second := by
  obtain ⟨-, apart, first, second, rfl, one, other⟩ := pair_eq_ok asked
  rw [memory, Bool.true_and] at one apart
  cases named : ofToken target state with
  | error cause =>
    rw [sizedOfToken, named] at one
    split at one <;> cases one
  | ok place =>
    have width := dword_of_ofToken named
    have address := (isMemory_of_ofToken named).trans memory
    refine ⟨place, second, rfl, address, ?_, apart, other⟩
    rw [sizedOfToken, named] at one
    split at one
    · rename_i number
      cases one
      rw [number]
      have sized_eq : place.sized = ⟨place.form, true⟩ := by
        have form := form_sized place
        have dword := dword_sized address
        cases sized : place.sized
        simp_all
      rw [sized_eq]
    · rename_i other
      cases one
      rw [Bool.of_not_eq_true other, ← width]

end Operand

namespace Statement

/-- An instruction on memory and the operand of a token accesses the memory with the width that the
token gives. -/
theorem width?_pair {source : Token} {state : State} {second : Operand} (mnemonic : Mnemonic)
    (form : Operand.Form) (apart : source.isMemory = false)
    (named : Operand.ofToken source state = .ok second) :
    (instruction mnemonic [⟨form, source.kind == .integer⟩, second]).width? = source.width? := by
  unfold Operand.ofToken at named
  cases kind : source.kind with
  | integer => simp [width?, Token.width?, kind]
  | register =>
    rw [kind] at named
    cases named
    simp [width?, Token.width?, Operand.width?, kind, Operand.verbatim, Operand.register]
  | identifier | memory =>
    rw [Token.isMemory, kind] at apart
    cases apart
  | comment | literal | keyword | text | symbol =>
    rw [kind] at named
    cases named

end Statement

/-- Statements added to a listing are known from the listing before and after. -/
theorem Listing.addAll_inj {listing : Listing} {code other : List Statement}
    (same : listing.addAll code = listing.addAll other) : code = other := by
  have lines := List.append_cancel_left (congrArg Listing.lines same)
  have statements := congrArg (List.map Listing.Line.statement) lines
  simpa [Function.comp_def] using statements

namespace Arithmetic

variable {state : State} {target left symbol right : Token} {first second : Statement}

/-- A destination in memory for which two instructions are needed is accessed by both, with the
width of the left operand and that of the right one: in this order where the destination is loaded
with the left operand, and the other way round where it is the right operand. -/
theorem Expands.widths (memory : target.isMemory = true)
    (expands : Expands state target left symbol right [first, second]) :
    ∃ place, Operand.ofToken target state = .ok place ∧ place.form.isMemory = true ∧
      first.accessed? = some place.form ∧ second.accessed? = some place.form ∧
      first.width? = (if target.same right then right.width? else left.width?) ∧
      second.width? = (if target.same right then left.width? else right.width?) := by
  cases expands with
  | @negated operand _ unlike same minus named asked =>
    obtain ⟨place, source, given, address, rfl, apart, other⟩ := Operand.pair_memory memory asked
    rw [Operand.sizedOfToken, given] at named
    obtain rfl : place.sized = operand := Except.ok.inj named
    have stated := Operand.dword_sized address
    have form := Operand.form_sized place
    -- The right operand reads like the destination, so it is memory as well.
    have wide : right.width? = some 32 := by
      have kinds := (Token.same_iff.mp same).1
      rw [Token.isMemory, kinds] at memory
      unfold Token.width?
      rw [if_neg]
      intro register
      rw [register] at memory
      cases memory
    refine ⟨place, given, address, ?_, rfl, ?_, ?_⟩
    · rw [Statement.accessed?, form]
    · rw [if_pos same, wide, Statement.width?, if_pos stated]
    · rw [if_pos same]
      exact Statement.width?_pair .add place.form apart other
  | loaded unlike other one two =>
    obtain ⟨place, source, given, address, rfl, apart, read⟩ := Operand.pair_memory memory one
    obtain ⟨again, last, repeated, -, rfl, beside, also⟩ := Operand.pair_memory memory two
    obtain rfl : again = place := Except.ok.inj (repeated.symm.trans given)
    rw [other]
    refine ⟨again, given, address, rfl, rfl, ?_, ?_⟩
    · exact Statement.width?_pair .mov again.form apart read
    · exact Statement.width?_pair _ again.form beside also

end Arithmetic

namespace Family

/-- A line of arithmetic has three tokens and is written as one instruction, or has five. -/
theorem tokens_of_arithmetic {text : String} {dispatch : Dispatch Family}
    (parsed : Table.parse standard text = .ok dispatch) (owned : dispatch.owner = .arithmetic) :
    (∃ target symbol source, dispatch.tokens = [target, symbol, source]) ∨
      ∃ target equals left symbol right,
        dispatch.tokens = [target, equals, left, symbol, right] := by
  obtain ⟨classified, pattern, member, matched, branch⟩ := branch_of_parse parsed
  generalize dispatch.owner.emit dispatch.tokens = code at branch
  rw [owned] at branch
  generalize dispatch.tokens = tokens at branch ⊢
  cases branch with
  | inPlace target symbol source => exact .inl ⟨target, symbol, source, rfl⟩
  | combine target equals left symbol right => exact .inr ⟨target, equals, left, symbol, right, rfl⟩

/-- The two instructions that a line of arithmetic on a variable or an address becomes both access
it, the one with the width of the left operand and the other with that of the right operand, where
the width of what is no register is 32 bits. So they access it with one width exactly if the two
operands have one width. -/
theorem widths_of_expansion {text : String} {dispatch : Dispatch Family}
    (parsed : Table.parse standard text = .ok dispatch) (owned : dispatch.owner = .arithmetic)
    {target : Token} {rest : List Token} (shape : dispatch.tokens = target :: rest)
    (memory : target.isMemory = true) {draft after : Draft}
    (emitted : dispatch.owner.emit dispatch.tokens draft = .ok () after)
    {first second : Statement} (twice : after.listing = draft.listing.addAll [first, second]) :
    ∃ equals left symbol right place one other, rest = [equals, left, symbol, right] ∧
      Operand.ofToken target draft.state = .ok place ∧ place.form.isMemory = true ∧
      first.accessed? = some place.form ∧ second.accessed? = some place.form ∧
      first.width? = some one ∧ second.width? = some other ∧
      (target.same right = false → left.width? = some one ∧ right.width? = some other) ∧
      (target.same right = true → right.width? = some one ∧ left.width? = some other) ∧
      (one = other ↔ left.width? = right.width?) := by
  have read := Table.ofLine_of_parse parsed
  obtain ⟨destination, symbol, source, short⟩ | ⟨destination, equals, left, symbol, right, whole⟩ :=
    tokens_of_arithmetic parsed owned
  · -- Such a line is combined in place, by one instruction.
    rw [owned, short] at emitted
    obtain ⟨operands, -, written⟩ := Emission.exists_of_ask_bind emitted
    rw [Emission.of_instruction written] at twice
    cases Listing.addAll_inj twice
  · rw [whole] at read shape
    obtain ⟨rfl, rfl⟩ := List.cons.inj shape
    rw [owned, whole] at emitted
    obtain ⟨code, expands, added⟩ := Arithmetic.expands_of_combine emitted
    rw [added] at twice
    obtain rfl := Listing.addAll_inj twice
    obtain ⟨place, named, address, here, there, width, next⟩ := expands.widths memory
    have member : left ∈ [destination, equals, left, symbol, right] := by simp
    have last : right ∈ [destination, equals, left, symbol, right] := by simp
    obtain ⟨one, left_width⟩ := Option.isSome_iff_exists.mp (Token.isSome_width? read member)
    obtain ⟨other, right_width⟩ := Option.isSome_iff_exists.mp (Token.isSome_width? read last)
    rw [left_width, right_width] at width next
    cases same : destination.same right with
    | true =>
      rw [same] at width next
      refine ⟨equals, left, symbol, right, place, other, one, rfl, named, address, here, there,
        width, next, fun unlike => ?_, fun _ => ⟨right_width, left_width⟩, ?_⟩
      · rw [same] at unlike
        cases unlike
      · rw [left_width, right_width, Option.some.injEq, eq_comm]
    | false =>
      rw [same] at width next
      refine ⟨equals, left, symbol, right, place, one, other, rfl, named, address, here, there,
        width, next, fun _ => ⟨left_width, right_width⟩, fun like => ?_, ?_⟩
      · rw [same] at like
        cases like
      · rw [left_width, right_width, Option.some.injEq]

/-- A number that a byte is subtracted from in memory is negated with 32 bits and increased with
eight. -/
theorem widths_of_expansion_byte :
    ∃ dispatch first second, Table.parse standard "[EBX] = AL - [EBX]" = .ok dispatch ∧
      dispatch.owner.emit dispatch.tokens (.empty (.initial {})) =
        .ok () ⟨(Draft.empty (.initial {})).state, Listing.addAll {} [first, second]⟩ ∧
      first.text = "neg dword [EBX]" ∧ second.text = "add [EBX], AL" ∧
      first.width? = some 32 ∧ second.width? = some 8 := by
  let draft : Draft := .empty (.initial {})
  let first : Statement := .instruction .neg [⟨.memory "[EBX]", true⟩]
  let second : Statement := .instruction .add [⟨.memory "[EBX]", false⟩, .register "AL"]
  have dispatched : ((Table.parse standard "[EBX] = AL - [EBX]").toOption.any fun dispatch =>
      dispatch.owner == .arithmetic && dispatch.tokens == [⟨.memory, "[EBX]", 0⟩, ⟨.symbol, "=", 6⟩,
        ⟨.register, "AL", 8⟩, ⟨.symbol, "-", 11⟩, ⟨.memory, "[EBX]", 13⟩]) = true := by
    decide +kernel
  cases parsed : Table.parse standard "[EBX] = AL - [EBX]" with
  | error cause =>
    rw [parsed] at dispatched
    cases dispatched
  | ok dispatch =>
    rw [parsed] at dispatched
    obtain ⟨owner, tokens⟩ := Bool.and_eq_true_iff.mp dispatched
    have owned : dispatch.owner = .arithmetic := eq_of_beq owner
    have shape := eq_of_beq tokens
    have emitted : dispatch.owner.emit dispatch.tokens draft =
        .ok () ⟨draft.state, Listing.addAll {} [first, second]⟩ := by
      rw [owned, shape]
      rfl
    obtain ⟨equals, left, symbol, right, place, one, other, split, -, -, -, -, width, next, -,
      subtracted, -⟩ := widths_of_expansion parsed owned shape rfl emitted rfl
    cases split
    obtain ⟨wide, narrow⟩ := subtracted (by decide)
    refine ⟨dispatch, first, second, rfl, emitted, by decide +kernel, by decide +kernel, ?_, ?_⟩
    · rw [width, ← wide]
      rfl
    · rw [next, ← narrow]
      decide +kernel

end Family

end LineAsm
