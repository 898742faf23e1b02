import LineAsm.Proofs.Branches
import LineAsm.Proofs.Operands
/-!
# Expansions of arithmetic

A line of arithmetic on three operands becomes one instruction where the destination is one of the
operands and can be combined in place, and two instructions otherwise (`Arithmetic.Expands`). The
first of two writes the destination, so the second reads what the first has made of it. An operand
that is the destination is looked for by its text, but an address can name the destination between
its brackets: where the second instruction reads such an address, it is not the address that the
line has meant (`Arithmetic.clobbers_iff_of_combine`).
-/

namespace LineAsm

namespace Emission

section Inversion

variable {α β : Type} {draft after : Draft} {value : β}

/-- What has an answer after a question has asked it, and the question had an answer. -/
theorem exists_of_ask_bind {question : State → Except CompileError α} {next : α → Emission β}
    (passed : (ask question >>= next) draft = .ok value after) :
    ∃ answer, question draft.state = .ok answer ∧ next answer draft = .ok value after := by
  cases asked : question draft.state with
  | error cause =>
    rw [bind_error (ask_eq_error_iff.mpr ⟨asked, rfl⟩)] at passed
    cases passed
  | ok answer =>
    rw [bind_ok (ask_eq_ok_iff.mpr ⟨asked, rfl⟩)] at passed
    exact ⟨answer, rfl, passed⟩

/-- What has an answer has not been rejected before. -/
theorem of_reject_or {condition : Bool} {cause : OperandError} {next : PUnit → Emission β}
    (passed : (if condition = true then reject cause >>= next else next ⟨⟩) draft =
      .ok value after) : condition = false ∧ next ⟨⟩ draft = .ok value after := by
  cases condition with
  | false => exact ⟨rfl, passed⟩
  | true => cases passed

/-- One instruction is added to the listing. -/
theorem of_instruction {mnemonic : Mnemonic} {operands : List Operand} {answer : Unit}
    (passed : instruction mnemonic operands draft = .ok answer after) :
    after = ⟨draft.state, draft.listing.addAll [.instruction mnemonic operands]⟩ := by
  cases passed
  rfl

/-- Two instructions are added to the listing, one after the other. -/
theorem of_instructions {first second : Mnemonic} {operands others : List Operand} {answer : Unit}
    (passed : (instruction first operands >>= fun _ => instruction second others) draft =
      .ok answer after) :
    after = ⟨draft.state,
      draft.listing.addAll [.instruction first operands, .instruction second others]⟩ := by
  cases passed
  simp [Listing.addAll, Listing.add]

end Inversion

end Emission

/-- The words of a text, between all the characters that no word has. -/
def Text.words (text : String) : List String :=
  (text.toList.splitOnP fun c => !Lexeme.isWordPart c).map String.ofList

/-- Whether a text has a word among its words, in any mix of upper and lower case. -/
def Text.names (text word : String) : Bool := (words text).any fun part => sameLetters part word

/-- Whether an operation writes its first operand. -/
def Mnemonic.writesFirst : Mnemonic → Bool
  | .mov | .add | .sub | .and | .or | .xor | .neg | .inc | .dec | .shl | .shr | .rol | .ror | .pop
  | .input => true
  | _ => false

namespace Statement

/-- The register that an instruction writes. -/
def register? : Statement → Option String
  | .instruction mnemonic (⟨.register name, _⟩ :: _) =>
    if mnemonic.writesFirst then some name else none
  | _ => none

/-- The operands that an instruction reads: all of them, but a move only writes the first. -/
def reads : Statement → List Operand
  | .instruction .mov [_, source] => [source]
  | .instruction _ operands => operands
  | _ => []

/-- An instruction that writes a register, by its name in any mix of upper and lower case. -/
def Overwrites (register : String) (statement : Statement) : Prop :=
  ∃ name, statement.register? = some name ∧ Text.sameLetters name register = true

/-- An instruction that reads memory at an address that names a register. -/
def ReadsThrough (register : String) (statement : Statement) : Prop :=
  ∃ operand ∈ statement.reads, ∃ address, operand.form = .memory address ∧
    Text.names address register = true

end Statement

/-- Code in which an instruction reads memory at an address that names a register after an earlier
instruction has written the register. -/
def Clobbers (register : String) (code : List Statement) : Prop :=
  ∃ before statement after, code = before ++ statement :: after ∧
    (∃ earlier ∈ before, earlier.Overwrites register) ∧ statement.ReadsThrough register

section Clobbers

variable {register : String} {first second : Statement}

/-- One instruction comes after no other. -/
theorem not_clobbers_single : ¬ Clobbers register [first] := by
  rintro ⟨before, statement, after, shape, ⟨earlier, member, -⟩, -⟩
  cases before with
  | nil => cases member
  | cons one rest => exact absurd (List.cons.inj shape).2 (by simp)

/-- Of two instructions the second comes after the first. -/
theorem clobbers_pair_iff :
    Clobbers register [first, second] ↔
      first.Overwrites register ∧ second.ReadsThrough register := by
  constructor
  · rintro ⟨before, statement, after, shape, ⟨earlier, member, overwrites⟩, reads⟩
    cases before with
    | nil => cases member
    | cons one rest =>
      obtain ⟨rfl, others⟩ := List.cons.inj shape
      cases rest with
      | nil =>
        obtain ⟨rfl, -⟩ := List.cons.inj others
        obtain rfl := List.mem_singleton.mp member
        exact ⟨overwrites, reads⟩
      | cons two rest => exact absurd (List.cons.inj others).2 (by simp)
  · rintro ⟨overwrites, reads⟩
    exact ⟨[first], second, [], rfl, ⟨first, List.mem_singleton_self first, overwrites⟩, reads⟩

end Clobbers

namespace Operand

variable {token : Token} {state : State} {operand : Operand}

/-- A register is the operand it names. -/
theorem ofToken_register (register : token.kind = .register) (state : State) :
    ofToken token state = .ok (.register token.value) := by
  simp only [ofToken, verbatim, register]

/-- A register needs no width. -/
theorem sizedOfToken_register (register : token.kind = .register) (state : State) :
    sizedOfToken token state = .ok (.register token.value) := by
  rw [sizedOfToken, ofToken_register register]
  rfl

/-- An operand is memory at an address exactly if its token is the address. -/
theorem form_eq_memory_iff (named : ofToken token state = .ok operand) {address : String} :
    operand.form = .memory address ↔ token.kind = .memory ∧ token.value = address := by
  obtain ⟨kind, rfl⟩ | ⟨kind, rfl⟩ | ⟨kind, rfl⟩ | ⟨kind, space, -, rfl⟩ := ofToken_cases named
  all_goals simp [kind, register, immediate]

/-- A register and another operand are asked for as they are named. -/
theorem pair_register {destination source : Token} {operands : List Operand}
    (named : destination.kind = .register) (asked : pair destination source state = .ok operands) :
    ∃ second, operands = [.register destination.value, second] ∧
      ofToken source state = .ok second := by
  obtain ⟨-, -, first, second, rfl, one, other⟩ := pair_eq_ok asked
  have apart : (destination.isMemory && source.kind == .integer) = false := by
    rw [Token.isMemory, named]
    rfl
  rw [if_neg (Bool.eq_false_iff.mp apart), ofToken_register named] at one
  cases one
  exact ⟨second, rfl, other⟩

end Operand

namespace Arithmetic

open Emission

/-- The instructions that a line of arithmetic on three operands becomes. -/
inductive Expands (state : State) (target left symbol right : Token) : List Statement → Prop where
  /-- A destination that is the left operand is combined with the right one. -/
  | inPlace {operands : List Operand} (same : target.same left = true)
      (asked : Operand.pair target right state = .ok operands) :
      Expands state target left symbol right [.instruction (operation symbol.value) operands]
  /-- A destination that is the right operand is combined with the left one. -/
  | exchanged {operands : List Operand} (unlike : target.same left = false)
      (same : target.same right = true) (other : symbol.value ≠ "-")
      (asked : Operand.pair target left state = .ok operands) :
      Expands state target left symbol right [.instruction (operation symbol.value) operands]
  /-- A destination that is subtracted is negated and then combined with the left operand. -/
  | negated {operand : Operand} {operands : List Operand} (unlike : target.same left = false)
      (same : target.same right = true) (minus : symbol.value = "-")
      (named : Operand.sizedOfToken target state = .ok operand)
      (asked : Operand.pair target left state = .ok operands) :
      Expands state target left symbol right
        [.instruction .neg [operand], .instruction .add operands]
  /-- Any other destination gets the left operand and is then combined with the right one. -/
  | loaded {load operands : List Operand} (unlike : target.same left = false)
      (other : target.same right = false)
      (first : Operand.pair target left state = .ok load)
      (second : Operand.pair target right state = .ok operands) :
      Expands state target left symbol right
        [.instruction .mov load, .instruction (operation symbol.value) operands]

section Expansion

variable {target equals left symbol right : Token} {draft after : Draft} {code : List Statement}

/-- A line of arithmetic on three operands that is written becomes one of these expansions. -/
theorem expands_of_combine
    (emitted : Family.emit .arithmetic [target, equals, left, symbol, right] draft =
      .ok () after) :
    ∃ code, Expands draft.state target left symbol right code ∧
      after = ⟨draft.state, draft.listing.addAll code⟩ := by
  have cases_of_combine : Family.emit .arithmetic [target, equals, left, symbol, right] =
      if target.same left then inPlace target symbol right
      else if target.same right then reversed target left symbol
      else loaded target left symbol right := rfl
  rw [cases_of_combine] at emitted
  by_cases same : target.same left = true
  · rw [if_pos same] at emitted
    obtain ⟨operands, asked, written⟩ := exists_of_ask_bind emitted
    exact ⟨_, .inPlace same asked, of_instruction written⟩
  rw [if_neg same] at emitted
  have unlike := Bool.of_not_eq_true same
  by_cases again : target.same right = true
  · rw [if_pos again] at emitted
    obtain ⟨operands, asked, further⟩ := exists_of_ask_bind emitted
    by_cases minus : symbol.value = "-"
    · rw [if_pos (beq_iff_eq.mpr minus)] at further
      obtain ⟨operand, named, written⟩ := exists_of_ask_bind further
      exact ⟨_, .negated unlike again minus named asked, of_instructions written⟩
    · rw [if_neg (mt beq_iff_eq.mp minus)] at further
      exact ⟨_, .exchanged unlike again minus asked, of_instruction further⟩
  · rw [if_neg again, loaded] at emitted
    obtain ⟨-, further⟩ := of_reject_or emitted
    obtain ⟨load, first, further⟩ := exists_of_ask_bind further
    obtain ⟨operands, second, written⟩ := exists_of_ask_bind further
    exact ⟨_, .loaded unlike (Bool.of_not_eq_true again) first second, of_instructions written⟩

/-- An operation of arithmetic reads all its operands. -/
theorem reads_operation (symbol : String) (operands : List Operand) :
    (Statement.instruction (operation symbol) operands).reads = operands := by
  unfold operation
  split <;> rfl

/-- An operation on a register and the operand of a token reads through the register exactly if the
token is an address that names it. -/
theorem readsThrough_iff {mnemonic : Mnemonic} {register : String} {token : Token} {state : State}
    {operand : Operand}
    (reads : ∀ operands, (Statement.instruction mnemonic operands).reads = operands)
    (named : Operand.ofToken token state = .ok operand) :
    (Statement.instruction mnemonic [.register register, operand]).ReadsThrough register ↔
      token.kind = .memory ∧ Text.names token.value register = true := by
  unfold Statement.ReadsThrough
  rw [reads]
  constructor
  · rintro ⟨other, member, address, form, names⟩
    rcases List.mem_cons.mp member with rfl | member
    · cases form
    · obtain rfl := List.mem_singleton.mp member
      obtain ⟨kind, rfl⟩ := (Operand.form_eq_memory_iff named).mp form
      exact ⟨kind, names⟩
  · rintro ⟨kind, names⟩
    exact ⟨operand, by simp, token.value, (Operand.form_eq_memory_iff named).mpr ⟨kind, rfl⟩, names⟩

/-- A line of arithmetic on a register and an address, among others, reads the address after it has
overwritten the register in it in two cases only: where the left operand is loaded into the register
and the right operand is an address that names it, and where the register is negated, to be
subtracted, and the left operand is an address that names it. -/
theorem clobbers_iff_of_combine (register : target.kind = .register)
    (memory : left.kind = .memory ∨ right.kind = .memory)
    (emitted : Family.emit .arithmetic [target, equals, left, symbol, right] draft =
      .ok () after) :
    ∃ code, after = ⟨draft.state, draft.listing.addAll code⟩ ∧
      (Clobbers target.value code ↔ target.same left = false ∧
        (target.same right = false ∧ right.kind = .memory ∧
            Text.names right.value target.value = true ∨
          target.same right = true ∧ symbol.value = "-" ∧
            Text.names left.value target.value = true)) := by
  obtain ⟨code, expands, added⟩ := expands_of_combine emitted
  refine ⟨code, added, ?_⟩
  have itself : Text.sameLetters target.value target.value = true := by simp [Text.sameLetters]
  cases expands with
  | inPlace same =>
    rw [same]
    exact ⟨fun clobbers => absurd clobbers not_clobbers_single, nofun⟩
  | exchanged unlike same other =>
    rw [same]
    refine ⟨fun clobbers => absurd clobbers not_clobbers_single, ?_⟩
    rintro ⟨-, ⟨never, -⟩ | ⟨-, minus, -⟩⟩
    · cases never
    · exact absurd minus other
  | negated unlike same minus named asked =>
    rw [Operand.sizedOfToken_register register] at named
    obtain rfl := Except.ok.inj named
    obtain ⟨operand, rfl, read⟩ := Operand.pair_register register asked
    -- The right operand reads like the register, so it is the left one that is memory.
    have address : left.kind = .memory := by
      have kinds := (Token.same_iff.mp same).1
      rw [register] at kinds
      rw [← kinds] at memory
      simpa using memory
    have overwrites : (Statement.instruction .neg [.register target.value]).Overwrites
        target.value := ⟨target.value, rfl, itself⟩
    rw [clobbers_pair_iff, readsThrough_iff (fun _ => rfl) read, same, unlike]
    simp [overwrites, address, minus]
  | loaded unlike other first second =>
    obtain ⟨moved, rfl, -⟩ := Operand.pair_register register first
    obtain ⟨operand, rfl, read⟩ := Operand.pair_register register second
    have overwrites : (Statement.instruction .mov [.register target.value, moved]).Overwrites
        target.value := ⟨target.value, rfl, itself⟩
    rw [clobbers_pair_iff, readsThrough_iff (reads_operation symbol.value) read, other, unlike]
    simp [overwrites]

/-- The line `EAX = EBX + [EAX]` reads the memory at the address that it has put into the register
before. -/
theorem clobbers_iff_of_combine_loaded :
    let draft : Draft := .empty (.initial {})
    let line : List Token := [⟨.register, "EAX", 0⟩, ⟨.symbol, "=", 4⟩, ⟨.register, "EBX", 6⟩,
      ⟨.symbol, "+", 10⟩, ⟨.memory, "[EAX]", 12⟩]
    (Table.parse Family.standard "EAX = EBX + [EAX]").toOption.map
        (fun dispatch => (dispatch.owner, dispatch.tokens)) = some (.arithmetic, line) ∧
      ∃ code, Family.emit .arithmetic line draft =
          .ok () ⟨draft.state, draft.listing.addAll code⟩ ∧ Clobbers "EAX" code := by
  intro draft line
  refine ⟨by decide +kernel, ?_⟩
  cases emitted : Family.emit .arithmetic line draft with
  | error cause after =>
    have succeeds : (match Family.emit .arithmetic line draft with
      | .ok _ _ => true
      | .error _ _ => false) = true := by decide +kernel
    rw [emitted] at succeeds
    cases succeeds
  | ok answer after =>
    obtain ⟨code, added, clobbers⟩ := clobbers_iff_of_combine rfl (.inr rfl) emitted
    exact ⟨code, by rw [added], clobbers.mpr ⟨by decide, .inl ⟨by decide, rfl, by decide +kernel⟩⟩⟩

end Expansion

end Arithmetic
end LineAsm
