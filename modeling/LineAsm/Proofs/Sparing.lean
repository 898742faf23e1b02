import LineAsm.Proofs.Expansions
import LineAsm.Proofs.Laying
import LineAsm.Proofs.Options
import LineAsm.Proofs.Yields
/-!
# Lines that spare the count register

A counted block keeps its count in one register. A line without control flow that does not name
this register, nor a part of it, becomes instructions that do not name it either
(`Family.spares_of_branch`): all their operands are those of the line, but for the port register.
Two such lines are set apart. One restores all registers from the stack, and one returns from an
interrupt.
-/

namespace LineAsm

/-- The names of the count register and of its parts. -/
def Text.countRegisters : List String := ["ECX", "CX", "CH", "CL"]

/-- Whether a text names the count register or a part of it. -/
def Text.namesCount (text : String) : Bool := countRegisters.any (names text)

/-- Whether an operand names the count register or a part of it. -/
def Operand.namesCount (operand : Operand) : Bool :=
  match operand.form with
  | .register text | .memory text | .word text => Text.namesCount text
  | .immediate _ | .variable _ | .target _ => false

namespace Mnemonic

/-- Whether execution goes on with the next statement after an operation. -/
def isSequential : Mnemonic → Bool
  | .jmp | .jumpIf _ | .loop | .call | .ret => false
  | .other text => text != "iret"
  | _ => true

/-- Whether an operation changes no register that it is not given, and goes on with the next
statement. -/
def keepsOthers (mnemonic : Mnemonic) : Bool :=
  mnemonic.isSequential && mnemonic != .other "popad"

end Mnemonic

/-- An instruction that leaves the count register: it is not given the register, and changes no
register that it is not given. -/
def Statement.SparesCount : Statement → Prop
  | .instruction mnemonic operands =>
    mnemonic.keepsOthers = true ∧ ∀ operand ∈ operands, operand.namesCount = false
  | _ => False

/-- An instruction that leaves the count register is an instruction. -/
theorem Statement.SparesCount.isInstruction {statement : Statement}
    (spares : statement.SparesCount) : statement.isInstruction = true := by
  cases statement with
  | instruction mnemonic operands => rfl
  | _ => exact spares.elim

/-- An emission that writes, when it succeeds, only instructions that leave the count register. -/
def Emission.Spares (emission : Emission Unit) : Prop :=
  emission.Yields (fun _ => True) Statement.SparesCount fun _ => True

open Emission

namespace Operand

variable {token : Token}

/-- A token that is copied names the count register only if it does so in the source. -/
theorem namesCount_verbatim (unnamed : Text.namesCount token.value = false) :
    (verbatim token).namesCount = false := by
  unfold verbatim
  cases token.kind with
  | integer => rfl
  | _ => exact unnamed

/-- A stated width does not name a register. -/
theorem namesCount_sized (operand : Operand) : operand.sized.namesCount = operand.namesCount := by
  rw [namesCount, form_sized, namesCount]

/-- The operand of a token that does not name the count register does not name it. -/
theorem unnamed_ofToken (unnamed : Text.namesCount token.value = false) (state : State) :
    Meets (fun operand => operand.namesCount = false) (fun _ => True) (ofToken token state) := by
  unfold ofToken
  cases token.kind with
  | identifier =>
    have space : Meets (fun _ => True) (fun _ => True) state.qualifier := by
      cases state.qualifier <;> trivial
    exact space.bind fun _ _ => rfl
  | register | integer | memory => exact namesCount_verbatim unnamed
  | comment | literal | keyword | text | symbol => trivial

/-- So is it with a stated width. -/
theorem unnamed_sizedOfToken (unnamed : Text.namesCount token.value = false) (state : State) :
    Meets (fun operand => operand.namesCount = false) (fun _ => True)
      (sizedOfToken token state) := by
  have meets := unnamed_ofToken unnamed state
  unfold sizedOfToken
  cases named : ofToken token state with
  | error cause => trivial
  | ok operand =>
    rw [named] at meets
    exact (namesCount_sized operand).trans meets

/-- So is it with the operands of an instruction. -/
theorem unnamed_pair {other : Token} (unnamed : Text.namesCount token.value = false)
    (also : Text.namesCount other.value = false) (state : State) :
    Meets (fun operands => ∀ operand ∈ operands, operand.namesCount = false) (fun _ => True)
      (pair token other state) := by
  cases asked : pair token other state with
  | error cause => trivial
  | ok operands =>
    obtain ⟨-, -, first, second, rfl, one, two⟩ := pair_eq_ok asked
    have head : first.namesCount = false := by
      have sized := unnamed_sizedOfToken unnamed state
      have plain := unnamed_ofToken unnamed state
      split at one
      · rwa [one] at sized
      · rwa [one] at plain
    have tail : second.namesCount = false := by
      have plain := unnamed_ofToken also state
      rwa [two] at plain
    intro operand member
    rcases List.mem_cons.mp member with rfl | member
    · exact head
    · rw [List.mem_singleton.mp member]
      exact tail

end Operand

/-- The port register is not the count register. -/
theorem Port.namesCount_operand {token : Token} {place : Operand}
    (named : operand token = .ok place) : place.namesCount = false := by
  unfold operand at named
  dsimp only at named
  by_cases same : Text.sameLetters (inside token.value) "DX" = true
  · rw [if_pos same] at named
    cases named
    have known : ∀ letters ∈ Text.spellings ['D', 'X'],
        Text.namesCount (.ofList letters) = false := by decide +kernel
    have spelled := known _ (Text.mem_spellings (by decide) (eq_of_beq same))
    rwa [String.ofList_toList] at spelled
  · rw [if_neg same] at named
    split at named
    · cases named
      rfl
    · cases named

section Steps

variable {mnemonic : Mnemonic} {token other : Token}

/-- An instruction on operands that do not name the count register. -/
theorem Emission.spares_instruction {operands : List Operand} (keeps : mnemonic.keepsOthers = true)
    (unnamed : ∀ operand ∈ operands, operand.namesCount = false) :
    (instruction mnemonic operands).Spares :=
  yields_write ⟨keeps, unnamed⟩

/-- One operation on the sized operand of a token. -/
theorem Emission.spares_single (keeps : mnemonic.keepsOthers = true)
    (unnamed : Text.namesCount token.value = false) : (single mnemonic token).Spares := by
  apply (yields_ask (Operand.unnamed_sizedOfToken unnamed)).bind
  intro operand free
  apply spares_instruction keeps
  intro same member
  rwa [List.mem_singleton.mp member]

/-- One operation on the operands of two tokens. -/
theorem Emission.spares_double (keeps : mnemonic.keepsOthers = true)
    (unnamed : Text.namesCount token.value = false)
    (also : Text.namesCount other.value = false) : (double mnemonic token other).Spares := by
  apply (yields_ask (Operand.unnamed_pair unnamed also)).bind
  intro operands free
  exact spares_instruction keeps free

/-- The operand of a port, and what is done with it. -/
theorem Transfer.spares_port {next : Operand → Emission Unit}
    (rest : ∀ place, place.namesCount = false → (next place).Spares) :
    (port token >>= next).Spares := by
  have asked : (port token).Yields (fun place => place.namesCount = false)
      Statement.SparesCount fun _ => True := by
    unfold port
    split
    · rename_i place named
      exact yields_pure (Port.namesCount_operand named)
    · exact yields_fail trivial
  exact asked.bind rest

end Steps

namespace Arithmetic

/-- The operation of an arithmetic symbol changes its first operand only. -/
theorem keepsOthers_operation (symbol : String) : (operation symbol).keepsOthers = true := by
  unfold operation
  split <;> rfl

/-- The operation of a shift symbol changes its first operand only. -/
theorem keepsOthers_shift (symbol : String) : (shift symbol).keepsOthers = true := by
  unfold shift
  split <;> rfl

variable {target left right : Token}

/-- Combining with the destination on the right spares the count register. -/
theorem spares_reversed (one : Text.namesCount target.value = false)
    (two : Text.namesCount left.value = false) (symbol : Token) :
    (reversed target left symbol).Spares := by
  apply (yields_ask (Operand.unnamed_pair one two)).bind
  intro operands free
  split
  · apply (yields_ask (Operand.unnamed_sizedOfToken one)).bind
    intro negated apart
    have neg : (instruction .neg [negated]).Spares := by
      apply spares_instruction rfl
      intro operand member
      rwa [List.mem_singleton.mp member]
    exact neg.bind fun _ _ => spares_instruction rfl free
  · exact spares_instruction (keepsOthers_operation symbol.value) free

/-- Loading and combining spares the count register. -/
theorem spares_loaded (one : Text.namesCount target.value = false)
    (two : Text.namesCount left.value = false) (three : Text.namesCount right.value = false)
    (symbol : Token) : (loaded target left symbol right).Spares := by
  unfold loaded
  apply yields_reject_or (fun _ => trivial)
  intro _
  apply (yields_ask (Operand.unnamed_pair one two)).bind
  intro load first
  apply (yields_ask (Operand.unnamed_pair one three)).bind
  intro operands second
  have mov : (instruction .mov load).Spares := spares_instruction rfl first
  exact mov.bind fun _ _ => spares_instruction (keepsOthers_operation symbol.value) second

end Arithmetic

/-- The values of the lines without operands that do not go on with all registers but those given:
one restores all registers and one returns from an interrupt. -/
def Token.departures : List (List String) := [["-", "All"], ["IRet"]]

/-- A line without control flow that does not name the count register is written as instructions
that spare it, unless it restores all registers or returns from an interrupt. -/
theorem Family.spares_of_branch {family : Family} {pattern : Pattern} {tokens : List Token}
    {code : Emission Unit} (branch : Branch family pattern tokens code)
    (fits : Pattern.Fits [] pattern tokens)
    (plain : family.isStraight = true ∨ family = .comparisons)
    (unnamed : ∀ token ∈ tokens, Text.namesCount token.value = false)
    (stays : tokens.map Token.value ∉ Token.departures) : code.Spares := by
  cases branch with
  | declare | comment | literal | flow => rcases plain with other | other <;> cases other
  | output word port equals register =>
    apply Transfer.spares_port
    intro place free
    apply spares_instruction rfl
    intro operand member
    rcases List.mem_cons.mp member with rfl | member
    · exact free
    · rw [List.mem_singleton.mp member]
      exact Operand.namesCount_verbatim (unnamed register (by simp))
  | input register equals word port =>
    apply Transfer.spares_port
    intro place free
    apply spares_instruction rfl
    intro operand member
    rcases List.mem_cons.mp member with rfl | member
    · exact Operand.namesCount_verbatim (unnamed register (by simp))
    · rwa [List.mem_singleton.mp member]
  | save sign all => exact spares_instruction rfl (by simp)
  | restore sign all =>
    obtain _ | ⟨minus, _ | ⟨word, ⟨⟩⟩⟩ := fits
    have values : [sign, all].map Token.value = ["-", "All"] := by
      simp [Pattern.Element.value_of_text minus, Pattern.Element.value_of_text word]
    rw [values] at stays
    exact absurd List.mem_cons_self stays
  | operation word =>
    obtain _ | ⟨listed, ⟨⟩⟩ := fits
    have known : word.value ∈ ["NOP", "CLI", "STI", "HLT", "IRet"] :=
      List.contains_iff_mem.mp (Bool.and_eq_true_iff.mp listed).2
    have keeps : ∀ value ∈ ["NOP", "CLI", "STI", "HLT", "IRet"], [value] ∉ Token.departures →
        (Mnemonic.other (Text.lower value)).keepsOthers = true := by decide +kernel
    exact spares_instruction (keeps word.value known stays) (by simp)
  | up target | down target | plusOne target | minusOne target =>
    exact spares_single rfl (unnamed target (by simp))
  | push sign token => exact spares_single rfl (unnamed token (by simp))
  | pop sign token =>
    apply yields_reject_or (fun _ => trivial)
    intro _
    exact spares_single rfl (unnamed token (by simp))
  | assign target equals source =>
    exact spares_double rfl (unnamed target (by simp)) (unnamed source (by simp))
  | compare left symbol right =>
    have keeps : (if symbol.value == "?=" then Mnemonic.cmp else .test).keepsOthers = true := by
      split <;> rfl
    exact spares_double keeps (unnamed left (by simp)) (unnamed right (by simp))
  | inPlace target symbol source =>
    exact spares_double (Arithmetic.keepsOthers_operation symbol.value)
      (unnamed target (by simp)) (unnamed source (by simp))
  | combine target equals left symbol right =>
    have one := unnamed target (by simp)
    have two := unnamed left (by simp)
    have three := unnamed right (by simp)
    split
    · exact spares_double (Arithmetic.keepsOthers_operation symbol.value) one three
    · split
      · exact Arithmetic.spares_reversed one two symbol
      · exact Arithmetic.spares_loaded one two three symbol
  | shift target symbol amount =>
    apply yields_reject_or (fun _ => trivial)
    intro _
    apply (yields_ask (Operand.unnamed_sizedOfToken (unnamed target (by simp)))).bind
    intro place free
    apply spares_instruction (Arithmetic.keepsOthers_shift symbol.value)
    intro operand member
    rcases List.mem_cons.mp member with rfl | member
    · exact free
    · rw [List.mem_singleton.mp member]
      exact Operand.namesCount_verbatim (unnamed amount (by simp))

/-- A line without control flow that does not name the count register. -/
structure Sparing where
  /-- The line as it is read. -/
  raw : String
  /-- The family that owns the line. -/
  family : Family
  /-- The tokens of the line. -/
  tokens : List Token
  /-- The line is read as these tokens of this family. -/
  read : Reading.of (Compiler.textOf raw) = .owned family tokens
  /-- The family is one of those made of straight instructions, or that of the comparisons. -/
  plain : family.isStraight = true ∨ family = .comparisons
  /-- No token names the count register or a part of it. -/
  unnamed : ∀ token ∈ tokens, Text.namesCount token.value = false
  /-- The line neither restores all registers nor returns from an interrupt. -/
  stays : tokens.map Token.value ∉ Token.departures

namespace Sparing

/-- The instructions of the line under a namespace. -/
def code (line : Sparing) (space : String) : List Statement :=
  ((line.family.emit line.tokens).effect { Scope.initial {} with declared := some space }).written

/-- The line is written as instructions that spare the count register. -/
theorem spares (line : Sparing) : (line.family.emit line.tokens).Spares := by
  obtain ⟨dispatch, parsed, owner, tokens⟩ := Reading.exists_parse_of_owned line.read
  obtain ⟨-, pattern, -, matched, branch⟩ := Family.branch_of_parse parsed
  rw [owner, tokens] at branch
  rw [tokens] at matched
  exact Family.spares_of_branch branch (Pattern.fits_of_matchesLine matched) line.plain
    line.unnamed line.stays

/-- The line depends on the namespace only. -/
theorem plain_emit (line : Sparing) :
    (line.family.emit line.tokens).Plain Statement.IsQuiet := by
  rcases line.plain with straight | compares
  · exact (Family.plain_emit straight line.tokens).mono fun _ plain => plain.isQuiet
  · rw [compares]
    exact (Transfer.plain_compare line.tokens).mono fun _ bare => bare.isQuiet

/-- The line leaves the scope and is executed as its instructions, which spare the count
register. -/
theorem executed (line : Sparing) {passage : Passage} (holds : passage.Holds)
    (same : passage.raw = line.raw) {space : String}
    (declared : passage.before.declared = some space) :
    passage.after = passage.before ∧ executable passage.written = line.code space ∧
      ∀ statement ∈ line.code space, statement.SparesCount := by
  have read : passage.reading = .owned line.family line.tokens := by
    rw [Passage.reading, same]
    exact line.read
  obtain ⟨kept, answered, executed⟩ := holds.plain read line.plain_emit
  have spared := line.spares.sorted_of_effect answered
  have code : ((line.family.emit line.tokens).effect passage.before).written = line.code space :=
    line.plain_emit.written_congr declared
  rw [code] at spared executed
  rw [executable_instructions fun statement member => (spared statement member).isInstruction]
    at executed
  exact ⟨kept, executed, spared⟩

end Sparing

end LineAsm
