import LineAsm.Dialect.Family
import LineAsm.Proofs.Effect
/-!
# Effects of the families

The families whose lines become instructions depend on the namespace only and leave the scope as
it is (`Family.plain_emit`). All of them but the comparisons write straight instructions, which
neither compare nor lead to another place; only the operations without operands are known by no more
than their text (`Family.common_emit`). A declaration changes the namespace and writes
nothing (`Family.hasEffect_declare`); a remark changes nothing and writes nothing that execution
could come to (`Family.still_remark`). Outside control flow all statements are bare: they name no
place and no variable, and do not jump (`Statement.IsBare`).
-/

namespace LineAsm

/-- An operation that neither compares nor decides where execution goes on. -/
def Mnemonic.isStraight : Mnemonic → Bool
  | .cmp | .jmp | .jumpIf _ | .loop | .ret => false
  | _ => true

/-- A straight operation that is known by more than its text. -/
def Mnemonic.isCommon : Mnemonic → Bool
  | .cmp | .jmp | .jumpIf _ | .loop | .call | .ret | .other _ => false
  | _ => true

/-- An operation that may go on at the place its operand names. -/
def Mnemonic.isJump : Mnemonic → Bool
  | .jmp | .jumpIf _ | .loop => true
  | _ => false

/-- An instruction that neither compares nor decides where execution goes on. -/
def Statement.IsStraight : Statement → Prop
  | .instruction mnemonic _ => mnemonic.isStraight = true
  | _ => False

/-- An instruction of a straight operation that is known by more than its text. -/
def Statement.IsCommon : Statement → Prop
  | .instruction mnemonic _ => mnemonic.isCommon = true
  | _ => False

/-- A statement that neither names a place nor goes on at one. -/
def Statement.IsQuiet : Statement → Prop
  | .label _ => False
  | .instruction mnemonic _ => mnemonic.isJump = false
  | _ => True

/-- A statement that gives no symbol to anything and does not go on at a place. -/
def Statement.IsBare : Statement → Prop
  | .label _ | .datum _ _ => False
  | .instruction mnemonic _ => mnemonic.isJump = false
  | .blank | .raw _ | .comment _ => True

/-- A bare statement is quiet. -/
theorem Statement.IsBare.isQuiet {statement : Statement} (bare : statement.IsBare) :
    statement.IsQuiet := by
  cases statement with
  | label | datum => exact bare.elim
  | instruction | blank | raw | comment => exact bare

/-- An instruction of a common operation is straight. -/
theorem Statement.IsCommon.isStraight {statement : Statement} (common : statement.IsCommon) :
    statement.IsStraight := by
  cases statement with
  | instruction mnemonic operands => cases mnemonic <;> first | rfl | cases common
  | _ => exact common.elim

/-- A straight instruction is bare. -/
theorem Statement.IsStraight.isBare {statement : Statement} (straight : statement.IsStraight) :
    statement.IsBare := by
  cases statement with
  | instruction mnemonic operands => cases mnemonic <;> simp_all [IsStraight, IsBare,
      Mnemonic.isStraight, Mnemonic.isJump]
  | _ => exact straight.elim

/-- A straight instruction is quiet. -/
theorem Statement.IsStraight.isQuiet {statement : Statement} (straight : statement.IsStraight) :
    statement.IsQuiet :=
  straight.isBare.isQuiet

open Emission

section Questions

/-- The namespace in force is decided by the declared one. -/
theorem State.qualifier_aboutSpace : AboutSpace State.qualifier := by
  intro state other same
  simp only [State.qualifier, State.space, same]

/-- The operand that a token names is decided by the namespace. -/
theorem Operand.ofToken_aboutSpace (token : Token) : AboutSpace (Operand.ofToken token) := by
  intro state other same
  simp only [Operand.ofToken, State.qualifier_aboutSpace state other same]

/-- The sized operand that a token names is decided by the namespace. -/
theorem Operand.sizedOfToken_aboutSpace (token : Token) :
    AboutSpace (Operand.sizedOfToken token) := by
  intro state other same
  simp only [Operand.sizedOfToken, Operand.ofToken_aboutSpace token state other same]

/-- The operands of an instruction are decided by the namespace. -/
theorem Operand.pair_aboutSpace (destination source : Token) :
    AboutSpace (Operand.pair destination source) := by
  intro state other same
  simp only [Operand.pair, Operand.ofToken_aboutSpace _ state other same,
    Operand.sizedOfToken_aboutSpace _ state other same]

/-- The open function is decided by the scope. -/
theorem State.frame_aboutScope (construct : String) :
    AboutScope fun state => state.frame construct := by
  intro state other same
  have function : state.function = other.function := congrArg Scope.function same
  have qualifier := State.qualifier_aboutSpace state other (congrArg Scope.declared same)
  simp only [State.frame, function, qualifier]

/-- The symbol of a label is decided by the scope. -/
theorem State.labelSymbol_aboutScope (name : String) :
    AboutScope fun state => state.labelSymbol name := by
  intro state other same
  have function : state.function = other.function := congrArg Scope.function same
  have qualifier := State.qualifier_aboutSpace state other (congrArg Scope.declared same)
  simp only [State.labelSymbol, function, qualifier]

/-- The symbol of an edge of a block is decided by the scope. -/
theorem State.blockSymbol_aboutScope (block : Block) (edge : Edge) :
    AboutScope fun state => state.blockSymbol block edge := by
  intro state other same
  simp only [State.blockSymbol, State.frame_aboutScope "block" state other same]

end Questions

section Instructions

variable {sort : Statement → Prop}

/-- An instruction of the sort is a plain step. -/
theorem Emission.plain_instruction {mnemonic : Mnemonic} {operands : List Operand}
    (sorted : sort (.instruction mnemonic operands)) :
    (instruction mnemonic operands).Plain sort :=
  plain_write sorted

/-- A question about the namespace, and one instruction on the answer. -/
theorem Emission.plain_ask_instruction {α : Type} {question : State → Except CompileError α}
    {mnemonic : Mnemonic} {operands : α → List Operand} (about : AboutSpace question)
    (sorted : ∀ operands, sort (.instruction mnemonic operands)) :
    (ask question >>= fun answer => instruction mnemonic (operands answer)).Plain sort :=
  (plain_ask about).bind fun _ => plain_instruction (sorted _)

/-- A rejection when a condition holds, and a plain step otherwise. -/
theorem Emission.plain_reject_or {α : Type} {condition : Bool} {cause : OperandError}
    {next : PUnit → Emission α} (rest : (next ⟨⟩).Plain sort) :
    (if condition = true then reject cause >>= next else next ⟨⟩).Plain sort := by
  cases condition with
  | true => exact (plain_fail _).bind fun _ => rest
  | false => exact rest

end Instructions

/-- The operation of an arithmetic symbol is common. -/
theorem Arithmetic.isCommon_operation (symbol : String) :
    (Arithmetic.operation symbol).isCommon = true := by
  unfold Arithmetic.operation
  split <;> rfl

/-- The operation of a shift symbol is common. -/
theorem Arithmetic.isCommon_shift (symbol : String) :
    (Arithmetic.shift symbol).isCommon = true := by
  unfold Arithmetic.shift
  split <;> rfl

namespace Arithmetic

/-- Combining in place is one common instruction. -/
theorem common_inPlace (destination symbol source : Token) :
    (inPlace destination symbol source).Plain Statement.IsCommon :=
  plain_ask_instruction (Operand.pair_aboutSpace destination source) fun _ =>
    isCommon_operation symbol.value

/-- Combining with the destination on the right is made of common instructions. -/
theorem common_reversed (destination left symbol : Token) :
    (reversed destination left symbol).Plain Statement.IsCommon := by
  refine (plain_ask (Operand.pair_aboutSpace destination left)).bind fun operands => ?_
  split
  · refine (plain_ask (Operand.sizedOfToken_aboutSpace destination)).bind fun negated => ?_
    exact (plain_instruction (by rfl)).bind fun _ => plain_instruction (by rfl)
  · exact plain_instruction (isCommon_operation symbol.value)

/-- Loading and combining is made of common instructions. -/
theorem common_loaded (destination left symbol right : Token) :
    (loaded destination left symbol right).Plain Statement.IsCommon := by
  unfold loaded
  refine plain_reject_or ?_
  refine (plain_ask (Operand.pair_aboutSpace destination left)).bind fun load => ?_
  refine (plain_ask (Operand.pair_aboutSpace destination right)).bind fun operands => ?_
  exact (plain_instruction (by rfl)).bind fun _ =>
    plain_instruction (isCommon_operation symbol.value)

/-- A line of arithmetic is made of common instructions. -/
theorem common_combine (tokens : List Token) : (combine tokens).Plain Statement.IsCommon := by
  unfold combine
  split
  · exact common_inPlace _ _ _
  · split
    · exact common_inPlace _ _ _
    · split
      · exact common_reversed _ _ _
      · exact common_loaded _ _ _ _
  · exact plain_fail _

/-- A line that counts is one common instruction. -/
theorem common_count (tokens : List Token) : (count tokens).Plain Statement.IsCommon := by
  cases tokens with
  | nil => exact plain_fail _
  | cons destination rest =>
    refine plain_ask_instruction (Operand.sizedOfToken_aboutSpace destination) fun operands => ?_
    dsimp only [Statement.IsCommon]
    split <;> rfl

/-- A line that shifts is one common instruction. -/
theorem common_move (tokens : List Token) : (move tokens).Plain Statement.IsCommon := by
  unfold move
  split
  · refine plain_reject_or ?_
    exact plain_ask_instruction (Operand.sizedOfToken_aboutSpace _) fun _ =>
      isCommon_shift _
  · exact plain_fail _

end Arithmetic

namespace Transfer

/-- An assignment is one common instruction. -/
theorem common_assign (tokens : List Token) : (assign tokens).Plain Statement.IsCommon := by
  unfold assign
  split
  · exact plain_ask_instruction (Operand.pair_aboutSpace _ _) fun _ => rfl
  · exact plain_fail _

/-- A comparison is one instruction that does not jump. -/
theorem plain_compare (tokens : List Token) : (compare tokens).Plain Statement.IsBare := by
  unfold compare
  split
  · refine plain_ask_instruction (Operand.pair_aboutSpace _ _) fun _ => ?_
    dsimp only [Statement.IsBare]
    split <;> rfl
  · exact plain_fail _

/-- A push or pop is one common instruction. -/
theorem common_stack (tokens : List Token) : (stack tokens).Plain Statement.IsCommon := by
  unfold stack
  split
  · split
    · exact plain_ask_instruction (Operand.sizedOfToken_aboutSpace _) fun _ => rfl
    · refine plain_reject_or ?_
      exact plain_ask_instruction (Operand.sizedOfToken_aboutSpace _) fun _ => rfl
  · exact plain_fail _

/-- The operand of a port is found without a step. -/
theorem common_port (token : Token) : (port token).Plain Statement.IsCommon := by
  unfold port
  split
  · exact plain_pure _
  · exact plain_fail _

/-- A read or write of a port is one common instruction. -/
theorem common_ports (tokens : List Token) : (ports tokens).Plain Statement.IsCommon := by
  unfold ports
  split
  · split
    · exact (common_port _).bind fun _ => plain_instruction rfl
    · exact (common_port _).bind fun _ => plain_instruction rfl
  · exact plain_fail _

/-- A line without operands is one straight instruction. -/
theorem plain_plain (tokens : List Token) : (plain tokens).Plain Statement.IsStraight := by
  unfold plain
  split
  · exact plain_instruction rfl
  · exact plain_instruction rfl
  · exact plain_fail _

end Transfer

namespace Family

/-- The families whose lines are made of straight instructions. -/
def isStraight : Family → Bool
  | .ports | .plain | .counting | .stack | .assignments | .arithmetic | .shifts => true
  | .space | .remarks | .comparisons | .flow => false

/-- The lines of a straight family depend on the namespace only and leave the scope as it is. Unless
they are operations without operands, they are made of common instructions. -/
theorem common_emit {family : Family} (straight : family.isStraight = true)
    (other : family ≠ .plain) (tokens : List Token) :
    (family.emit tokens).Plain Statement.IsCommon := by
  cases family with
  | ports => exact Transfer.common_ports tokens
  | plain => exact absurd rfl other
  | counting => exact Arithmetic.common_count tokens
  | stack => exact Transfer.common_stack tokens
  | assignments => exact Transfer.common_assign tokens
  | arithmetic => exact Arithmetic.common_combine tokens
  | shifts => exact Arithmetic.common_move tokens
  | space | remarks | comparisons | flow => cases straight

/-- The lines of a straight family depend on the namespace only, leave the scope as it is and are
made of straight instructions. -/
theorem plain_emit {family : Family} (straight : family.isStraight = true) (tokens : List Token) :
    (family.emit tokens).Plain Statement.IsStraight := by
  by_cases bare : family = .plain
  · rw [bare]
    exact Transfer.plain_plain tokens
  · exact (common_emit straight bare tokens).mono fun _ common => common.isStraight

/-- A declaration puts a name in the place of the namespace. -/
theorem hasEffect_declare (first name : Token) (rest : List Token) :
    (declare (first :: name :: rest)).HasEffect fun scope =>
      ⟨.ok (), { scope with declared := some name.value }, []⟩ := by
  intro draft
  simp [declare, update, Effect.onto, Draft.after, Listing.addAll, State.within, State.scope]

/-- A declaration is decided by the scope. -/
theorem scoped_declare (tokens : List Token) : (declare tokens).Scoped := by
  rcases tokens with _ | ⟨first, _ | ⟨name, rest⟩⟩
  · exact scoped_fail _
  · exact scoped_fail _
  · exact ⟨_, hasEffect_declare first name rest⟩

/-- What is kept of a remark. -/
def kept (options : Options) (token : Token) : List Statement :=
  if token.kind == .literal then [.raw token.value]
  else if options.keepComments then
    [if token.value.isEmpty then .raw ";" else .comment token.value]
  else []

/-- What is kept of a remark is bare. -/
theorem kept_isBare {options : Options} {token : Token} {statement : Statement}
    (member : statement ∈ kept options token) : statement.IsBare := by
  unfold kept at member
  split at member
  · cases List.mem_singleton.mp member
    trivial
  · split at member
    · cases List.mem_singleton.mp member
      split <;> trivial
    · cases member

/-- A remark is written as far as it is kept. -/
theorem hasEffect_remark (token : Token) (rest : List Token) :
    (remark (token :: rest)).HasEffect fun scope =>
      ⟨.ok (), scope, kept scope.options token⟩ := by
  intro draft
  have options : draft.state.scope.options = draft.state.options := rfl
  unfold remark kept
  simp only [options]
  by_cases literal : token.kind == .literal
  · simp only [literal, ↓reduceIte]
    exact hasEffect_write _ draft
  · simp only [literal, Bool.false_eq_true, ↓reduceIte]
    rw [bind_ok (look_eq_ok_iff.mpr ⟨rfl, rfl⟩)]
    by_cases keep : draft.state.options.keepComments
    · simp only [keep, ↓reduceIte]
      exact hasEffect_write _ draft
    · simp only [keep, Bool.false_eq_true, ↓reduceIte]
      exact hasEffect_pure _ draft

/-- A remark is decided by the scope, which holds the options. -/
theorem scoped_remark (tokens : List Token) : (remark tokens).Scoped := by
  cases tokens with
  | nil => exact scoped_fail _
  | cons token rest => exact ⟨_, hasEffect_remark token rest⟩

/-- A remark leaves the scope and writes bare statements. -/
theorem still_remark (tokens : List Token) : (remark tokens).Still Statement.IsBare := by
  intro scope
  cases tokens with
  | nil =>
    have failed : (remark []).HasEffect _ := hasEffect_fail _
    rw [failed.effect_eq]
    exact ⟨rfl, nofun⟩
  | cons token rest =>
    rw [(hasEffect_remark token rest).effect_eq]
    exact ⟨rfl, fun _ member => kept_isBare member⟩

end Family

end LineAsm
