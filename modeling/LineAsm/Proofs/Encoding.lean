import LineAsm.Proofs.Branches
import LineAsm.Proofs.Operands
import LineAsm.Proofs.Rejection
import LineAsm.Proofs.Steps
/-!
# Every instruction can be encoded

The branch of a pattern writes instructions whose operands their operations take, and where it
fails it does not blame the tokens that the pattern has accepted (`Family.Branch.encodes`, put
together from the steps of the branches). With the branches of all patterns this holds of every line
that the standard table accepts, in whatever state it is written, and so of all that reaches a sink
(`Compiler.instructions_encodable`).
-/

namespace LineAsm

open Emission

/-- An emission that writes encodable instructions, or fails without blaming the tokens. -/
abbrev Emission.Encodes (emission : Emission Unit) : Prop :=
  emission.Yields (fun _ => True) Statement.IsEncodable CompileError.SparesShape

/-- A token of a kind that names an operand does name one. -/
theorem Token.Classified.operative {tokens : List Token} (classified : Token.Classified tokens)
    {token : Token} (member : token ∈ tokens)
    (kind : token.kind ∈ [Token.Kind.register, .integer, .identifier, .memory]) :
    token.Operative := by
  refine ⟨kind, classified token member ?_⟩
  revert kind
  cases token.kind <;> decide

/-- A token that names an operand that can be written to. -/
structure Token.Writable (token : Token) : Prop extends Token.Operative token where
  /-- The operand is no number. -/
  unlike : token.kind ≠ .integer

section Steps

variable {mnemonic : Mnemonic} {operands : List Operand} {token destination left source : Token}

/-- An instruction with operands that its operation takes. -/
theorem encodes_instruction (takes : mnemonic.Takes operands) :
    (instruction mnemonic operands).Encodes :=
  yields_write takes

/-- A statement that is no instruction. -/
theorem encodes_label (symbol : Symbol) : (label symbol).Encodes := yields_write trivial

/-- One operation on a sized operand. -/
theorem encodes_single (operative : token.Operative)
    (allowed : mnemonic = .push ∨ token.kind ≠ .integer) : (single mnemonic token).Encodes :=
  (yields_ask (Operand.meets_sizedOfToken operative)).bind fun _ ⟨names, width⟩ =>
    encodes_instruction (Operand.takes_sized names width allowed)

/-- One operation, but no shift and no push, on two operands. -/
theorem encodes_double (plain : mnemonic.isShift = false) (unpushed : mnemonic ≠ .push)
    (one : destination.Operative) (other : source.Operative) :
    (double mnemonic destination source).Encodes :=
  (yields_ask (Operand.meets_pair one other)).bind fun _ takes =>
    encodes_instruction (takes mnemonic plain unpushed)

/-- No operation of arithmetic is a shift. -/
theorem Arithmetic.isShift_operation (symbol : String) :
    (Arithmetic.operation symbol).isShift = false := by
  unfold Arithmetic.operation
  split <;> rfl

/-- No operation of arithmetic is a push. -/
theorem Arithmetic.operation_ne_push (symbol : String) :
    Arithmetic.operation symbol ≠ .push := by
  unfold Arithmetic.operation
  split <;> nofun

/-- No shift is a push. -/
theorem Arithmetic.shift_ne_push (symbol : String) : Arithmetic.shift symbol ≠ .push := by
  unfold Arithmetic.shift
  split <;> nofun

/-- A destination that is the right operand is combined with the left one. -/
theorem Arithmetic.encodes_reversed (one : destination.Writable) (other : left.Operative)
    (symbol : Token) : (reversed destination left symbol).Encodes := by
  refine (yields_ask (Operand.meets_pair one.toOperative other)).bind fun operands takes => ?_
  split
  · refine (yields_ask (Operand.meets_sizedOfToken one.toOperative)).bind
      fun negated ⟨names, width⟩ => ?_
    have allowed : Mnemonic.neg = .push ∨ destination.kind ≠ .integer := .inr one.unlike
    exact (encodes_instruction (Operand.takes_sized names width allowed)).bind fun _ _ =>
      encodes_instruction (takes .add rfl nofun)
  · exact encodes_instruction
      (takes _ (isShift_operation symbol.value) (operation_ne_push symbol.value))

/-- The left operand is loaded into a destination and combined with the right one. -/
theorem Arithmetic.encodes_loaded (one : destination.Operative) (other : left.Operative)
    (last : source.Operative) (symbol : Token) :
    (loaded destination left symbol source).Encodes := by
  unfold loaded
  refine yields_reject_or (fun _ => rfl) fun _ => ?_
  refine (yields_ask (Operand.meets_pair one other)).bind fun load first => ?_
  refine (yields_ask (Operand.meets_pair one last)).bind fun operands second => ?_
  exact (encodes_instruction (first .mov rfl nofun)).bind fun _ _ =>
    encodes_instruction
      (second _ (isShift_operation symbol.value) (operation_ne_push symbol.value))

/-- The operation of a shift symbol is a shift. -/
theorem Arithmetic.isShift_shift (symbol : String) : (Arithmetic.shift symbol).isShift = true := by
  unfold Arithmetic.shift
  split <;> rfl

/-- A shift by a number or by a register. -/
theorem Arithmetic.encodes_shift {amount : Token} (one : destination.Writable)
    (other : amount.Operative) (counted : amount.isMemory = false) (symbol : String) :
    (do
      let place ← ask (Operand.sizedOfToken destination)
      instruction (shift symbol) [place, .verbatim amount] : Emission Unit).Encodes := by
  refine (yields_ask (Operand.meets_sizedOfToken one.toOperative)).bind fun place known =>
    encodes_instruction ?_
  obtain ⟨names, width⟩ := known
  have count := Operand.names_count other counted
  have unmemory : (Operand.verbatim amount).form.isMemory = false := count.memory.trans counted
  have unpushed := shift_ne_push symbol
  have number : place.form.isImmediate ≠ true := names.ne_immediate one.unlike
  refine Mnemonic.takes_two names.genuine count.genuine (.inr unmemory)
    (fun immediate => absurd immediate number) ?_ ?_
  · -- The count does not tell the width, so the destination is on its own.
    have alone : (shift symbol).sizing [place, .verbatim amount] =
        (shift symbol).sizing [place] := by
      rw [Mnemonic.sizing, Mnemonic.sizing, isShift_shift]
      rfl
    have states : (shift symbol).StatesWidth [place, .verbatim amount] place ↔
        (shift symbol).StatesWidth [place] place := by
      rw [Mnemonic.StatesWidth, alone, Mnemonic.StatesWidth]
    rw [states, Mnemonic.statesWidth_one, width, or_iff_left number,
      or_iff_left fun push => unpushed push.1]
  · rw [Operand.dword_verbatim]
    exact iff_of_false Bool.false_ne_true (Mnemonic.not_statesWidth unpushed unmemory)

/-- The operand of a port is a register or a number, and says no width. -/
theorem Transfer.yields_port (token : Token) :
    (port token).Yields (fun place => place.form.IsGenuine ∧ place.form.isMemory = false ∧
      place.dword = false) Statement.IsEncodable CompileError.SparesShape := by
  unfold port
  split
  · rename_i place named
    exact yields_pure (Port.operand_eq_ok named)
  · rename_i cause failed
    rw [Port.operand_eq_error failed]
    exact yields_fail rfl

end Steps

/-- The operands of a construct can be encoded. -/
def Construct.Operative : Construct → Prop
  | .conditional left _ right | .looping left _ right => left.Operative ∧ right.Operative
  | .counted count => count.Operative ∧ count.isMemory = false
  | _ => True

namespace Flow

/-- The frame of a construct is known, or is missing for no fault of the tokens. -/
theorem meets_frame (construct : String) (state : State) :
    Meets (fun _ => True) CompileError.SparesShape (state.frame construct) := by
  unfold State.frame
  split
  · exact rfl
  · exact (State.meets_qualifier state).bind fun _ _ => trivial

/-- So is the symbol of a label. -/
theorem meets_labelSymbol (name : String) (state : State) :
    Meets (fun _ => True) CompileError.SparesShape (state.labelSymbol name) := by
  refine (State.meets_qualifier state).bind fun _ _ => ?_
  split <;> exact trivial

/-- So is the symbol of an edge of a block. -/
theorem meets_blockSymbol (block : Block) (place : Edge) (state : State) :
    Meets (fun _ => True) CompileError.SparesShape (state.blockSymbol block place) :=
  (meets_frame "block" state).bind fun _ _ => trivial

/-- The beginning of a function is a label. -/
theorem encodes_beginFunction (name : String) : (beginFunction name).Encodes := by
  refine (yields_look _).bind fun open_ _ => ?_
  split
  · exact yields_fail_bind rfl
  · refine (yields_ask State.meets_qualifier).bind fun space _ => ?_
    exact (yields_update _).bind fun _ _ => encodes_label _

/-- The end of a block is a label, which a loop goes back before. -/
theorem encodes_endBlock (block : Block) : (endBlock block).Encodes := by
  refine (yields_ask (meets_blockSymbol block .begin)).bind fun begin _ => ?_
  refine (yields_ask (meets_blockSymbol block .finish)).bind fun finish _ => ?_
  split
  · exact (encodes_instruction (Mnemonic.takes_target begin)).bind fun _ _ => encodes_label finish
  · exact (encodes_instruction (Mnemonic.takes_target begin)).bind fun _ _ => encodes_label finish
  all_goals exact encodes_label finish

/-- The end of a function is a label and a return. -/
theorem encodes_endFunction : endFunction.Encodes := by
  refine (yields_look _).bind fun open_ _ => ?_
  split
  · exact yields_fail rfl
  · refine (yields_update _).bind fun _ _ => ?_
    refine (yields_ask State.meets_qualifier).bind fun space _ => ?_
    refine (yields_update _).bind fun _ _ => ?_
    exact (encodes_label _).bind fun _ _ => encodes_instruction Mnemonic.takes_nil

/-- A closing brace ends the innermost block, or else the function. -/
theorem encodes_close : close.Encodes := by
  refine (yields_look _).bind fun blocks _ => ?_
  split
  · exact (yields_update _).bind fun _ _ => encodes_endBlock _
  · exact encodes_endFunction

/-- A place is named behind an opening that can be encoded. -/
theorem encodes_place (name : String) {opening : Emission Unit} (opens : opening.Encodes) :
    (place name opening).Encodes := by
  refine (yields_ask (meets_labelSymbol name)).bind fun symbol _ => ?_
  refine (yields_update _).bind fun _ _ => ?_
  exact opens.bind fun _ _ => encodes_label symbol

/-- A block is opened. -/
theorem yields_start (kind : Block.Kind) :
    (start kind).Yields (fun _ => True) Statement.IsEncodable CompileError.SparesShape := by
  refine (yields_look _).bind fun block _ => ?_
  exact (yields_update _).bind fun _ _ => yields_pure trivial

/-- The count register is loaded with a number or a register. -/
theorem takes_load {count : Token} (operative : count.Operative)
    (counted : count.isMemory = false) :
    Mnemonic.mov.Takes [.register "ECX", .verbatim count] := by
  have names := Operand.names_count operative counted
  have genuine : Token.classify "ECX" = some .register := by decide +kernel
  exact Mnemonic.takes_register nofun genuine names.genuine ⟨rfl, names.memory.trans counted⟩
    ⟨rfl, Operand.dword_verbatim count⟩ nofun

/-- Two operands are compared. -/
theorem encodes_compare {left right : Token} (one : left.Operative) (other : right.Operative) :
    (compare left right).Encodes :=
  have unpushed : Mnemonic.cmp ≠ .push := nofun
  encodes_double rfl unpushed one other

/-- The code of a construct. -/
theorem encodes_emit {construct : Construct} (operative : construct.Operative) :
    (emit construct).Encodes := by
  have inside (word : String) : (insideFunction word).Yields (fun _ => True)
      Statement.IsEncodable CompileError.SparesShape := yields_ask (meets_frame word)
  have edges (block : Block) (place : Edge) : (edge block place).Yields (fun _ => True)
      Statement.IsEncodable CompileError.SparesShape := yields_ask (meets_blockSymbol block place)
  cases construct with
  | function name => exact encodes_beginFunction name
  | finish => exact encodes_close
  | group =>
    refine (inside _).bind fun _ _ => ?_
    exact (yields_start .plain).bind fun _ _ => yields_pure trivial
  | exit =>
    exact (inside _).bind fun frame _ => encodes_instruction (Mnemonic.takes_target _)
  | leave =>
    refine (yields_look _).bind fun blocks _ => ?_
    split
    · exact yields_fail rfl
    · exact (edges _ _).bind fun finish _ => encodes_instruction (Mnemonic.takes_target finish)
  | conditional left condition right =>
    refine (inside _).bind fun _ _ => ?_
    refine (encodes_compare operative.1 operative.2).bind fun _ _ => ?_
    refine (yields_start .conditional).bind fun block _ => ?_
    exact (edges block .finish).bind fun finish _ =>
      encodes_instruction (Mnemonic.takes_target finish)
  | looping left condition right =>
    refine (inside _).bind fun _ _ => ?_
    refine (yields_start .looping).bind fun block _ => ?_
    refine (edges block .begin).bind fun begin _ => ?_
    refine (edges block .finish).bind fun finish _ => ?_
    refine (encodes_label begin).bind fun _ _ => ?_
    exact (encodes_compare operative.1 operative.2).bind fun _ _ =>
      encodes_instruction (Mnemonic.takes_target finish)
  | counted count =>
    refine (inside _).bind fun _ _ => ?_
    refine (yields_start .counted).bind fun block _ => ?_
    refine (edges block .begin).bind fun begin _ => ?_
    have load := encodes_instruction (takes_load operative.1 operative.2)
    split
    · exact encodes_label begin
    · exact load.bind fun _ _ => encodes_label begin
  | labelled name =>
    refine (inside _).bind fun _ _ => ?_
    exact encodes_place name ((yields_start .labelled).bind fun _ _ => yields_pure trivial)
  | label name => exact encodes_place name (yields_pure trivial)
  | jump name =>
    exact (yields_ask (meets_labelSymbol name)).bind fun symbol _ =>
      encodes_instruction (Mnemonic.takes_target symbol)
  | call name =>
    exact (yields_ask State.meets_qualifier).bind fun space _ =>
      encodes_instruction (Mnemonic.takes_target _)
  | declare name value =>
    exact (yields_ask State.meets_qualifier).bind fun space _ => yields_write trivial

end Flow

namespace Family

open Pattern (operand destination)
open Pattern.Element (kind_of_kind kind_mem_of_kinds)

section Tokens

variable {tokens before : List Token} {token : Token}

/-- A token that is accepted as an operand names one. -/
theorem operative_of_operand (classified : Token.Classified tokens) (member : token ∈ tokens)
    (accepted : operand.accepts before token = true) : token.Operative :=
  classified.operative member (kind_mem_of_kinds accepted)

/-- A token that is accepted as a destination names an operand that can be written to. -/
theorem writable_of_destination (classified : Token.Classified tokens) (member : token ∈ tokens)
    (accepted : destination.accepts before token = true) : token.Writable := by
  have kinds := kind_mem_of_kinds accepted
  have apart : token.kind ∈ [Token.Kind.register, .integer, .identifier, .memory] ∧
      token.kind ≠ .integer := by
    revert kinds
    cases token.kind <;> decide
  exact ⟨classified.operative member apart.1, apart.2⟩

/-- A number or a register is counted with. -/
theorem counted_of_kinds (classified : Token.Classified tokens) (member : token ∈ tokens)
    (accepted : (Pattern.Element.kinds [.integer, .register]).accepts before token = true) :
    token.Operative ∧ token.isMemory = false := by
  have kinds := kind_mem_of_kinds accepted
  have apart : token.kind ∈ [Token.Kind.register, .integer, .identifier, .memory] ∧
      token.isMemory = false := by
    revert kinds
    unfold Token.isMemory
    cases token.kind <;> decide
  exact ⟨classified.operative member apart.1, apart.2⟩

/-- A register is written to a port, or a port is read into a register. -/
theorem register_of_kind (classified : Token.Classified tokens) (member : token ∈ tokens)
    (accepted : (Pattern.Element.kind .register).accepts before token = true) :
    (Operand.verbatim token).form.IsGenuine ∧ (Operand.verbatim token).form.isMemory = false ∧
      (Operand.verbatim token).form.isImmediate = false := by
  have kind := kind_of_kind accepted
  have operative := classified.operative member (by rw [kind]; decide)
  have counted : token.isMemory = false := by rw [Token.isMemory, kind]; rfl
  have names := Operand.names_count operative counted
  exact ⟨names.genuine, names.memory.trans counted, names.immediate.trans (by rw [kind]; rfl)⟩

end Tokens

/-- The operands of a construct are those that its pattern has accepted. -/
theorem operative_of_reads {pattern : Pattern} {tokens : List Token} {construct : Construct}
    (reads : Construct.Reads pattern tokens construct) (fits : Pattern.Fits [] pattern tokens)
    (classified : Token.Classified tokens) : construct.Operative := by
  cases reads with
  | conditional | looping =>
    obtain _ | ⟨word, _ | ⟨left, _ | ⟨symbol, _ | ⟨right, brace⟩⟩⟩⟩ := fits
    exact ⟨operative_of_operand classified (by simp) left,
      operative_of_operand classified (by simp) right⟩
  | counted =>
    obtain _ | ⟨word, _ | ⟨count, times⟩⟩ := fits
    exact counted_of_kinds classified (by simp) count
  | _ => trivial

/-- The branch of a pattern writes instructions that can be encoded, or fails without blaming the
tokens that the pattern has accepted. -/
theorem Branch.encodes {family : Family} {pattern : Pattern} {tokens : List Token}
    {code : Emission Unit} (branch : Branch family pattern tokens code)
    (fits : Pattern.Fits [] pattern tokens) (classified : Token.Classified tokens) :
    code.Encodes := by
  cases branch with
  | declare word name => exact yields_update _
  | comment remark =>
    refine (yields_look _).bind fun options _ => ?_
    split
    · split <;> exact yields_write trivial
    · exact yields_pure trivial
  | literal remark => exact yields_write trivial
  | output word port equals register =>
    obtain _ | ⟨_, _ | ⟨_, _ | ⟨_, _ | ⟨source, _⟩⟩⟩⟩ := fits
    obtain ⟨genuine, unmemory, -⟩ := register_of_kind classified (by simp) source
    refine (Transfer.yields_port port).bind fun place ⟨known, other, silent⟩ => ?_
    refine encodes_instruction (Mnemonic.takes_register nofun known genuine ⟨other, unmemory⟩
      ⟨silent, Operand.dword_verbatim _⟩ ?_)
    exact fun _ => .inr rfl
  | input register equals word port =>
    obtain _ | ⟨target, _⟩ := fits
    obtain ⟨genuine, unmemory, number⟩ := register_of_kind classified (by simp) target
    refine (Transfer.yields_port port).bind fun place ⟨known, other, silent⟩ => ?_
    refine encodes_instruction (Mnemonic.takes_register nofun genuine known ⟨unmemory, other⟩
      ⟨Operand.dword_verbatim _, silent⟩ ?_)
    intro immediate
    rw [number] at immediate
    cases immediate
  | save | restore | operation => exact encodes_instruction Mnemonic.takes_nil
  | up | down | plusOne | minusOne =>
    obtain _ | ⟨target, _⟩ := fits
    have writable := writable_of_destination classified (by simp) target
    exact encodes_single writable.toOperative (.inr writable.unlike)
  | push sign token =>
    obtain _ | ⟨_, _ | ⟨pushed, _⟩⟩ := fits
    exact encodes_single (operative_of_operand classified (by simp) pushed) (.inl rfl)
  | pop sign token =>
    obtain _ | ⟨_, _ | ⟨popped, _⟩⟩ := fits
    have operative := operative_of_operand classified (by simp) popped
    refine yields_reject_or (fun _ => rfl) fun other => ?_
    exact encodes_single operative (.inr (ne_of_beq_false other))
  | assign target equals source =>
    obtain _ | ⟨written, _ | ⟨_, _ | ⟨read, _⟩⟩⟩ := fits
    exact encodes_double rfl nofun
      (writable_of_destination classified (by simp) written).toOperative
      (operative_of_operand classified (by simp) read)
  | compare left symbol right =>
    obtain _ | ⟨first, _ | ⟨_, _ | ⟨second, _⟩⟩⟩ := fits
    refine encodes_double ?_ ?_ (operative_of_operand classified (by simp) first)
      (operative_of_operand classified (by simp) second)
    · split <;> rfl
    · split <;> nofun
  | inPlace target symbol source =>
    obtain _ | ⟨written, _ | ⟨_, _ | ⟨read, _⟩⟩⟩ := fits
    exact encodes_double (Arithmetic.isShift_operation symbol.value)
      (Arithmetic.operation_ne_push symbol.value)
      (writable_of_destination classified (by simp) written).toOperative
      (operative_of_operand classified (by simp) read)
  | combine target equals left symbol right =>
    obtain _ | ⟨written, _ | ⟨_, _ | ⟨first, _ | ⟨_, _ | ⟨second, _⟩⟩⟩⟩⟩ := fits
    have writable := writable_of_destination classified (by simp) written
    have one := operative_of_operand classified (by simp) first
    have other := operative_of_operand classified (by simp) second
    split
    · exact encodes_double (Arithmetic.isShift_operation symbol.value)
        (Arithmetic.operation_ne_push symbol.value) writable.toOperative other
    · split
      · exact Arithmetic.encodes_reversed writable one symbol
      · exact Arithmetic.encodes_loaded writable.toOperative one other symbol
  | shift target symbol amount =>
    obtain _ | ⟨written, _ | ⟨_, _ | ⟨count, _⟩⟩⟩ := fits
    have writable := writable_of_destination classified (by simp) written
    obtain ⟨operative, counted⟩ := counted_of_kinds classified (by simp) count
    exact yields_reject_or (fun _ => rfl) fun _ =>
      Arithmetic.encodes_shift writable operative counted symbol.value
  | flow reads => exact Flow.encodes_emit (operative_of_reads reads fits classified)

/-- A line that is dispatched is written in instructions that can be encoded, or fails without
blaming its tokens. -/
theorem encodes_of_parse {text : String} {dispatch : Dispatch Family}
    (parsed : Table.parse standard text = .ok dispatch) :
    (dispatch.owner.emit dispatch.tokens).Encodes := by
  obtain ⟨classified, pattern, -, matched, branch⟩ := branch_of_parse parsed
  exact branch.encodes (Pattern.fits_of_matchesLine matched) classified

end Family

namespace Compiler

/-- A cause that blames the tokens of a line only where the table refuses the line with it. -/
def RefusesWith (text : String) (cause : CompileError) : Prop :=
  cause.blamesShape = true →
    ∃ reason, cause = .dialect reason ∧ Table.parse Family.standard text = .error reason

/-- A line writes instructions that can be encoded. If it fails and the cause blames its tokens, it
has not been dispatched. -/
theorem encodes_line (text : String) :
    (line Family.standard text).Yields (fun _ => True) Statement.IsEncodable
      (RefusesWith text) := by
  have indented : (indentAs text).Yields (fun _ => True) Statement.IsEncodable
      (RefusesWith text) := by
    refine ⟨fun passed => ?_, fun failed => by cases failed⟩
    cases passed
    exact ⟨trivial, .of_lines_eq rfl⟩
  unfold line
  split
  · exact (yields_write trivial).bind fun _ _ => yields_pure trivial
  · split
    · exact yields_pure trivial
    · refine indented.bind fun _ _ => ?_
      split
      · rename_i reason refused
        exact yields_fail fun _ => ⟨reason, rfl, refused⟩
      · rename_i dispatch parsed
        have repeated : (echo text dispatch.tokens).Encodes := by
          refine (yields_look _).bind fun options _ => ?_
          split
          · exact yields_write trivial
          · exact yields_pure trivial
        have ended : (pure Progress.next : Emission Progress).Yields (fun _ => True)
            Statement.IsEncodable CompileError.SparesShape := yields_pure trivial
        have whole := repeated.bind fun _ _ =>
          (Family.encodes_of_parse parsed).bind fun _ _ => ended
        -- The code of a dispatched line spares its tokens, so nothing is left to refuse.
        refine whole.weaken fun cause spares blames => ?_
        rw [spares] at blames
        cases blames

/-- A line that succeeds has written instructions that can be encoded. -/
theorem encodable_effectOf (compiler : Compiler Family) (raw : String) (progress : Progress)
    (answered : (compiler.effectOf raw).answer = .ok progress) :
    ∀ statement ∈ (compiler.effectOf raw).written, statement.IsEncodable := by
  have accepted := (Reading.line_eq (textOf raw) compiler.toDraft).trans
    (Effect.onto_eq_ok_iff.mpr ⟨answered, rfl⟩)
  obtain ⟨-, extended⟩ := (encodes_line (textOf raw)).of_ok accepted
  exact extended.of_after (Draft.lines_indentedBy compiler.toDraft (textOf raw))

/-- What a source adds to a list are instructions that can be encoded. -/
theorem encodable_of_run {compiler : Compiler Family} (ready : compiler.Ready)
    (lines : List Listing.Line) (source : List Read) :
    ∀ line ∈ (compiler.run lines source).sink, line ∈ lines ∨ line.statement.IsEncodable := by
  have kept (compiler : Compiler Family) (lines : List Listing.Line) (read : Read) :
      compiler.Ready → True → True := fun _ _ => trivial
  exact sorted_of_run kept (fun compiler _ _ => encodable_effectOf compiler) ready trivial lines
    source

/-- In whatever state it is written, a line that the standard table accepts adds instructions to the
listing whose operands can be encoded: at most one of them is memory, the first is a number only
where it is pushed or names a port, and the width is written in front of memory that no register
gives one, and in front of numbers that are pushed, but of no other operand. So are all instructions
that reach the sink in any call of a compiler. -/
theorem instructions_encodable :
    (∀ text draft progress after,
      line Family.standard text draft = .ok progress after →
        ∃ added, after.listing.lines = draft.listing.lines ++ added ∧
          ∀ line ∈ added, ∀ mnemonic operands,
            line.statement = .instruction mnemonic operands → mnemonic.Takes operands) ∧
    ∀ compiler : Compiler Family, compiler.Reachable → ∀ source,
      ∀ line ∈ (compiler.compile ([] : List Listing.Line) source).sink, ∀ mnemonic operands,
        line.statement = .instruction mnemonic operands → mnemonic.Takes operands := by
  have takes : ∀ statement : Statement, statement.IsEncodable → ∀ mnemonic operands,
      statement = .instruction mnemonic operands → mnemonic.Takes operands := by
    rintro statement encodable mnemonic operands rfl
    exact encodable
  constructor
  · intro text draft progress after accepted
    obtain ⟨-, added, same, sorted⟩ := (encodes_line text).of_ok accepted
    exact ⟨added, same, fun line member => takes line.statement (sorted line member)⟩
  · intro compiler reachable source line member
    have written := encodable_of_run reachable.ready.restart [] source line member
    exact takes line.statement (written.resolve_left List.not_mem_nil)

/-- A shift of memory by the count register, and a difference that is made in a variable. -/
theorem instructions_encodable_memory :
    let draft : Draft := ⟨{ declared := some "K" }, {}⟩
    let compiler := ((new {} Family.standard).compile "" [.ok "namespace K"]).compiler
    let shifted : List Operand := [⟨.memory "[EBX]", true⟩, .register "CL"]
    let negated : List Operand := [⟨.variable (.member "K" "x"), true⟩]
    (∃ progress after, line Family.standard "[EBX] << CL" draft = .ok progress after ∧
      ⟨"", .instruction .shl shifted⟩ ∈ after.listing.lines ∧ Mnemonic.shl.Takes shifted) ∧
    (Statement.instruction .shl shifted).text = "shl dword [EBX], CL" ∧
    compiler.Reachable ∧
    ⟨"", .instruction .neg negated⟩ ∈
      (compiler.compile ([] : List Listing.Line) [.ok "x = 7 - x"]).sink ∧
    Mnemonic.neg.Takes negated ∧
    (Statement.instruction .neg negated).text = "neg dword [K_x]" := by
  intro draft compiler shifted negated
  have reachable : compiler.Reachable := ⟨{}, .call .refl "" _⟩
  have written : ⟨"", .instruction .neg negated⟩ ∈
      (compiler.compile ([] : List Listing.Line) [.ok "x = 7 - x"]).sink := by decide +kernel
  have accepted : (match line Family.standard "[EBX] << CL" draft with
      | .ok _ after => decide (⟨"", .instruction .shl shifted⟩ ∈ after.listing.lines)
      | .error _ _ => false) = true := by decide +kernel
  refine ⟨?_, by decide, reachable, written,
    instructions_encodable.2 compiler reachable _ _ written _ _ rfl, by decide⟩
  cases outcome : line Family.standard "[EBX] << CL" draft with
  | error cause after =>
    rw [outcome] at accepted
    cases accepted
  | ok progress after =>
    rw [outcome] at accepted
    have member := of_decide_eq_true accepted
    obtain ⟨added, same, takes⟩ := instructions_encodable.1 _ draft progress after outcome
    have whole : after.listing.lines = added := same
    exact ⟨progress, after, rfl, member, takes _ (whole ▸ member) _ _ rfl⟩

end Compiler

end LineAsm
