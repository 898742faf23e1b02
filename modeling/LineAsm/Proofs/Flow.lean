import LineAsm.Dialect.Flow
import LineAsm.Proofs.Families
/-!
# Effects of control flow

What a line of control flow does is said once, by a function from the scope it is found in to its
effect (`Flow.effect`, `Flow.hasEffect_emit`). For the constructs that are written, a relation has
one rule each: in which scope it can be written, which scope it leaves, and which statements it
writes (`Flow.Writes`, `Flow.writes_of_effect`). A construct that fails leaves the scope as it
was, with one exception: the opening of a loop has opened its block before it finds out that its
operands cannot be compared (`Flow.scope_of_effect_error`).
-/

namespace LineAsm

/-- What opens a block of a construct, if the construct opens one. -/
def Construct.opens? : Construct → Option Block.Kind
  | .group => some .plain
  | .conditional .. => some .conditional
  | .looping .. => some .looping
  | .counted _ => some .counted
  | .labelled _ => some .labelled
  | _ => none

/-- The operands of an instruction under a declared namespace. -/
def Operand.pairUnder (declared : Option String) (destination source : Token) :
    Except CompileError (List Operand) :=
  Operand.pair destination source { declared }

/-- The operands of an instruction are those under the namespace of the state. -/
theorem Operand.pair_eq_pairUnder (destination source : Token) (state : State) :
    Operand.pair destination source state = Operand.pairUnder state.declared destination source :=
  Operand.pair_aboutSpace destination source state _ rfl

/-- Two operands that are compared are a list of two. -/
theorem Operand.pairUnder_eq_ok {declared : Option String} {left right : Token}
    {operands : List Operand} (compared : Operand.pairUnder declared left right = .ok operands) :
    ∃ first second, operands = [first, second] := by
  have both : ∀ front back : Except CompileError Operand,
      (do return [← front, ← back]) = Except.ok operands →
        ∃ first second, operands = [first, second] := by
    intro front back found
    rcases front with cause | first
    · cases found
    · rcases back with cause | second
      · cases found
      · cases found
        exact ⟨first, second, rfl⟩
  unfold pairUnder pair at compared
  split at compared
  · cases compared
  · split at compared
    · cases compared
    · dsimp only at compared
      split at compared
      · exact both _ _ compared
      · exact both _ _ compared

namespace Flow

open Emission

/-- The statements that end a block. -/
def blockEnd (frame : Frame) (block : Block) : List Statement :=
  (match block.kind with
    | .looping => [.instruction .jmp [.target (.block frame block.id .begin)]]
    | .counted => [.instruction .loop [.target (.block frame block.id .begin)]]
    | .plain | .conditional | .labelled => []) ++ [.label (.block frame block.id .finish)]

/-- The statement that loads the count of a counted block, unless the count register is named. -/
def countLoad (count : Token) : List Statement :=
  if Text.sameLetters count.value "ECX" then []
  else [.instruction .mov [.register "ECX", .verbatim count]]

/-- The value that a variable is declared with. -/
def datumOf (value : Option Token) : Datum :=
  match value with
  | none => .zero
  | some token => if token.kind == .text then .text token.value else .number token.value

/-- What a construct does to a scope, and the statements that it writes. -/
inductive Writes : Construct → Scope → Scope → List Statement → Prop where
  /-- A function begins where none is open. -/
  | function {scope : Scope} {name space : String} (closed : scope.function = none)
      (found : scope.space? = some space) :
      Writes (.function name) scope
        { scope with function := some name, label := none, blocks := .empty }
        [.label (.entry ⟨space, name⟩)]
  /-- The innermost block ends. -/
  | finishBlock {scope : Scope} {frame : Frame} {block : Block} {outer : List Block}
      (innermost : scope.blocks.blocks = block :: outer) (framed : scope.frame? = some frame) :
      Writes .finish scope { scope with blocks := { scope.blocks with blocks := outer } }
        (blockEnd frame block)
  /-- The function ends where no block is open. -/
  | finishFunction {scope : Scope} {frame : Frame} (bare : scope.blocks.blocks = [])
      (framed : scope.frame? = some frame) :
      Writes .finish scope { scope with function := none, label := none }
        [.label (.exit frame), .instruction .ret []]
  /-- A block begins that only groups lines. -/
  | group {scope : Scope} {frame : Frame} (framed : scope.frame? = some frame) :
      Writes .group scope { scope with blocks := scope.blocks.start .plain } []
  /-- The function returns. -/
  | exit {scope : Scope} {frame : Frame} (framed : scope.frame? = some frame) :
      Writes .exit scope scope [.instruction .jmp [.target (.exit frame)]]
  /-- The innermost block is left. -/
  | leave {scope : Scope} {frame : Frame} {block : Block} (framed : scope.frame? = some frame)
      (innermost : scope.blocks.current = some block) :
      Writes .leave scope scope [.instruction .jmp [.target (.block frame block.id .finish)]]
  /-- A block begins that runs when a condition holds. -/
  | conditional {scope : Scope} {frame : Frame} {left right : Token} {condition : Condition}
      {operands : List Operand} (framed : scope.frame? = some frame)
      (compared : Operand.pairUnder scope.declared left right = .ok operands) :
      Writes (.conditional left condition right) scope
        { scope with blocks := scope.blocks.start .conditional }
        [.instruction .cmp operands,
          .instruction (.jumpIf condition.negate)
            [.target (.block frame (scope.blocks.counter + 1) .finish)]]
  /-- A block begins that runs while a condition holds. -/
  | looping {scope : Scope} {frame : Frame} {left right : Token} {condition : Condition}
      {operands : List Operand} (framed : scope.frame? = some frame)
      (compared : Operand.pairUnder scope.declared left right = .ok operands) :
      Writes (.looping left condition right) scope
        { scope with blocks := scope.blocks.start .looping }
        [.label (.block frame (scope.blocks.counter + 1) .begin), .instruction .cmp operands,
          .instruction (.jumpIf condition.negate)
            [.target (.block frame (scope.blocks.counter + 1) .finish)]]
  /-- A block begins that runs a counted number of times. -/
  | counted {scope : Scope} {frame : Frame} {count : Token} (framed : scope.frame? = some frame) :
      Writes (.counted count) scope { scope with blocks := scope.blocks.start .counted }
        (countLoad count ++ [.label (.block frame (scope.blocks.counter + 1) .begin)])
  /-- A block begins that has a name. -/
  | labelled {scope : Scope} {frame : Frame} {name : String} (framed : scope.frame? = some frame) :
      Writes (.labelled name) scope
        { scope with label := some name, blocks := scope.blocks.start .labelled }
        [.label (.inner frame name)]
  /-- A place is named. -/
  | label {scope : Scope} {name : String} {symbol : Symbol}
      (named : scope.labelSymbol? name = some symbol) :
      Writes (.label name) scope { scope with label := some name } [.label symbol]
  /-- Execution goes on at a label. -/
  | jump {scope : Scope} {name : String} {symbol : Symbol}
      (named : scope.labelSymbol? name = some symbol) :
      Writes (.jump name) scope scope [.instruction .jmp [.target symbol]]
  /-- A function is called. -/
  | call {scope : Scope} {name space : String} (found : scope.space? = some space) :
      Writes (.call name) scope scope [.instruction .call [.target (.entry ⟨space, name⟩)]]
  /-- A variable is declared. -/
  | declare {scope : Scope} {name space : String} {value : Option Token}
      (found : scope.space? = some space) :
      Writes (.declare name value) scope scope [.datum (.member space name) (datumOf value)]

/-- What a construct does to a scope, whether it succeeds or fails. -/
def effect (construct : Construct) (scope : Scope) : Effect Unit :=
  match construct with
  | .function name =>
    match scope.function with
    | some function => ⟨.error (.emission (.nestedFunction function)), scope, []⟩
    | none =>
      .given scope.state.qualifier scope [] fun space =>
        ⟨.ok (), { scope with function := some name, label := none, blocks := .empty },
          [.label (.entry ⟨space, name⟩)]⟩
  | .finish =>
    match scope.blocks.blocks, scope.function with
    | block :: outer, _ =>
      let ended := { scope with blocks := { scope.blocks with blocks := outer } }
      .given (scope.state.frame "block") ended [] fun frame =>
        ⟨.ok (), ended, blockEnd frame block⟩
    | [], some function =>
      .given scope.state.qualifier { scope with function := none } [] fun space =>
        ⟨.ok (), { scope with function := none, label := none },
          [.label (.exit ⟨space, function⟩), .instruction .ret []]⟩
    | [], none => ⟨.error (.structural .underflow), scope, []⟩
  | .group =>
    .given (scope.state.frame "\x7b") scope [] fun _ =>
      ⟨.ok (), { scope with blocks := scope.blocks.start .plain }, []⟩
  | .exit =>
    .given (scope.state.frame "return") scope [] fun frame =>
      ⟨.ok (), scope, [.instruction .jmp [.target (.exit frame)]]⟩
  | .leave =>
    match scope.blocks.current with
    | none => ⟨.error (.emission (.noOpenBlock "break")), scope, []⟩
    | some block =>
      .given (scope.state.frame "block") scope [] fun frame =>
        ⟨.ok (), scope, [.instruction .jmp [.target (.block frame block.id .finish)]]⟩
  | .conditional left condition right =>
    .given (scope.state.frame "if") scope [] fun frame =>
      .given (Operand.pairUnder scope.declared left right) scope [] fun operands =>
        ⟨.ok (), { scope with blocks := scope.blocks.start .conditional },
          [.instruction .cmp operands,
            .instruction (.jumpIf condition.negate)
              [.target (.block frame (scope.blocks.counter + 1) .finish)]]⟩
  | .looping left condition right =>
    .given (scope.state.frame "while") scope [] fun frame =>
      let started := { scope with blocks := scope.blocks.start .looping }
      let begin := .label (.block frame (scope.blocks.counter + 1) .begin)
      .given (Operand.pairUnder scope.declared left right) started [begin] fun operands =>
        ⟨.ok (), started, [begin, .instruction .cmp operands,
          .instruction (.jumpIf condition.negate)
            [.target (.block frame (scope.blocks.counter + 1) .finish)]]⟩
  | .counted count =>
    .given (scope.state.frame "repeat") scope [] fun frame =>
      ⟨.ok (), { scope with blocks := scope.blocks.start .counted },
        countLoad count ++ [.label (.block frame (scope.blocks.counter + 1) .begin)]⟩
  | .labelled name =>
    .given (scope.state.frame "label block") scope [] fun frame =>
      ⟨.ok (), { scope with label := some name, blocks := scope.blocks.start .labelled },
        [.label (.inner frame name)]⟩
  | .label name =>
    .given (scope.state.labelSymbol name) scope [] fun symbol =>
      ⟨.ok (), { scope with label := some name }, [.label symbol]⟩
  | .jump name =>
    .given (scope.state.labelSymbol name) scope [] fun symbol =>
      ⟨.ok (), scope, [.instruction .jmp [.target symbol]]⟩
  | .call name =>
    .given scope.state.qualifier scope [] fun space =>
      ⟨.ok (), scope, [.instruction .call [.target (.entry ⟨space, name⟩)]]⟩
  | .declare name value =>
    .given scope.state.qualifier scope [] fun space =>
      ⟨.ok (), scope, [.datum (.member space name) (datumOf value)]⟩

section Steps

/-- The open function of the scope is asked for. -/
theorem hasEffect_insideFunction (construct : String) :
    (insideFunction construct).HasEffect fun scope =>
      ⟨scope.state.frame construct, scope, []⟩ :=
  hasEffect_ask (State.frame_aboutScope construct)

/-- The namespace of the scope is asked for. -/
theorem hasEffect_qualifier :
    (ask State.qualifier).HasEffect fun scope => ⟨scope.state.qualifier, scope, []⟩ :=
  hasEffect_ask State.qualifier_aboutSpace.aboutScope

/-- The symbol of a label is asked for. -/
theorem hasEffect_labelSymbol (name : String) :
    (ask fun state => state.labelSymbol name).HasEffect fun scope =>
      ⟨scope.state.labelSymbol name, scope, []⟩ :=
  hasEffect_ask (State.labelSymbol_aboutScope name)

/-- The symbol of an edge of a block is made from the open function. -/
theorem hasEffect_edge (block : Block) (place : Edge) :
    (edge block place).HasEffect fun scope =>
      .given (scope.state.frame "block") scope [] fun frame =>
        ⟨.ok (.block frame block.id place), scope, []⟩ := by
  refine (hasEffect_ask (State.blockSymbol_aboutScope block place)).congr fun scope => ?_
  rw [State.blockSymbol]
  cases scope.state.frame "block" with
  | ok frame => rfl
  | error cause => rfl

/-- Opening a block gives the next number to it. -/
theorem hasEffect_start (kind : Block.Kind) :
    (start kind).HasEffect fun scope =>
      ⟨.ok (scope.blocks.next kind), { scope with blocks := scope.blocks.start kind }, []⟩ := by
  have seen : (look fun state => state.blocks.next kind).HasEffect fun scope =>
      ⟨.ok (scope.blocks.next kind), scope, []⟩ :=
    hasEffect_look fun state other same =>
      congrArg (OpenBlocks.next · kind) (congrArg Scope.blocks same)
  have started : (update fun state =>
      { state with blocks := state.blocks.start kind }).HasEffect fun scope =>
        ⟨.ok (), { scope with blocks := scope.blocks.start kind }, []⟩ :=
    hasEffect_update fun _ => rfl
  exact seen.bind fun block => started.bind fun _ => hasEffect_pure block

/-- A comparison is one instruction on its operands. -/
theorem hasEffect_compare (left right : Token) :
    (compare left right).HasEffect fun scope =>
      .given (Operand.pairUnder scope.declared left right) scope [] fun operands =>
        ⟨.ok (), scope, [.instruction .cmp operands]⟩ := by
  refine ((hasEffect_ask (Operand.pair_aboutSpace left right).aboutScope).bind fun operands =>
    hasEffect_write (.instruction .cmp operands)).congr fun scope => ?_
  rw [Operand.pair_eq_pairUnder]
  change Effect.bind ⟨Operand.pairUnder scope.declared left right, scope, []⟩ _ = _
  cases Operand.pairUnder scope.declared left right with
  | ok operands => rfl
  | error cause => rfl

end Steps

/-- The open function is found in a state of the scope as the frame of the scope. -/
theorem frame_state_eq_ok_iff {scope : Scope} {construct : String} {frame : Frame} :
    State.frame scope.state construct = .ok frame ↔ scope.frame? = some frame :=
  State.frame_eq_ok_iff

/-- The frame is found whatever the label and the blocks are. -/
theorem frame_within {scope : Scope} {construct : String} {frame : Frame}
    (framed : State.frame scope.state construct = .ok frame) (other : String)
    (label : Option String) (blocks : OpenBlocks) :
    State.frame (Scope.state ⟨scope.declared, scope.function, label, blocks, scope.options⟩) other =
      .ok frame := by
  have found : scope.frame? = some frame := frame_state_eq_ok_iff.mp framed
  exact frame_state_eq_ok_iff.mpr found

/-- The beginning of a function has its effect. -/
theorem hasEffect_beginFunction (name : String) :
    (beginFunction name).HasEffect (effect (.function name)) := by
  refine hasEffect_look_bind fun draft => ?_
  have function : draft.state.scope.function = draft.state.function := rfl
  dsimp only [effect]
  rw [function]
  cases draft.state.function with
  | some other => exact hasEffect_fail_bind _ _ draft
  | none =>
    have entered : (update fun state => { state with
        function := some name, label := none, blocks := .empty }).HasEffect fun scope =>
          ⟨.ok (), { scope with function := some name, label := none, blocks := .empty }, []⟩ :=
      hasEffect_update fun _ => rfl
    have steps := hasEffect_qualifier.bind fun space => entered.bind fun _ =>
      hasEffect_write (.label (.entry ⟨space, name⟩))
    refine (steps draft).trans ?_
    dsimp only
    cases draft.state.scope.state.qualifier with
    | error cause => rfl
    | ok space => rfl

/-- What is written once the edges of a block are known. -/
theorem hasEffect_edges {block : Block} {rest : Symbol → Symbol → Emission Unit}
    {code : Symbol → Symbol → List Statement}
    (written : ∀ begin finish, (rest begin finish).HasEffect fun scope =>
      ⟨.ok (), scope, code begin finish⟩) :
    (do
      let begin ← edge block .begin
      let finish ← edge block .finish
      rest begin finish : Emission Unit).HasEffect fun scope =>
        .given (scope.state.frame "block") scope [] fun frame =>
          ⟨.ok (), scope, code (.block frame block.id .begin) (.block frame block.id .finish)⟩ := by
  have steps := (hasEffect_edge block .begin).bind fun begin =>
    (hasEffect_edge block .finish).bind fun finish => written begin finish
  refine steps.congr fun scope => ?_
  cases framed : scope.state.frame "block" with
  | error cause => rfl
  | ok frame =>
    simp only [Effect.bind, Effect.given, framed]
    rfl

/-- The end of a block has its effect. -/
theorem hasEffect_endBlock (block : Block) :
    (endBlock block).HasEffect fun scope =>
      .given (scope.state.frame "block") scope [] fun frame =>
        ⟨.ok (), scope, blockEnd frame block⟩ := by
  have back : ∀ (mnemonic : Mnemonic) (begin finish : Symbol), (do
      instruction mnemonic [.target begin]
      label finish : Emission Unit).HasEffect fun scope =>
        ⟨.ok (), scope, [.instruction mnemonic [.target begin], .label finish]⟩ :=
    fun mnemonic begin finish => (hasEffect_write _).bind fun _ => hasEffect_write _
  obtain ⟨kind, id⟩ := block
  cases kind with
  | looping => exact hasEffect_edges (back .jmp)
  | counted => exact hasEffect_edges (back .loop)
  | plain | conditional | labelled =>
    exact hasEffect_edges fun begin finish => hasEffect_write (.label finish)

/-- The end of a function has its effect. -/
theorem hasEffect_endFunction :
    endFunction.HasEffect fun scope =>
      match scope.function with
      | some function =>
        .given scope.state.qualifier { scope with function := none } [] fun space =>
          ⟨.ok (), { scope with function := none, label := none },
            [.label (.exit ⟨space, function⟩), .instruction .ret []]⟩
      | none => ⟨.error (.structural .underflow), scope, []⟩ := by
  refine hasEffect_look_bind fun draft => ?_
  have function : draft.state.scope.function = draft.state.function := rfl
  rw [function]
  cases draft.state.function with
  | none => exact hasEffect_fail _ draft
  | some name =>
    have closed : (update fun state => { state with function := none }).HasEffect fun scope =>
        ⟨.ok (), { scope with function := none }, []⟩ := hasEffect_update fun _ => rfl
    have cleared : (update fun state => { state with label := none }).HasEffect fun scope =>
        ⟨.ok (), { scope with label := none }, []⟩ := hasEffect_update fun _ => rfl
    have steps := closed.bind fun _ => hasEffect_qualifier.bind fun space => cleared.bind fun _ =>
      (hasEffect_write (.label (.exit ⟨space, name⟩))).bind fun _ =>
        hasEffect_write (.instruction .ret [])
    refine (steps draft).trans ?_
    have same : State.qualifier (Scope.state { draft.state.scope with function := none }) =
      draft.state.scope.state.qualifier := rfl
    dsimp only [Effect.bind]
    rw [same]
    cases draft.state.scope.state.qualifier with
    | error cause => rfl
    | ok space => rfl

/-- The end of a block or function has its effect. -/
theorem hasEffect_close : close.HasEffect (effect .finish) := by
  refine hasEffect_look_bind fun draft => ?_
  have blocks : draft.state.scope.blocks = draft.state.blocks := rfl
  dsimp only [effect]
  unfold OpenBlocks.finish
  rw [blocks]
  cases stack : draft.state.blocks.blocks with
  | nil =>
    refine (hasEffect_endFunction draft).trans ?_
    dsimp only
    cases draft.state.scope.function with
    | none => rfl
    | some name => rfl
  | cons block outer =>
    have popped : (update fun state => { state with
        blocks := { draft.state.blocks with blocks := outer } }).HasEffect fun scope =>
          ⟨.ok (), { scope with blocks := { draft.state.blocks with blocks := outer } }, []⟩ :=
      hasEffect_update fun _ => rfl
    refine (popped.bind (fun _ => hasEffect_endBlock block) draft).trans ?_
    have same : State.frame (Scope.state { draft.state.scope with
      blocks := { draft.state.blocks with blocks := outer } }) "block" =
        draft.state.scope.state.frame "block" := rfl
    dsimp only [Effect.bind]
    rw [same]
    cases draft.state.scope.state.frame "block" with
    | error cause => rfl
    | ok frame => rfl

/-- The opening of a conditional block has its effect. -/
theorem hasEffect_conditional (left right : Token) (condition : Condition) :
    (emit (.conditional left condition right)).HasEffect
      (effect (.conditional left condition right)) := by
  have steps := (hasEffect_insideFunction "if").bind fun _ =>
    (hasEffect_compare left right).bind fun _ => (hasEffect_start .conditional).bind fun block =>
      (hasEffect_edge block .finish).bind fun finish =>
        hasEffect_write (.instruction (.jumpIf condition.negate) [.target finish])
  refine steps.congr fun scope => ?_
  dsimp only [effect]
  cases framed : scope.state.frame "if" with
  | error cause => rfl
  | ok frame =>
    cases compared : Operand.pairUnder scope.declared left right with
    | error cause =>
      simp only [Effect.bind, Effect.given, compared]
      rfl
    | ok operands =>
      simp only [Effect.bind, Effect.given, compared, frame_within framed]
      rfl

/-- The opening of a loop has its effect. -/
theorem hasEffect_looping (left right : Token) (condition : Condition) :
    (emit (.looping left condition right)).HasEffect
      (effect (.looping left condition right)) := by
  have steps := (hasEffect_insideFunction "while").bind fun _ =>
    (hasEffect_start .looping).bind fun block => (hasEffect_edge block .begin).bind fun begin =>
      (hasEffect_edge block .finish).bind fun finish =>
        (hasEffect_write (.label begin)).bind fun _ => (hasEffect_compare left right).bind fun _ =>
          hasEffect_write (.instruction (.jumpIf condition.negate) [.target finish])
  refine steps.congr fun scope => ?_
  dsimp only [effect]
  cases framed : scope.state.frame "while" with
  | error cause => rfl
  | ok frame =>
    cases compared : Operand.pairUnder scope.declared left right with
    | error cause =>
      simp only [Effect.bind, Effect.given, compared, frame_within framed]
      rfl
    | ok operands =>
      simp only [Effect.bind, Effect.given, compared, frame_within framed]
      rfl

/-- The opening of a counted block has its effect. -/
theorem hasEffect_counted (count : Token) :
    (emit (.counted count)).HasEffect (effect (.counted count)) := by
  have written : ∀ begin : Symbol, (do
      unless Text.sameLetters count.value "ECX" do
        instruction .mov [.register "ECX", .verbatim count]
      label begin : Emission Unit).HasEffect fun scope =>
        ⟨.ok (), scope, countLoad count ++ [.label begin]⟩ := by
    intro begin
    unfold countLoad
    cases Text.sameLetters count.value "ECX" with
    | true => exact hasEffect_write (.label begin)
    | false => exact (hasEffect_write _).bind fun _ => hasEffect_write (.label begin)
  have steps := (hasEffect_insideFunction "repeat").bind fun _ =>
    (hasEffect_start .counted).bind fun block => (hasEffect_edge block .begin).bind written
  refine steps.congr fun scope => ?_
  dsimp only [effect]
  cases framed : scope.state.frame "repeat" with
  | error cause => rfl
  | ok frame =>
    simp only [Effect.bind, Effect.given, frame_within framed]
    rfl

/-- Naming a place has the effect of the opening before the name. -/
theorem hasEffect_place (name : String) {opening : Emission Unit}
    (blocks : OpenBlocks → OpenBlocks)
    (opens : opening.HasEffect fun scope =>
      ⟨.ok (), { scope with blocks := blocks scope.blocks }, []⟩) :
    (place name opening).HasEffect fun scope =>
      .given (scope.state.labelSymbol name) scope [] fun symbol =>
        ⟨.ok (), { scope with label := some name, blocks := blocks scope.blocks },
          [.label symbol]⟩ := by
  have named : (update fun state => { state with label := some name }).HasEffect fun scope =>
      ⟨.ok (), { scope with label := some name }, []⟩ := hasEffect_update fun _ => rfl
  have steps := (hasEffect_labelSymbol name).bind fun symbol => named.bind fun _ =>
    opens.bind fun _ => hasEffect_write (.label symbol)
  refine steps.congr fun scope => ?_
  cases scope.state.labelSymbol name with
  | error cause => rfl
  | ok symbol => rfl

/-- A construct has its effect. -/
theorem hasEffect_emit (construct : Construct) : (emit construct).HasEffect (effect construct) := by
  cases construct with
  | function name => exact hasEffect_beginFunction name
  | finish => exact hasEffect_close
  | conditional left condition right => exact hasEffect_conditional left right condition
  | looping left condition right => exact hasEffect_looping left right condition
  | counted count => exact hasEffect_counted count
  | group =>
    refine ((hasEffect_insideFunction _).bind fun _ => (hasEffect_start .plain).bind fun _ =>
      hasEffect_pure ()).congr fun scope => ?_
    dsimp only [effect]
    cases scope.state.frame "\x7b" with
    | error cause => rfl
    | ok frame => rfl
  | exit =>
    refine ((hasEffect_insideFunction _).bind fun frame =>
      hasEffect_write (.instruction .jmp [.target (.exit frame)])).congr fun scope => ?_
    dsimp only [effect]
    cases scope.state.frame "return" with
    | error cause => rfl
    | ok frame => rfl
  | leave =>
    refine hasEffect_look_bind fun draft => ?_
    have current : draft.state.scope.blocks.current = draft.state.blocks.current := rfl
    dsimp only [effect]
    rw [current]
    cases draft.state.blocks.current with
    | none => exact hasEffect_fail _ draft
    | some block =>
      refine ((hasEffect_edge block .finish).bind (fun finish =>
        hasEffect_write (.instruction .jmp [.target finish])) draft).trans ?_
      dsimp only
      cases draft.state.scope.state.frame "block" with
      | error cause => rfl
      | ok frame => rfl
  | labelled name =>
    have opens : (do let _ ← start .labelled : Emission Unit).HasEffect fun scope =>
        ⟨.ok (), { scope with blocks := scope.blocks.start .labelled }, []⟩ :=
      (hasEffect_start .labelled).bind fun _ => hasEffect_pure ()
    refine ((hasEffect_insideFunction _).bind fun _ =>
      hasEffect_place name (OpenBlocks.start · .labelled) opens).congr fun scope => ?_
    dsimp only [effect]
    cases framed : scope.state.frame "label block" with
    | error cause => rfl
    | ok frame =>
      have found : scope.frame? = some frame := frame_state_eq_ok_iff.mp framed
      have named : scope.state.labelSymbol name = .ok (.inner frame name) :=
        State.labelSymbol_eq_ok_iff.mpr (Scope.labelSymbol?_of_frame found name)
      simp only [Effect.bind, Effect.given, named]
      rfl
  | label name => exact hasEffect_place name id (hasEffect_pure ())
  | jump name =>
    refine ((hasEffect_labelSymbol name).bind fun symbol =>
      hasEffect_write (.instruction .jmp [.target symbol])).congr fun scope => ?_
    dsimp only [effect]
    cases scope.state.labelSymbol name with
    | error cause => rfl
    | ok symbol => rfl
  | call name =>
    refine (hasEffect_qualifier.bind fun space =>
      hasEffect_write (.instruction .call [.target (.entry ⟨space, name⟩)])).congr fun scope => ?_
    dsimp only [effect]
    cases scope.state.qualifier with
    | error cause => rfl
    | ok space => rfl
  | declare name value =>
    refine (hasEffect_qualifier.bind fun space =>
      hasEffect_write (.datum (.member space name) (datumOf value))).congr fun scope => ?_
    dsimp only [effect]
    cases scope.state.qualifier with
    | error cause => rfl
    | ok space => rfl

/-- What a construct does shows as its effect. -/
theorem effect_emit (construct : Construct) (scope : Scope) :
    (emit construct).effect scope = effect construct scope :=
  (hasEffect_emit construct).effect_eq scope

/-- What a construct does is decided by the scope. -/
theorem scoped_emit (construct : Construct) : (emit construct).Scoped :=
  ⟨_, hasEffect_emit construct⟩

/-- What a line of control flow does is decided by the scope. -/
theorem scoped_line (tokens : List Token) : (line tokens).Scoped := by
  unfold line
  split
  · exact scoped_emit _
  · exact scoped_fail _

/-- The scope that a construct leaves when it fails: the one it found, but for the opening of a
loop, which has opened its block before its operands are looked at. -/
def scopeOnFailure (construct : Construct) (scope : Scope) : Scope :=
  match construct with
  | .looping .. =>
    if scope.function.isSome then { scope with blocks := scope.blocks.start .looping } else scope
  | _ => scope

section Answers

variable {construct : Construct} {scope : Scope}

/-- A construct that succeeds follows its rule. -/
theorem writes_of_effect (passed : (effect construct scope).answer = .ok ()) :
    Writes construct scope (effect construct scope).scope (effect construct scope).written := by
  cases construct with
  | function name =>
    dsimp only [effect] at passed ⊢
    cases closed : scope.function with
    | some other =>
      rw [closed] at passed
      cases passed
    | none =>
      rw [closed] at passed
      obtain ⟨space, found, same⟩ := Effect.exists_of_given passed
      dsimp only
      rw [same]
      exact .function closed (State.qualifier_eq_ok_iff.mp found)
  | finish =>
    dsimp only [effect] at passed ⊢
    cases stack : scope.blocks.blocks with
    | cons block outer =>
      rw [stack] at passed
      obtain ⟨frame, framed, same⟩ := Effect.exists_of_given passed
      dsimp only
      rw [same]
      exact .finishBlock stack (frame_state_eq_ok_iff.mp framed)
    | nil =>
      cases opened : scope.function with
      | none =>
        rw [stack, opened] at passed
        cases passed
      | some function =>
        rw [stack, opened] at passed
        obtain ⟨space, found, same⟩ := Effect.exists_of_given passed
        have framed : scope.frame? = some ⟨space, function⟩ :=
          Scope.frame?_eq_some_iff.mpr ⟨State.qualifier_eq_ok_iff.mp found, opened⟩
        dsimp only
        rw [same]
        exact .finishFunction stack framed
  | group =>
    obtain ⟨frame, framed, same⟩ := Effect.exists_of_given passed
    rw [effect, same]
    exact .group (frame_state_eq_ok_iff.mp framed)
  | exit =>
    obtain ⟨frame, framed, same⟩ := Effect.exists_of_given passed
    rw [effect, same]
    exact .exit (frame_state_eq_ok_iff.mp framed)
  | leave =>
    dsimp only [effect] at passed ⊢
    cases innermost : scope.blocks.current with
    | none =>
      rw [innermost] at passed
      cases passed
    | some block =>
      rw [innermost] at passed
      obtain ⟨frame, framed, same⟩ := Effect.exists_of_given passed
      dsimp only
      rw [same]
      exact .leave (frame_state_eq_ok_iff.mp framed) innermost
  | conditional left condition right =>
    obtain ⟨frame, framed, same⟩ := Effect.exists_of_given passed
    rw [effect, same] at passed ⊢
    obtain ⟨operands, compared, whole⟩ := Effect.exists_of_given passed
    rw [whole]
    exact .conditional (frame_state_eq_ok_iff.mp framed) compared
  | looping left condition right =>
    obtain ⟨frame, framed, same⟩ := Effect.exists_of_given passed
    rw [effect, same] at passed ⊢
    obtain ⟨operands, compared, whole⟩ := Effect.exists_of_given passed
    dsimp only
    rw [whole]
    exact .looping (frame_state_eq_ok_iff.mp framed) compared
  | counted count =>
    obtain ⟨frame, framed, same⟩ := Effect.exists_of_given passed
    rw [effect, same]
    exact .counted (frame_state_eq_ok_iff.mp framed)
  | labelled name =>
    obtain ⟨frame, framed, same⟩ := Effect.exists_of_given passed
    rw [effect, same]
    exact .labelled (frame_state_eq_ok_iff.mp framed)
  | label name =>
    obtain ⟨symbol, named, same⟩ := Effect.exists_of_given passed
    rw [effect, same]
    exact .label (State.labelSymbol_eq_ok_iff.mp named)
  | jump name =>
    obtain ⟨symbol, named, same⟩ := Effect.exists_of_given passed
    rw [effect, same]
    exact .jump (State.labelSymbol_eq_ok_iff.mp named)
  | call name =>
    obtain ⟨space, found, same⟩ := Effect.exists_of_given passed
    rw [effect, same]
    exact .call (State.qualifier_eq_ok_iff.mp found)
  | declare name value =>
    obtain ⟨space, found, same⟩ := Effect.exists_of_given passed
    rw [effect, same]
    exact .declare (State.qualifier_eq_ok_iff.mp found)

/-- Where the open function cannot be found, the scope has no frame. -/
theorem frame?_of_frame_error {construct : String} {cause : CompileError}
    (failed : State.frame scope.state construct = .error cause) : scope.frame? = none := by
  cases framed : scope.frame? with
  | none => rfl
  | some frame =>
    rw [frame_state_eq_ok_iff.mpr framed] at failed
    cases failed

/-- In a sound scope, an end succeeds in an open function and is one too many elsewhere. -/
theorem answer_finish (sound : scope.Sound) :
    (effect .finish scope).answer =
      if scope.function.isSome then .ok () else .error (.structural .underflow) := by
  dsimp only [effect]
  cases opened : scope.function with
  | none =>
    rw [sound.bare opened]
    rfl
  | some function =>
    obtain ⟨frame, framed⟩ := sound.framed (by rw [opened]; rfl)
    obtain ⟨found, -⟩ := Scope.frame?_eq_some_iff.mp framed
    cases scope.blocks.blocks with
    | nil =>
      have qualified : scope.state.qualifier = .ok frame.space :=
        State.qualifier_eq_ok_iff.mpr found
      dsimp only
      rw [qualified]
      rfl
    | cons block outer =>
      dsimp only
      rw [frame_state_eq_ok_iff.mpr framed]
      rfl

/-- In a sound scope, the scope that a construct leaves when it fails is known. -/
theorem scope_of_effect_error {cause : CompileError} (sound : scope.Sound)
    (failed : (effect construct scope).answer = .error cause) :
    (effect construct scope).scope = scopeOnFailure construct scope := by
  cases construct with
  | function name =>
    dsimp only [effect] at failed ⊢
    cases closed : scope.function with
    | some other => rfl
    | none =>
      rw [closed] at failed
      exact Effect.scope_of_given (fun _ => rfl) failed
  | finish =>
    have answer := answer_finish sound
    rw [failed] at answer
    dsimp only [effect]
    cases opened : scope.function with
    | some function =>
      rw [opened] at answer
      cases answer
    | none =>
      rw [sound.bare opened]
      rfl
  | leave =>
    dsimp only [effect] at failed ⊢
    cases innermost : scope.blocks.current with
    | none => rfl
    | some block =>
      rw [innermost] at failed
      exact Effect.scope_of_given (fun _ => rfl) failed
  | conditional left condition right =>
    dsimp only [effect] at failed ⊢
    cases framed : scope.state.frame "if" with
    | error reason => rfl
    | ok frame =>
      rw [framed, Effect.given_ok] at failed
      rw [Effect.given_ok]
      exact Effect.scope_of_given (fun _ => rfl) failed
  | looping left condition right =>
    dsimp only [effect, scopeOnFailure] at failed ⊢
    cases framed : scope.state.frame "while" with
    | error reason =>
      have closed : ¬ scope.function.isSome := by
        intro opened
        obtain ⟨frame, found⟩ := sound.framed opened
        rw [frame?_of_frame_error framed] at found
        cases found
      rw [if_neg closed]
      rfl
    | ok frame =>
      have opened : scope.function.isSome := by
        rw [(Scope.frame?_eq_some_iff.mp (frame_state_eq_ok_iff.mp framed)).2]
        rfl
      rw [framed, Effect.given_ok] at failed
      rw [if_pos opened, Effect.given_ok]
      exact Effect.scope_of_given (fun _ => rfl) failed
  | group | exit | counted | labelled | label | jump | call | declare =>
    exact Effect.scope_of_given (fun _ => rfl) failed

end Answers

/-- The beginning of a function is its entry, and the function is then open without a block. -/
theorem Writes.enters {name : String} {scope last : Scope} {code : List Statement}
    (rule : Writes (.function name) scope last code) :
    ∃ space, scope.space? = some space ∧ last.frame? = some ⟨space, name⟩ ∧
      last.blocks = .empty ∧ code = [.label (.entry ⟨space, name⟩)] := by
  cases rule with
  | @function _ _ space closed found =>
    exact ⟨space, found, Scope.frame?_eq_some_iff.mpr ⟨found, rfl⟩, rfl, rfl⟩

end Flow

end LineAsm
