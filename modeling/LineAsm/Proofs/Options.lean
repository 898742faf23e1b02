import LineAsm.Proofs.Sinks
import LineAsm.Proofs.Steps
/-!
# Options do not change the code

The options decide only whether a line is repeated as a comment and whether a comment of the source
is kept. What a line does to the scope, whether it succeeds and which code it writes do not depend
on them (`Emission.Blind`, `Reading.effect_under`). So a source has portions of output, one for each
line (`Portion`), and under any options it is answered with the lines that these portions have under
them (`Compiler.options_keep_code`).
-/

namespace LineAsm

/-- A scope with other options. -/
def Scope.under (scope : Scope) (options : Options) : Scope := { scope with options }

namespace Effect

variable {α β : Type}

/-- An effect that leaves a scope with other options. -/
def under (effect : Effect α) (options : Options) : Effect α :=
  { effect with scope := effect.scope.under options }

/-- The options pass through what follows an answer. -/
theorem under_given (answer : Except CompileError α) (scope : Scope) (written : List Statement)
    (next : α → Effect β) (options : Options) :
    (given answer scope written next).under options =
      given answer (scope.under options) written fun value => (next value).under options := by
  cases answer <;> rfl

end Effect

namespace Emission

variable {α : Type} {sort : Statement → Prop} {emission : Emission α}

/-- An emission to which the options make no difference. -/
def Blind (emission : Emission α) : Prop :=
  ∀ scope options, emission.effect (scope.under options) = (emission.effect scope).under options

/-- A plain emission depends on the namespace only. -/
theorem Plain.blind (plain : emission.Plain sort) : emission.Blind := by
  obtain ⟨answer, written, effect, -⟩ := plain
  intro scope options
  rw [effect.effect_eq, effect.effect_eq]
  rfl

/-- A failure does not depend on the options. -/
theorem blind_fail (cause : CompileError) : (fail cause : Emission α).Blind := by
  have plain : (fail cause : Emission α).Plain fun _ => True := plain_fail cause
  exact plain.blind

end Emission

namespace Flow

/-- No construct depends on the options. -/
theorem effect_under (construct : Construct) (scope : Scope) (options : Options) :
    effect construct (scope.under options) = (effect construct scope).under options := by
  have function : (scope.under options).function = scope.function := rfl
  have blocks : (scope.under options).blocks = scope.blocks := rfl
  cases construct with
  | function name =>
    dsimp only [effect]
    rw [function]
    cases scope.function with
    | some other => rfl
    | none =>
      simp only [Effect.under_given]
      rfl
  | finish =>
    dsimp only [effect]
    rw [blocks, function]
    cases scope.blocks.blocks with
    | cons block outer =>
      simp only [Effect.under_given]
      rfl
    | nil =>
      cases scope.function with
      | none => rfl
      | some function =>
        simp only [Effect.under_given]
        rfl
  | leave =>
    dsimp only [effect]
    rw [blocks]
    cases scope.blocks.current with
    | none => rfl
    | some block =>
      simp only [Effect.under_given]
      rfl
  | _ =>
    simp only [effect, Effect.under_given]
    rfl

/-- No line of control flow depends on the options. -/
theorem blind_line (tokens : List Token) : (line tokens).Blind := by
  intro scope options
  unfold line
  split
  · rw [effect_emit, effect_emit, effect_under]
  · exact Emission.blind_fail _ scope options

end Flow

namespace Family

/-- No line of a family depends on the options, but for remarks. -/
theorem blind_emit {family : Family} (other : family ≠ .remarks) (tokens : List Token) :
    (family.emit tokens).Blind := by
  cases family with
  | remarks => exact absurd rfl other
  | space =>
    intro scope options
    rcases tokens with _ | ⟨first, _ | ⟨name, rest⟩⟩
    · exact Emission.blind_fail _ scope options
    · exact Emission.blind_fail _ scope options
    · have declared := (hasEffect_declare first name rest).effect_eq
      exact (declared (scope.under options)).trans
        (congrArg (Effect.under · options) (declared scope)).symm
  | comparisons => exact (Transfer.plain_compare tokens).blind
  | flow => exact Flow.blind_line tokens
  | ports | plain | counting | stack | assignments | arithmetic | shifts =>
    exact (plain_emit rfl tokens).blind

/-- A remark that is no comment does not depend on the options. -/
theorem blind_literal {token : Token} (literal : token.kind = .literal) (rest : List Token) :
    (Family.remark (token :: rest)).Blind := by
  intro scope options
  rw [(hasEffect_remark token rest).effect_eq, (hasEffect_remark token rest).effect_eq]
  simp only [kept, literal, beq_self_eq_true, ↓reduceIte]
  rfl

end Family

namespace Pattern

/-- An element at the front of a line accepts a remark only if it accepts every remark of the
kind. -/
theorem Element.acceptsKind_of_remark {element : Element} {token : Token}
    (remark : token.kind.isRemark = true) (accepted : element.accepts [] token = true) :
    element.acceptsKind token.kind = true := by
  cases element with
  | any => rfl
  | text wanted => simp [accepts, remark] at accepted
  | oneOf wanted => simp [accepts, remark] at accepted
  | kind wanted =>
    have same : token.kind = wanted := eq_of_beq accepted
    simp [acceptsKind, same]
  | kinds wanted => exact accepted
  | same earlier => simp [accepts] at accepted

end Pattern

namespace Family

/-- The lines that can begin with a comment or a literal are those of one pattern each. -/
theorem remarks_of_acceptsKind {kind : Token.Kind} (remark : kind.isRemark = true)
    (family : Family) : ∀ pattern ∈ family.patterns,
      pattern.head?.any (·.acceptsKind kind) = true →
        family = .remarks ∧ pattern = [.kind kind] := by
  cases kind with
  | comment => cases family <;> decide
  | literal => cases family <;> decide
  | _ => cases remark

/-- A line of the table that begins with a remark is nothing but the remark. -/
theorem remarks_of_parse {text : String} {dispatch : Dispatch Family} {token : Token}
    {rest : List Token} (parsed : Table.parse standard text = .ok dispatch)
    (begins : dispatch.tokens = token :: rest) (remark : token.kind.isRemark = true) :
    dispatch.owner = .remarks ∧ rest = [] := by
  obtain ⟨pattern, member, accepted⟩ := matches_of_parse parsed
  obtain ⟨length, accepts⟩ := Pattern.matchesLine_iff.mp accepted
  rw [begins] at length accepts
  have first := accepts 0 (by simp)
  cases pattern with
  | nil => cases length
  | cons element others =>
    have front : element.accepts [] token = true := first
    obtain ⟨owned, whole⟩ := remarks_of_acceptsKind remark dispatch.owner _ member
      (Pattern.Element.acceptsKind_of_remark remark front)
    refine ⟨owned, ?_⟩
    rw [whole] at length
    exact List.eq_nil_of_length_eq_zero (by simpa using length.symm)

/-- A line of remarks begins with a comment or a literal. -/
theorem kind_of_parse_remarks {text : String} {dispatch : Dispatch Family}
    (parsed : Table.parse standard text = .ok dispatch) (owned : dispatch.owner = .remarks) :
    ∃ token, dispatch.tokens = [token] ∧ (token.kind = .comment ∨ token.kind = .literal) := by
  obtain ⟨pattern, member, accepted⟩ := matches_of_parse parsed
  obtain ⟨length, accepts⟩ := Pattern.matchesLine_iff.mp accepted
  rw [owned] at member
  have shape : pattern = [.kind .comment] ∨ pattern = [.kind .literal] := by
    simpa [patterns] using member
  have single : dispatch.tokens.length = 1 := by
    rw [← length]
    obtain rfl | rfl := shape <;> rfl
  obtain ⟨token, one⟩ := List.length_eq_one_iff.mp single
  rw [one] at accepts
  have first := accepts 0 (by simp)
  refine ⟨token, one, ?_⟩
  obtain rfl | rfl := shape
  · exact .inl (eq_of_beq first)
  · exact .inr (eq_of_beq first)

/-- No line that begins otherwise than with a comment depends on the options. -/
theorem blind_of_parse {text : String} {dispatch : Dispatch Family} {token : Token}
    {rest : List Token} (parsed : Table.parse standard text = .ok dispatch)
    (begins : dispatch.tokens = token :: rest) (other : token.kind ≠ .comment) :
    (dispatch.owner.emit dispatch.tokens).Blind := by
  by_cases owned : dispatch.owner = .remarks
  · obtain ⟨only, single, sort⟩ := kind_of_parse_remarks parsed owned
    rw [single] at begins ⊢
    obtain ⟨rfl, -⟩ := List.cons.inj begins
    rw [owned]
    exact blind_literal (sort.resolve_left other) []
  · exact blind_emit owned dispatch.tokens

end Family

/-- Neither lines are repeated nor comments kept. -/
def Options.bare : Options := ⟨false, false⟩

namespace Reading

/-- The comment that a line consists of, if it is one. -/
def comment? : Reading → Option Token
  | .owned _ (token :: _) => if token.kind = .comment then some token else none
  | _ => none

/-- What is written of a comment under some options. -/
def remembered (options : Options) (token : Token) : List Statement :=
  if options.keepComments then [if token.value.isEmpty then .raw ";" else .comment token.value]
  else []

/-- What is written before the code of a line under some options. -/
def repeated (options : Options) (text : String) : List Statement :=
  if options.echoSource then [.comment (Text.trim text)] else []

/-- What a line writes under some options, by the code that it writes. -/
def dressed (options : Options) (text : String) (code : List Statement) (reading : Reading) :
    List Statement :=
  match reading, reading.comment? with
  | .owned _ _, some token => remembered options token
  | .owned _ _, none => repeated options text ++ code
  | _, _ => code

section Dressed

variable {text : String} {family : Family} {tokens : List Token}

/-- A line that belongs to a family has a first token. -/
theorem exists_cons_of_owned (read : of text = .owned family tokens) :
    ∃ token rest, tokens = token :: rest := by
  obtain ⟨-, pattern, member, accepted⟩ := exists_matches_of_owned read
  obtain ⟨length, -⟩ := Pattern.matchesLine_iff.mp accepted
  have wide : ∀ other ∈ family.patterns, other ≠ [] := by
    cases family <;> decide
  have positive := List.length_pos_iff.mpr (wide pattern member)
  rw [length] at positive
  exact List.exists_cons_of_length_pos positive

/-- A line that is a comment is written as far as comments are kept. -/
theorem effect_of_comment {token : Token} {rest : List Token}
    (read : of text = .owned family (token :: rest)) (comment : token.kind = .comment)
    (scope : Scope) :
    (of text).effect text scope = ⟨.ok .next, scope, remembered scope.options token⟩ := by
  obtain ⟨dispatch, parsed, rfl, begins⟩ := exists_parse_of_owned read
  obtain ⟨owned, rfl⟩ := Family.remarks_of_parse parsed begins (by rw [comment]; rfl)
  have written := (Family.hasEffect_remark token []).effect_eq scope
  have emit : dispatch.owner.emit [token] = Family.remark [token] := by rw [owned]; rfl
  have unrepeated : echoed scope.options text [token] = [] := by simp [echoed, comment]
  have kept : Family.kept scope.options token = remembered scope.options token := by
    simp only [Family.kept, comment]
    rfl
  rw [read]
  simp only [effect, emit, written, unrepeated, kept, List.nil_append]
  rfl

/-- A line of a family that is no comment is repeated if that is wanted, and its code does not
depend on the options. -/
theorem effect_of_code {token : Token} {rest : List Token}
    (read : of text = .owned family (token :: rest)) (other : token.kind ≠ .comment)
    (scope : Scope) (options : Options) :
    let code := (of text).effect text (scope.under .bare)
    (of text).effect text (scope.under options) =
      ⟨code.answer, code.scope.under options, repeated options text ++ code.written⟩ := by
  obtain ⟨dispatch, parsed, rfl, begins⟩ := exists_parse_of_owned read
  have blind := Family.blind_of_parse parsed begins other (scope.under .bare) options
  have repeats : ∀ options, echoed options text (token :: rest) = repeated options text := by
    intro options
    simp [echoed, repeated, other]
  have again : (scope.under .bare).under options = scope.under options := rfl
  rw [begins, again] at blind
  rw [read]
  simp only [effect, repeats, blind]
  rfl

/-- The options decide what surrounds the code of a line, and nothing else. -/
theorem effect_under (text : String) (scope : Scope) (options : Options) :
    let code := (of text).effect text (scope.under .bare)
    (of text).effect text (scope.under options) =
      ⟨code.answer, code.scope.under options, (of text).dressed options text code.written⟩ := by
  cases read : of text with
  | blank | marker | unreadable cause => rfl
  | owned family tokens =>
    obtain ⟨token, rest, rfl⟩ := exists_cons_of_owned read
    by_cases comment : token.kind = .comment
    · have under := effect_of_comment read comment
      rw [read] at under
      simp only [under, dressed, comment?, comment, ↓reduceIte]
      rfl
    · have under := effect_of_code read comment scope options
      rw [read] at under
      simp only [under, dressed, comment?, comment, ↓reduceIte]

end Dressed

end Reading

/-- What a line of source gives to the output. -/
inductive Portion where
  /-- A blank line gives an indentation. -/
  | blank (indent : String)
  /-- The end marker gives nothing. -/
  | marker
  /-- A comment line gives what it says, if comments are kept. -/
  | comment (indent said : String)
  /-- Every other line gives itself, if lines are repeated, and then lines of code. -/
  | code (indent source : String) (lines : List String)
deriving DecidableEq, Repr

namespace Portion

/-- The lines of output of a portion under some options. -/
def lines (options : Options) : Portion → List String
  | .blank indent => [indent]
  | .marker => []
  | .comment indent said =>
    if options.keepComments then [indent ++ if said.isEmpty then ";" else "; " ++ said] else []
  | .code indent source lines =>
    (if options.echoSource then [indent ++ "; " ++ source] else []) ++ lines

/-- The output of some portions under some options: their lines, each with its line feed. -/
def output (options : Options) (portions : List Portion) : String :=
  String.join ((portions.flatMap (lines options)).map (· ++ "\n"))

/-- The portion is one of a line that lets the next line follow. -/
inductive Of (text : String) : Portion → Prop where
  /-- A blank line. -/
  | blank (blank : Text.allBlank text = true) (indent : String) : Of text (.blank indent)
  /-- A line that is a comment and nothing else. -/
  | comment {token : Token} (single : Token.ofLine text = .ok [token])
      (remark : token.kind = .comment) (unmarked : Text.trim text ≠ Compiler.endMarker) :
      Of text (.comment (Text.indentation text) token.value)
  /-- A line that begins with another token. -/
  | code {token : Token} {rest : List Token} (begins : Token.ofLine text = .ok (token :: rest))
      (other : token.kind ≠ .comment) (unmarked : Text.trim text ≠ Compiler.endMarker)
      (lines : List String) : Of text (.code (Text.indentation text) (Text.trim text) lines)

/-- The portions are those of the lines of a source up to its end, the end marker or a line that
fails. -/
inductive Answer : List Read → List Portion → Option LocatedError → Prop where
  /-- There are no more lines. -/
  | done : Answer [] [] none
  /-- The next line is the end marker. -/
  | stopped {raw : String} (marker : Read.IsMarker (.ok raw)) (rest : List Read) :
      Answer (.ok raw :: rest) [.marker] none
  /-- The next line fails. -/
  | failed (read : Read) (rest : List Read) (failure : LocatedError) :
      Answer (read :: rest) [] (some failure)
  /-- The next line has a portion and the line after it follows. -/
  | next {raw : String} {rest : List Read} {portion : Portion} {portions : List Portion}
      {failure : Option LocatedError} (first : portion.Of (Compiler.textOf raw))
      (others : Answer rest portions failure) :
      Answer (.ok raw :: rest) (portion :: portions) failure

end Portion

namespace Reading

/-- The portion of a line, by the code that it writes under an indentation. -/
def portion (text indent : String) (code : List Statement) (reading : Reading) : Portion :=
  match reading, reading.comment? with
  | .blank, _ => .blank indent
  | .marker, _ => .marker
  | _, some token => .comment indent token.value
  | _, none => .code indent (Text.trim text) (code.map fun statement => indent ++ statement.text)

/-- What a line writes under some options are the lines of its portion under them. -/
theorem lines_portion {text : String} {scope : Scope} {progress : Progress} {reading : Reading}
    (passed : (reading.effect text (scope.under .bare)).answer = .ok progress)
    (options : Options) (indent : String) :
    let code := (reading.effect text (scope.under .bare)).written
    ((reading.dressed options text code).map (Listing.Line.mk indent)).map Listing.Line.text =
      (reading.portion text indent code).lines options := by
  intro code
  have text_eq : ∀ statement : Statement,
      Listing.Line.text ⟨indent, statement⟩ = indent ++ statement.text := fun _ => rfl
  cases reading with
  | blank =>
    change [indent ++ ""] = [indent]
    rw [String.append_empty]
  | marker => rfl
  | unreadable cause => cases passed
  | owned family tokens =>
    simp only [dressed, portion]
    cases comment? (.owned family tokens) with
    | some token =>
      simp only [remembered, Portion.lines]
      cases options.keepComments with
      | false => rfl
      | true =>
        cases token.value.isEmpty <;> simp [text_eq, Statement.text]
    | none =>
      simp only [repeated, Portion.lines]
      cases options.echoSource <;>
        simp [text_eq, Statement.text, Function.comp_def, String.append_assoc]

/-- A line that succeeds and is not the end marker has a portion of its kind. -/
theorem portion_of {text : String} {scope : Scope} (draft : Draft)
    (passed : ((of text).effect text (scope.under .bare)).answer = .ok .next)
    (code : List Statement) :
    ((of text).portion text (draft.indentedBy text).listing.indent code).Of text := by
  have unmarked : of text ≠ .marker := by
    intro marker
    rw [marker] at passed
    cases passed
  have other : Text.trim text ≠ Compiler.endMarker := fun same =>
    unmarked (of_eq_marker_iff.mpr same)
  unfold Draft.indentedBy
  cases read : of text with
  | blank =>
    refine .blank ?_ _
    unfold of at read
    split at read
    · assumption
    · split at read
      · cases read
      · split at read <;> cases read
  | marker => exact absurd read unmarked
  | unreadable cause =>
    rw [read] at passed
    cases passed
  | owned family tokens =>
    obtain ⟨token, rest, rfl⟩ := exists_cons_of_owned read
    obtain ⟨dispatch, parsed, owned, begins⟩ := exists_parse_of_owned read
    have tokens := Table.ofLine_of_parse parsed
    rw [begins] at tokens
    by_cases comment : token.kind = .comment
    · obtain ⟨-, rfl⟩ := Family.remarks_of_parse parsed begins (by rw [comment]; rfl)
      simp only [portion, comment?, comment, ↓reduceIte]
      exact .comment tokens comment other
    · simp only [portion, comment?, comment, ↓reduceIte]
      exact .code tokens comment other _

end Reading

namespace Compiler

/-- A compiler with other options. -/
def under (compiler : Compiler Family) (options : Options) : Compiler Family :=
  { compiler with state := { compiler.state with options } }

section Under

variable {compiler : Compiler Family}

/-- The options do not matter for being ready. -/
theorem Ready.under (ready : compiler.Ready) (options : Options) : (compiler.under options).Ready :=
  ⟨ready.standard, ⟨ready.sound.space_of_function, ready.sound.function_of_block,
    ready.sound.ids_ordered, ready.sound.ids_positive, ready.sound.ids_counted⟩, ready.taken,
    ready.aligned⟩

/-- The options pass through what a line leaves. -/
theorem left_under (compiler : Compiler Family) (text : String) (scope : Scope)
    (options : Options) :
    (compiler.under options).left text (scope.under options) =
      (compiler.left text scope).under options := by
  unfold left Draft.indentedBy
  split <;> rfl

/-- One line of a call under some options, by the code of the line. -/
theorem step_under (ready : compiler.Ready) (options : Options) (lines : List Listing.Line)
    (raw : String) :
    let text := textOf raw
    let code := (Reading.of text).effect text (compiler.state.scope.under .bare)
    let indent := (compiler.toDraft.indentedBy text).listing.indent
    (compiler.under options).step lines (.ok raw) =
      match code.answer with
      | .error cause => (.error ⟨cause, compiler.state.line, some text⟩,
          (compiler.left text code.scope).under options, lines)
      | .ok progress => (.ok progress, (compiler.left text code.scope).advance.under options,
          lines ++ ((Reading.of text).dressed options text code.written).map
            (Listing.Line.mk indent)) := by
  have scope : (compiler.under options).state.scope = compiler.state.scope.under options := rfl
  have number : (compiler.under options).state.line = compiler.state.line := rfl
  have indent : ((compiler.under options).toDraft.indentedBy (textOf raw)).listing.indent =
      (compiler.toDraft.indentedBy (textOf raw)).listing.indent := by
    unfold Draft.indentedBy
    split <;> rfl
  have advanced : ∀ other : Compiler Family,
      (other.under options).advance = other.advance.under options := fun _ => rfl
  have stepped := step_list (ready.under options) lines raw
  dsimp only at stepped
  rw [scope, number, indent, Reading.effect_under] at stepped
  dsimp only at stepped
  rw [left_under, advanced] at stepped
  refine stepped.trans ?_
  generalize (Reading.of (textOf raw)).effect (textOf raw)
    (compiler.state.scope.under .bare) = code
  cases code.answer with
  | error cause => rfl
  | ok progress => rfl

/-- What a line does under all options at once. -/
inductive Portioned (compiler : Compiler Family) (raw : String) : Prop where
  /-- The line fails, alike under all options. -/
  | failed (cause : CompileError) (last : Compiler Family)
      (steps : ∀ options (lines : List Listing.Line),
        (compiler.under options).step lines (.ok raw) =
          (.error ⟨cause, compiler.state.line, some (textOf raw)⟩, last.under options, lines))
  /-- The line is the end marker and writes nothing. -/
  | stopped (marker : Read.IsMarker (.ok raw)) (last : Compiler Family)
      (steps : ∀ options (lines : List Listing.Line),
        (compiler.under options).step lines (.ok raw) = (.ok .stop, last.under options, lines))
  /-- The line writes what a portion of its kind has under the options. -/
  | next (portion : Portion) (kind : portion.Of (textOf raw)) (next : Compiler Family)
      (ready : next.Ready) (counted : next.state.line = compiler.state.line + 1)
      (steps : ∀ options, ∃ more : List Listing.Line,
        more.map Listing.Line.text = portion.lines options ∧ ∀ lines : List Listing.Line,
          (compiler.under options).step lines (.ok raw) =
            (.ok .next, next.under options, lines ++ more))

/-- Every line does one of these things. -/
theorem portioned (ready : compiler.Ready) (raw : String) : Portioned compiler raw := by
  have steps := fun options lines => step_under ready options lines raw
  have sound : ((Reading.of (textOf raw)).effect (textOf raw)
      (compiler.state.scope.under .bare)).scope.Sound :=
    Reading.sound_effect (textOf raw) (ready.under .bare).sound
  have kind := @Reading.portion_of (textOf raw) compiler.state.scope compiler.toDraft
  have shown := fun progress => @Reading.lines_portion (textOf raw) compiler.state.scope progress
    (Reading.of (textOf raw))
  have stops := @Reading.stop_iff (textOf raw) (compiler.state.scope.under .bare)
  dsimp only at steps
  generalize (compiler.toDraft.indentedBy (textOf raw)).listing.indent = indent at steps kind
  generalize (Reading.of (textOf raw)).effect (textOf raw)
    (compiler.state.scope.under .bare) = code at steps sound kind shown stops
  obtain ⟨answer, scope, written⟩ := code
  dsimp only at steps sound kind shown stops
  cases answer with
  | error cause => exact .failed cause (compiler.left (textOf raw) scope) steps
  | ok progress =>
    have texts := fun options => shown _ rfl options indent
    dsimp only at steps
    cases progress with
    | stop =>
      have marker : Text.trim (textOf raw) = endMarker := (stops rfl).mp rfl
      refine .stopped marker (compiler.left (textOf raw) scope).advance fun options lines => ?_
      have gone := texts options
      rw [Reading.of_eq_marker_iff.mpr marker] at gone
      have none := List.map_eq_nil_iff.mp gone
      rw [steps, Reading.of_eq_marker_iff.mpr marker, none, List.append_nil]
    | next =>
      have counted := congrArg (· + 1) (line_left compiler (textOf raw) scope)
      exact .next _ (kind rfl written) (compiler.left (textOf raw) scope).advance
        (ready.left (textOf raw) sound).advance counted
        fun options => ⟨_, texts options, fun lines => steps options lines⟩

/-- A source has portions, whatever the options are, and under any options it is answered with the
lines of the portions under them. -/
theorem exists_portions (ready : compiler.Ready) (source : List Read) :
    ∃ portions failure last, Portion.Answer source portions failure ∧
      (∀ located, failure = some located →
        located.line = compiler.state.line + portions.length) ∧
      ∀ (options : Options) (lines : List Listing.Line),
        let outcome := (compiler.under options).run lines source
        outcome.failure = failure ∧ outcome.compiler = under last options ∧
          outcome.sink.map Listing.Line.text =
            lines.map Listing.Line.text ++ portions.flatMap (Portion.lines options) := by
  induction source generalizing compiler with
  | nil => exact ⟨[], none, compiler, .done, nofun, fun options lines => ⟨rfl, rfl, by simp [run]⟩⟩
  | cons read rest ih =>
    cases read with
    | error words =>
      refine ⟨[], some ⟨.io words, compiler.state.line, none⟩, compiler, .failed _ rest _, ?_,
        fun options lines => ?_⟩
      · rintro located ⟨⟩
        rfl
      · rw [run, step_error (ready.under options)]
        exact ⟨rfl, rfl, by simp⟩
    | ok raw =>
      cases portioned ready raw with
      | failed cause last steps =>
        refine ⟨[], some ⟨cause, compiler.state.line, some (textOf raw)⟩, last,
          .failed _ rest _, ?_, fun options lines => ?_⟩
        · rintro located ⟨⟩
          rfl
        · rw [run, steps]
          exact ⟨rfl, rfl, by simp⟩
      | stopped marker last steps =>
        refine ⟨[.marker], none, last, .stopped marker rest, nofun, fun options lines => ?_⟩
        rw [run, steps]
        exact ⟨rfl, rfl, by simp [Portion.lines]⟩
      | next portion kind next again counted steps =>
        obtain ⟨portions, failure, last, answered, located, outcomes⟩ := ih again
        refine ⟨portion :: portions, failure, last, .next kind answered, ?_,
          fun options lines => ?_⟩
        · intro failed same
          rw [located failed same, counted, List.length_cons]
          omega
        · obtain ⟨more, shown, stepped⟩ := steps options
          obtain ⟨same, compilers, sinks⟩ := outcomes options (lines ++ more)
          rw [run, stepped]
          refine ⟨same, compilers, ?_⟩
          dsimp only
          rw [sinks, List.map_append, shown, List.flatMap_cons, List.append_assoc]

end Under

/-- A source has portions of output, one for each line up to the end, the end marker or a line that
fails. Under any two settings of the options it fails alike or not at all, leaves compilers that
differ in the options only, and writes the lines that the portions have under the options: the same
indentation for a blank line, one line for a comment where comments are kept, and for every other
line the line itself where lines are repeated and then the same lines of code. -/
theorem options_keep_code (source : List Read) :
    ∃ portions : List Portion, ∀ left right : Options,
      let one := (new left Family.standard).compile "" source
      let other := (new right Family.standard).compile "" source
      one.failure = other.failure ∧ other.compiler = one.compiler.under right ∧
      Portion.Answer source portions one.failure ∧
      (∀ failure, one.failure = some failure → failure.line = portions.length + 1) ∧
      one.sink = Portion.output left portions ∧ other.sink = Portion.output right portions := by
  obtain ⟨portions, failure, last, answered, located, outcomes⟩ :=
    exists_portions (ready_new .bare) source
  have written : ∀ options,
      let outcome := (new options Family.standard).compile "" source
      outcome.failure = failure ∧ outcome.compiler = under last options ∧
        outcome.sink = Portion.output options portions := by
    intro options
    obtain ⟨same, compilers, sinks⟩ := outcomes options []
    have call := run_text (ready_new options) "" source
    have start : (new options Family.standard).compile "" source =
        (new options Family.standard).run "" source := rfl
    have again : (new .bare Family.standard).under options = new options Family.standard := rfl
    have texts : ∀ lines : List Listing.Line, lines.map Listing.Line.written =
        (lines.map Listing.Line.text).map (· ++ "\n") := by
      intro lines
      rw [List.map_map]
      rfl
    rw [again] at same compilers sinks
    rw [start, call]
    refine ⟨same, compilers, ?_⟩
    rw [String.empty_append, Listing.written, texts, sinks]
    rfl
  refine ⟨portions, fun left right => ?_⟩
  obtain ⟨failed, compiler, output⟩ := written left
  obtain ⟨alike, compilers, outputs⟩ := written right
  refine ⟨failed.trans alike.symm, ?_, failed ▸ answered, ?_, output, outputs⟩
  · rw [compilers, compiler]
    rfl
  · intro failure same
    rw [located failure (failed.symm.trans same)]
    exact Nat.add_comm _ _

end Compiler

end LineAsm
