import LineAsm.Compiler
import LineAsm.Proofs.Flow
import LineAsm.Proofs.Lexing
/-!
# Readings of lines

The standard table takes a line in one of four ways: it is blank, it is the end marker, it cannot
be read, or a family owns it (`Reading.of`). The reading and the scope together decide what the
line does (`Reading.effect`), and a compiler does exactly that with a line (`Reading.line_eq`).
A line of control flow that succeeds follows the rule of its construct, a declaration changes the
namespace, and every other line leaves the scope as it is.
-/

namespace LineAsm

open Emission

namespace Table

variable {ε : Type} [Emitter ε] {table : Table ε}

/-- The tokens of a line are those that claims are made for. -/
theorem map_token_claims (line : List Token) : (table.claims line).map Claim.token = line := by
  have tokens : (Claim.token ∘ fun entry : Token × Nat =>
      (⟨entry.1, table.owner? line entry.2⟩ : Claim ε)) = Prod.fst := rfl
  rw [claims, List.map_map, tokens, List.zipIdx_map_fst]

/-- A line is dispatched exactly when its last token has an owner. -/
theorem trailing_eq_ok_iff {line : List Token} {dispatch : Dispatch ε} :
    trailing (table.claims line) = .ok dispatch ↔ line ≠ [] ∧
      table.owner? line (line.length - 1) = some dispatch.owner ∧
        dispatch.claims = table.claims line := by
  have last : (table.claims line).getLast? =
      line.getLast?.map fun token => ⟨token, table.owner? line (line.length - 1)⟩ := by
    simp [claims]
    rfl
  rw [trailing, last]
  cases final : line.getLast? with
  | none => simp [List.getLast?_eq_none_iff.mp final]
  | some token =>
    have present : line ≠ [] := by
      rintro rfl
      cases final
    rw [Option.map_some]
    cases owned : table.owner? line (line.length - 1) with
    | none => simp
    | some owner =>
      obtain ⟨claims, mine⟩ := dispatch
      constructor
      · rintro ⟨⟩
        exact ⟨present, rfl, rfl⟩
      · rintro ⟨-, ⟨⟩, rfl⟩
        rfl

/-- The owner of a line recognises it as ending with its last token. -/
theorem owner_of_trailing {line : List Token} {dispatch : Dispatch ε}
    (dispatched : trailing (table.claims line) = .ok dispatch) :
    dispatch.tokens = line ∧ line ≠ [] ∧
      Emitter.recognizes dispatch.owner line (line.length - 1) = true := by
  obtain ⟨present, owned, claims⟩ := trailing_eq_ok_iff.mp dispatched
  have recognized := List.find?_some owned
  refine ⟨?_, present, recognized⟩
  rw [Dispatch.tokens, claims, map_token_claims]

/-- A line that is dispatched has been read as the tokens of the dispatch. -/
theorem ofLine_of_parse {text : String} {dispatch : Dispatch ε}
    (parsed : table.parse text = .ok dispatch) : Token.ofLine text = .ok dispatch.tokens := by
  unfold parse at parsed
  split at parsed
  · cases parsed
  · rename_i tokens read
    rw [read, (owner_of_trailing parsed).1]

end Table

namespace Family

/-- A line that is dispatched matches a pattern of its owner. -/
theorem matches_of_parse {text : String} {dispatch : Dispatch Family}
    (parsed : Table.parse standard text = .ok dispatch) :
    ∃ pattern ∈ dispatch.owner.patterns, pattern.matchesLine dispatch.tokens = true := by
  unfold Table.parse at parsed
  split at parsed
  · cases parsed
  · rename_i tokens read
    obtain ⟨same, present, recognized⟩ := Table.owner_of_trailing parsed
    have inside : tokens.length - 1 < tokens.length := by
      have := List.length_pos_iff.mpr present
      omega
    obtain ⟨pattern, member, ends⟩ := List.any_eq_true.mp recognized
    refine ⟨pattern, member, ?_⟩
    rw [Pattern.endsAt_eq_matchesLine inside] at ends
    rwa [List.take_of_length_le (by omega), ← same] at ends

/-- A declaration has the name of the namespace as its second token, and the name has a text. -/
theorem tokens_of_parse_space {text : String} {dispatch : Dispatch Family}
    (parsed : Table.parse standard text = .ok dispatch) (owned : dispatch.owner = .space) :
    ∃ first name, dispatch.tokens = [first, name] ∧ name.value ≠ "" := by
  obtain ⟨pattern, member, accepted⟩ := matches_of_parse parsed
  rw [owned] at member
  obtain rfl := List.mem_singleton.mp member
  obtain ⟨length, accepts⟩ := Pattern.matchesLine_iff.mp accepted
  have read := Table.ofLine_of_parse parsed
  generalize dispatch.tokens = tokens at length accepts read
  rcases tokens with _ | ⟨first, _ | ⟨name, _ | ⟨third, rest⟩⟩⟩
  · cases length
  · cases length
  · have word : name.kind = .identifier := by
      simpa [Pattern.acceptsAt, Pattern.Element.accepts] using accepts 1 (by simp)
    refine ⟨first, name, rfl, Lexer.value_ne_empty_of_scan read name (by simp) ?_⟩
    rw [word]
    rfl
  · cases length

end Family

/-- How the standard table takes a line. -/
inductive Reading where
  /-- The line has blank characters only. -/
  | blank
  /-- The line is the end marker. -/
  | marker
  /-- The line is none of the dialect. -/
  | unreadable (cause : DialectError)
  /-- The line belongs to a family. -/
  | owned (family : Family) (tokens : List Token)
deriving DecidableEq, Repr

namespace Reading

/-- The reading of a line. -/
def of (text : String) : Reading :=
  if Text.allBlank text then .blank
  else if Text.trim text == Compiler.endMarker then .marker
  else
    match Table.parse Family.standard text with
    | .error cause => .unreadable cause
    | .ok dispatch => .owned dispatch.owner dispatch.tokens

/-- Whether a line sets the indentation. -/
def indents : Reading → Bool
  | .blank | .marker => false
  | .unreadable _ | .owned _ _ => true

/-- The construct that a line of control flow says. -/
def construct? : Reading → Option Construct
  | .owned .flow tokens => Construct.ofTokens? tokens
  | _ => none

/-- The namespace that a declaration declares. -/
def declares? : Reading → Option String
  | .owned .space (_ :: name :: _) => some name.value
  | _ => none

/-- The comment that repeats a line, if lines are repeated and the line is no comment. -/
def echoed (options : Options) (text : String) (tokens : List Token) : List Statement :=
  if options.echoSource && !(tokens.head?.any fun token => token.kind == .comment) then
    [.comment (Text.trim text)]
  else []

/-- The scope that a line leaves when it fails. -/
def scopeOnFailure (scope : Scope) (reading : Reading) : Scope :=
  match reading.construct? with
  | some construct => Flow.scopeOnFailure construct scope
  | none => scope

/-- What a line does to a scope. -/
def effect (text : String) (scope : Scope) : Reading → Effect Progress
  | .blank => ⟨.ok .next, scope, [.blank]⟩
  | .marker => ⟨.ok .stop, scope, []⟩
  | .unreadable cause => ⟨.error (.dialect cause), scope, []⟩
  | .owned family tokens =>
    let code := (family.emit tokens).effect scope
    ⟨code.answer.map fun _ => .next, code.scope, echoed scope.options text tokens ++ code.written⟩

end Reading

/-- A draft with the indentation of a line, if the line sets it. -/
def Draft.indentedBy (draft : Draft) (text : String) : Draft :=
  if (Reading.of text).indents then
    ⟨{ draft.state with indent := Text.indentation text },
      draft.listing.setIndent (Text.indentation text)⟩
  else draft

/-- The line number stays where the indentation is set. -/
theorem Draft.line_indentedBy (draft : Draft) (text : String) :
    (draft.indentedBy text).state.line = draft.state.line := by
  unfold indentedBy
  split <;> rfl

/-- The lines in the listing stay where the indentation is set. -/
theorem Draft.lines_indentedBy (draft : Draft) (text : String) :
    (draft.indentedBy text).listing.lines = draft.listing.lines := by
  unfold indentedBy
  split <;> rfl

/-- State and listing are indented alike after they were before. -/
theorem Draft.indent_indentedBy {draft : Draft}
    (aligned : draft.listing.indent = draft.state.indent) (text : String) :
    (draft.indentedBy text).listing.indent = (draft.indentedBy text).state.indent := by
  unfold indentedBy
  split
  · rfl
  · exact aligned

/-- What a line of any family does is decided by the scope. -/
theorem Family.scoped_emit (family : Family) (tokens : List Token) :
    (family.emit tokens).Scoped := by
  cases family with
  | space => exact scoped_declare tokens
  | remarks => exact scoped_remark tokens
  | comparisons => exact (Transfer.plain_compare tokens).scoped
  | flow => exact Flow.scoped_line tokens
  | ports | plain | counting | stack | assignments | arithmetic | shifts =>
    exact (plain_emit rfl tokens).scoped

namespace Reading

/-- A line is repeated as its comment says. -/
theorem hasEffect_echo (text : String) (tokens : List Token) :
    (Compiler.echo text tokens).HasEffect fun scope =>
      ⟨.ok (), scope, echoed scope.options text tokens⟩ := by
  intro draft
  have options : draft.state.scope.options = draft.state.options := rfl
  unfold Compiler.echo echoed
  rw [bind_ok (look_eq_ok_iff.mpr ⟨rfl, rfl⟩)]
  simp only [options]
  split
  · exact hasEffect_write _ draft
  · exact hasEffect_pure _ draft

/-- A line of a family is repeated and then written. -/
theorem hasEffect_owned (text : String) (family : Family) (tokens : List Token) :
    (do
      Compiler.echo text tokens
      family.emit tokens
      return .next : Emission Progress).HasEffect
      fun scope => (owned family tokens).effect text scope := by
  have written := (hasEffect_echo text tokens).bind fun _ =>
    ((family.scoped_emit tokens).hasEffect).bind fun _ => hasEffect_pure Progress.next
  intro draft
  rw [written draft]
  simp only [effect, Effect.bind]
  cases ((family.emit tokens).effect draft.state.scope).answer with
  | ok value => simp only [Except.map, List.append_nil]
  | error cause => simp only [Except.map]

/-- A compiler does with a line what the reading of the line says. -/
theorem line_eq (text : String) (draft : Draft) :
    Compiler.line Family.standard text draft =
      ((of text).effect text draft.state.scope).onto (draft.indentedBy text) := by
  unfold Compiler.line Draft.indentedBy of
  split
  · exact ((hasEffect_write .blank).bind fun _ => hasEffect_pure _) draft
  · split
    · exact hasEffect_pure _ draft
    · have set : Compiler.indentAs text draft = .ok () ⟨{ draft.state with
          indent := Text.indentation text }, draft.listing.setIndent (Text.indentation text)⟩ := rfl
      refine (bind_ok set).trans ?_
      cases Table.parse Family.standard text with
      | error cause => exact hasEffect_fail _ _
      | ok dispatch => exact hasEffect_owned text dispatch.owner dispatch.tokens _

/-- A repeated line is bare. -/
theorem echoed_isBare {options : Options} {text : String} {tokens : List Token}
    {statement : Statement} (member : statement ∈ echoed options text tokens) :
    statement.IsBare := by
  unfold echoed at member
  split at member
  · cases List.mem_singleton.mp member
    trivial
  · cases member

/-- A line that belongs to a family has been dispatched to it. -/
theorem exists_parse_of_owned {text : String} {family : Family} {tokens : List Token}
    (read : of text = .owned family tokens) :
    ∃ dispatch, Table.parse Family.standard text = .ok dispatch ∧ dispatch.owner = family ∧
      dispatch.tokens = tokens := by
  unfold of at read
  split at read
  · cases read
  · split at read
    · cases read
    · split at read
      · cases read
      · rename_i dispatch parsed
        obtain ⟨owner, same⟩ := Reading.owned.inj read
        exact ⟨dispatch, parsed, owner, same⟩

/-- A line that belongs to a family is read as its tokens, which match a pattern of the family. -/
theorem exists_matches_of_owned {text : String} {family : Family} {tokens : List Token}
    (read : of text = .owned family tokens) :
    Token.ofLine text = .ok tokens ∧
      ∃ pattern ∈ family.patterns, pattern.matchesLine tokens = true := by
  obtain ⟨dispatch, parsed, rfl, rfl⟩ := exists_parse_of_owned read
  exact ⟨Table.ofLine_of_parse parsed, Family.matches_of_parse parsed⟩

section Effects

variable {text : String} {scope : Scope} {reading : Reading}

/-- A line that stops the reading is the end marker. -/
theorem marker_of_stop (stopped : (reading.effect text scope).answer = .ok .stop) :
    reading = .marker := by
  cases reading with
  | marker => rfl
  | blank | unreadable cause => cases stopped
  | owned family tokens =>
    cases answer : ((family.emit tokens).effect scope).answer with
    | ok value =>
      simp only [effect, answer] at stopped
      cases stopped
    | error cause =>
      simp only [effect, answer] at stopped
      cases stopped

/-- A line of control flow has been read as tokens that say a construct. -/
theorem owned_of_construct? {construct : Construct} (said : reading.construct? = some construct) :
    ∃ tokens, reading = .owned .flow tokens ∧ Construct.ofTokens? tokens = some construct := by
  unfold construct? at said
  split at said
  · exact ⟨_, rfl, said⟩
  · cases said

/-- A declaration has been read as tokens, the second of which is the name. -/
theorem owned_of_declares? {name : String} (said : reading.declares? = some name) :
    ∃ first second rest, reading = .owned .space (first :: second :: rest) ∧
      second.value = name := by
  unfold declares? at said
  split at said
  · exact ⟨_, _, _, rfl, Option.some.inj said⟩
  · cases said

/-- A declaration names the namespace with a text. -/
theorem declares?_ne_empty {name : String} (said : (of text).declares? = some name) :
    name ≠ "" := by
  obtain ⟨first, second, rest, read, rfl⟩ := owned_of_declares? said
  obtain ⟨dispatch, parsed, owner, tokens⟩ := exists_parse_of_owned read
  obtain ⟨head, last, shape, named⟩ := Family.tokens_of_parse_space parsed owner
  rw [shape] at tokens
  cases tokens
  exact named

/-- A line of control flow that says a construct has the effect of the construct. -/
theorem effect_of_construct? {construct : Construct} {tokens : List Token}
    (said : Construct.ofTokens? tokens = some construct) :
    (owned .flow tokens).effect text scope =
      ⟨(Flow.effect construct scope).answer.map fun _ => .next, (Flow.effect construct scope).scope,
        echoed scope.options text tokens ++ (Flow.effect construct scope).written⟩ := by
  have written : Family.emit .flow tokens = Flow.emit construct := by
    simp only [Family.emit, Flow.line, said]
  simp only [effect, written, Flow.effect_emit]

/-- A closing line succeeds in an open function, and is one too many elsewhere. -/
theorem answer_of_finish (sound : scope.Sound) (said : reading.construct? = some .finish) :
    (reading.effect text scope).answer =
      if scope.function.isSome then .ok .next else .error (.structural .underflow) := by
  obtain ⟨tokens, rfl, tokens_say⟩ := owned_of_construct? said
  rw [effect_of_construct? tokens_say, Flow.answer_finish sound]
  by_cases opened : scope.function.isSome
  · rw [if_pos opened, if_pos opened]
    rfl
  · rw [if_neg opened, if_neg opened]
    rfl

/-- A line of control flow that succeeds follows the rule of its construct. -/
theorem effect_of_construct {construct : Construct} {tokens : List Token} {progress : Progress}
    (said : Construct.ofTokens? tokens = some construct)
    (passed : ((owned .flow tokens).effect text scope).answer = .ok progress) :
    progress = .next ∧ ∃ last code, Flow.Writes construct scope last code ∧
      (owned .flow tokens).effect text scope =
        ⟨.ok .next, last, echoed scope.options text tokens ++ code⟩ := by
  rw [effect_of_construct? said] at passed ⊢
  cases answer : (Flow.effect construct scope).answer with
  | error cause =>
    rw [answer] at passed
    cases passed
  | ok value =>
    rw [answer] at passed
    cases passed
    exact ⟨rfl, _, _, Flow.writes_of_effect answer, rfl⟩

/-- A declaration puts its name in the place of the namespace. -/
theorem effect_of_declares {name : String} (said : reading.declares? = some name) :
    (reading.effect text scope).answer = .ok .next ∧
      (reading.effect text scope).scope = { scope with declared := some name } ∧
      ∀ statement ∈ (reading.effect text scope).written, statement.IsBare := by
  obtain ⟨first, second, rest, rfl, rfl⟩ := owned_of_declares? said
  have declared := (Family.hasEffect_declare first second rest).effect_eq scope
  dsimp only [effect, Family.emit]
  rw [declared, List.append_nil]
  exact ⟨rfl, rfl, fun _ member => echoed_isBare member⟩

/-- A line that neither says a construct nor declares a namespace leaves the scope and writes bare
statements. -/
theorem effect_of_still (unsaid : reading.construct? = none)
    (undeclared : reading.declares? = none) :
    (reading.effect text scope).scope = scope ∧
      ∀ statement ∈ (reading.effect text scope).written, statement.IsBare := by
  cases reading with
  | blank => simp [effect, Statement.IsBare]
  | marker => simp [effect]
  | unreadable cause => simp [effect]
  | owned family tokens =>
    have still : (family.emit tokens).Still Statement.IsBare := by
      cases family with
      | remarks => exact Family.still_remark tokens
      | comparisons => exact (Transfer.plain_compare tokens).still
      | space =>
        rcases tokens with _ | ⟨first, _ | ⟨second, rest⟩⟩
        · exact (plain_fail _).still
        · exact (plain_fail _).still
        · cases undeclared
      | flow =>
        have unwritten : Flow.line tokens = unexpected tokens := by
          simp only [construct?] at unsaid
          simp only [Flow.line, unsaid]
        rw [Family.emit, unwritten]
        exact (plain_fail _).still
      | ports | plain | counting | stack | assignments | arithmetic | shifts =>
        exact ((Family.plain_emit rfl tokens).mono fun _ straight => straight.isBare).still
    obtain ⟨kept, bare⟩ := still scope
    refine ⟨kept, fun statement member => ?_⟩
    rcases List.mem_append.mp member with repeated | written
    · exact echoed_isBare repeated
    · exact bare statement written

/-- In a sound scope, the scope that a line leaves when it fails is known. -/
theorem scope_of_error {cause : CompileError} (sound : scope.Sound)
    (failed : (reading.effect text scope).answer = .error cause) :
    (reading.effect text scope).scope = reading.scopeOnFailure scope := by
  unfold scopeOnFailure
  cases said : reading.construct? with
  | some construct =>
    obtain ⟨tokens, rfl, tokens_say⟩ := owned_of_construct? said
    rw [effect_of_construct? tokens_say] at failed ⊢
    cases answer : (Flow.effect construct scope).answer with
    | ok value =>
      rw [answer] at failed
      cases failed
    | error reason => exact Flow.scope_of_effect_error sound answer
  | none =>
    cases declared : reading.declares? with
    | some name =>
      rw [(effect_of_declares declared).1] at failed
      cases failed
    | none => exact (effect_of_still said declared).1

end Effects

end Reading

end LineAsm
