import LineAsm.Proofs.Columns
import LineAsm.Proofs.Branches
/-!
# What a line does without its blank ends

Patterns and families ask for the kinds and the texts of tokens, and not for their columns
(`Pattern.matchesLine_unplaced`, `Family.emit_unplaced`). So two lines that are equal without their
blank ends are dispatched to one family, and do the same in every scope
(`Reading.unplaced_effect`); if they are refused, it is for causes that are equal but for a column.
-/

namespace LineAsm

namespace Text

/-- A text is what is left of it when it is trimmed, between blanks. -/
theorem exists_trim (text : String) : ∃ front blanks,
    text.toList = front ++ ((trim text).toList ++ blanks) ∧ (∀ c ∈ front, isBlank c = true) ∧
      ∀ c ∈ blanks, isBlank c = true := by
  obtain ⟨front, whole, before⟩ := exists_dropBlank text.toList
  obtain ⟨blanks, rest, after⟩ := exists_dropBlankEnd (dropBlank text.toList)
  have core : (trim text).toList = dropBlankEnd (dropBlank text.toList) := by
    rw [trim, String.toList_ofList, trimChars]
  exact ⟨front, blanks, by rw [core, ← rest, ← whole], before, after⟩

/-- A visible character is kept where blank ends are trimmed. -/
theorem mem_trimChars {c : Char} {cs : List Char} (visible : isBlank c = false)
    (member : c ∈ cs) : c ∈ trimChars cs := by
  obtain ⟨front, blanks, whole, before, after⟩ := exists_trim (.ofList cs)
  rw [String.toList_ofList, trim, String.toList_ofList, String.toList_ofList] at whole
  rw [whole, List.mem_append, List.mem_append] at member
  obtain first | kept | last := member
  · exact absurd (before c first) (Bool.eq_false_iff.mp visible)
  · exact kept
  · exact absurd (after c last) (Bool.eq_false_iff.mp visible)

/-- A trimmed text stays as it is when it is trimmed. -/
theorem trim_trim (text : String) : trim (trim text) = trim text := by
  obtain ⟨front, blanks, whole, before, after⟩ := exists_trim text
  have same : trimChars text.toList = trimChars (trim text).toList := by
    rw [← trimChars_append (trim text).toList after, whole, trimChars, trimChars,
      dropBlank_append before]
  rw [trim, ← same, trim]

/-- A text is blank when it is blank without its blank ends. -/
theorem allBlank_trim (text : String) : allBlank (trim text) = allBlank text := by
  obtain ⟨front, blanks, whole, before, after⟩ := exists_trim text
  have first : front.all isBlank = true := List.all_eq_true.mpr before
  have last : blanks.all isBlank = true := List.all_eq_true.mpr after
  rw [allBlank, allBlank, whole, List.all_append, List.all_append, first, last, Bool.true_and,
    Bool.and_true]

end Text

section Token

variable (token other : Token)

/-- A token keeps its kind without its place. -/
@[simp] theorem Token.kind_unplaced : token.unplaced.kind = token.kind := rfl

/-- A token keeps its text without its place. -/
@[simp] theorem Token.value_unplaced : token.unplaced.value = token.value := rfl

/-- Tokens say the same without their places. -/
@[simp] theorem Token.same_unplaced : token.unplaced.same other.unplaced = token.same other := rfl

/-- A token names memory without its place. -/
@[simp] theorem Token.isMemory_unplaced : token.unplaced.isMemory = token.isMemory := rfl

/-- A token is copied without its place. -/
@[simp] theorem Operand.verbatim_unplaced : verbatim token.unplaced = verbatim token := rfl

/-- A token names an operand without its place. -/
@[simp] theorem Operand.sizedOfToken_unplaced :
    sizedOfToken token.unplaced = sizedOfToken token := rfl

/-- Two tokens name operands without their places. -/
@[simp] theorem Operand.pair_unplaced :
    pair token.unplaced other.unplaced = pair token other := rfl

/-- A token names a port without its place. -/
@[simp] theorem Transfer.port_unplaced : port token.unplaced = port token := by
  rw [port, Port.operand, Token.value_unplaced, port, Port.operand]

end Token

namespace Pattern

/-- An element asks for no place. -/
theorem Element.accepts_unplaced (element : Element) (before : List Token) (token : Token) :
    element.accepts (before.map Token.unplaced) token.unplaced = element.accepts before token := by
  cases element with
  | same earlier =>
    simp only [accepts, List.getElem?_map, Option.any_map]
    rfl
  | _ => rfl

/-- A pattern asks for no place. -/
theorem matchesLine_unplaced (pattern : Pattern) (tokens : List Token) :
    pattern.matchesLine (tokens.map Token.unplaced) = pattern.matchesLine tokens := by
  have accepted (position : Nat) :
      pattern.acceptsAt (tokens.map Token.unplaced) position =
        pattern.acceptsAt tokens position := by
    unfold acceptsAt
    rw [List.getElem?_map, ← List.map_take]
    cases pattern[position]? with
    | none => rfl
    | some element =>
      cases tokens[position]? with
      | none => rfl
      | some token => exact element.accepts_unplaced _ token
  unfold matchesLine
  rw [List.length_map, funext accepted]

/-- A pattern ends where it ends without places. -/
theorem endsAt_unplaced (pattern : Pattern) (tokens : List Token) (position : Nat) :
    pattern.endsAt (tokens.map Token.unplaced) position = pattern.endsAt tokens position := by
  rw [endsAt, ← List.map_take, matchesLine_unplaced, endsAt]

end Pattern

/-- A reason to refuse a line, without the place of what cannot be read. -/
def DialectError.unplaced : DialectError → DialectError
  | .malformed cause => .malformed cause.unplaced
  | cause => cause

/-- A cause of failure, without the place of what cannot be read. -/
def CompileError.unplaced : CompileError → CompileError
  | .dialect cause => .dialect cause.unplaced
  | cause => cause

namespace Table

/-- What a line is dispatched as, without places. -/
def unplaced : Except DialectError (Dispatch Family) → Except DialectError (Family × List Token)
  | .ok dispatch => .ok (dispatch.owner, dispatch.tokens.map Token.unplaced)
  | .error cause => .error cause.unplaced

/-- What the tokens of a line, or their failure, are dispatched as. -/
def settle (table : Table Family) :
    Except LexError (List Token) → Except DialectError (Dispatch Family)
  | .ok tokens => trailing (table.claims tokens)
  | .error cause => .error (.malformed cause)

/-- The tokens of a line belong to the same families without their places. -/
theorem claims_unplaced (table : Table Family) (tokens : List Token) :
    table.claims (tokens.map Token.unplaced) =
      (table.claims tokens).map fun claim => ⟨claim.token.unplaced, claim.owner⟩ := by
  have owners (position : Nat) : table.owner? (tokens.map Token.unplaced) position =
      table.owner? tokens position := by
    have recognizes (family : Family) :
        Emitter.recognizes family (tokens.map Token.unplaced) position =
          Emitter.recognizes family tokens position := by
      have ends (pattern : Pattern) := pattern.endsAt_unplaced tokens position
      change (family.patterns.any _) = (family.patterns.any _)
      rw [funext ends]
    rw [owner?, funext recognizes, owner?]
  simp only [claims, List.zipIdx_map, List.map_map, Function.comp_def, owners, Prod.map]
  rfl

/-- Tokens are dispatched without their places as they are with them. -/
theorem unplaced_settle (table : Table Family) (result : Except LexError (List Token)) :
    unplaced (table.settle (Lexer.unplaced result)) = unplaced (table.settle result) := by
  cases result with
  | error cause => rfl
  | ok tokens =>
    simp only [settle, Lexer.unplaced, claims_unplaced, trailing, List.getLast?_map]
    cases last : (table.claims tokens).getLast? with
    | none => rfl
    | some claim =>
      obtain ⟨token, owner⟩ := claim
      cases owner with
      | none => rfl
      | some owner =>
        simp only [Option.map_some, unplaced, Dispatch.tokens, List.map_map, Function.comp_def]
        rfl

/-- A line is dispatched as it is without its blank ends, but for places. -/
theorem unplaced_parse_trim (table : Table Family) {text : String} (unbroken : '\n' ∉ text.toList) :
    unplaced (table.parse (Text.trim text)) = unplaced (table.parse text) := by
  have settled (text : String) : table.parse text = table.settle (Token.ofLine text) := by
    unfold parse
    cases Token.ofLine text <;> rfl
  rw [settled, settled, ← unplaced_settle, Token.unplaced_ofLine_trim unbroken, unplaced_settle]

end Table

section Families

variable (tokens : List Token)

/-- A namespace is declared without places. -/
theorem Family.declare_unplaced : declare (tokens.map Token.unplaced) = declare tokens := by
  rcases tokens with _ | ⟨first, _ | ⟨second, rest⟩⟩ <;> simp [declare, Emission.unexpected]

/-- A remark is written without its place. -/
theorem Family.remark_unplaced : remark (tokens.map Token.unplaced) = remark tokens := by
  cases tokens <;> simp [remark]

/-- A port is read or written to without places. -/
theorem Transfer.ports_unplaced : ports (tokens.map Token.unplaced) = ports tokens := by
  rcases tokens with _ | ⟨first, _ | ⟨second, _ | ⟨third, _ | ⟨fourth, _ | ⟨fifth, rest⟩⟩⟩⟩⟩ <;>
    simp [ports, Emission.unexpected, Function.comp_def]

/-- An operation without operands is written without places. -/
theorem Transfer.plain_unplaced : plain (tokens.map Token.unplaced) = plain tokens := by
  rcases tokens with _ | ⟨first, _ | ⟨second, _ | ⟨third, rest⟩⟩⟩ <;>
    simp [plain, Emission.unexpected, Function.comp_def]

/-- A destination is counted up or down without places. -/
theorem Arithmetic.count_unplaced : count (tokens.map Token.unplaced) = count tokens := by
  cases tokens with
  | nil => rfl
  | cons first rest => simp [count, Function.comp_def]

/-- An operand is pushed or popped into without places. -/
theorem Transfer.stack_unplaced : stack (tokens.map Token.unplaced) = stack tokens := by
  rcases tokens with _ | ⟨first, _ | ⟨second, rest⟩⟩ <;> simp [stack, Emission.unexpected]

/-- An operand is assigned without places. -/
theorem Transfer.assign_unplaced : assign (tokens.map Token.unplaced) = assign tokens := by
  rcases tokens with _ | ⟨first, _ | ⟨second, _ | ⟨third, rest⟩⟩⟩ <;>
    simp [assign, Emission.unexpected]

/-- Operands are compared without places. -/
theorem Transfer.compare_unplaced : compare (tokens.map Token.unplaced) = compare tokens := by
  rcases tokens with _ | ⟨first, _ | ⟨second, _ | ⟨third, rest⟩⟩⟩ <;>
    simp [compare, Emission.unexpected]

/-- Operands are combined without places. -/
theorem Arithmetic.combine_unplaced : combine (tokens.map Token.unplaced) = combine tokens := by
  rcases tokens with
    _ | ⟨first, _ | ⟨second, _ | ⟨third, _ | ⟨fourth, _ | ⟨fifth, _ | ⟨sixth, rest⟩⟩⟩⟩⟩⟩ <;>
    simp [combine, inPlace, reversed, loaded, Emission.unexpected, Function.comp_def]

/-- A destination is shifted without places. -/
theorem Arithmetic.move_unplaced : move (tokens.map Token.unplaced) = move tokens := by
  rcases tokens with _ | ⟨first, _ | ⟨second, _ | ⟨third, rest⟩⟩⟩ <;>
    simp [move, Emission.unexpected]

end Families

/-- A token that is none of some text has another text. -/
theorem Token.value_ne_of_ne {token : Token} {text : String}
    (unlike : ∀ kind column, token = ⟨kind, text, column⟩ → False) : token.value ≠ text := by
  rintro rfl
  exact unlike token.kind token.column rfl

namespace Construct

/-- What a line of control flow says, without places. -/
def unplaced : Construct → Construct
  | .conditional left condition right => .conditional left.unplaced condition right.unplaced
  | .looping left condition right => .looping left.unplaced condition right.unplaced
  | .counted count => .counted count.unplaced
  | .declare name value => .declare name (value.map Token.unplaced)
  | construct => construct

/-- What the words of a line say they say without places. -/
theorem ofTokens?_unplaced {tokens : List Token} {construct : Construct}
    (said : ofTokens? tokens = some construct) :
    ofTokens? (tokens.map Token.unplaced) = some construct.unplaced := by
  unfold ofTokens? at said
  split at said
  -- Where a name stands, the cases before this one are passed over for its text.
  case h_9 noFunction =>
    cases said
    simp [ofTokens?, Token.unplaced, Token.value_ne_of_ne noFunction, unplaced]
  case h_11 noLabel | h_12 noLabel | h_13 noLabel =>
    cases said
    simp [ofTokens?, Token.unplaced, Token.value_ne_of_ne noLabel, unplaced]
  case h_10 | h_14 =>
    cases said
    simp [ofTokens?, Token.unplaced, unplaced]
  case h_15 => cases said
  all_goals
    cases said
    rfl

/-- A construct is written without places. -/
theorem emit_unplaced (construct : Construct) :
    Flow.emit construct.unplaced = Flow.emit construct := by
  cases construct with
  | declare name value => cases value <;> rfl
  | _ => rfl

end Construct

namespace Family

/-- The code of a line that is dispatched does not depend on the places of its tokens. -/
theorem emit_unplaced {text : String} {dispatch : Dispatch Family}
    (parsed : Table.parse standard text = .ok dispatch) :
    dispatch.owner.emit (dispatch.tokens.map Token.unplaced) =
      dispatch.owner.emit dispatch.tokens := by
  obtain ⟨pattern, member, matched⟩ := matches_of_parse parsed
  have classified := Token.classified_of_ofLine (Table.ofLine_of_parse parsed)
  generalize dispatch.owner = family at member ⊢
  generalize dispatch.tokens = tokens at matched classified ⊢
  cases family with
  | space => exact declare_unplaced tokens
  | remarks => exact remark_unplaced tokens
  | ports => exact Transfer.ports_unplaced tokens
  | plain => exact Transfer.plain_unplaced tokens
  | counting => exact Arithmetic.count_unplaced tokens
  | stack => exact Transfer.stack_unplaced tokens
  | assignments => exact Transfer.assign_unplaced tokens
  | comparisons => exact Transfer.compare_unplaced tokens
  | arithmetic => exact Arithmetic.combine_unplaced tokens
  | shifts => exact Arithmetic.move_unplaced tokens
  | flow =>
    obtain ⟨construct, -, said⟩ :=
      Construct.exists_reads member (Pattern.fits_of_matchesLine matched) classified
    simp only [emit, Flow.line, said, Construct.ofTokens?_unplaced said, Construct.emit_unplaced]

end Family

/-- Results that are equal but for their errors are both errors, or one and the same value. -/
theorem cases_of_mapError_eq {ε δ α : Type} {send : ε → δ} {one other : Except ε α}
    (same : one.mapError send = other.mapError send) :
    (∃ cause reason, one = .error cause ∧ other = .error reason ∧ send cause = send reason) ∨
      ∃ value, one = .ok value ∧ other = .ok value := by
  cases one with
  | error cause =>
    cases other with
    | error reason => exact .inl ⟨cause, reason, rfl, rfl, Except.error.inj same⟩
    | ok value => cases same
  | ok value =>
    cases other with
    | error reason => cases same
    | ok other => exact .inr ⟨value, rfl, congrArg Except.ok (Except.ok.inj same).symm⟩

/-- What a line does, without the place of what cannot be read. -/
def Effect.unplaced {α : Type} (effect : Effect α) : Effect α :=
  { effect with answer := effect.answer.mapError CompileError.unplaced }

namespace Reading

/-- How a line is taken, without places. -/
def unplaced : Reading → Reading
  | .unreadable cause => .unreadable cause.unplaced
  | .owned family tokens => .owned family (tokens.map Token.unplaced)
  | reading => reading

/-- A line sets the indentation or not without places. -/
theorem indents_unplaced (reading : Reading) : reading.unplaced.indents = reading.indents := by
  cases reading <;> rfl

/-- A line is taken as it is without its blank ends, but for places. -/
theorem unplaced_of_trim {text : String} (unbroken : '\n' ∉ text.toList) :
    (of (Text.trim text)).unplaced = (of text).unplaced := by
  have parsed := Table.unplaced_parse_trim Family.standard unbroken
  simp only [of, Text.allBlank_trim, Text.trim_trim]
  split
  · rfl
  · split
    · rfl
    · cases one : Table.parse Family.standard (Text.trim text) with
      | error cause =>
        cases other : Table.parse Family.standard text with
        | error reason =>
          rw [one, other] at parsed
          exact congrArg unreadable (Except.error.inj parsed)
        | ok dispatch =>
          rw [one, other] at parsed
          cases parsed
      | ok dispatch =>
        cases other : Table.parse Family.standard text with
        | error reason =>
          rw [one, other] at parsed
          cases parsed
        | ok dispatched =>
          rw [one, other] at parsed
          obtain ⟨owner, tokens⟩ := Prod.mk.inj (Except.ok.inj parsed)
          simp only [unplaced, owner, tokens]

/-- Lines that are equal without their blank ends are taken alike, but for places. -/
theorem unplaced_of {one other : String} (unbroken : '\n' ∉ one.toList)
    (whole : '\n' ∉ other.toList) (same : Text.trim one = Text.trim other) :
    (of one).unplaced = (of other).unplaced := by
  rw [← unplaced_of_trim unbroken, same, unplaced_of_trim whole]

/-- A line is repeated without its blank ends and without places. -/
theorem echoed_unplaced (options : Options) (text : String) (tokens : List Token) :
    echoed options (Text.trim text) (tokens.map Token.unplaced) = echoed options text tokens := by
  have first : ((tokens.map Token.unplaced).head?.any fun token => token.kind == .comment) =
      tokens.head?.any fun token => token.kind == .comment := by
    cases tokens <;> rfl
  rw [echoed, first, Text.trim_trim, echoed]

/-- What a line does is decided by how it is taken without places and by its text without blank
ends, but for the place of what cannot be read. -/
theorem unplaced_effect_of (text : String) (scope : Scope) :
    ((of text).unplaced.effect (Text.trim text) scope).unplaced =
      ((of text).effect text scope).unplaced := by
  unfold of
  split
  · rfl
  · split
    · rfl
    · split
      · rename_i cause _
        cases cause <;> rfl
      · rename_i dispatch parsed
        simp only [unplaced, effect, Family.emit_unplaced parsed, echoed_unplaced]

/-- Lines that are equal without their blank ends do the same in every scope, but for the place of
what cannot be read. -/
theorem unplaced_effect {one other : String} (unbroken : '\n' ∉ one.toList)
    (whole : '\n' ∉ other.toList) (same : Text.trim one = Text.trim other) (scope : Scope) :
    ((of one).effect one scope).unplaced = ((of other).effect other scope).unplaced := by
  rw [← unplaced_effect_of, ← unplaced_effect_of, unplaced_of unbroken whole same, same]

/-- Lines that are equal without their blank ends set the indentation alike. -/
theorem indents_congr {one other : String} (unbroken : '\n' ∉ one.toList)
    (whole : '\n' ∉ other.toList) (same : Text.trim one = Text.trim other) :
    (of one).indents = (of other).indents := by
  rw [← indents_unplaced, unplaced_of unbroken whole same, indents_unplaced]

end Reading

end LineAsm
