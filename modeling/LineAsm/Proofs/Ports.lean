import LineAsm.Proofs.Margins
import LineAsm.Proofs.Numerals
import LineAsm.Proofs.Operands
import LineAsm.Proofs.Rejection
/-!
# Which ports are accepted

A port is named by the port register, in any case, or by a number of one byte (`Port.Names`). A line
that reads or writes a port (`PortLine`) compiles if what its brackets hold, without the brackets
at its front and without blank ends, is such a name, and also if it is such a number with a plus
sign in front of its digits (`Port.Signed`): the sign is read over and written out, as in
`out 0x+5, AL`. So a name that is directly between one pair of brackets is accepted, and what is
accepted beyond that has further brackets or a sign (`Compiler.compile_port`).
-/

namespace LineAsm

namespace Port

/-- The characters name a port: the port register in any case, or a number of at most one byte. -/
def Names (word : List Char) : Prop :=
  word.map Char.toLower = ['d', 'x'] ∨ ∃ value ≤ 255, Numeral [] word value

/-- The characters are a number of at most one byte with a plus sign in front of its digits. -/
def Signed (word : List Char) : Prop := ∃ value ≤ 255, Numeral ['+'] word value

section Words

variable {word content : List Char}

/-- A numeral has its sign. -/
theorem Numeral.mem {sign : List Char} {value : Nat} (numeral : Numeral sign word value) {c : Char}
    (member : c ∈ sign) : c ∈ word := by
  cases numeral with
  | hexadecimal marked spelled =>
    exact List.mem_cons_of_mem _ (List.mem_cons_of_mem _ (List.mem_append_left _ member))
  | decimal spelled => exact List.mem_append_left _ member

/-- In a name of a port every character is a letter or a digit. -/
theorem Names.not_mem (names : Names word) {c : Char}
    (foreign : ∀ figure < 16, Nat.digitChar figure ≠ c.toLower) (other : c.toLower ≠ 'x') :
    c ∉ word := by
  intro member
  have d : 'd' ≠ c.toLower := foreign 13 (by decide)
  rcases names with register | ⟨value, -, numeral⟩
  · have lower : c.toLower ∈ word.map Char.toLower := List.mem_map_of_mem member
    rw [register] at lower
    simp [other, d.symm] at lower
  · exact numeral.not_mem foreign other List.not_mem_nil member

/-- No name of a port has a sign. -/
theorem Names.not_signed (names : Names word) : ¬ Signed word := by
  rintro ⟨value, -, numeral⟩
  exact names.not_mem (by decide) (by decide) (numeral.mem List.mem_cons_self)

/-- What the brackets of a port hold, without the brackets at its front and without blank ends. -/
theorem inside_eq (unclosed : ']' ∉ content) :
    inside (.ofList ('[' :: content ++ [']'])) =
      .ofList (Text.trimChars (content.dropWhile (· == '['))) := by
  have opened : ('[' :: content ++ [']']).dropWhile (· == '[') =
      content.dropWhile (· == '[') ++ [']'] := by
    rw [List.cons_append, List.dropWhile_cons_of_pos (by decide), List.dropWhile_append]
    split
    · rename_i nothing
      rw [List.isEmpty_iff.mp nothing]
      rfl
    · rfl
  -- Of the closing brackets only the last is dropped, for there is none before it.
  have kept : ((content.dropWhile (· == '[')).reverse).dropWhile (· == ']') =
      (content.dropWhile (· == '[')).reverse := by
    cases turned : (content.dropWhile (· == '[')).reverse with
    | nil => rfl
    | cons c rest =>
      have member : c ∈ content.dropWhile (· == '[') :=
        List.mem_reverse.mp (turned ▸ List.mem_cons_self)
      refine List.dropWhile_cons_of_neg fun closing => unclosed ?_
      exact beq_iff_eq.mp closing ▸ (List.dropWhile_sublist _).subset member
  unfold inside
  dsimp only
  rw [String.toList_ofList, opened, List.reverse_append, List.reverse_singleton,
    List.singleton_append, List.dropWhile_cons_of_pos (by decide), kept, List.reverse_reverse]

example : inside "[[ DX ]" = "DX" := by decide +kernel

/-- A token is taken for a port exactly if it holds the name of one or a signed number. -/
theorem exists_operand_iff (token : Token) : (∃ place, operand token = .ok place) ↔
    Names (inside token.value).toList ∨ Signed (inside token.value).toList := by
  have register : Text.sameLetters (inside token.value) "DX" = true ↔
      (inside token.value).toList.map Char.toLower = ['d', 'x'] := beq_iff_eq
  have number : (value? (inside token.value).toList).any (· < 256) = true ↔
      (∃ value ≤ 255, Numeral [] (inside token.value).toList value) ∨
        Signed (inside token.value).toList := by
    simp only [Option.any_eq_true, value?_eq_some_iff, decide_eq_true_eq, Signed]
    constructor
    · rintro ⟨value, plain | signed, small⟩
      · exact .inl ⟨value, Nat.le_of_lt_succ small, plain⟩
      · exact .inr ⟨value, Nat.le_of_lt_succ small, signed⟩
    · rintro (⟨value, small, plain⟩ | ⟨value, small, signed⟩)
      · exact ⟨value, .inl plain, Nat.lt_succ_of_le small⟩
      · exact ⟨value, .inr signed, Nat.lt_succ_of_le small⟩
  rw [Names, or_assoc, ← register, ← number]
  unfold operand
  dsimp only
  by_cases same : Text.sameLetters (inside token.value) "DX" = true
  · simp [same]
  · by_cases small : (value? (inside token.value).toList).any (· < 256) = true
    · simp [same, small]
    · simp [same, small]

/-- The operand of a port is written as the token holds it. -/
theorem text_of_operand {token : Token} {place : Operand} (named : operand token = .ok place) :
    place.text = inside token.value := by
  unfold operand at named
  dsimp only at named
  split at named
  · cases named
    rfl
  · split at named
    · cases named
      rfl
    · cases named

/-- What stands directly between one pair of brackets names a port exactly if it is accepted, begins
with no further bracket and has no sign. -/
theorem names_trimChars_iff :
    let word := Text.trimChars (content.dropWhile (· == '['))
    Names (Text.trimChars content) ↔
      (Names word ∨ Signed word) ∧ content.head? ≠ some '[' ∧ ¬ Signed word := by
  intro word
  have plain (single : content.head? ≠ some '[') : word = Text.trimChars content := by
    refine congrArg Text.trimChars ?_
    cases content with
    | nil => rfl
    | cons c rest =>
      refine List.dropWhile_cons_of_neg fun opening => single ?_
      rw [List.head?_cons, beq_iff_eq.mp opening]
  constructor
  · intro names
    -- A second bracket would be kept by trimming, and stands in no name.
    have single : content.head? ≠ some '[' := by
      intro first
      obtain ⟨rest, rfl⟩ := List.head?_eq_some_iff.mp first
      exact names.not_mem (by decide) (by decide)
        (Text.mem_trimChars (by decide) List.mem_cons_self)
    rw [plain single]
    exact ⟨.inl names, single, names.not_signed⟩
  · rintro ⟨accepted, single, unsigned⟩
    rw [← plain single]
    exact accepted.resolve_right unsigned

end Words

end Port

/-- The tokens of a line that reads or writes the port of a text between brackets, and the code of
the line for the operand that the port names. -/
inductive PortLine (port : String) : List Token → (Operand → Statement) → Prop where
  /-- A register is written to the port. -/
  | output (first second third fourth : Nat) (register : String) :
      PortLine port [⟨.identifier, "Port", first⟩, ⟨.memory, port, second⟩, ⟨.symbol, "=", third⟩,
        ⟨.register, register, fourth⟩] fun place => .instruction .output [place, .register register]
  /-- The port is read into a register. -/
  | input (first second third fourth : Nat) (register : String) :
      PortLine port [⟨.register, register, first⟩, ⟨.symbol, "=", second⟩,
        ⟨.identifier, "Port", third⟩, ⟨.memory, port, fourth⟩]
        fun place => .instruction .input [.register register, place]

/-- A lexeme of an address is a text between brackets. -/
theorem Lexeme.Class.exists_of_memory {said : String} {lexeme : List Char}
    (classed : Class .memory said lexeme) :
    ∃ content, ']' ∉ content ∧ said = .ofList ('[' :: content ++ [']']) := by
  generalize kind_eq : Token.Kind.memory = kind at classed
  cases classed with
  | memory unclosed => exact ⟨_, unclosed, rfl⟩
  | @word first parts start only =>
    have word := wordKind_mem (.ofList (first :: parts))
    rw [← kind_eq] at word
    exact absurd word (by decide)
  | _ => cases kind_eq

/-- The token of an address is a text between brackets. -/
theorem Token.exists_content {line : String} {tokens : List Token}
    (read : ofLine line = .ok tokens) {token : Token} (member : token ∈ tokens)
    (memory : token.kind = .memory) :
    ∃ content, ']' ∉ content ∧ token.value = .ofList ('[' :: content ++ [']']) := by
  have kept : token.kind.isRemark = false := by
    rw [memory]
    rfl
  have classed := class_of_ofLine read member kept
  rw [memory] at classed
  exact classed.exists_of_memory

/-- A line that reads as the end marker without its blank ends begins with a comment. -/
theorem Token.comment_of_marker {text : String} {tokens : List Token}
    (marker : Text.trim text = Compiler.endMarker) (read : ofLine text = .ok tokens) :
    ∃ token rest, tokens = token :: rest ∧ token.kind = .comment := by
  obtain ⟨front, blanks, whole, before, -⟩ := Text.exists_trim text
  have letters : (Text.trim text).toList = ['/', '/', 'E', 'N', 'D'] := by
    rw [marker]
    decide
  obtain ⟨column, passed⟩ := Lexer.exists_scan_append before 0 false
    ('/' :: '/' :: 'E' :: 'N' :: 'D' :: blanks)
  have scanned : Lexer.scan 0 false text.toList = .ok tokens := read
  rw [whole, letters] at scanned
  exact Lexer.exists_cons_of_scan (by decide) (Lexeme.at?_of_remark? rfl)
    (passed.symm.trans scanned)

namespace Reading

/-- A line that is dispatched, and is no comment, belongs to the family that it is dispatched to. -/
theorem of_eq_owned {text : String} {dispatch : Dispatch Family}
    (parsed : Table.parse Family.standard text = .ok dispatch)
    (other : ∀ token ∈ dispatch.tokens, token.kind ≠ .comment) :
    of text = .owned dispatch.owner dispatch.tokens := by
  have read := Table.ofLine_of_parse parsed
  have visible : ¬ Text.allBlank text = true := by
    intro blank
    have nothing : Token.ofLine text = .ok [] :=
      Lexer.scan_blanks (List.all_eq_true.mp blank) 0 false
    obtain ⟨line, again, present, -⟩ := Table.parse_eq_ok_iff.mp parsed
    exact present (Except.ok.inj (again.symm.trans nothing))
  have unmarked : ¬ (Text.trim text == Compiler.endMarker) = true := by
    intro marker
    obtain ⟨token, rest, shape, comment⟩ := Token.comment_of_marker (eq_of_beq marker) read
    exact other token (shape ▸ List.mem_cons_self) comment
  rw [of, if_neg visible, if_neg unmarked, parsed]

end Reading

namespace PortLine

variable {port text : String} {tokens : List Token} {code : Operand → Statement}

/-- The line matches a pattern of its family. -/
theorem matched (line : PortLine port tokens code) :
    ∃ pattern ∈ Family.ports.patterns, pattern.matchesLine tokens = true := by
  cases line with
  | output => exact ⟨_, .head _, rfl⟩
  | input => exact ⟨_, .tail _ (.head _), rfl⟩

/-- One of the tokens is that of the port, and the line is written for what it names. -/
theorem exists_emit (line : PortLine port tokens code) (classified : Token.Classified tokens) :
    ∃ token ∈ tokens, token.kind = .memory ∧ token.value = port ∧
      Family.ports.emit tokens =
        Transfer.port token >>= fun place => Emission.write (code place) := by
  cases line with
  | output => exact ⟨_, .tail _ (.head _), rfl, rfl, rfl⟩
  | input first second third fourth register =>
    have word : Token.classify "Port" ≠ some .register := by decide +kernel
    have unlike : register ≠ "Port" := classified.value_ne List.mem_cons_self rfl rfl word
    refine ⟨⟨.memory, port, fourth⟩, by simp, rfl, rfl, ?_⟩
    simp only [Family.emit, Transfer.ports, beq_iff_eq, if_neg unlike]
    rfl

/-- The line reads and writes ports. -/
theorem reading (line : PortLine port tokens code) (read : Token.ofLine text = .ok tokens) :
    Reading.of text = .owned .ports tokens := by
  have apart : ∀ other ∈ Family.standard, other ≠ .ports →
      Table.shadows other .ports = false ∧ Table.shadows .ports other = false := by
    decide +kernel
  have present : tokens ≠ [] := by cases line <;> exact List.cons_ne_nil _ _
  have uncommented : ∀ token ∈ tokens, token.kind ≠ .comment := by
    cases line <;> simp
  obtain ⟨pattern, member, matched⟩ := line.matched
  obtain ⟨dispatch, parsed, owner, same⟩ := Family.exists_parse apart read present member matched
  rw [← owner, ← same]
  exact Reading.of_eq_owned parsed (same.symm ▸ uncommented)

/-- The line has the effect that its port is named or refused: its code is written, or it fails. -/
theorem effect_eq (line : PortLine port tokens code) (read : Token.ofLine text = .ok tokens)
    (scope : Scope) :
    ∃ token ∈ tokens, token.kind = .memory ∧ token.value = port ∧
      (∀ place, Port.operand token = .ok place → (Reading.of text).effect text scope =
        ⟨.ok .next, scope, Reading.echoed scope.options text tokens ++ [code place]⟩) ∧
      ∀ cause, Port.operand token = .error cause →
        ((Reading.of text).effect text scope).answer =
          .error (.emission (.invalidOperands cause)) := by
  have classified := Token.classified_of_ofLine read
  obtain ⟨token, member, memory, said, emit⟩ := line.exists_emit classified
  refine ⟨token, member, memory, said, fun place named => ?_, fun cause refused => ?_⟩
  · have written : (Family.ports.emit tokens).HasEffect fun scope =>
        ⟨.ok (), scope, [code place]⟩ := by
      rw [emit, Transfer.port, named]
      exact Emission.hasEffect_write (code place)
    rw [line.reading read, Reading.effect, written.effect_eq]
    rfl
  · have failed : (Family.ports.emit tokens).HasEffect fun scope =>
        ⟨.error (.emission (.invalidOperands cause)), scope, []⟩ := by
      rw [emit, Transfer.port, refused]
      exact Emission.hasEffect_fail_bind _ _
    rw [line.reading read, Reading.effect, failed.effect_eq]
    rfl

end PortLine

namespace Compiler

variable {compiler : Compiler Family}

/-- A line that reads or writes a port compiles if what its brackets hold, without the brackets at
its front and without blank ends, names a port or is a signed number, and its port is written as
this word; otherwise it is refused for this word. So what stands directly between one pair of
brackets names a port if and only if the line compiles, no bracket is dropped and there is no
sign. -/
theorem compile_port (reachable : compiler.Reachable) (lines : List Listing.Line) {raw : String}
    {tokens : List Token} (read : Token.ofLine (textOf raw) = .ok tokens) {port : String}
    {code : Operand → Statement} (line : PortLine port tokens code) :
    ∃ content, ']' ∉ content ∧ port = .ofList ('[' :: content ++ [']']) ∧
      let word := Text.trimChars (content.dropWhile (· == '['))
      let outcome := compiler.compile lines [.ok raw]
      (outcome.failure = none ↔ Port.Names word ∨ Port.Signed word) ∧
      (outcome.failure = none → ∃ place : Operand, place.text = .ofList word ∧
        statements outcome.sink = statements lines ++
          Reading.echoed compiler.state.options (textOf raw) tokens ++ [code place]) ∧
      (outcome.failure ≠ none → outcome.sink = lines ∧ outcome.failure =
        some ⟨.emission (.invalidOperands (.badPort (.ofList word))), 1, some (textOf raw)⟩) ∧
      (Port.Names (Text.trimChars content) ↔
        outcome.failure = none ∧ content.head? ≠ some '[' ∧ ¬ Port.Signed word) := by
  obtain ⟨token, member, memory, rfl, named, refused⟩ := line.effect_eq read compiler.state.scope
  obtain ⟨content, unclosed, shape⟩ := Token.exists_content read member memory
  refine ⟨content, unclosed, shape, ?_⟩
  intro word outcome
  have held : Port.inside token.value = .ofList word := by
    rw [shape, Port.inside_eq unclosed]
  have accepts := Port.exists_operand_iff token
  rw [held, String.toList_ofList] at accepts
  obtain ⟨passes, fails⟩ := compile_single reachable.ready lines raw
  have judged : outcome.failure = none ↔ ∃ place, Port.operand token = .ok place := by
    constructor
    · intro passed
      cases decided : Port.operand token with
      | ok place => exact ⟨place, rfl⟩
      | error cause =>
        have failed := (fails _ (refused cause decided)).1
        exact absurd (failed.symm.trans passed) (Option.some_ne_none _)
    · rintro ⟨place, decided⟩
      exact (passes .next (congrArg Effect.answer (named place decided))).1
  refine ⟨judged.trans accepts, fun passed => ?_, fun failed => ?_, ?_⟩
  · obtain ⟨place, decided⟩ := judged.mp passed
    have effect := named place decided
    have written := (passes .next (congrArg Effect.answer effect)).2
    rw [effect, ← List.append_assoc] at written
    exact ⟨place, (Port.text_of_operand decided).trans held, written⟩
  · cases decided : Port.operand token with
    | ok place => exact absurd (judged.mpr ⟨place, decided⟩) failed
    | error cause =>
      obtain rfl := Port.operand_eq_error decided
      obtain ⟨failure, kept⟩ := fails _ (refused _ decided)
      rw [held] at failure
      exact ⟨kept, failure⟩
  · rw [judged.trans accepts]
    exact Port.names_trimChars_iff

/-- Hexadecimal digits behind a plus sign are accepted and written out, though they name no port. -/
theorem compile_port_signed :
    let outcome := (new { echoSource := false } Family.standard).compile ([] : List Listing.Line)
      [.ok "Port[0x+5] = AL"]
    ¬ Port.Names ['0', 'x', '+', '5'] ∧ outcome.failure = none ∧
      ∃ place : Operand, place.text = "0x+5" ∧
        statements outcome.sink = [.instruction .output [place, .register "AL"]] := by
  have tokens : (Token.ofLine (textOf "Port[0x+5] = AL")).toOption = some
      [⟨.identifier, "Port", 0⟩, ⟨.memory, "[0x+5]", 4⟩, ⟨.symbol, "=", 11⟩,
        ⟨.register, "AL", 13⟩] := by
    decide +kernel
  obtain ⟨content, -, shape, accepts, written, -⟩ :=
    compile_port ⟨{ echoSource := false }, .refl⟩ [] (Token.ofLine_of_toOption tokens)
      (.output 0 4 11 13 "AL")
  obtain rfl : content = ['0', 'x', '+', '5'] := by
    have letters : '[' :: content ++ [']'] = ['[', '0', 'x', '+', '5'] ++ [']'] := by
      rw [← String.toList_ofList (l := '[' :: content ++ [']']), ← shape]
      decide
    exact (List.cons.inj (List.append_cancel_right letters)).2
  have signed : Port.Signed ['0', 'x', '+', '5'] :=
    ⟨5, by decide, .hexadecimal (.inl rfl)
      (⟨by decide, [5], by decide, by decide, by decide⟩ : Port.Spells 16 ['5'] 5)⟩
  have passed := accepts.mpr (.inr signed)
  obtain ⟨place, said, statements⟩ := written passed
  exact ⟨fun names => names.not_signed signed, passed, place, said, statements⟩

end Compiler

end LineAsm
