import LineAsm.Proofs.Coverage
import LineAsm.Proofs.Reading
/-!
# The branch of each pattern

A family states the shapes of its lines twice, in its patterns and in the cases of its code. Here
both are put side by side: one branch for each pattern, with the tokens of its lines and the code
that is meant for them (`Family.Branch`, and `Construct.Reads` for control flow). A line that a
pattern of a family matches is written by the branch of this pattern (`Family.exists_branch`), and
no other pattern of the family matches it (`Family.eq_of_matchesLine`). Both rest on the texts that
a token of each kind can have, since the cases of the code are tried in order and ask for texts.
-/

namespace LineAsm

namespace Pattern

/-- A pattern fits some tokens, element by element, after the tokens before them. -/
inductive Fits : List Token → Pattern → List Token → Prop where
  /-- Nothing is asked of no tokens. -/
  | nil {before : List Token} : Fits before [] []
  /-- The first element accepts the first token, and the others fit the others. -/
  | cons {before tokens : List Token} {token : Token} {element : Element} {rest : Pattern}
      (accepted : element.accepts before token = true)
      (further : Fits (before ++ [token]) rest tokens) :
      Fits before (element :: rest) (token :: tokens)

section Elements

variable {token : Token} {before : List Token}

/-- A token accepted for its text has this text. -/
theorem Element.value_of_text {wanted : String}
    (accepted : (Element.text wanted).accepts before token = true) : token.value = wanted :=
  eq_of_beq (Bool.and_eq_true_iff.mp accepted).2

/-- A token accepted for its text is one of this text. -/
theorem Element.exists_of_text {wanted : String}
    (accepted : (Element.text wanted).accepts before token = true) :
    ∃ kind column, token = ⟨kind, wanted, column⟩ :=
  ⟨token.kind, token.column, by rw [← value_of_text accepted]⟩

/-- A token accepted for its kind has this kind. -/
theorem Element.kind_of_kind {wanted : Token.Kind}
    (accepted : (Element.kind wanted).accepts before token = true) : token.kind = wanted :=
  eq_of_beq accepted

/-- A token accepted for its kind has one of those wanted. -/
theorem Element.kind_mem_of_kinds {wanted : List Token.Kind}
    (accepted : (Element.kinds wanted).accepts before token = true) : token.kind ∈ wanted :=
  List.contains_iff_mem.mp accepted

end Elements

/-- A pattern that matches the last tokens of a line, behind as many elements, fits them. -/
theorem fits_of_accepts {pattern : Pattern} {before tokens : List Token}
    (length : pattern.length = tokens.length)
    (accepted : ∀ (position : Nat) (element : Element) (token : Token),
      pattern[position]? = some element → tokens[position]? = some token →
        element.accepts (before ++ tokens.take position) token = true) :
    Fits before pattern tokens := by
  induction pattern generalizing before tokens with
  | nil =>
    obtain rfl := List.length_eq_zero_iff.mp length.symm
    exact .nil
  | cons element rest ih =>
    cases tokens with
    | nil => cases length
    | cons token tokens =>
      have first := accepted 0 element token rfl rfl
      rw [List.take_zero, List.append_nil] at first
      refine .cons first (ih (Nat.succ.inj length) fun position other next asked present => ?_)
      have later := accepted (position + 1) other next asked present
      rwa [List.take_succ_cons, List.append_cons] at later

/-- A pattern that matches a line fits its tokens. -/
theorem fits_of_matchesLine {pattern : Pattern} {tokens : List Token}
    (matched : pattern.matchesLine tokens = true) : Fits [] pattern tokens := by
  refine fits_of_accepts (matchesLine_iff.mp matched).1 fun position element token asked there => ?_
  rw [List.nil_append]
  exact accepts_at matched asked there

end Pattern

namespace Token.Classified

variable {tokens : List Token} {token : Token} {text : String} {kind : Kind}

/-- A token does not read like a text that has another kind. -/
theorem value_ne (classified : Classified tokens) (member : token ∈ tokens)
    (known : token.kind = kind) (kept : kind.isRemark = false)
    (other : classify text ≠ some kind) : token.value ≠ text := by
  subst known
  rintro rfl
  exact other (classified token member kept)

/-- A token is not one of a text that has another kind. -/
theorem ne_mk (classified : Classified tokens) (member : token ∈ tokens)
    (known : token.kind = kind) (kept : kind.isRemark = false)
    (other : classify text ≠ some kind) (wrong : Kind) (column : Nat) :
    token ≠ ⟨wrong, text, column⟩ := by
  have unlike := classified.value_ne member known kept other
  rintro rfl
  exact unlike rfl

end Token.Classified

namespace Construct

open Pattern.Element (text kind kinds exists_of_text kind_of_kind)

/-- The construct that a line of control flow opens or closes, by each pattern. -/
inductive Reads : Pattern → List Token → Construct → Prop where
  /-- A function begins. -/
  | function (word name brace : Token) :
      Reads [text "function", kind .identifier, text "\x7b"] [word, name, brace]
        (.function name.value)
  /-- A block or the function ends. -/
  | finish (brace : Token) : Reads [text "\x7d"] [brace] .finish
  /-- A block begins that only groups lines. -/
  | group (brace : Token) : Reads [text "\x7b"] [brace] .group
  /-- The function returns. -/
  | exit (word : Token) : Reads [text "return"] [word] .exit
  /-- The innermost block is left. -/
  | leave (word : Token) : Reads [text "break"] [word] .leave
  /-- A block begins that runs when a condition holds. -/
  | conditional (word left symbol right brace : Token) :
      Reads [text "if", Pattern.operand, Family.conditionSymbols, Pattern.operand, text "\x7b"]
        [word, left, symbol, right, brace]
        (.conditional left (condition symbol.value) right)
  /-- A block begins that runs while a condition holds. -/
  | looping (word left symbol right brace : Token) :
      Reads [text "while", Pattern.operand, Family.conditionSymbols, Pattern.operand, text "\x7b"]
        [word, left, symbol, right, brace]
        (.looping left (condition symbol.value) right)
  /-- A block begins that runs a counted number of times. -/
  | counted (word count times brace : Token) :
      Reads [text "repeat", kinds [.integer, .register], text "times", text "\x7b"]
        [word, count, times, brace] (.counted count)
  /-- A block begins that has a name. -/
  | labelled (name colon brace : Token) :
      Reads [kind .identifier, text ":", text "\x7b"] [name, colon, brace] (.labelled name.value)
  /-- A place is named. -/
  | label (name colon : Token) :
      Reads [kind .identifier, text ":"] [name, colon] (.label name.value)
  /-- Execution goes on at a label. -/
  | jump (word name : Token) : Reads [text "goto", kind .identifier] [word, name] (.jump name.value)
  /-- A function is called. -/
  | call (word name : Token) : Reads [text "call", kind .identifier] [word, name] (.call name.value)
  /-- A variable is declared. -/
  | declare (word name : Token) :
      Reads [text "var", kind .identifier] [word, name] (.declare name.value none)
  /-- A variable is declared with its value at the start. -/
  | initialized (word name equals value : Token) :
      Reads [text "var", kind .identifier, text "=", kinds [.integer, .text]]
        [word, name, equals, value] (.declare name.value (some value))

/-- The cases of control flow ask for texts only, but no token that is a name reads like a keyword
or a symbol: the case that is found is the one of the pattern. -/
theorem exists_reads {pattern : Pattern} {tokens : List Token}
    (member : pattern ∈ Family.flow.patterns) (fits : Pattern.Fits [] pattern tokens)
    (classified : Token.Classified tokens) :
    ∃ construct, Reads pattern tokens construct ∧ ofTokens? tokens = some construct := by
  have keyword : Token.classify "function" ≠ some .identifier := by decide +kernel
  have mark : Token.classify ":" ≠ some .identifier := by decide +kernel
  simp only [Family.patterns, List.mem_cons, List.not_mem_nil, or_false] at member
  obtain rfl | rfl | rfl | rfl | rfl | rfl | rfl | rfl | rfl | rfl | rfl | rfl | rfl | rfl := member
  · obtain _ | ⟨word, _ | ⟨name, _ | ⟨brace, ⟨⟩⟩⟩⟩ := fits
    obtain ⟨_, _, rfl⟩ := exists_of_text word
    obtain ⟨_, _, rfl⟩ := exists_of_text brace
    exact ⟨_, .function _ _ _, rfl⟩
  · obtain _ | ⟨brace, ⟨⟩⟩ := fits
    obtain ⟨_, _, rfl⟩ := exists_of_text brace
    exact ⟨_, .finish _, rfl⟩
  · obtain _ | ⟨brace, ⟨⟩⟩ := fits
    obtain ⟨_, _, rfl⟩ := exists_of_text brace
    exact ⟨_, .group _, rfl⟩
  · obtain _ | ⟨word, ⟨⟩⟩ := fits
    obtain ⟨_, _, rfl⟩ := exists_of_text word
    exact ⟨_, .exit _, rfl⟩
  · obtain _ | ⟨word, ⟨⟩⟩ := fits
    obtain ⟨_, _, rfl⟩ := exists_of_text word
    exact ⟨_, .leave _, rfl⟩
  · obtain _ | ⟨word, _ | ⟨left, _ | ⟨symbol, _ | ⟨right, _ | ⟨brace, ⟨⟩⟩⟩⟩⟩⟩ := fits
    obtain ⟨_, _, rfl⟩ := exists_of_text word
    obtain ⟨_, _, rfl⟩ := exists_of_text brace
    exact ⟨_, .conditional _ _ _ _ _, rfl⟩
  · obtain _ | ⟨word, _ | ⟨left, _ | ⟨symbol, _ | ⟨right, _ | ⟨brace, ⟨⟩⟩⟩⟩⟩⟩ := fits
    obtain ⟨_, _, rfl⟩ := exists_of_text word
    obtain ⟨_, _, rfl⟩ := exists_of_text brace
    exact ⟨_, .looping _ _ _ _ _, rfl⟩
  · obtain _ | ⟨word, _ | ⟨count, _ | ⟨times, _ | ⟨brace, ⟨⟩⟩⟩⟩⟩ := fits
    obtain ⟨_, _, rfl⟩ := exists_of_text word
    obtain ⟨_, _, rfl⟩ := exists_of_text times
    obtain ⟨_, _, rfl⟩ := exists_of_text brace
    exact ⟨_, .counted _ _ _ _, rfl⟩
  · obtain _ | ⟨name, _ | ⟨colon, _ | ⟨brace, ⟨⟩⟩⟩⟩ := fits
    obtain ⟨_, _, rfl⟩ := exists_of_text colon
    obtain ⟨_, _, rfl⟩ := exists_of_text brace
    -- The case of a function stands first and would take the name for its keyword.
    have noFunction := classified.ne_mk (by simp) (kind_of_kind name) rfl keyword
    exact ⟨_, .labelled _ _ _, by simp [ofTokens?]⟩
  · obtain _ | ⟨name, _ | ⟨colon, ⟨⟩⟩⟩ := fits
    obtain ⟨_, _, rfl⟩ := exists_of_text colon
    exact ⟨_, .label _ _, by simp [ofTokens?]⟩
  · obtain _ | ⟨word, _ | ⟨name, ⟨⟩⟩⟩ := fits
    obtain ⟨_, _, rfl⟩ := exists_of_text word
    -- The case of a label stands before the others of two tokens and asks only for the colon.
    have noColon := classified.ne_mk (by simp) (kind_of_kind name) rfl mark
    exact ⟨_, .jump _ _, by simp [ofTokens?]⟩
  · obtain _ | ⟨word, _ | ⟨name, ⟨⟩⟩⟩ := fits
    obtain ⟨_, _, rfl⟩ := exists_of_text word
    have noColon := classified.ne_mk (by simp) (kind_of_kind name) rfl mark
    exact ⟨_, .call _ _, by simp [ofTokens?]⟩
  · obtain _ | ⟨word, _ | ⟨name, ⟨⟩⟩⟩ := fits
    obtain ⟨_, _, rfl⟩ := exists_of_text word
    have noColon := classified.ne_mk (by simp) (kind_of_kind name) rfl mark
    exact ⟨_, .declare _ _, by simp [ofTokens?]⟩
  · obtain _ | ⟨word, _ | ⟨name, _ | ⟨equals, _ | ⟨value, ⟨⟩⟩⟩⟩⟩ := fits
    obtain ⟨_, _, rfl⟩ := exists_of_text word
    obtain ⟨_, _, rfl⟩ := exists_of_text equals
    exact ⟨_, .initialized _ _ _ _, by simp [ofTokens?]⟩

end Construct

namespace Emission

/-- One operation on the sized operand that a token names. -/
def single (mnemonic : Mnemonic) (token : Token) : Emission Unit := do
  let operand ← ask (Operand.sizedOfToken token)
  instruction mnemonic [operand]

/-- One operation on the operands that two tokens name. -/
def double (mnemonic : Mnemonic) (destination source : Token) : Emission Unit := do
  let operands ← ask (Operand.pair destination source)
  instruction mnemonic operands

end Emission

namespace Family

open Emission
open Pattern (operand destination)
open Pattern.Element (text oneOf kind kinds same value_of_text kind_of_kind exists_of_text)

/-- The code that a family writes for the lines of each of its patterns. It is made of the tokens of
the line and of no others. -/
inductive Branch : Family → Pattern → List Token → Emission Unit → Prop where
  /-- A namespace is declared. -/
  | declare (word name : Token) :
      Branch .space [text "namespace", kind .identifier] [word, name]
        (update fun state => { state with declared := some name.value })
  /-- A comment is kept if comments are. -/
  | comment (remark : Token) :
      Branch .remarks [kind .comment] [remark] (do
        if (← look State.options).keepComments then
          write (if remark.value.isEmpty then .raw ";" else .comment remark.value))
  /-- Assembly is copied out. -/
  | literal (remark : Token) :
      Branch .remarks [kind .literal] [remark] (write (.raw remark.value))
  /-- A register is written to a port. -/
  | output (word port equals register : Token) :
      Branch .ports [text "Port", kind .memory, text "=", kind .register]
        [word, port, equals, register] (do
          let place ← Transfer.port port
          instruction .output [place, .verbatim register])
  /-- A port is read into a register. -/
  | input (register equals word port : Token) :
      Branch .ports [kind .register, text "=", text "Port", kind .memory]
        [register, equals, word, port] (do
          let place ← Transfer.port port
          instruction .input [.verbatim register, place])
  /-- All registers are saved. -/
  | save (sign all : Token) :
      Branch .plain [text "+", text "All"] [sign, all] (instruction (.other "pushad") [])
  /-- All registers are restored. -/
  | restore (sign all : Token) :
      Branch .plain [text "-", text "All"] [sign, all] (instruction (.other "popad") [])
  /-- An operation is written in lower case. -/
  | operation (word : Token) :
      Branch .plain [oneOf ["NOP", "CLI", "STI", "HLT", "IRet"]] [word]
        (instruction (.other (Text.lower word.value)) [])
  /-- A destination is counted up. -/
  | up (target sign : Token) :
      Branch .counting [destination, text "++"] [target, sign] (single .inc target)
  /-- A destination is counted down. -/
  | down (target sign : Token) :
      Branch .counting [destination, text "--"] [target, sign] (single .dec target)
  /-- A destination is counted up by adding one to it. -/
  | plusOne (target equals again sign one : Token) :
      Branch .counting [destination, text "=", same 0, text "+", text "1"]
        [target, equals, again, sign, one] (single .inc target)
  /-- A destination is counted down by taking one from it. -/
  | minusOne (target equals again sign one : Token) :
      Branch .counting [destination, text "=", same 0, text "-", text "1"]
        [target, equals, again, sign, one] (single .dec target)
  /-- An operand is pushed. -/
  | push (sign token : Token) : Branch .stack [text "+", operand] [sign, token] (single .push token)
  /-- An operand, which may be no number, is popped into. -/
  | pop (sign token : Token) :
      Branch .stack [text "-", operand] [sign, token] (do
        if token.kind == .integer then reject (.immediatePop token.value)
        single .pop token)
  /-- An operand is assigned to a destination. -/
  | assign (target equals source : Token) :
      Branch .assignments [destination, text "=", operand] [target, equals, source]
        (double .mov target source)
  /-- Two operands are compared or tested. -/
  | compare (left symbol right : Token) :
      Branch .comparisons [operand, oneOf ["?=", "?&"], operand] [left, symbol, right]
        (double (if symbol.value == "?=" then .cmp else .test) left right)
  /-- A destination is combined with an operand in place. -/
  | inPlace (target symbol source : Token) :
      Branch .arithmetic [destination, arithmeticSymbols, operand] [target, symbol, source]
        (double (Arithmetic.operation symbol.value) target source)
  /-- Two operands are combined in a destination, which may be one of them. -/
  | combine (target equals left symbol right : Token) :
      Branch .arithmetic [destination, text "=", operand, arithmeticSymbols, operand]
        [target, equals, left, symbol, right]
        (if target.same left then Arithmetic.inPlace target symbol right
          else if target.same right then Arithmetic.reversed target left symbol
          else Arithmetic.loaded target left symbol right)
  /-- A destination is shifted or rotated. -/
  | shift (target symbol amount : Token) :
      Branch .shifts [destination, oneOf ["<<", ">>", "<~", "~>"], kinds [.integer, .register]]
        [target, symbol, amount] (do
          if amount.kind == .register && !Text.sameLetters amount.value "CL" then
            reject (.badCount amount.value)
          let place ← ask (Operand.sizedOfToken target)
          instruction (Arithmetic.shift symbol.value) [place, .verbatim amount])
  /-- A construct of control flow is written. -/
  | flow {pattern : Pattern} {tokens : List Token} {construct : Construct}
      (reads : Construct.Reads pattern tokens construct) :
      Branch .flow pattern tokens (Flow.emit construct)

variable {tokens : List Token} {pattern : Pattern}

/-- What can be written to reads like no symbol. -/
theorem value_ne_of_destination (classified : Token.Classified tokens) {token : Token}
    (member : token ∈ tokens) {before : List Token}
    (accepted : destination.accepts before token = true) {symbol : String}
    (known : Token.classify symbol = some .symbol) : token.value ≠ symbol := by
  have kinds := Pattern.Element.kind_mem_of_kinds accepted
  have apart : token.kind.isRemark = false ∧ token.kind ≠ .symbol := by
    revert kinds
    cases token.kind <;> decide
  refine classified.value_ne member rfl apart.1 fun same => apart.2 ?_
  exact Option.some.inj (same.symm.trans known)

/-- A line that counts does so up or down as its pattern says: its destination reads like none of
the signs that are looked for among all the tokens. -/
theorem exists_branch_counting (member : pattern ∈ Family.counting.patterns)
    (fits : Pattern.Fits [] pattern tokens) (classified : Token.Classified tokens) :
    ∃ code, Branch .counting pattern tokens code ∧ Family.counting.emit tokens = code := by
  have plus : Token.classify "+" = some .symbol := by decide +kernel
  have plusPlus : Token.classify "++" = some .symbol := by decide +kernel
  simp only [patterns, List.mem_cons, List.not_mem_nil, or_false] at member
  obtain rfl | rfl | rfl | rfl := member
  · obtain _ | ⟨target, _ | ⟨sign, ⟨⟩⟩⟩ := fits
    obtain ⟨_, _, rfl⟩ := exists_of_text sign
    exact ⟨_, .up _ _, by simp [emit, Arithmetic.count, single]⟩
  · obtain _ | ⟨target, _ | ⟨sign, ⟨⟩⟩⟩ := fits
    obtain ⟨_, _, rfl⟩ := exists_of_text sign
    have first := value_ne_of_destination classified (by simp) target plus
    have second := value_ne_of_destination classified (by simp) target plusPlus
    exact ⟨_, .down _ _, by simp [emit, Arithmetic.count, single, first, second]⟩
  · obtain _ | ⟨target, _ | ⟨equals, _ | ⟨again, _ | ⟨sign, _ | ⟨one, ⟨⟩⟩⟩⟩⟩⟩ := fits
    obtain ⟨_, _, rfl⟩ := exists_of_text sign
    exact ⟨_, .plusOne _ _ _ _ _, by simp [emit, Arithmetic.count, single]⟩
  · obtain _ | ⟨target, _ | ⟨equals, _ | ⟨again, _ | ⟨sign, _ | ⟨one, ⟨⟩⟩⟩⟩⟩⟩ := fits
    obtain ⟨_, _, rfl⟩ := exists_of_text equals
    obtain ⟨_, _, rfl⟩ := exists_of_text sign
    obtain ⟨_, _, rfl⟩ := exists_of_text one
    have first := value_ne_of_destination classified (by simp) target plus
    have second := value_ne_of_destination classified (by simp) target plusPlus
    obtain ⟨other, there, repeated⟩ := Pattern.Element.accepts_same_iff.mp again
    obtain rfl := Option.some.inj there
    have values := (Token.same_iff.mp repeated).2
    exact ⟨_, .minusOne _ _ _ _ _, by
      simp [emit, Arithmetic.count, single, ← values, first, second]⟩

/-- A line that saves or restores all registers, or is one word, is written as its pattern says. -/
theorem exists_branch_plain (member : pattern ∈ Family.plain.patterns)
    (fits : Pattern.Fits [] pattern tokens) :
    ∃ code, Branch .plain pattern tokens code ∧ Family.plain.emit tokens = code := by
  simp only [patterns, List.mem_cons, List.not_mem_nil, or_false] at member
  obtain rfl | rfl | rfl := member
  · obtain _ | ⟨sign, _ | ⟨all, ⟨⟩⟩⟩ := fits
    exact ⟨_, .save _ _, by simp [emit, Transfer.plain, value_of_text sign]⟩
  · obtain _ | ⟨sign, _ | ⟨all, ⟨⟩⟩⟩ := fits
    exact ⟨_, .restore _ _, by simp [emit, Transfer.plain, value_of_text sign]⟩
  · obtain _ | ⟨word, ⟨⟩⟩ := fits
    exact ⟨_, .operation _, rfl⟩

/-- A port stands where its pattern puts it: no register reads like the word before a port. -/
theorem exists_branch_ports (member : pattern ∈ Family.ports.patterns)
    (fits : Pattern.Fits [] pattern tokens) (classified : Token.Classified tokens) :
    ∃ code, Branch .ports pattern tokens code ∧ Family.ports.emit tokens = code := by
  have word : Token.classify "Port" ≠ some .register := by decide +kernel
  simp only [patterns, List.mem_cons, List.not_mem_nil, or_false] at member
  obtain rfl | rfl := member
  · obtain _ | ⟨first, _ | ⟨port, _ | ⟨equals, _ | ⟨register, ⟨⟩⟩⟩⟩⟩ := fits
    exact ⟨_, .output _ _ _ _, by simp [emit, Transfer.ports, value_of_text first]⟩
  · obtain _ | ⟨register, _ | ⟨equals, _ | ⟨second, _ | ⟨port, ⟨⟩⟩⟩⟩⟩ := fits
    have unlike := classified.value_ne (by simp) (kind_of_kind register) rfl word
    exact ⟨_, .input _ _ _ _, by simp [emit, Transfer.ports, unlike]⟩

/-- A remark is kept or copied out as its pattern says. -/
theorem exists_branch_remarks (member : pattern ∈ Family.remarks.patterns)
    (fits : Pattern.Fits [] pattern tokens) :
    ∃ code, Branch .remarks pattern tokens code ∧ Family.remarks.emit tokens = code := by
  simp only [patterns, List.mem_cons, List.not_mem_nil, or_false] at member
  obtain rfl | rfl := member
  · obtain _ | ⟨remark, ⟨⟩⟩ := fits
    exact ⟨_, .comment _, by simp [emit, Family.remark, kind_of_kind remark]⟩
  · obtain _ | ⟨remark, ⟨⟩⟩ := fits
    exact ⟨_, .literal _, by simp [emit, Family.remark, kind_of_kind remark]⟩

/-- An operand is pushed or popped into as its pattern says. -/
theorem exists_branch_stack (member : pattern ∈ Family.stack.patterns)
    (fits : Pattern.Fits [] pattern tokens) :
    ∃ code, Branch .stack pattern tokens code ∧ Family.stack.emit tokens = code := by
  simp only [patterns, List.mem_cons, List.not_mem_nil, or_false] at member
  obtain rfl | rfl := member
  · obtain _ | ⟨sign, _ | ⟨token, ⟨⟩⟩⟩ := fits
    exact ⟨_, .push _ _, by simp [emit, Transfer.stack, single, value_of_text sign]⟩
  · obtain _ | ⟨sign, _ | ⟨token, ⟨⟩⟩⟩ := fits
    exact ⟨_, .pop _ _, by simp [emit, Transfer.stack, single, value_of_text sign]⟩

/-- A line that a pattern of a family matches is written by the branch of this pattern. -/
theorem exists_branch {family : Family} (member : pattern ∈ family.patterns)
    (matched : pattern.matchesLine tokens = true) (classified : Token.Classified tokens) :
    ∃ code, Branch family pattern tokens code ∧ family.emit tokens = code := by
  have fits := Pattern.fits_of_matchesLine matched
  cases family with
  | remarks => exact exists_branch_remarks member fits
  | ports => exact exists_branch_ports member fits classified
  | plain => exact exists_branch_plain member fits
  | counting => exact exists_branch_counting member fits classified
  | stack => exact exists_branch_stack member fits
  | space =>
    obtain rfl := List.mem_singleton.mp member
    obtain _ | ⟨word, _ | ⟨name, ⟨⟩⟩⟩ := fits
    exact ⟨_, .declare _ _, rfl⟩
  | assignments =>
    obtain rfl := List.mem_singleton.mp member
    obtain _ | ⟨target, _ | ⟨equals, _ | ⟨source, ⟨⟩⟩⟩⟩ := fits
    exact ⟨_, .assign _ _ _, rfl⟩
  | comparisons =>
    obtain rfl := List.mem_singleton.mp member
    obtain _ | ⟨left, _ | ⟨symbol, _ | ⟨right, ⟨⟩⟩⟩⟩ := fits
    exact ⟨_, .compare _ _ _, rfl⟩
  | arithmetic =>
    simp only [patterns, List.mem_cons, List.not_mem_nil, or_false] at member
    obtain rfl | rfl := member
    · obtain _ | ⟨target, _ | ⟨symbol, _ | ⟨source, ⟨⟩⟩⟩⟩ := fits
      exact ⟨_, .inPlace _ _ _, rfl⟩
    · obtain _ | ⟨target, _ | ⟨equals, _ | ⟨left, _ | ⟨symbol, _ | ⟨right, ⟨⟩⟩⟩⟩⟩⟩ := fits
      exact ⟨_, .combine _ _ _ _ _, rfl⟩
  | shifts =>
    obtain rfl := List.mem_singleton.mp member
    obtain _ | ⟨target, _ | ⟨symbol, _ | ⟨amount, ⟨⟩⟩⟩⟩ := fits
    exact ⟨_, .shift _ _ _, rfl⟩
  | flow =>
    obtain ⟨construct, reads, said⟩ := Construct.exists_reads member fits classified
    refine ⟨_, .flow reads, ?_⟩
    rw [emit, Flow.line, said]

/-- A line that is dispatched matches a pattern of its owner, and its owner writes the code of the
branch of this pattern. -/
theorem branch_of_parse {text : String} {dispatch : Dispatch Family}
    (parsed : Table.parse standard text = .ok dispatch) :
    Token.Classified dispatch.tokens ∧ ∃ pattern ∈ dispatch.owner.patterns,
      pattern.matchesLine dispatch.tokens = true ∧
        Branch dispatch.owner pattern dispatch.tokens (dispatch.owner.emit dispatch.tokens) := by
  obtain ⟨pattern, member, matched⟩ := matches_of_parse parsed
  have classified := Token.classified_of_ofLine (Table.ofLine_of_parse parsed)
  obtain ⟨code, branch, same⟩ := exists_branch member matched classified
  exact ⟨classified, pattern, member, matched, by rwa [same]⟩

/-- The patterns of a family exclude each other. -/
theorem apart_patterns : ∀ family ∈ standard, ∀ one ∈ family.patterns, ∀ other ∈ family.patterns,
    one ≠ other → one.apart other = true := by
  decide +kernel

/-- At most one pattern of a family matches a line. -/
theorem eq_of_matchesLine {family : Family} (classified : Token.Classified tokens)
    {one other : Pattern} (mine : one ∈ family.patterns) (yours : other ∈ family.patterns)
    (matched : one.matchesLine tokens = true) (again : other.matchesLine tokens = true) :
    one = other := by
  by_contra distinct
  have apart := apart_patterns family (mem_standard family) one mine other yours distinct
  rw [Pattern.apart_eq_false classified matched again] at apart
  cases apart

end Family

end LineAsm
