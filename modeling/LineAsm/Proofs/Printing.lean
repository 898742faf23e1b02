import LineAsm.Proofs.Branches
import LineAsm.Proofs.Decoding
import LineAsm.Proofs.Programs
import LineAsm.Proofs.Rejection
import LineAsm.Proofs.Steps
/-!
# What is written can be read back

The names of namespaces and functions in a scope come from identifiers of the source, so they are
words (`Scope.Worded`), and the symbols that are made of them can be told from their texts. An
emission keeps this and writes labels and instructions that can be told from theirs when all its
steps do (`Emission.Prints`), and so does the branch of each pattern (`Family.Branch.prints`). So
every label and every instruction that reaches a sink is read back from what is written there
(`Compiler.ofText_text`).
-/

namespace LineAsm

/-- The namespace and the function of a scope are words. -/
structure Scope.Worded (scope : Scope) : Prop where
  /-- The namespace is a word. -/
  space : ∀ name, scope.declared = some name → Text.IsWord name
  /-- The open function is a word. -/
  function : ∀ name, scope.function = some name → Text.IsWord name

/-- A token that is a lexeme of its kind, unless it is a remark. -/
def Token.Spelled (token : Token) : Prop :=
  token.kind.isRemark = false → Lexeme.Class token.kind token.value token.value.toList

/-- A label or an instruction can be told from its text. -/
def Statement.Printed : Statement → Prop
  | .label symbol => (label symbol).IsPrintable
  | .instruction mnemonic operands => (instruction mnemonic operands).IsPrintable
  | _ => True

/-- A label or an instruction that is printed can be told from its text. -/
theorem Statement.Printed.isPrintable {statement : Statement} (printed : statement.Printed)
    (code : statement.isCode = true) : statement.IsPrintable := by
  cases statement with
  | label | instruction => exact printed
  | _ => cases code

/-- The names in a construct are words, and its operands are spelled. -/
def Construct.Spelled : Construct → Prop
  | .function name | .labelled name | .label name | .jump name | .call name => Text.IsWord name
  | .conditional left _ right | .looping left _ right => left.Spelled ∧ right.Spelled
  | .counted count => (Operand.verbatim count).form.IsPrintable
  | _ => True

namespace Token

variable {token : Token}

/-- An identifier is a word. -/
theorem Spelled.isWord (spelled : token.Spelled) (identifier : token.kind = .identifier) :
    Text.IsWord token.value := by
  have kept : token.kind.isRemark = false := by
    rw [identifier]
    rfl
  exact (spelled kept).isWord identifier

/-- A register, a number or an address can be told when it is copied. -/
theorem Spelled.printable_verbatim (spelled : token.Spelled)
    (copied : token.kind ∈ [Kind.register, .integer, .memory]) :
    (Operand.verbatim token).form.IsPrintable := by
  obtain ⟨kind, value, column⟩ := token
  simp only [List.mem_cons, List.not_mem_nil, or_false] at copied
  obtain rfl | rfl | rfl := copied
  · exact (spelled rfl).isRegister
  · exact (spelled rfl).isSome_value?
  · exact (spelled rfl).enclosed rfl

end Token

namespace Symbol

variable {space name : String} {frame : Frame}

/-- A symbol whose parts are joined has an underscore. -/
theorem underscore_mem {symbol : Symbol} (joined : ∀ name, symbol ≠ .plain name) :
    '_' ∈ symbol.text.toList := by
  cases symbol with
  | plain name => exact absurd rfl (joined name)
  | _ => simp [text, Frame.name]

/-- A word qualified by a word can be told. -/
theorem printable_member (word : Text.IsWord space) (also : Text.IsWord name) :
    (member space name).IsPrintable :=
  ⟨word.join also, underscore_mem nofun⟩

/-- A word in a function can be told. -/
theorem printable_inner (word : frame.IsWord) (also : Text.IsWord name) :
    (inner frame name).IsPrintable :=
  ⟨(word.space.join word.function).join also, underscore_mem nofun⟩

/-- What is made for a function can be told. -/
theorem printable_of_madeFor {symbol : Symbol} (word : frame.IsWord)
    (made : symbol.MadeFor frame) : symbol.IsPrintable := by
  refine ⟨isWord_of_madeFor word made, underscore_mem ?_⟩
  rintro name rfl
  exact made

end Symbol

namespace Scope.Worded

variable {state : State} {space name construct : String} {symbol : Symbol}

/-- The namespace that qualifies symbols is a word. -/
theorem qualifier (worded : state.scope.Worded) (asked : state.qualifier = .ok space) :
    Text.IsWord space :=
  worded.space space
    (Option.filter_eq_some_iff.mp (State.qualifier_eq_ok_iff.mp asked)).1

/-- The open function is a word, as is its namespace. -/
theorem frame (worded : state.scope.Worded) {frame : Frame}
    (asked : state.frame construct = .ok frame) : frame.IsWord := by
  have found := State.frame_eq_ok_iff.mp asked
  exact ⟨worded.space frame.space (Scope.declared_of_frame found),
    worded.function frame.function (Scope.frame?_eq_some_iff.mp found).2⟩

/-- The symbol of an edge of a block can be told. -/
theorem blockSymbol (worded : state.scope.Worded) {block : Block} {place : Edge}
    (asked : state.blockSymbol block place = .ok symbol) : symbol.IsPrintable := by
  unfold State.blockSymbol at asked
  cases framed : state.frame "block" with
  | error cause =>
    rw [framed] at asked
    cases asked
  | ok frame =>
    rw [framed] at asked
    cases asked
    exact Symbol.printable_of_madeFor (worded.frame framed) rfl

/-- The symbol of a label that is a word can be told. -/
theorem labelSymbol (worded : state.scope.Worded) (word : Text.IsWord name)
    (asked : state.labelSymbol name = .ok symbol) : symbol.IsPrintable := by
  unfold State.labelSymbol at asked
  cases qualified : state.qualifier with
  | error cause =>
    rw [qualified] at asked
    cases asked
  | ok space =>
    rw [qualified] at asked
    have known := worded.qualifier qualified
    cases opened : state.function with
    | none =>
      simp only [opened] at asked
      cases asked
      exact Symbol.printable_member known word
    | some function =>
      simp only [opened] at asked
      cases asked
      exact Symbol.printable_inner ⟨known, worded.function function opened⟩ word

end Scope.Worded

namespace Operand

variable {token source : Token} {state : State} {operand : Operand}

/-- The port register and the number of a port can be told. -/
theorem printable_port (named : Port.operand token = .ok operand) :
    operand.form.IsPrintable := by
  unfold Port.operand at named
  dsimp only at named
  split at named
  · rename_i same
    cases named
    have letters := (eq_of_beq same).symm
    exact List.any_eq_true.mpr ⟨"DX", by decide, beq_iff_eq.mpr letters⟩
  · split at named
    · rename_i small
      cases named
      obtain ⟨known, -⟩ := (Option.any_eq_true_iff_get ..).mp small
      exact known
    · cases named

/-- The operand that a token names can be told. -/
theorem printable_ofToken (worded : state.scope.Worded) (spelled : token.Spelled)
    (named : ofToken token state = .ok operand) : operand.form.IsPrintable := by
  have copied := spelled.printable_verbatim
  unfold verbatim at copied
  obtain ⟨kind, rfl⟩ | ⟨kind, rfl⟩ | ⟨kind, rfl⟩ | ⟨kind, space, qualified, rfl⟩ :=
    ofToken_cases named
  · rw [kind] at copied
    exact copied (by decide)
  · rw [kind] at copied
    exact copied (by decide)
  · rw [kind] at copied
    exact copied (by decide)
  · exact Symbol.printable_member (worded.qualifier qualified) (spelled.isWord kind)

/-- So is it with a stated width. -/
theorem printable_sizedOfToken (worded : state.scope.Worded) (word : token.Spelled)
    (named : sizedOfToken token state = .ok operand) : operand.form.IsPrintable := by
  unfold sizedOfToken at named
  cases plain : ofToken token state with
  | error cause =>
    rw [plain] at named
    cases named
  | ok found =>
    rw [plain] at named
    cases named
    rw [form_sized]
    exact printable_ofToken worded word plain

/-- So are the operands of an instruction. -/
theorem printable_pair (worded : state.scope.Worded) (word : token.Spelled) (also : source.Spelled)
    {operands : List Operand} (asked : pair token source state = .ok operands) :
    ∀ operand ∈ operands, operand.form.IsPrintable := by
  obtain ⟨-, -, first, second, rfl, one, other⟩ := pair_eq_ok asked
  refine List.forall_mem_cons.mpr ⟨?_, List.forall_mem_singleton.mpr ?_⟩
  · split at one
    · exact printable_sizedOfToken worded word one
    · exact printable_ofToken worded word one
  · exact printable_ofToken worded also other

end Operand

namespace Emission

/-- Where the names in the scope are words, an emission leaves it so. When it answers, the answer
has a property and the statements that have been added are printed. -/
structure Prints {α : Type} (emission : Emission α) (answers : α → Prop) : Prop where
  /-- What is promised of an answer holds of it, words are left, and what is added is printed. -/
  of_ok : ∀ {draft after : Draft} {value : α}, draft.state.scope.Worded →
    emission draft = .ok value after →
      answers value ∧ after.state.scope.Worded ∧ draft.Extends Statement.Printed after
  /-- A failure leaves words as well. -/
  of_error : ∀ {draft after : Draft} {cause : CompileError}, draft.state.scope.Worded →
    emission draft = .error cause after → after.state.scope.Worded

section Prints

variable {α β : Type} {answers : α → Prop} {finals : β → Prop}

/-- An answer given without a step. -/
theorem prints_pure {value : α} (promised : answers value) :
    (pure value : Emission α).Prints answers where
  of_ok worded passed := by
    cases passed
    exact ⟨promised, worded, .of_lines_eq rfl⟩
  of_error worded failed := by cases failed

/-- A question about the state. -/
theorem prints_ask {question : State → Except CompileError α}
    (meets : ∀ state value, state.scope.Worded → question state = .ok value → answers value) :
    (ask question).Prints answers where
  of_ok {draft after value} worded passed := by
    obtain ⟨answered, rfl⟩ := ask_eq_ok_iff.mp passed
    exact ⟨meets draft.state value worded answered, worded, .of_lines_eq rfl⟩
  of_error worded failed := by
    obtain ⟨-, rfl⟩ := ask_eq_error_iff.mp failed
    exact worded

/-- A view of the state. -/
theorem prints_look (view : State → α) :
    (look view).Prints fun value => ∃ state, state.scope.Worded ∧ value = view state :=
  prints_ask fun state _ worded seen => ⟨state, worded, (Except.ok.inj seen).symm⟩

/-- A change of the state that leaves words. -/
theorem prints_update {change : State → State}
    (keeps : ∀ state, state.scope.Worded → (change state).scope.Worded) :
    (update change).Prints fun _ => True where
  of_ok {draft after value} worded passed := by
    cases passed
    exact ⟨trivial, keeps draft.state worded, .of_lines_eq rfl⟩
  of_error worded failed := by cases failed

/-- A printed statement. -/
theorem prints_write {statement : Statement} (printed : statement.Printed) :
    (write statement).Prints fun _ => True where
  of_ok {draft after value} worded passed := by
    cases passed
    exact ⟨trivial, worded, .add printed draft.state⟩
  of_error worded failed := by cases failed

/-- A failure. -/
theorem prints_fail (cause : CompileError) : (fail cause : Emission α).Prints answers where
  of_ok worded passed := by cases passed
  of_error worded failed := by
    obtain ⟨-, rfl⟩ := fail_eq_error_iff.mp failed
    exact worded

/-- Two steps in a row: the second may rely on what is promised of the first answer. -/
theorem Prints.bind {first : Emission α} {next : α → Emission β} (head : first.Prints answers)
    (tail : ∀ value, answers value → (next value).Prints finals) :
    (first >>= next).Prints finals where
  of_ok {draft after final} worded passed := by
    cases start : first draft with
    | error cause middle =>
      rw [bind_error start] at passed
      cases passed
    | ok value middle =>
      obtain ⟨promised, kept, added⟩ := head.of_ok worded start
      rw [bind_ok start] at passed
      obtain ⟨ended, left, further⟩ := (tail value promised).of_ok kept passed
      exact ⟨ended, left, added.trans further⟩
  of_error {draft after cause} worded failed := by
    cases start : first draft with
    | error other middle =>
      rw [bind_error start] at failed
      cases failed
      exact head.of_error worded start
    | ok value middle =>
      obtain ⟨promised, kept, -⟩ := head.of_ok worded start
      rw [bind_ok start] at failed
      exact (tail value promised).of_error kept failed

/-- A failure, whatever would follow it. -/
theorem prints_fail_bind (cause : CompileError) (next : α → Emission β) :
    (fail cause >>= next).Prints finals := by
  have fails : (fail cause : Emission α).Prints fun _ => False := prints_fail cause
  exact fails.bind fun _ never => never.elim

/-- A rejection when a condition holds, and another step otherwise. -/
theorem prints_reject_or {condition : Bool} {cause : OperandError} {next : PUnit → Emission α}
    (rest : (next ⟨⟩).Prints answers) :
    (if condition = true then reject cause >>= next else next ⟨⟩).Prints answers := by
  cases condition with
  | false => exact rest
  | true => exact prints_fail_bind _ next

end Prints

/-- A step that answers nothing and prints. -/
abbrev PrintsCode (emission : Emission Unit) : Prop := emission.Prints fun _ => True

section Steps

variable {mnemonic : Mnemonic} {operands : List Operand} {token source : Token} {symbol : Symbol}

/-- An instruction whose operands can be told. -/
theorem prints_instruction (known : mnemonic.IsPrintable)
    (printable : ∀ operand ∈ operands, operand.form.IsPrintable) :
    (instruction mnemonic operands).PrintsCode :=
  prints_write ⟨known, printable⟩

/-- A label. -/
theorem prints_label (printable : symbol.IsPrintable) : (label symbol).PrintsCode :=
  prints_write printable

/-- A jump or a call. -/
theorem prints_target (known : mnemonic.IsPrintable) (worded : symbol.IsPrintable) :
    (instruction mnemonic [.target symbol]).PrintsCode :=
  prints_instruction known (List.forall_mem_singleton.mpr worded)

/-- The sized operand that a token names. -/
theorem prints_sized (word : token.Spelled) :
    (ask (Operand.sizedOfToken token)).Prints fun operand => operand.form.IsPrintable :=
  prints_ask fun _ _ worded named => Operand.printable_sizedOfToken worded word named

/-- The operands that two tokens name. -/
theorem prints_pair (word : token.Spelled) (also : source.Spelled) :
    (ask (Operand.pair token source)).Prints fun operands =>
      ∀ operand ∈ operands, operand.form.IsPrintable :=
  prints_ask fun _ _ worded asked => Operand.printable_pair worded word also asked

/-- One operation on the sized operand of a token. -/
theorem prints_single (known : mnemonic.IsPrintable) (word : token.Spelled) :
    (single mnemonic token).PrintsCode :=
  (prints_sized word).bind fun _ worded =>
    prints_instruction known (List.forall_mem_singleton.mpr worded)

/-- One operation on the operands of two tokens. -/
theorem prints_double (known : mnemonic.IsPrintable) (word : token.Spelled)
    (also : source.Spelled) : (double mnemonic token source).PrintsCode :=
  (prints_pair word also).bind fun _ worded => prints_instruction known worded

/-- The operand of a port. -/
theorem prints_port (token : Token) :
    (Transfer.port token).Prints fun place => place.form.IsPrintable := by
  unfold Transfer.port
  split
  · rename_i place named
    exact prints_pure (Operand.printable_port named)
  · exact prints_fail _

end Steps

end Emission

open Emission

namespace Arithmetic

variable {target left right : Token}

/-- The operation of an arithmetic symbol is read back. -/
theorem isPrintable_operation (symbol : String) : (operation symbol).IsPrintable := by
  refine Mnemonic.isPrintable ?_
  unfold operation
  split <;> nofun

/-- The operation of a shift symbol is read back. -/
theorem isPrintable_shift (symbol : String) : (shift symbol).IsPrintable := by
  refine Mnemonic.isPrintable ?_
  unfold shift
  split <;> nofun

/-- Combining with the destination on the right prints. -/
theorem prints_reversed (one : target.Spelled) (two : left.Spelled) (symbol : Token) :
    (reversed target left symbol).PrintsCode := by
  refine (prints_pair one two).bind fun operands worded => ?_
  split
  · refine (prints_sized one).bind fun negated also => ?_
    have neg : (instruction .neg [negated]).PrintsCode :=
      prints_instruction (Mnemonic.isPrintable nofun) (List.forall_mem_singleton.mpr also)
    exact neg.bind fun _ _ => prints_instruction (Mnemonic.isPrintable nofun) worded
  · exact prints_instruction (isPrintable_operation symbol.value) worded

/-- Loading and combining prints. -/
theorem prints_loaded (one : target.Spelled) (two : left.Spelled) (three : right.Spelled)
    (symbol : Token) : (loaded target left symbol right).PrintsCode := by
  unfold loaded
  apply prints_reject_or
  refine (prints_pair one two).bind fun load first => ?_
  refine (prints_pair one three).bind fun operands second => ?_
  have mov : (instruction .mov load).PrintsCode :=
    prints_instruction (Mnemonic.isPrintable nofun) first
  exact mov.bind fun _ _ => prints_instruction (isPrintable_operation symbol.value) second

end Arithmetic

namespace Flow

/-- The open function is a word. -/
theorem prints_insideFunction (construct : String) :
    (insideFunction construct).Prints Frame.IsWord :=
  prints_ask fun _ _ worded asked => worded.frame asked

/-- The symbol of an edge can be told. -/
theorem prints_edge (block : Block) (place : Edge) : (edge block place).Prints Symbol.IsPrintable :=
  prints_ask fun _ _ worded asked => worded.blockSymbol asked

/-- The namespace in force is a word. -/
theorem prints_qualifier : (ask State.qualifier).Prints Text.IsWord :=
  prints_ask fun _ _ worded asked => worded.qualifier asked

/-- What follows a change of the blocks or of the latest label prints if it does so without. -/
theorem prints_update_bind {α : Type} {answers : α → Prop} {change : State → State}
    {next : Unit → Emission α} (rest : (next ()).Prints answers)
    (declared : ∀ state, (change state).declared = state.declared)
    (function : ∀ state, (change state).function = state.function) :
    (update change >>= next).Prints answers := by
  have kept : (update change).PrintsCode := by
    refine prints_update fun state worded => ⟨fun name found => ?_, fun name found => ?_⟩
    · exact worded.space name ((declared state).symm.trans found)
    · exact worded.function name ((function state).symm.trans found)
  exact kept.bind fun _ _ => rest

/-- A block is opened. -/
theorem prints_start (kind : Block.Kind) : (start kind).Prints fun _ => True := by
  refine (prints_look _).bind fun block _ => ?_
  exact prints_update_bind (prints_pure trivial) (fun _ => rfl) fun _ => rfl

/-- A function whose name is a word begins. -/
theorem prints_beginFunction {name : String} (word : Text.IsWord name) :
    (beginFunction name).PrintsCode := by
  refine (prints_look _).bind fun opened _ => ?_
  split
  · exact prints_fail_bind _ _
  · refine prints_qualifier.bind fun space known => ?_
    have opens : (update fun state =>
        { state with function := some name, label := none, blocks := .empty }).PrintsCode := by
      refine prints_update fun state worded => ⟨worded.space, fun other found => ?_⟩
      rw [← Option.some.inj found]
      exact word
    exact opens.bind fun _ _ => prints_label (Symbol.printable_of_madeFor ⟨known, word⟩ rfl)

/-- A block ends. -/
theorem prints_endBlock (block : Block) : (endBlock block).PrintsCode := by
  refine (prints_edge block .begin).bind fun begin first => ?_
  refine (prints_edge block .finish).bind fun finish last => ?_
  have back {mnemonic : Mnemonic} (known : mnemonic.IsPrintable) :
      (do
        instruction mnemonic [.target begin]
        label finish : Emission Unit).PrintsCode :=
    (prints_target known first).bind fun _ _ => prints_label last
  split
  · exact back (Mnemonic.isPrintable nofun)
  · exact back (Mnemonic.isPrintable nofun)
  all_goals exact prints_label last

/-- The open function ends. -/
theorem prints_endFunction : endFunction.PrintsCode := by
  refine (prints_look _).bind fun opened known => ?_
  split
  · exact prints_fail _
  · rename_i function
    obtain ⟨before, worded, same⟩ := known
    have word := worded.function function same.symm
    have closes : (update fun state => { state with function := none }).PrintsCode :=
      prints_update fun state kept => ⟨kept.space, nofun⟩
    refine closes.bind fun _ _ => ?_
    refine prints_qualifier.bind fun space known => ?_
    refine prints_update_bind ?_ (fun _ => rfl) fun _ => rfl
    have frame : Frame.IsWord ⟨space, function⟩ := ⟨known, word⟩
    have exits : (label (.exit ⟨space, function⟩)).PrintsCode :=
      prints_label (Symbol.printable_of_madeFor frame rfl)
    exact exits.bind fun _ _ => prints_instruction (Mnemonic.isPrintable nofun) nofun

/-- A closing brace ends the innermost block, or else the function. -/
theorem prints_close : close.PrintsCode := by
  refine (prints_look _).bind fun blocks _ => ?_
  split
  · exact prints_update_bind (prints_endBlock _) (fun _ => rfl) fun _ => rfl
  · exact prints_endFunction

/-- A place whose name is a word is named behind an opening. -/
theorem prints_place {name : String} (word : Text.IsWord name) {opening : Emission Unit}
    (opens : opening.PrintsCode) : (place name opening).PrintsCode := by
  have symbols : (ask fun state => state.labelSymbol name).Prints Symbol.IsPrintable :=
    prints_ask fun _ _ worded asked => worded.labelSymbol word asked
  refine symbols.bind fun symbol worded => ?_
  refine prints_update_bind ?_ (fun _ => rfl) fun _ => rfl
  exact opens.bind fun _ _ => prints_label worded

/-- The code of a construct of words. -/
theorem prints_emit {construct : Construct} (worded : construct.Spelled) :
    (emit construct).PrintsCode := by
  have jumps (condition : Condition) : (Mnemonic.jumpIf condition).IsPrintable :=
    Mnemonic.isPrintable nofun
  cases construct with
  | function name => exact prints_beginFunction worded
  | finish => exact prints_close
  | group =>
    refine (prints_insideFunction _).bind fun _ _ => ?_
    exact (prints_start .plain).bind fun _ _ => prints_pure trivial
  | exit =>
    exact (prints_insideFunction _).bind fun frame word =>
      prints_target (Mnemonic.isPrintable nofun) (Symbol.printable_of_madeFor word rfl)
  | leave =>
    refine (prints_look _).bind fun blocks _ => ?_
    split
    · exact prints_fail _
    · exact (prints_edge _ _).bind fun finish known =>
        prints_target (Mnemonic.isPrintable nofun) known
  | conditional left condition right =>
    refine (prints_insideFunction _).bind fun _ _ => ?_
    have compares : (compare left right).PrintsCode :=
      prints_double (Mnemonic.isPrintable nofun) worded.1 worded.2
    refine compares.bind fun _ _ => ?_
    refine (prints_start .conditional).bind fun block _ => ?_
    exact (prints_edge block .finish).bind fun finish known =>
      prints_target (jumps condition.negate) known
  | looping left condition right =>
    refine (prints_insideFunction _).bind fun _ _ => ?_
    refine (prints_start .looping).bind fun block _ => ?_
    refine (prints_edge block .begin).bind fun begin first => ?_
    refine (prints_edge block .finish).bind fun finish last => ?_
    refine (prints_label first).bind fun _ _ => ?_
    have compares : (compare left right).PrintsCode :=
      prints_double (Mnemonic.isPrintable nofun) worded.1 worded.2
    exact compares.bind fun _ _ => prints_target (jumps condition.negate) last
  | counted count =>
    refine (prints_insideFunction _).bind fun _ _ => ?_
    refine (prints_start .counted).bind fun block _ => ?_
    refine (prints_edge block .begin).bind fun begin first => ?_
    have counter : Token.isRegister "ECX" = true := by decide
    have load : (instruction .mov [.register "ECX", .verbatim count]).PrintsCode :=
      prints_instruction (Mnemonic.isPrintable nofun) (List.forall_mem_cons.mpr
        ⟨counter, List.forall_mem_singleton.mpr worded⟩)
    split
    · exact prints_label first
    · exact load.bind fun _ _ => prints_label first
  | labelled name =>
    refine (prints_insideFunction _).bind fun _ _ => ?_
    exact prints_place worded ((prints_start .labelled).bind fun _ _ => prints_pure trivial)
  | label name => exact prints_place worded (prints_pure trivial)
  | jump name =>
    have symbols : (ask fun state => state.labelSymbol name).Prints Symbol.IsPrintable :=
      prints_ask fun _ _ known asked => known.labelSymbol worded asked
    exact symbols.bind fun symbol known => prints_target (Mnemonic.isPrintable nofun) known
  | call name =>
    refine prints_qualifier.bind fun space known => ?_
    have frame : Frame.IsWord ⟨space, name⟩ := ⟨known, worded⟩
    exact prints_target (Mnemonic.isPrintable nofun) (Symbol.printable_of_madeFor frame rfl)
  | declare name value => exact prints_qualifier.bind fun space _ => prints_write trivial

end Flow

namespace Family

open Pattern.Element (kind_of_kind kind_mem_of_kinds)

/-- What is accepted as a number or a register can be told when it is copied. -/
theorem copied_of_kinds {token : Token} {before : List Token} (spelled : token.Spelled)
    (accepted : (Pattern.Element.kinds [.integer, .register]).accepts before token = true) :
    (Operand.verbatim token).form.IsPrintable := by
  refine spelled.printable_verbatim ?_
  have kinds := kind_mem_of_kinds accepted
  simp only [List.mem_cons, List.not_mem_nil, or_false] at kinds ⊢
  obtain kind | kind := kinds
  · exact .inr (.inl kind)
  · exact .inl kind

/-- What is accepted as a register can be told when it is copied. -/
theorem copied_of_kind {token : Token} {before : List Token} (spelled : token.Spelled)
    (accepted : (Pattern.Element.kind .register).accepts before token = true) :
    (Operand.verbatim token).form.IsPrintable := by
  refine spelled.printable_verbatim ?_
  rw [kind_of_kind accepted]
  exact List.mem_cons_self

/-- The names of a construct are those that its pattern has accepted. -/
theorem spelled_of_reads {pattern : Pattern} {tokens : List Token} {construct : Construct}
    (reads : Construct.Reads pattern tokens construct) (fits : Pattern.Fits [] pattern tokens)
    (words : ∀ token ∈ tokens, token.Spelled) : construct.Spelled := by
  cases reads with
  | function | jump | call =>
    obtain _ | ⟨word, _ | ⟨name, rest⟩⟩ := fits
    exact (words _ (by simp)).isWord (kind_of_kind name)
  | labelled | label =>
    obtain _ | ⟨name, rest⟩ := fits
    exact (words _ (by simp)).isWord (kind_of_kind name)
  | conditional | looping => exact ⟨words _ (by simp), words _ (by simp)⟩
  | counted =>
    obtain _ | ⟨word, _ | ⟨count, rest⟩⟩ := fits
    exact copied_of_kinds (words _ (by simp)) count
  | _ => trivial

/-- The branch of a pattern prints. -/
theorem Branch.prints {family : Family} {pattern : Pattern} {tokens : List Token}
    {code : Emission Unit} (branch : Branch family pattern tokens code)
    (fits : Pattern.Fits [] pattern tokens) (words : ∀ token ∈ tokens, token.Spelled) :
    code.PrintsCode := by
  cases branch with
  | declare word name =>
    obtain _ | ⟨_, _ | ⟨named, _⟩⟩ := fits
    have known := (words name (by simp)).isWord (kind_of_kind named)
    refine prints_update fun state worded => ⟨fun other found => ?_, worded.function⟩
    rw [← Option.some.inj found]
    exact known
  | comment remark =>
    refine (prints_look _).bind fun options _ => ?_
    split
    · split <;> exact prints_write trivial
    · exact prints_pure trivial
  | literal remark => exact prints_write trivial
  | output word port equals register =>
    obtain _ | ⟨_, _ | ⟨_, _ | ⟨_, _ | ⟨source, _⟩⟩⟩⟩ := fits
    have copied := copied_of_kind (words register (by simp)) source
    refine (prints_port port).bind fun place worded => ?_
    exact prints_instruction (Mnemonic.isPrintable nofun) (List.forall_mem_cons.mpr
      ⟨worded, List.forall_mem_singleton.mpr copied⟩)
  | input register equals word port =>
    obtain _ | ⟨target, _⟩ := fits
    have copied := copied_of_kind (words register (by simp)) target
    refine (prints_port port).bind fun place worded => ?_
    exact prints_instruction (Mnemonic.isPrintable nofun) (List.forall_mem_cons.mpr
      ⟨copied, List.forall_mem_singleton.mpr worded⟩)
  | save | restore => exact prints_instruction ⟨⟨by decide, by decide⟩, rfl⟩ nofun
  | operation word =>
    obtain _ | ⟨listed, ⟨⟩⟩ := fits
    have known : word.value ∈ ["NOP", "CLI", "STI", "HLT", "IRet"] :=
      List.contains_iff_mem.mp (Bool.and_eq_true_iff.mp listed).2
    have all : ∀ name ∈ ["NOP", "CLI", "STI", "HLT", "IRet"],
        (' ' ∉ (Text.lower name).toList ∧ (Text.lower name).toList.getLast? ≠ some ':') ∧
          Mnemonic.named (Text.lower name) = .other (Text.lower name) := by decide +kernel
    obtain ⟨⟨unbroken, unplaced⟩, named⟩ := all word.value known
    exact prints_instruction ⟨⟨unbroken, unplaced⟩, named⟩ nofun
  | up target | down target | plusOne target | minusOne target =>
    exact prints_single (Mnemonic.isPrintable nofun) (words target (by simp))
  | push sign token => exact prints_single (Mnemonic.isPrintable nofun) (words token (by simp))
  | pop sign token =>
    apply prints_reject_or
    exact prints_single (Mnemonic.isPrintable nofun) (words token (by simp))
  | assign target equals source =>
    exact prints_double (Mnemonic.isPrintable nofun) (words target (by simp))
      (words source (by simp))
  | compare left symbol right =>
    refine prints_double (Mnemonic.isPrintable ?_) (words left (by simp)) (words right (by simp))
    split <;> nofun
  | inPlace target symbol source =>
    exact prints_double (Arithmetic.isPrintable_operation symbol.value)
      (words target (by simp)) (words source (by simp))
  | combine target equals left symbol right =>
    have one := words target (by simp)
    have two := words left (by simp)
    have three := words right (by simp)
    split
    · exact prints_double (Arithmetic.isPrintable_operation symbol.value) one three
    · split
      · exact Arithmetic.prints_reversed one two symbol
      · exact Arithmetic.prints_loaded one two three symbol
  | shift target symbol amount =>
    obtain _ | ⟨_, _ | ⟨_, _ | ⟨count, _⟩⟩⟩ := fits
    have copied := copied_of_kinds (words amount (by simp)) count
    apply prints_reject_or
    refine (prints_sized (words target (by simp))).bind fun place worded => ?_
    exact prints_instruction (Arithmetic.isPrintable_shift symbol.value) (List.forall_mem_cons.mpr
      ⟨worded, List.forall_mem_singleton.mpr copied⟩)
  | flow reads => exact Flow.prints_emit (spelled_of_reads reads fits words)

/-- A line that is dispatched prints. -/
theorem prints_of_parse {text : String} {dispatch : Dispatch Family}
    (parsed : Table.parse standard text = .ok dispatch) :
    (dispatch.owner.emit dispatch.tokens).PrintsCode := by
  obtain ⟨-, pattern, -, matched, branch⟩ := branch_of_parse parsed
  exact branch.prints (Pattern.fits_of_matchesLine matched) fun token member =>
    Token.class_of_ofLine (Table.ofLine_of_parse parsed) member

/-- A line that is dispatched in a scope of words adds statements that are printed. -/
theorem printed_of_emit {text : String} {dispatch : Dispatch Family}
    (parsed : Table.parse standard text = .ok dispatch) {draft after : Draft}
    (worded : draft.state.scope.Worded)
    (emitted : dispatch.owner.emit dispatch.tokens draft = .ok () after) {code : List Statement}
    (added : after.listing = draft.listing.addAll code) :
    ∀ statement ∈ code, statement.Printed := by
  obtain ⟨-, -, lines, same, printed⟩ := (prints_of_parse parsed).of_ok worded emitted
  have whole : draft.listing.lines ++ code.map (Listing.Line.mk draft.listing.indent) =
      draft.listing.lines ++ lines := by
    rw [← same, added]
    rfl
  rw [← List.append_cancel_left whole] at printed
  exact fun statement member => printed _ (List.mem_map_of_mem member)

end Family

namespace Compiler

/-- A line prints. -/
theorem prints_line (text : String) : (line Family.standard text).Prints fun _ => True := by
  have indented : (indentAs text).PrintsCode := by
    refine ⟨fun worded passed => ?_, fun worded failed => by cases failed⟩
    cases passed
    exact ⟨trivial, worded, .of_lines_eq rfl⟩
  unfold line
  split
  · have blank : (write .blank).PrintsCode := prints_write trivial
    exact blank.bind fun _ _ => prints_pure trivial
  · split
    · exact prints_pure trivial
    · refine indented.bind fun _ _ => ?_
      split
      · exact prints_fail _
      · rename_i dispatch parsed
        have repeated : (echo text dispatch.tokens).PrintsCode := by
          refine (prints_look _).bind fun options _ => ?_
          split
          · exact prints_write trivial
          · exact prints_pure trivial
        refine repeated.bind fun _ _ => ?_
        exact (Family.prints_of_parse parsed).bind fun _ _ => prints_pure trivial

section Calls

variable {compiler : Compiler Family}

/-- A line leaves words as names. -/
theorem worded_effectOf (worded : compiler.state.scope.Worded) (raw : String) :
    (compiler.effectOf raw).scope.Worded := by
  have outcome : line Family.standard (textOf raw) compiler.toDraft =
      (compiler.effectOf raw).onto (compiler.toDraft.indentedBy (textOf raw)) :=
    Reading.line_eq (textOf raw) compiler.toDraft
  cases answered : (compiler.effectOf raw).answer with
  | ok progress =>
    have passed := outcome.trans (Effect.onto_eq_ok_iff.mpr ⟨answered, rfl⟩)
    have kept := ((prints_line (textOf raw)).of_ok worded passed).2.1
    rwa [Draft.scope_after] at kept
  | error cause =>
    have failed := outcome.trans (Effect.onto_eq_error_iff.mpr ⟨answered, rfl⟩)
    have kept := (prints_line (textOf raw)).of_error worded failed
    rwa [Draft.scope_after] at kept

/-- A line that succeeds has written labels and instructions that can be told from their texts. -/
theorem printed_effectOf (worded : compiler.state.scope.Worded) (raw : String)
    (progress : Progress) (answered : (compiler.effectOf raw).answer = .ok progress) :
    ∀ statement ∈ (compiler.effectOf raw).written, statement.Printed := by
  have passed := (Reading.line_eq (textOf raw) compiler.toDraft).trans
    (Effect.onto_eq_ok_iff.mpr ⟨answered, rfl⟩)
  obtain ⟨-, -, extended⟩ := (prints_line (textOf raw)).of_ok worded passed
  exact extended.of_after (Draft.lines_indentedBy compiler.toDraft (textOf raw))

/-- Each line of a call leaves words as names. -/
theorem worded_step {σ : Type} [Sink σ] (ready : compiler.Ready)
    (worded : compiler.state.scope.Worded) (sink : σ) (read : Read) :
    (compiler.step sink read).2.1.state.scope.Worded := by
  cases read with
  | error words =>
    rw [step_error ready]
    exact worded
  | ok raw =>
    rw [scope_step ready]
    exact worded_effectOf worded raw

/-- However a compiler has been used, the names in its scope are words. -/
theorem Reachable.worded (reachable : compiler.Reachable) : compiler.state.scope.Worded := by
  obtain ⟨options, later⟩ := reachable
  induction later with
  | refl => exact ⟨nofun, nofun⟩
  | @call σ _ compiler before sink source ih =>
    have both := run_induction
      (fun (compiler : Compiler Family) (sink : σ) read
        (held : compiler.Ready ∧ compiler.state.scope.Worded) =>
        ⟨held.1.step sink read, worded_step held.1 held.2 sink read⟩)
      source sink ⟨(before.ready (ready_new options)).restart, ih⟩
    exact both.2

/-- What reaches the sink in a call of a compiler is printed. -/
theorem printed_compile (reachable : compiler.Reachable) (source : List Read) :
    ∀ line ∈ (compiler.compile ([] : List Listing.Line) source).sink, line.statement.Printed := by
  intro line member
  have kept (compiler : Compiler Family) (lines : List Listing.Line) (read : Read)
      (ready : compiler.Ready) (worded : compiler.state.scope.Worded) :
      (compiler.step lines read).2.1.state.scope.Worded := worded_step ready worded lines read
  have written := sorted_of_run kept (fun _ _ worded => printed_effectOf worded)
    reachable.ready.restart reachable.worded [] source line member
  exact written.resolve_left List.not_mem_nil

/-- Every label and every instruction that reaches the sink in a call of a compiler is read back
from what is written there. -/
theorem ofText_text (reachable : compiler.Reachable) (source : List Read) :
    ∀ line ∈ (compiler.compile ([] : List Listing.Line) source).sink,
      line.statement.isCode = true →
        Statement.ofText line.statement.text = line.statement.plain := by
  intro line member code
  exact Statement.ofText_text ((printed_compile reachable source line member).isPrintable code)

/-- If all that is executed of the statements of a call are labels and instructions, they can be
told from their texts. -/
theorem printable_executable (reachable : compiler.Reachable) (source : List Read)
    {code : List Statement}
    (executed : executable (statements
      (compiler.compile ([] : List Listing.Line) source).sink) = code)
    (only : ∀ statement ∈ code, statement.isCode = true) :
    ∀ statement ∈ code, statement.IsPrintable := by
  intro statement member
  have written := member
  rw [← executed] at written
  obtain ⟨line, reached, rfl⟩ := List.mem_map.mp (List.mem_filter.mp written).1
  exact (printed_compile reachable source line reached).isPrintable (only line.statement member)

end Calls

end Compiler

end LineAsm
