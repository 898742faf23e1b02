import LineAsm.Proofs.Numerals
import LineAsm.Proofs.Operands
import LineAsm.Proofs.Written
/-!
# Statements read back from their texts

A statement is read back from the text it is written as (`Statement.ofText`): the operation by its
name, a width that is stated by its word, and an operand by the characters it is made of. What comes
back is the statement itself, but for the symbols, of which only the names are written
(`Statement.plain`, `Statement.ofText_text`). It is so for statements whose operands are what their
forms say, and whose symbols are words with an underscore in them (`Statement.IsPrintable`): neither
a number nor the name of a register has one.
-/

namespace LineAsm

/-- The operation of a name. -/
def Mnemonic.named (name : String) : Mnemonic :=
  match name with
  | "mov" => .mov
  | "add" => .add
  | "sub" => .sub
  | "and" => .and
  | "or" => .or
  | "xor" => .xor
  | "neg" => .neg
  | "inc" => .inc
  | "dec" => .dec
  | "shl" => .shl
  | "shr" => .shr
  | "rol" => .rol
  | "ror" => .ror
  | "push" => .push
  | "pop" => .pop
  | "in" => .input
  | "out" => .output
  | "cmp" => .cmp
  | "test" => .test
  | "jmp" => .jmp
  | "je" => .jumpIf .equal
  | "jne" => .jumpIf .notEqual
  | "jb" => .jumpIf .below
  | "ja" => .jumpIf .above
  | "jbe" => .jumpIf .atMost
  | "jae" => .jumpIf .atLeast
  | "loop" => .loop
  | "call" => .call
  | "ret" => .ret
  | _ => .other name

/-- An operation that is written as a single word and read back from it. -/
structure Mnemonic.IsPrintable (mnemonic : Mnemonic) : Prop where
  /-- The name is a single word. -/
  word : mnemonic.IsWord
  /-- The operation is the one of its name. -/
  named : named mnemonic.text = mnemonic

/-- An operation that is known by more than its text is read back from its name. -/
theorem Mnemonic.isPrintable {mnemonic : Mnemonic} (known : ∀ text, mnemonic ≠ .other text) :
    mnemonic.IsPrintable := by
  refine ⟨isWord known, ?_⟩
  cases mnemonic with
  | other text => exact absurd rfl (known text)
  | jumpIf condition => cases condition <;> rfl
  | _ => rfl

/-- The name between brackets, if there is one: a word with an underscore. -/
def Text.nameWithin? (text : String) : Option String :=
  let name := String.ofList text.toList.tail.dropLast
  if text = "[" ++ name ++ "]" ∧ name.toList.all Lexeme.isWordPart = true ∧
    name.toList.contains '_' = true then some name else none

/-- A name is between brackets exactly if it is a word with an underscore and has the brackets
around it. -/
theorem Text.nameWithin?_eq_some_iff {text name : String} :
    nameWithin? text = some name ↔
      text = "[" ++ name ++ "]" ∧ IsWord name ∧ '_' ∈ name.toList := by
  unfold nameWithin?
  constructor
  · intro found
    obtain ⟨⟨known, word, underscore⟩, same⟩ := Option.ite_none_right_eq_some.mp found
    obtain rfl := Option.some.inj same
    exact ⟨known, List.all_eq_true.mp word, List.contains_iff_mem.mp underscore⟩
  · rintro ⟨rfl, word, underscore⟩
    dsimp only
    rw [toList_bracketed, List.tail_cons, List.dropLast_concat, String.ofList_toList,
      if_pos ⟨rfl, List.all_eq_true.mpr word, List.contains_iff_mem.mpr underscore⟩]

/-- A text that does not begin with a bracket has no name between brackets. -/
theorem Text.nameWithin?_of_unopened {text : String} (unopened : text.toList.head? ≠ some '[') :
    nameWithin? text = none := by
  refine Option.eq_none_iff_forall_ne_some.mpr fun name found => ?_
  obtain ⟨rfl, -⟩ := nameWithin?_eq_some_iff.mp found
  rw [toList_bracketed] at unopened
  exact unopened rfl

/-- A symbol that is written as a word with an underscore in it. -/
structure Symbol.IsPrintable (symbol : Symbol) : Prop where
  /-- The symbol is a word. -/
  word : Text.IsWord symbol.text
  /-- Its parts are joined. -/
  joined : '_' ∈ symbol.text.toList

namespace Operand

namespace Form

/-- What a text refers to as an operand: a number, a register, a variable or an address between
brackets, or else a place in the code. -/
def ofText (text : String) : Form :=
  if (Port.value? text.toList).isSome then .immediate text
  else if Token.isRegister text then .register text
  else
    match Text.nameWithin? text with
    | some name => .variable (.plain name)
    | none => if text.toList.head? = some '[' then .memory text else .target (.plain text)

/-- What can be read back of an operand: of a symbol there is only the name, and an address that is
only a name is a variable. -/
def plain : Form → Form
  | .variable symbol => .variable (.plain symbol.text)
  | .target symbol => .target (.plain symbol.text)
  | .memory address =>
    match Text.nameWithin? address with
    | some name => .variable (.plain name)
    | none => .memory address
  | form => form

/-- What can be read back is written in the same way. -/
@[simp] theorem text_plain (form : Form) : (plain form).text = form.text := by
  cases form with
  | memory address =>
    rw [plain]
    split
    · rename_i name found
      exact (Text.nameWithin?_eq_some_iff.mp found).1.symm
    · rfl
  | _ => rfl

/-- What an operand refers to can be told from its text. -/
def IsPrintable : Form → Prop
  | .register name => Token.isRegister name = true
  | .immediate digits => (Port.value? digits.toList).isSome = true
  | .memory address => ∃ inside, address.toList = '[' :: (inside ++ [']']) ∧ ']' ∉ inside
  | .variable symbol | .target symbol => symbol.IsPrintable
  | .word _ => False

end Form

/-- The operand of a text. -/
def ofText (text : String) : Operand :=
  if text.toList.take 6 = ['d', 'w', 'o', 'r', 'd', ' '] then
    ⟨.ofText (.ofList (text.toList.drop 6)), true⟩
  else ⟨.ofText text, false⟩

/-- What can be read back of an operand. -/
def plain (operand : Operand) : Operand := ⟨operand.form.plain, operand.dword⟩

end Operand

namespace Statement

/-- The statement that a line says. -/
def ofWritten : Written → Statement
  | .label name => .label (.plain name)
  | .instruction operation operands => .instruction (.named operation) (operands.map Operand.ofText)

/-- The statement of a text. -/
def ofText (text : String) : Statement := ofWritten (Written.ofText text)

/-- What can be read back of a statement. -/
def plain : Statement → Statement
  | .label symbol => .label (.plain symbol.text)
  | .instruction mnemonic operands => .instruction mnemonic (operands.map Operand.plain)
  | statement => statement

/-- A label or an instruction that can be told from its text. -/
def IsPrintable : Statement → Prop
  | .label symbol => symbol.IsPrintable
  | .instruction mnemonic operands =>
    mnemonic.IsPrintable ∧ ∀ operand ∈ operands, operand.form.IsPrintable
  | _ => False

end Statement

/-- The name of a register has letters only and is no number. -/
theorem Token.letters_of_isRegister {name : String} (register : isRegister name = true) :
    Port.value? name.toList = none ∧ ∀ c ∈ name.toList, c.isAlpha = true := by
  obtain ⟨capitals, member, same⟩ := List.any_eq_true.mp register
  have known : ∀ capitals ∈ registers, capitals.toList.all (fun c => c != c.toLower) = true ∧
      ∀ letters ∈ Text.spellings capitals.toList,
        Port.value? letters = none ∧ letters.all Char.isAlpha = true := by decide +kernel
  obtain ⟨large, all⟩ := known capitals member
  obtain ⟨unvalued, letters⟩ := all name.toList (Text.mem_spellings large (eq_of_beq same).symm)
  exact ⟨unvalued, List.all_eq_true.mp letters⟩

/-- The name of a register is a word. -/
theorem Token.isWord_of_isRegister {name : String} (register : isRegister name = true) :
    Text.IsWord name := by
  intro c member
  rw [Lexeme.isWordPart, Char.isAlphanum, (letters_of_isRegister register).2 c member,
    Bool.true_or, Bool.true_or]

/-- What has a value as a number has none of the characters that no number has. -/
theorem Port.not_mem_of_isSome_value? {digits : List Char} (valued : (value? digits).isSome = true)
    {c : Char} (foreign : ∀ figure < 16, Nat.digitChar figure ≠ c.toLower)
    (unmarked : c.toLower ≠ 'x') (unsigned : c ≠ '+') : c ∉ digits := by
  obtain ⟨value, known⟩ := Option.isSome_iff_exists.mp valued
  rcases value?_eq_some_iff.mp known with numeral | numeral
  · exact numeral.not_mem foreign unmarked List.not_mem_nil
  · exact numeral.not_mem foreign unmarked fun member => unsigned (List.mem_singleton.mp member)

/-- A number is a legible operand without blanks. -/
theorem Port.legible_of_isSome_value? {text : String}
    (valued : (value? text.toList).isSome = true) :
    Written.Legible text ∧ ' ' ∉ text.toList := by
  have blank : ' ' ∉ text.toList :=
    not_mem_of_isSome_value? valued (by decide) (by decide) (by decide)
  have comma : ',' ∉ text.toList :=
    not_mem_of_isSome_value? valued (by decide) (by decide) (by decide)
  have bracket : '[' ∉ text.toList :=
    not_mem_of_isSome_value? valued (by decide) (by decide) (by decide)
  refine ⟨Written.legible_of_forall (fun c => c != ',' && c != '[' && c != ' ') (by decide)
    (by decide) (by decide) ?_, blank⟩
  intro c member
  have apart : c ≠ ',' ∧ c ≠ '[' ∧ c ≠ ' ' :=
    ⟨fun same => comma (same ▸ member), fun same => bracket (same ▸ member),
      fun same => blank (same ▸ member)⟩
  simp [apart]

namespace Operand.Form

variable {form : Form}

/-- The text of a printable operand is legible. -/
theorem IsPrintable.legible (printable : form.IsPrintable) : Written.Legible form.text := by
  cases form with
  | register name => exact (Token.isWord_of_isRegister printable).legible
  | immediate digits => exact (Port.legible_of_isSome_value? printable).1
  | memory address =>
    obtain ⟨inside, letters, unclosed⟩ := printable
    exact Written.legible_of_enclosed letters unclosed
  | «variable» symbol => exact printable.word.legible_memory
  | target symbol => exact printable.word.legible
  | word text => exact printable.elim

/-- The text of a printable operand does not begin with the word of a width. -/
theorem IsPrintable.unsized (printable : form.IsPrintable) :
    form.text.toList.take 6 ≠ ['d', 'w', 'o', 'r', 'd', ' '] := by
  have unblank {text : String} (unbroken : ' ' ∉ text.toList) :
      text.toList.take 6 ≠ ['d', 'w', 'o', 'r', 'd', ' '] := by
    intro width
    have blank : ' ' ∈ text.toList.take 6 := by
      rw [width]
      decide
    exact unbroken (List.mem_of_mem_take blank)
  have bracketed {text : String} {rest : List Char} (letters : text.toList = '[' :: rest) :
      text.toList.take 6 ≠ ['d', 'w', 'o', 'r', 'd', ' '] := by
    rw [letters]
    nofun
  cases form with
  | register name => exact unblank (Token.isWord_of_isRegister printable).unbroken
  | immediate digits => exact unblank (Port.legible_of_isSome_value? printable).2
  | memory address =>
    obtain ⟨inside, letters, -⟩ := printable
    exact bracketed letters
  | «variable» symbol => exact bracketed (Text.toList_bracketed symbol.text)
  | target symbol => exact unblank printable.word.unbroken
  | word text => exact printable.elim

/-- A text with a character that neither a number nor a register has is neither. -/
theorem ofText_of_mem {text : String} {c : Char} (member : c ∈ text.toList)
    (foreign : ∀ figure < 16, Nat.digitChar figure ≠ c.toLower) (unmarked : c.toLower ≠ 'x')
    (unsigned : c ≠ '+') (unlettered : c.isAlpha = false) :
    ofText text =
      match Text.nameWithin? text with
      | some name => .variable (.plain name)
      | none => if text.toList.head? = some '[' then .memory text else .target (.plain text) := by
  have unvalued : ¬ (Port.value? text.toList).isSome = true := fun valued =>
    Port.not_mem_of_isSome_value? valued foreign unmarked unsigned member
  have unregistered : ¬ Token.isRegister text = true := by
    intro register
    have letter := (Token.letters_of_isRegister register).2 c member
    rw [unlettered] at letter
    cases letter
  rw [ofText, if_neg unvalued, if_neg unregistered]

/-- What a printable operand refers to is read back from its text. -/
theorem ofText_text (printable : form.IsPrintable) : ofText form.text = form.plain := by
  cases form with
  | register name =>
    have unvalued : ¬ (Port.value? name.toList).isSome = true := by
      rw [(Token.letters_of_isRegister printable).1]
      nofun
    have registered : Token.isRegister name = true := printable
    rw [text, ofText, if_neg unvalued, if_pos registered]
    rfl
  | immediate digits =>
    have valued : (Port.value? digits.toList).isSome = true := printable
    rw [text, ofText, if_pos valued]
    rfl
  | memory address =>
    obtain ⟨inside, letters, -⟩ := printable
    have bracket : '[' ∈ address.toList := by
      rw [letters]
      exact List.mem_cons_self
    have opened : address.toList.head? = some '[' := by
      rw [letters]
      rfl
    rw [text, ofText_of_mem bracket (by decide) (by decide) (by decide) (by decide), if_pos opened]
    rfl
  | «variable» symbol =>
    obtain ⟨word, underscore⟩ := printable
    have bracket : '[' ∈ ("[" ++ symbol.text ++ "]").toList := by
      rw [Text.toList_bracketed]
      exact List.mem_cons_self
    rw [text, ofText_of_mem bracket (by decide) (by decide) (by decide) (by decide),
      Text.nameWithin?_eq_some_iff.mpr ⟨rfl, word, underscore⟩]
    rfl
  | target symbol =>
    obtain ⟨word, underscore⟩ := printable
    have unopened : symbol.text.toList.head? ≠ some '[' := by
      intro first
      have bracket : Lexeme.isWordPart '[' = true := word '[' (List.mem_of_head? first)
      revert bracket
      decide
    rw [text, ofText_of_mem underscore (by decide) (by decide) (by decide) (by decide),
      Text.nameWithin?_of_unopened unopened, if_neg unopened]
    rfl
  | word text => exact printable.elim

end Operand.Form

namespace Operand

variable {operand : Operand}

/-- A printable operand is read back from its text, with the width that is stated. -/
theorem ofText_text (printable : operand.form.IsPrintable) :
    ofText operand.text = operand.plain := by
  obtain ⟨form, dword⟩ := operand
  cases dword with
  | false =>
    rw [text, if_neg Bool.false_ne_true, ofText, if_neg printable.unsized,
      Form.ofText_text printable]
    rfl
  | true =>
    have width : "dword ".toList = ['d', 'w', 'o', 'r', 'd', ' '] := by decide
    have front : ("dword " ++ form.text).toList.take 6 = ['d', 'w', 'o', 'r', 'd', ' '] := by
      rw [String.toList_append, width]
      rfl
    have back : ("dword " ++ form.text).toList.drop 6 = form.text.toList := by
      rw [String.toList_append, width]
      rfl
    rw [text, if_pos rfl, ofText, if_pos front, back, String.ofList_toList,
      Form.ofText_text printable]
    rfl

/-- The text of a printable operand is legible. -/
theorem legible_text (printable : operand.form.IsPrintable) : Written.Legible operand.text := by
  unfold text
  split
  · exact printable.legible.dword
  · exact printable.legible

end Operand

namespace Statement

/-- The line of a printable statement is read back. -/
theorem IsPrintable.isReadable {statement : Statement} (printable : statement.IsPrintable) :
    statement.IsReadable := by
  cases statement with
  | label symbol =>
    have known : symbol.IsPrintable := printable
    exact Written.ofText_label known.word.unbroken
  | instruction mnemonic operands =>
    obtain ⟨known, operative⟩ := printable
    exact Written.ofText_instruction known.word fun operand member =>
      Operand.legible_text (operative operand member)
  | _ => exact printable.elim

/-- A printable statement is read back from its text. -/
theorem ofText_text {statement : Statement} (printable : statement.IsPrintable) :
    ofText statement.text = statement.plain := by
  have readable := printable.isReadable
  cases statement with
  | label symbol =>
    have line : Written.ofText (label symbol).text = .label symbol.text := readable
    rw [ofText, line]
    rfl
  | instruction mnemonic operands =>
    have line : Written.ofText (instruction mnemonic operands).text =
        .instruction mnemonic.text (operands.map Operand.text) := readable
    obtain ⟨known, operative⟩ := printable
    have texts : (operands.map Operand.text).map Operand.ofText = operands.map Operand.plain := by
      rw [List.map_map]
      exact List.map_congr_left fun operand member => Operand.ofText_text (operative operand member)
    rw [ofText, line, ofWritten, known.named, texts]
    rfl
  | _ => exact printable.elim

example : ofText "add eax, 4" =
    .instruction .add [⟨.register "eax", false⟩, .immediate "4"] := by decide +kernel

end Statement

end LineAsm
