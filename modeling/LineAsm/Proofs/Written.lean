import LineAsm.Proofs.LongestMatch
import LineAsm.Proofs.Symbols
import LineAsm.Assembly.Statement
import Mathlib.Data.List.TakeWhile
/-!
# Lines of assembly as they are written

A line of assembly is read back from its text (`Written.ofText`): one word that ends in a colon is a
label, and anything else is an operation with its operands, which stand between commas outside
brackets. A label is read back as its name (`Written.ofText_label`), and an instruction as the texts
of its operation and of its operands (`Written.ofText_instruction`), where the name and the
operation are single words and the operands are legible (`Written.Legible`): their brackets are
closed, and no comma stands outside them. The symbols of a function whose name and namespace are
words are words themselves (`Symbol.isWord_of_madeFor`).
-/

namespace LineAsm

/-- What a line of assembly says as it is written. -/
inductive Written where
  /-- A name for the place that follows. -/
  | label (name : String)
  /-- An operation and its operands. -/
  | instruction (operation : String) (operands : List String)
deriving DecidableEq, Repr

namespace Written

/-- Whether what follows a character stands between brackets. -/
def encloses (inside : Bool) (c : Char) : Bool := c == '[' || (inside && c != ']')

/-- The parts of a text between its commas, where commas between brackets are left alone. -/
def parts : Bool → List Char → List (List Char)
  | _, [] => [[]]
  | inside, c :: rest =>
    if !inside && c == ',' then [] :: parts false rest
    else (parts (encloses inside c) rest).modifyHead (c :: ·)

/-- Whether a text is one part: it ends outside brackets, and no comma stands outside them. -/
def isPart : Bool → List Char → Bool
  | inside, [] => !inside
  | inside, c :: rest => (inside || c != ',') && isPart (encloses inside c) rest

/-- The operands between commas, each without the blanks in front of it. -/
def operandsOf (letters : List Char) : List String :=
  (parts false letters).map fun part => .ofList (part.dropWhile (· == ' '))

/-- What the text of a line says. -/
def ofText (text : String) : Written :=
  match text.toList.dropWhile (· != ' ') with
  | [] =>
    if text.toList.getLast? = some ':' then .label (.ofList text.toList.dropLast)
    else .instruction text []
  | _ :: rest => .instruction (.ofList (text.toList.takeWhile (· != ' '))) (operandsOf rest)

/-- An operand that can be told from those beside it. -/
structure Legible (text : String) : Prop where
  /-- The operand is one part. -/
  part : isPart false text.toList = true
  /-- The operand does not begin with a blank. -/
  start : text.toList.head? ≠ some ' '

section Parts

variable {inside : Bool} {front : List Char}

/-- Within one part, the character in front is no comma outside brackets. -/
theorem isPart_cons {c : Char} (part : isPart inside (c :: front) = true) :
    (!inside && c == ',') = false ∧ isPart (encloses inside c) front = true := by
  obtain ⟨one, other⟩ := Bool.and_eq_true_iff.mp part
  refine ⟨?_, other⟩
  rw [← Bool.not_eq_true', Bool.not_and, Bool.not_not]
  exact one

/-- One part has no other parts. -/
theorem parts_of_isPart (part : isPart inside front = true) : parts inside front = [front] := by
  induction front generalizing inside with
  | nil => rfl
  | cons c front ih =>
    obtain ⟨other, further⟩ := isPart_cons part
    rw [parts, other, ih further]
    rfl

/-- What stands before a comma is the first part. -/
theorem parts_append (part : isPart inside front = true) (rest : List Char) :
    parts inside (front ++ ',' :: rest) = front :: parts false rest := by
  induction front generalizing inside with
  | nil =>
    obtain rfl : inside = false := by simpa [isPart] using part
    rfl
  | cons c front ih =>
    obtain ⟨other, further⟩ := isPart_cons part
    rw [List.cons_append, parts, other, ih further]
    rfl

/-- A blank in front of the first operand is dropped. -/
theorem operandsOf_blank (letters : List Char) :
    operandsOf (' ' :: letters) = operandsOf letters := by
  have blank : parts false (' ' :: letters) = (parts false letters).modifyHead (' ' :: ·) := rfl
  rw [operandsOf, blank, operandsOf]
  cases parts false letters with
  | nil => rfl
  | cons first others => rfl

/-- A legible operand has no blanks to drop. -/
theorem Legible.ofList_dropWhile {text : String} (legible : Legible text) :
    String.ofList (text.toList.dropWhile (· == ' ')) = text := by
  have start := legible.start
  cases letters : text.toList with
  | nil => rw [← String.ofList_toList (s := text), letters, List.dropWhile_nil]
  | cons c rest =>
    rw [letters, List.head?_cons] at start
    have other : (c == ' ') = false :=
      beq_eq_false_iff_ne.mpr fun same => start (congrArg some same)
    rw [List.dropWhile_cons, other, if_neg Bool.false_ne_true, ← letters, String.ofList_toList]

/-- Legible operands that are joined by commas are read back. -/
theorem operandsOf_intercalate {texts : List String} (present : texts ≠ [])
    (legible : ∀ text ∈ texts, Legible text) :
    operandsOf (String.intercalate ", " texts).toList = texts := by
  induction texts with
  | nil => exact absurd rfl present
  | cons first others ih =>
    have one := legible first List.mem_cons_self
    cases others with
    | nil =>
      rw [String.intercalate_singleton, operandsOf, parts_of_isPart one.part, List.map_singleton,
        one.ofList_dropWhile]
    | cons second others =>
      have rest := ih nofun fun text member => legible text (List.mem_cons_of_mem first member)
      have comma : ", ".toList = [',', ' '] := by decide
      rw [String.intercalate_cons_cons, String.toList_append, String.toList_append, comma,
        List.append_assoc, List.cons_append, List.singleton_append, operandsOf,
        parts_append one.part, List.map_cons, one.ofList_dropWhile, ← operandsOf,
        operandsOf_blank, rest]

end Parts

section Words

variable {word : String}

/-- A single word has no blank before its end. -/
theorem dropWhile_of_unbroken (unbroken : ' ' ∉ word.toList) :
    word.toList.dropWhile (· != ' ') = [] := by
  refine List.dropWhile_eq_nil_iff.mpr fun c member => ?_
  simp only [bne_iff_ne, ne_eq]
  rintro rfl
  exact unbroken member

/-- What stands before the first blank is the operation, and the operands follow it. -/
theorem ofText_append (unbroken : ' ' ∉ word.toList) (rest : String) :
    ofText (word ++ " " ++ rest) = .instruction word (operandsOf rest.toList) := by
  have blank : " ".toList = [' '] := by decide
  have letters : (word ++ " " ++ rest).toList = word.toList ++ ' ' :: rest.toList := by
    rw [String.toList_append, String.toList_append, blank, List.append_assoc,
      List.singleton_append]
  have differs : ∀ c ∈ word.toList, (c != ' ') = true := by
    intro c member
    simp only [bne_iff_ne, ne_eq]
    rintro rfl
    exact unbroken member
  have taken : (word ++ " " ++ rest).toList.takeWhile (· != ' ') = word.toList := by
    rw [letters, List.takeWhile_append_of_pos differs]
    simp
  have dropped : (word ++ " " ++ rest).toList.dropWhile (· != ' ') = ' ' :: rest.toList := by
    rw [letters, List.dropWhile_append_of_pos differs]
    simp
  rw [ofText, taken, dropped, String.ofList_toList]

/-- A label whose name is a single word is read back as its name. -/
theorem ofText_label {symbol : Symbol} (unbroken : ' ' ∉ symbol.text.toList) :
    ofText (Statement.label symbol).text = .label symbol.text := by
  have colon : ":".toList = [':'] := by decide
  have letters : (Statement.label symbol).text.toList = symbol.text.toList ++ [':'] := by
    rw [Statement.text, String.toList_append, colon]
  have whole : ' ' ∉ (Statement.label symbol).text.toList := by
    rw [letters, List.mem_append, List.mem_singleton]
    rintro (early | last)
    · exact unbroken early
    · cases last
  rw [ofText, dropWhile_of_unbroken whole, letters, List.getLast?_concat, if_pos rfl,
    List.dropLast_concat, String.ofList_toList]

end Words

end Written

/-- An operation that is written as a single word and not as a label. -/
structure Mnemonic.IsWord (mnemonic : Mnemonic) : Prop where
  /-- There is no blank in it. -/
  unbroken : ' ' ∉ mnemonic.text.toList
  /-- There is no colon at its end. -/
  unplaced : mnemonic.text.toList.getLast? ≠ some ':'

/-- An operation that is known by more than its text is a single word. -/
theorem Mnemonic.isWord {mnemonic : Mnemonic} (known : ∀ text, mnemonic ≠ .other text) :
    mnemonic.IsWord := by
  cases mnemonic with
  | other text => exact absurd rfl (known text)
  | jumpIf condition => cases condition <;> exact ⟨by decide, by decide⟩
  | _ => exact ⟨by decide, by decide⟩

namespace Written

variable {mnemonic : Mnemonic} {operands : List Operand}

/-- An operation alone is read back. -/
theorem ofText_operation (word : mnemonic.IsWord) :
    ofText (Statement.instruction mnemonic []).text = .instruction mnemonic.text [] := by
  rw [Statement.text, ofText, dropWhile_of_unbroken word.unbroken, if_neg word.unplaced]

/-- An instruction is read back as its operation and what is read of its operands. -/
theorem ofText_operands (word : mnemonic.IsWord) (present : operands ≠ []) :
    ofText (Statement.instruction mnemonic operands).text =
      .instruction mnemonic.text
        (operandsOf (String.intercalate ", " (operands.map Operand.text)).toList) := by
  cases operands with
  | nil => exact absurd rfl present
  | cons first others =>
    rw [Statement.text, ofText_append word.unbroken]
    exact present

/-- An instruction with legible operands is read back as the texts of its operation and of its
operands. -/
theorem ofText_instruction (word : mnemonic.IsWord)
    (legible : ∀ operand ∈ operands, Legible operand.text) :
    ofText (Statement.instruction mnemonic operands).text =
      .instruction mnemonic.text (operands.map Operand.text) := by
  by_cases present : operands = []
  · rw [present, ofText_operation word, List.map_nil]
  · rw [ofText_operands word present, operandsOf_intercalate]
    · exact fun none => present (List.map_eq_nil_iff.mp none)
    · exact List.forall_mem_map.mpr legible

end Written

/-- A label or an instruction that is read back from its text. -/
def Statement.IsReadable (statement : Statement) : Prop :=
  match statement with
  | .label symbol => Written.ofText statement.text = .label symbol.text
  | .instruction mnemonic operands =>
    Written.ofText statement.text = .instruction mnemonic.text (operands.map Operand.text)
  | _ => False

namespace Written

section Legible

variable {cs : List Char} {text : String} {test : Char → Bool}

/-- Characters without brackets and commas are one part. -/
theorem isPart_of_forall (comma : test ',' = false) (bracket : test '[' = false)
    (only : ∀ c ∈ cs, test c = true) : isPart false cs = true := by
  induction cs with
  | nil => rfl
  | cons c cs ih =>
    have passed := only c List.mem_cons_self
    have uncomma : c ≠ ',' := by
      rintro rfl
      exact Bool.false_ne_true (comma.symm.trans passed)
    have unbracket : c ≠ '[' := by
      rintro rfl
      exact Bool.false_ne_true (bracket.symm.trans passed)
    have outside : encloses false c = false := by simp [encloses, unbracket]
    rw [isPart, outside, ih fun other member => only other (List.mem_cons_of_mem c member)]
    simp [uncomma]

/-- What stands before the closing bracket is enclosed. -/
theorem isPart_of_enclosed (unclosed : ']' ∉ cs) : isPart true (cs ++ [']']) = true := by
  induction cs with
  | nil => rfl
  | cons c cs ih =>
    obtain ⟨other, rest⟩ := not_or.mp (mt List.mem_cons.mpr unclosed)
    have inside : encloses true c = true := by
      simp [encloses, Ne.symm other]
    rw [List.cons_append, isPart, inside, ih rest]
    rfl

/-- An operand without brackets, commas and blanks is legible. -/
theorem legible_of_forall (test : Char → Bool) (comma : test ',' = false)
    (bracket : test '[' = false) (blank : test ' ' = false)
    (only : ∀ c ∈ text.toList, test c = true) : Legible text where
  part := isPart_of_forall comma bracket only
  start := by
    intro first
    have passed := only ' ' (List.mem_of_head? first)
    exact Bool.false_ne_true (blank.symm.trans passed)

/-- An operand between brackets is legible. -/
theorem legible_of_enclosed (letters : text.toList = '[' :: (cs ++ [']']))
    (unclosed : ']' ∉ cs) : Legible text where
  part := by
    rw [letters]
    exact isPart_of_enclosed unclosed
  start := by
    rw [letters]
    nofun

/-- An operand is legible with its width in front of it. -/
theorem Legible.dword (legible : Legible text) : Legible ("dword " ++ text) where
  part := by
    have width : "dword ".toList = ['d', 'w', 'o', 'r', 'd', ' '] := by decide
    rw [String.toList_append, width]
    exact legible.part
  start := by
    have width : "dword ".toList = ['d', 'w', 'o', 'r', 'd', ' '] := by decide
    rw [String.toList_append, width]
    nofun

end Legible

end Written

/-- A text between brackets, character by character. -/
theorem Text.toList_bracketed (text : String) :
    ("[" ++ text ++ "]").toList = '[' :: (text.toList ++ [']']) := by
  have opening : "[".toList = ['['] := by decide
  have closing : "]".toList = [']'] := by decide
  rw [String.toList_append, String.toList_append, opening, closing, List.append_assoc,
    List.singleton_append]

/-- A text of letters, digits and underscores only. -/
def Text.IsWord (text : String) : Prop := ∀ c ∈ text.toList, Lexeme.isWordPart c = true

namespace Text.IsWord

variable {text : String}

/-- A word has no blank. -/
theorem unbroken (word : IsWord text) : ' ' ∉ text.toList := by
  intro member
  have blank : Lexeme.isWordPart ' ' = false := by decide
  exact Bool.false_ne_true (blank.symm.trans (word ' ' member))

/-- A word is legible. -/
theorem legible (word : IsWord text) : Written.Legible text :=
  Written.legible_of_forall Lexeme.isWordPart (by decide) (by decide) (by decide) word

/-- The memory of a word is legible. -/
theorem legible_memory (word : IsWord text) : Written.Legible ("[" ++ text ++ "]") := by
  refine Written.legible_of_enclosed (toList_bracketed text) fun member => ?_
  have bracket : Lexeme.isWordPart ']' = false := by decide
  exact Bool.false_ne_true (bracket.symm.trans (word ']' member))

/-- Words joined by an underscore are a word. -/
theorem join {other : String} (word : IsWord text) (more : IsWord other) :
    IsWord (text ++ "_" ++ other) := by
  have underscore : "_".toList = ['_'] := by decide
  intro c member
  rw [String.toList_append, String.toList_append, underscore, List.append_assoc, List.mem_append,
    List.mem_append, List.mem_singleton] at member
  obtain one | rfl | two := member
  · exact word c one
  · decide
  · exact more c two

end Text.IsWord

/-- A function whose name is a word, as is the name of its namespace. -/
structure Frame.IsWord (frame : Frame) : Prop where
  /-- The namespace is a word. -/
  space : Text.IsWord frame.space
  /-- The function is a word. -/
  function : Text.IsWord frame.function

/-- The symbols that are made for a function are words. -/
theorem Symbol.isWord_of_madeFor {frame : Frame} (word : frame.IsWord) {symbol : Symbol}
    (made : symbol.MadeFor frame) : Text.IsWord symbol.text := by
  have name : Text.IsWord frame.name := word.space.join word.function
  have ending : ∀ c ∈ symbol.ending, Lexeme.isWordPart c = true := by
    cases symbol with
    | plain | member | inner => exact made.elim
    | entry owner => nofun
    | exit owner =>
      have letters : ['_', 'E', 'x', 'i', 't'].all Lexeme.isWordPart = true := by decide
      exact List.all_eq_true.mp letters
    | block owner id edge =>
      have front : ['_', 'B', 'l', 'o', 'c', 'k'].all Lexeme.isWordPart = true := by decide
      have back : ('_' :: edge.letters).all Lexeme.isWordPart = true := by cases edge <;> decide
      intro c member
      rcases List.mem_append.mp member with first | member
      · exact List.all_eq_true.mp front c first
      · rcases List.mem_append.mp member with digit | last
        · have decimal := Nat.isDigit_of_mem_toDigits (by decide) (by decide) digit
          simp [Lexeme.isWordPart, Char.isAlphanum, decimal]
        · exact List.all_eq_true.mp back c last
  intro c member
  rw [toList_text made] at member
  rcases List.mem_append.mp member with front | back
  · exact name c front
  · exact ending c back

namespace Lexeme

/-- A lexeme of letters, digits and underscores is a word. -/
theorem isWord_ofList {first : Char} {parts : List Char} (start : isWordStart first = true)
    (only : ∀ c ∈ parts, isWordPart c = true) : Text.IsWord (.ofList (first :: parts)) := by
  intro c member
  rw [String.toList_ofList] at member
  rcases List.mem_cons.mp member with rfl | later
  · simp only [isWordStart, Bool.or_eq_true] at start
    simp only [isWordPart, Char.isAlphanum, Bool.or_eq_true]
    exact start.imp_left .inl
  · exact only c later

variable {kind : Token.Kind} {said : String} {lexeme : List Char}

/-- An identifier is a word. -/
theorem Class.isWord (classed : Class kind said lexeme) (identifier : kind = .identifier) :
    Text.IsWord said := by
  cases classed with
  | word start only => exact isWord_ofList start only
  | _ => cases identifier

/-- An address stands between brackets. -/
theorem Class.enclosed (classed : Class kind said lexeme) (memory : kind = .memory) :
    ∃ inside, said.toList = '[' :: (inside ++ [']']) ∧ ']' ∉ inside := by
  cases classed with
  | @memory inside unclosed => exact ⟨inside, String.toList_ofList, unclosed⟩
  | @word first parts start only =>
    have kinds := wordKind_mem (.ofList (first :: parts))
    rw [memory] at kinds
    exact absurd kinds (by decide)
  | _ => cases memory

end Lexeme

end LineAsm
