import LineAsm.Proofs.Branches
import LineAsm.Proofs.Words
/-!
# What a line of arithmetic computes

A line of arithmetic on three operands puts a word into its destination and leaves all other
registers and variables (`Family.emit_combine`). The word is the combination of its operands, except
where the destination is written in two ways, as only a register can be: an operand is compared by
its text with the destination, so that loading the destination overwrites a right operand which is
the same register in other letters, and negating it changes such a left operand.
-/

namespace LineAsm

namespace Emission

/-- An emission that, where it has an answer, has written code that puts a word into a cell. -/
def Puts (emission : Emission Unit) (space : String) (cell : Cell) (value : Words → BitVec 32) :
    Prop :=
  ∀ draft after, draft.state.named = space → emission draft = .ok () after →
    ∃ code, after = ⟨draft.state, draft.listing.addAll code⟩ ∧ LineAsm.Puts code cell value

section Puts

variable {space : String} {cell : Cell} {value last : Words → BitVec 32}
  {first second : Emission Unit}

/-- An instruction that puts a word into a cell. -/
theorem puts_instruction {mnemonic : Mnemonic} {operands : List Operand}
    (puts : LineAsm.Puts [.instruction mnemonic operands] cell value) :
    (instruction mnemonic operands).Puts space cell value := by
  intro draft after named written
  cases written
  exact ⟨_, rfl, puts⟩

/-- What follows a question may rely on the answer. -/
theorem puts_ask {α : Type} {question : State → Except CompileError α} {next : α → Emission Unit}
    {answers : α → Prop} {causes : CompileError → Prop}
    (meets : ∀ state, state.named = space → Meets answers causes (question state))
    (further : ∀ answer, answers answer → (next answer).Puts space cell value) :
    (ask question >>= next).Puts space cell value := by
  intro draft after named written
  have known := meets draft.state named
  cases asked : question draft.state with
  | error cause =>
    rw [bind_error (ask_eq_error_iff.mpr ⟨asked, rfl⟩)] at written
    cases written
  | ok answer =>
    rw [asked] at known
    rw [bind_ok (ask_eq_ok_iff.mpr ⟨asked, rfl⟩)] at written
    exact further answer known draft after named written

/-- A rejection when a condition holds, and another step otherwise. -/
theorem puts_reject_or {condition : Bool} {cause : OperandError} {next : PUnit → Emission Unit}
    (rest : (next ⟨⟩).Puts space cell value) :
    (if condition = true then reject cause >>= next else next ⟨⟩).Puts space cell value := by
  cases condition with
  | false => exact rest
  | true =>
    intro draft after named written
    cases written

/-- Of two words that are put into one cell, the second one stays, made of the first. -/
theorem Puts.bind (one : first.Puts space cell value) (other : second.Puts space cell last) :
    (first >>= fun _ => second).Puts space cell fun words =>
      last (Function.update words cell (value words)) := by
  intro draft after named written
  cases start : first draft with
  | error cause middle =>
    rw [bind_error start] at written
    cases written
  | ok answer middle =>
    obtain ⟨code, rfl, puts⟩ := one draft middle named start
    rw [bind_ok start] at written
    obtain ⟨more, rfl, further⟩ :=
      other ⟨draft.state, draft.listing.addAll code⟩ after named written
    have joined :
        (draft.listing.addAll code).addAll more = draft.listing.addAll (code ++ more) := by
      simp [Listing.addAll]
    exact ⟨code ++ more, by rw [joined], puts.append further⟩

/-- The word may be said in another way. -/
theorem Puts.congr (one : first.Puts space cell value) (same : ∀ words, value words = last words) :
    first.Puts space cell last := by
  intro draft after named written
  obtain ⟨code, shape, puts⟩ := one draft after named written
  exact ⟨code, shape, puts.congr same⟩

/-- What follows the operand of a token may rely on where it has its word from. -/
theorem puts_sized {token : Token} {next : Operand → Emission Unit}
    (further : ∀ operand, operand.origin? = token.origin? space →
      (next operand).Puts space cell value) :
    (ask (Operand.sizedOfToken token) >>= next).Puts space cell value := by
  have meets (state : State) (named : state.named = space) :
      Meets (fun operand => operand.origin? = token.origin? space) (fun _ => True)
        (Operand.sizedOfToken token state) := by
    rw [← named]
    exact Operand.meets_origin_sized token state
  exact puts_ask meets further

/-- What follows the operands of two tokens may rely on where they have their words from. -/
theorem puts_pair {destination source : Token} {next : List Operand → Emission Unit}
    (further : ∀ first second, first.origin? = destination.origin? space →
      second.origin? = source.origin? space → (next [first, second]).Puts space cell value) :
    (ask (Operand.pair destination source) >>= next).Puts space cell value := by
  have meets (state : State) (named : state.named = space) :
      Meets (fun operands => ∃ first second, operands = [first, second] ∧
        first.origin? = destination.origin? space ∧ second.origin? = source.origin? space)
        (fun _ => True) (Operand.pair destination source state) := by
    rw [← named]
    exact Operand.meets_origins destination source state
  refine puts_ask meets ?_
  rintro _ ⟨first, second, rfl, one, other⟩
  exact further first second one other

end Puts

end Emission

namespace Arithmetic

open Emission

/-- What a symbol of arithmetic means. -/
def meaning? : String → Option (BitVec 32 → BitVec 32 → BitVec 32)
  | "+" => some fun left right => left + right
  | "-" => some fun left right => left - right
  | "&" => some fun left right => left &&& right
  | "|" => some fun left right => left ||| right
  | "^" => some fun left right => left ^^^ right
  | _ => none

section Meaning

variable {symbol : String} {meaning : BitVec 32 → BitVec 32 → BitVec 32}

/-- The operation of a symbol does what the symbol means. -/
theorem binary?_operation (means : meaning? symbol = some meaning) :
    (operation symbol).binary? = some meaning := by
  unfold meaning? at means
  split at means <;> cases means <;> rfl

/-- Every symbol but the minus sign means the same with its operands exchanged. -/
theorem meaning_comm (means : meaning? symbol = some meaning) (other : symbol ≠ "-")
    (left right : BitVec 32) : meaning left right = meaning right left := by
  unfold meaning? at means
  split at means
  · cases means
    exact BitVec.add_comm left right
  · exact absurd rfl other
  · cases means
    exact BitVec.and_comm left right
  · cases means
    exact BitVec.or_comm left right
  · cases means
    exact BitVec.xor_comm left right
  · cases means

/-- Every symbol of arithmetic has a meaning. -/
theorem exists_meaning {before : List Token} {token : Token}
    (accepted : Family.arithmeticSymbols.accepts before token = true) :
    ∃ meaning, meaning? token.value = some meaning := by
  obtain ⟨-, listed⟩ := Bool.and_eq_true_iff.mp accepted
  have known := List.contains_iff_mem.mp listed
  simp only [List.mem_cons, List.not_mem_nil, or_false] at known
  obtain same | same | same | same | same := known <;> rw [same] <;> exact ⟨_, rfl⟩

end Meaning

end Arithmetic

open Emission Arithmetic

/-- What a line of arithmetic on three operands is about, in a namespace. -/
structure Combination (space : String) (target left symbol right : Token) where
  /-- The cell of the destination. -/
  cell : Cell
  /-- Where the word of the left operand comes from. -/
  first : Origin
  /-- Where the word of the right operand comes from. -/
  second : Origin
  /-- What the symbol means. -/
  meaning : BitVec 32 → BitVec 32 → BitVec 32
  /-- The destination names the cell. -/
  place : target.origin? space = some (.cell cell)
  /-- The left operand names its origin. -/
  left_reads : left.origin? space = some first
  /-- The right operand names its origin. -/
  right_reads : right.origin? space = some second
  /-- The symbol has the meaning. -/
  means : meaning? symbol.value = some meaning

/-- One operation on the operand that a token names. -/
theorem Emission.puts_single {space : String} {cell : Cell} {token : Token} {mnemonic : Mnemonic}
    {change : BitVec 32 → BitVec 32} (known : mnemonic.unary? = some change)
    (place : token.origin? space = some (.cell cell)) :
    (single mnemonic token).Puts space cell fun words => change (words cell) :=
  puts_sized fun _ names => puts_instruction (puts_unary known (names.trans place))

namespace Combination

variable {space : String} {target left symbol right : Token}
  (line : Combination space target left symbol right)

/-- The word that a line says. -/
def word (words : Words) : BitVec 32 :=
  line.meaning (line.first.read words) (line.second.read words)

/-- The right operand is the destination in other letters, and the left operand is not: a left
operand that is loaded overwrites the right one. -/
def Overwrites : Prop :=
  line.second = .cell line.cell ∧ target.same right = false ∧ line.first ≠ .cell line.cell

/-- The left operand is the destination in other letters, and the right operand, which is to be
subtracted, is the destination in the same ones: what is negated for the right operand is the left
operand as well. -/
def Doubles : Prop :=
  line.first = .cell line.cell ∧ target.same left = false ∧ target.same right = true ∧
    symbol.value = "-"

/-- A destination that reads like the left operand is that operand. -/
theorem first_eq (same : target.same left = true) : line.first = .cell line.cell := by
  have one := line.left_reads
  rw [← Token.origin?_of_same same, line.place] at one
  exact (Option.some.inj one).symm

/-- A destination that reads like the right operand is that operand. -/
theorem second_eq (same : target.same right = true) : line.second = .cell line.cell := by
  have one := line.right_reads
  rw [← Token.origin?_of_same same, line.place] at one
  exact (Option.some.inj one).symm

/-- A destination that is the left operand is combined with the right one. -/
theorem puts_inPlace (same : target.same left = true) :
    (inPlace target symbol right).Puts space line.cell line.word := by
  have combined : (inPlace target symbol right).Puts space line.cell fun words =>
      line.meaning (words line.cell) (line.second.read words) :=
    puts_pair fun _ _ here there => puts_instruction (puts_binary
      (binary?_operation line.means) (here.trans line.place) (there.trans line.right_reads))
  refine combined.congr fun words => ?_
  rw [word, line.first_eq same]
  rfl

/-- A destination that the left operand is subtracted from is negated and then increased by it. -/
theorem puts_negated (minus : symbol.value = "-") :
    (reversed target left symbol).Puts space line.cell fun words =>
      -words line.cell + line.first.read (Function.update words line.cell (-words line.cell)) := by
  refine puts_pair fun one other here there => ?_
  rw [if_pos (beq_iff_eq.mpr minus)]
  refine puts_sized fun again back => ?_
  have negates : Mnemonic.neg.unary? = some fun word => -word := rfl
  have adds : Mnemonic.add.binary? = some fun target source => target + source := rfl
  have negated : (instruction .neg [again]).Puts space line.cell fun words => -words line.cell :=
    puts_instruction (puts_unary negates (back.trans line.place))
  have increased : (instruction .add [one, other]).Puts space line.cell fun words =>
      words line.cell + line.first.read words :=
    puts_instruction
      (puts_binary adds (here.trans line.place) (there.trans line.left_reads))
  refine (negated.bind increased).congr fun words => ?_
  rw [Function.update_self]

/-- A destination that is the right operand is combined with the left one. -/
theorem puts_exchanged (other : symbol.value ≠ "-") :
    (reversed target left symbol).Puts space line.cell fun words =>
      line.meaning (words line.cell) (line.first.read words) := by
  refine puts_pair fun _ _ here there => ?_
  rw [if_neg (mt beq_iff_eq.mp other)]
  exact puts_instruction (puts_binary (binary?_operation line.means) (here.trans line.place)
    (there.trans line.left_reads))

/-- The left operand is put into the destination, and then combined there with the right one. -/
theorem puts_loaded :
    (loaded target left symbol right).Puts space line.cell fun words =>
      line.meaning (line.first.read words)
        (line.second.read (Function.update words line.cell (line.first.read words))) := by
  unfold loaded
  refine puts_reject_or ?_
  refine puts_pair fun one other here there => puts_pair fun again last back beside => ?_
  have moves : Mnemonic.mov.binary? = some fun _ source => source := rfl
  have load : (instruction .mov [one, other]).Puts space line.cell fun words =>
      line.first.read words :=
    puts_instruction (puts_binary moves (here.trans line.place) (there.trans line.left_reads))
  have combined : (instruction (operation symbol.value) [again, last]).Puts space line.cell
      fun words => line.meaning (words line.cell) (line.second.read words) :=
    puts_instruction (puts_binary (binary?_operation line.means) (back.trans line.place)
      (beside.trans line.right_reads))
  refine (load.bind combined).congr fun words => ?_
  rw [Function.update_self]

/-- What becomes of a line that some emission writes. -/
structure Written (emission : Emission Unit) : Prop where
  /-- In general the destination gets the word that the line says. -/
  puts_word : ¬ line.Overwrites → ¬ line.Doubles → emission.Puts space line.cell line.word
  /-- An overwritten right operand is the left operand. -/
  puts_overwritten : line.Overwrites → emission.Puts space line.cell fun words =>
    line.meaning (line.first.read words) (line.first.read words)
  /-- A doubled destination is subtracted from nothing. -/
  puts_doubled : line.Doubles → emission.Puts space line.cell fun words =>
    -(words line.cell + words line.cell)

section Written

variable {line} {emission : Emission Unit}

/-- Where the destination reads like the left operand, the line is written as it says. -/
theorem written_of_left (same : target.same left = true)
    (puts : emission.Puts space line.cell line.word) : line.Written emission where
  puts_word _ _ := puts
  puts_overwritten overwrites := absurd (line.first_eq same) overwrites.2.2
  puts_doubled doubles := by
    have other := doubles.2.1
    rw [same] at other
    cases other

/-- Where the destination reads like the right operand only, the line is written as it says unless
the left operand is doubled. -/
theorem written_reversed (other : target.same left = false) (same : target.same right = true) :
    line.Written (reversed target left symbol) where
  puts_word _ single := by
    by_cases minus : symbol.value = "-"
    · have apart : line.first ≠ .cell line.cell := fun itself => single ⟨itself, other, same, minus⟩
      have meaning : line.meaning = fun left right => left - right := by
        have means := line.means
        rw [minus] at means
        exact (Option.some.inj means).symm
      refine (line.puts_negated minus).congr fun words => ?_
      simp only [Origin.read_update apart, word, line.second_eq same, meaning]
      rw [BitVec.add_comm]
      exact (BitVec.sub_eq_add_neg _ _).symm
    · refine (line.puts_exchanged minus).congr fun words => ?_
      rw [word, line.second_eq same, meaning_comm line.means minus]
      rfl
  puts_overwritten overwrites := by
    have unlike := overwrites.2.1
    rw [same] at unlike
    cases unlike
  puts_doubled doubles := by
    obtain ⟨itself, -, -, minus⟩ := doubles
    refine (line.puts_negated minus).congr fun words => ?_
    rw [itself, Origin.read, Function.update_self, BitVec.neg_add, BitVec.sub_eq_add_neg]

/-- Where the destination does not read like the right operand, it may be loaded with the left one,
unless the right operand is overwritten. -/
theorem written_loaded (unlike : target.same right = false) :
    line.Written (loaded target left symbol right) where
  puts_word kept _ := by
    refine line.puts_loaded.congr fun words => ?_
    by_cases itself : line.second = .cell line.cell
    · have first : line.first = .cell line.cell := by
        by_contra apart
        exact kept ⟨itself, unlike, apart⟩
      simp only [word, itself, first, Origin.read, Function.update_self]
    · rw [Origin.read_update itself, word]
  puts_overwritten overwrites := by
    refine line.puts_loaded.congr fun words => ?_
    rw [overwrites.1, Origin.read, Function.update_self]
  puts_doubled doubles := by
    have same := doubles.2.2.1
    rw [unlike] at same
    cases same

/-- A line of three operands is written in one of these ways. -/
theorem written_combine : line.Written (if target.same left then inPlace target symbol right
    else if target.same right then reversed target left symbol
    else loaded target left symbol right) := by
  cases same : target.same left with
  | true => exact written_of_left same (line.puts_inPlace same)
  | false =>
    cases like : target.same right with
    | true => exact written_reversed same like
    | false => exact written_loaded like

/-- Where the destination reads like the left operand and the right one is the number one, the line
may be written as a count. -/
theorem written_counted {mnemonic : Mnemonic} {change : BitVec 32 → BitVec 32}
    (same : target.same left = true) (one : line.second = .word 1)
    (known : mnemonic.unary? = some change) (counts : ∀ word, change word = line.meaning word 1) :
    line.Written (single mnemonic target) := by
  refine written_of_left same ((puts_single known line.place).congr fun words => ?_)
  rw [word, line.first_eq same, one, counts]
  rfl

end Written

end Combination

/-- A token that names a word: a number, a variable or a register of 32 bits. -/
def Token.NamesWord (token : Token) : Prop :=
  token.kind = .integer ∨ token.kind = .identifier ∨
    token.kind = .register ∧ (Register.named? token.value).isSome = true

instance (token : Token) : Decidable token.NamesWord :=
  inferInstanceAs (Decidable (_ ∨ _ ∨ _ ∧ _))

/-- What names a word is no keyword. -/
theorem Token.NamesWord.value_ne {tokens : List Token} {token : Token} (names : token.NamesWord)
    (classified : Token.Classified tokens) (member : token ∈ tokens) {word : String}
    (known : Token.classify word = some .keyword) : token.value ≠ word := by
  have apart : token.kind.isRemark = false ∧ token.kind ≠ .keyword := by
    obtain kind | kind | ⟨kind, -⟩ := names <;> rw [kind] <;> exact ⟨rfl, nofun⟩
  refine classified.value_ne member rfl apart.1 fun same => apart.2 ?_
  exact Option.some.inj (same.symm.trans known)

namespace Family

section Lines

variable {text : String} {dispatch : Dispatch Family} {space : String}
  {target equals left symbol right : Token}

/-- A token of a line that names a word takes it from somewhere. -/
theorem exists_origin {tokens : List Token} (read : Token.ofLine text = .ok tokens) {token : Token}
    (member : token ∈ tokens) (names : token.NamesWord) (space : String) :
    ∃ origin, token.origin? space = some origin := by
  obtain number | kind | ⟨register, known⟩ := names
  · obtain ⟨value, known⟩ := Option.isSome_iff_exists.mp (Token.isSome_value? read member number)
    exact ⟨_, by rw [Token.origin?, number, known]; rfl⟩
  · exact ⟨_, by rw [Token.origin?, kind]⟩
  · obtain ⟨name, known⟩ := Option.isSome_iff_exists.mp known
    exact ⟨_, by rw [Token.origin?, register, known]; rfl⟩

/-- What names a word and is no number names a cell. -/
theorem exists_cell {token : Token} (names : token.NamesWord) (writable : token.kind ≠ .integer)
    (space : String) : ∃ cell, token.origin? space = some (.cell cell) := by
  obtain number | kind | ⟨register, known⟩ := names
  · exact absurd number writable
  · exact ⟨_, by rw [Token.origin?, kind]⟩
  · obtain ⟨name, known⟩ := Option.isSome_iff_exists.mp known
    exact ⟨_, by rw [Token.origin?, register, known]; rfl⟩

/-- A token of a line that reads as the number one is that number. -/
theorem origin?_one {tokens : List Token} (classified : Token.Classified tokens) {token : Token}
    (member : token ∈ tokens) {before : List Token}
    (accepted : (Pattern.Element.text "1").accepts before token = true) :
    token.origin? space = some (.word 1) := by
  have value := Pattern.Element.value_of_text accepted
  have kept : token.kind.isRemark = false := by
    have plain := (Bool.and_eq_true_iff.mp accepted).1
    simpa using plain
  have number : Token.classify "1" = some .integer := by decide +kernel
  have kind : token.kind = .integer := by
    have known := classified token member kept
    rw [value, number] at known
    exact (Option.some.inj known).symm
  rw [Token.origin?, kind, value]
  rfl

/-- A line that counts its destination is written as it says. -/
theorem exists_written_counted {operation : String} {mnemonic : Mnemonic}
    {meaning : BitVec 32 → BitVec 32 → BitVec 32} (means : meaning? operation = some meaning)
    (known : mnemonic.unary? = some fun word => meaning word 1) {cell : Cell} {first : Origin}
    (place : target.origin? space = some (.cell cell)) (reads : left.origin? space = some first)
    (fits : Pattern.Fits [] [Pattern.destination, .text "=", .same 0, .text operation, .text "1"]
      [target, equals, left, symbol, right])
    (classified : Token.Classified [target, equals, left, symbol, right]) :
    ∃ line : Combination space target left symbol right,
      line.Written (single mnemonic target) := by
  obtain _ | ⟨destination, _ | ⟨sign, _ | ⟨again, _ | ⟨between, _ | ⟨one, ⟨⟩⟩⟩⟩⟩⟩ := fits
  have same : target.same left = true := by
    obtain ⟨other, there, repeated⟩ := Pattern.Element.accepts_same_iff.mp again
    rwa [Option.some.inj there]
  have told : meaning? symbol.value = some meaning := by
    rw [Pattern.Element.value_of_text between]
    exact means
  let line : Combination space target left symbol right :=
    ⟨cell, first, .word 1, meaning, place, reads, origin?_one classified (by simp) one, told⟩
  exact ⟨line, Combination.written_counted same rfl known fun _ => rfl⟩

/-- A line of three operands that is dispatched has a meaning, and its owner writes it in one of the
ways of arithmetic. -/
theorem exists_written (parsed : Table.parse standard text = .ok dispatch)
    (shape : dispatch.tokens = [target, equals, left, symbol, right])
    (writable : target.kind ≠ .integer) (names : ∀ token ∈ [target, left, right], token.NamesWord)
    (space : String) : ∃ line : Combination space target left symbol right,
      line.Written (dispatch.owner.emit dispatch.tokens) := by
  have read := Table.ofLine_of_parse parsed
  obtain ⟨classified, pattern, member, matched, branch⟩ := branch_of_parse parsed
  rw [shape] at read classified matched branch ⊢
  obtain ⟨cell, place⟩ := exists_cell (names target (by simp)) writable space
  obtain ⟨first, left_reads⟩ := exists_origin read (by simp) (names left (by simp)) space
  obtain ⟨second, right_reads⟩ := exists_origin read (by simp) (names right (by simp)) space
  have fits := Pattern.fits_of_matchesLine matched
  generalize dispatch.owner.emit _ = code at branch ⊢
  generalize dispatch.owner = owner at branch
  cases branch with
  | plusOne => exact exists_written_counted rfl rfl place left_reads fits classified
  | minusOne => exact exists_written_counted rfl rfl place left_reads fits classified
  | combine =>
    obtain _ | ⟨destination, _ | ⟨sign, _ | ⟨again, _ | ⟨between, _ | ⟨last, ⟨⟩⟩⟩⟩⟩⟩ := fits
    obtain ⟨meaning, means⟩ := exists_meaning between
    let line : Combination space target left symbol right :=
      ⟨cell, first, second, meaning, place, left_reads, right_reads, means⟩
    exact ⟨line, Combination.written_combine⟩
  | flow reads =>
    -- The lines of control flow with five tokens begin with a keyword, and a destination is none.
    have unlike {word : String} (known : Token.classify word = some .keyword) :
        target.value ≠ word :=
      (names target (by simp)).value_ne classified (by simp) known
    cases reads with
    | conditional =>
      obtain _ | ⟨word, _⟩ := fits
      exact absurd (Pattern.Element.value_of_text word) (unlike (by decide +kernel))
    | looping =>
      obtain _ | ⟨word, _⟩ := fits
      exact absurd (Pattern.Element.value_of_text word) (unlike (by decide +kernel))

/-- A line of arithmetic on three operands, which name words of 32 bits, leaves in its destination
the word that it says, made of the words before, and leaves all other registers and variables. There
are two exceptions, where the destination is a register that stands on the right as well, in upper
and lower case: if the left operand is loaded into it, it is combined with itself, and if it is
negated although it is the left operand too, it is subtracted from nothing twice. -/
theorem emit_combine (parsed : Table.parse standard text = .ok dispatch)
    (shape : dispatch.tokens = [target, equals, left, symbol, right])
    (writable : target.kind ≠ .integer) (names : ∀ token ∈ [target, left, right], token.NamesWord)
    {draft after : Draft} (emitted : dispatch.owner.emit dispatch.tokens draft = .ok () after) :
    ∃ (line : Combination draft.state.named target left symbol right) (code : List Statement),
      after = ⟨draft.state, draft.listing.addAll code⟩ ∧
      (¬ line.Overwrites → ¬ line.Doubles → Puts code line.cell line.word) ∧
      (line.Overwrites → Puts code line.cell fun words =>
        line.meaning (line.first.read words) (line.first.read words)) ∧
      (line.Doubles → Puts code line.cell fun words => -(words line.cell + words line.cell)) := by
  obtain ⟨line, written⟩ := exists_written parsed shape writable names draft.state.named
  by_cases overwrites : line.Overwrites
  · have single : ¬ line.Doubles := fun doubles => overwrites.2.2 doubles.1
    obtain ⟨code, added, puts⟩ := written.puts_overwritten overwrites draft after rfl emitted
    exact ⟨line, code, added, fun none _ => absurd overwrites none, fun _ => puts,
      fun doubles => absurd doubles single⟩
  · by_cases doubles : line.Doubles
    · obtain ⟨code, added, puts⟩ := written.puts_doubled doubles draft after rfl emitted
      exact ⟨line, code, added, fun _ none => absurd doubles none,
        fun other => absurd other overwrites, fun _ => puts⟩
    · obtain ⟨code, added, puts⟩ := written.puts_word overwrites doubles draft after rfl emitted
      exact ⟨line, code, added, fun _ _ => puts, fun other => absurd other overwrites,
        fun other => absurd other doubles⟩

/-- A register is taken for another one where it is written in other letters, and loading it loses
its word: the sum comes out as twice the other operand. -/
theorem emit_combine_letters :
    let draft : Draft := .empty (.initial {})
    let sum : List Token := [⟨.register, "EAX", 0⟩, ⟨.symbol, "=", 4⟩, ⟨.register, "EBX", 6⟩,
      ⟨.symbol, "+", 10⟩, ⟨.register, "eax", 12⟩]
    ∃ dispatch after, Table.parse standard "EAX = EBX + eax" = .ok dispatch ∧
      dispatch.tokens = sum ∧ dispatch.owner.emit dispatch.tokens draft = .ok () after ∧
      ∃ code, after = ⟨draft.state, draft.listing.addAll code⟩ ∧
        Puts code (.register .eax) fun words =>
          words (.register .ebx) + words (.register .ebx) := by
  intro draft sum
  have dispatched : ((Table.parse standard "EAX = EBX + eax").toOption.any fun dispatch =>
      dispatch.tokens == sum && match dispatch.owner.emit dispatch.tokens draft with
        | .ok _ _ => true
        | .error _ _ => false) = true := by decide +kernel
  cases parsed : Table.parse standard "EAX = EBX + eax" with
  | error cause =>
    rw [parsed] at dispatched
    cases dispatched
  | ok dispatch =>
    rw [parsed] at dispatched
    obtain ⟨shown, succeeds⟩ := Bool.and_eq_true_iff.mp dispatched
    have shape : dispatch.tokens = sum := eq_of_beq shown
    cases emitted : dispatch.owner.emit dispatch.tokens draft with
    | error cause after =>
      rw [emitted] at succeeds
      cases succeeds
    | ok answer after =>
      obtain ⟨line, code, added, -, puts, -⟩ :=
        emit_combine parsed shape (by decide) (by decide) emitted
      have cell : line.cell = .register .eax := Origin.cell.inj (Option.some.inj line.place.symm)
      have first : line.first = .cell (.register .ebx) := Option.some.inj line.left_reads.symm
      have second : line.second = .cell (.register .eax) := Option.some.inj line.right_reads.symm
      have meaning : line.meaning = fun left right => left + right :=
        Option.some.inj line.means.symm
      have overwrites : line.Overwrites := by
        refine ⟨by rw [second, cell], by decide, ?_⟩
        rw [first, cell]
        decide
      have sum := puts overwrites
      rw [cell, meaning, first] at sum
      exact ⟨dispatch, after, rfl, shape, emitted, code, added, sum⟩

end Lines

end Family

end LineAsm
