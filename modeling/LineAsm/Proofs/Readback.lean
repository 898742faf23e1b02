import LineAsm.Proofs.CountMachine
import LineAsm.Proofs.Printing
import LineAsm.Proofs.Widths
/-!
# What is read back does the same

The machines that execute statements look at the operations and at what the operands refer to, and a
variable or a label is its name to them. All this is read back from the text of a statement
(`readBack`). So code puts the same word into the same cell when it is read back (`Puts.readBack`),
it reads memory through an overwritten register when it did (`clobbers_readBack_iff`), it accesses
memory with the same widths (`Statement.width?_plain`), and its counted blocks take the same rounds
(`CountMachine.next?_readBack`).
-/

namespace LineAsm

/-- The statements that are read back from the texts of others. -/
def readBack (code : List Statement) : List Statement :=
  code.map fun statement => Statement.ofText statement.text

/-- Of printable statements all but their symbols is read back. -/
theorem readBack_eq {code : List Statement}
    (printable : ∀ statement ∈ code, statement.IsPrintable) :
    readBack code = code.map Statement.plain :=
  List.map_congr_left fun statement member => Statement.ofText_text (printable statement member)

/-- An address is read back as the variable that it names, or as it is. -/
theorem Operand.Form.plain_memory (address : String) :
    (∃ name, Text.nameWithin? address = some name ∧
        plain (.memory address) = .variable (.plain name)) ∨
      Text.nameWithin? address = none ∧ plain (.memory address) = .memory address := by
  rw [plain]
  cases found : Text.nameWithin? address with
  | none => exact .inr ⟨rfl, rfl⟩
  | some name => exact .inl ⟨name, rfl, rfl⟩

/-- Only a place in the code is read back as one. -/
theorem Operand.Form.exists_of_plain_eq_target {form : Form} {symbol : Symbol}
    (same : form.plain = .target symbol) : ∃ before, form = .target before := by
  cases form with
  | target before => exact ⟨before, rfl⟩
  | memory address =>
    obtain ⟨name, -, other⟩ | ⟨-, other⟩ := plain_memory address
    all_goals
      rw [other] at same
      cases same
  | _ => cases same

section Words

variable {words after : Words} {code : List Statement}

/-- An operand that has its word from somewhere has it from there when it is read back. -/
theorem Operand.origin?_plain {operand : Operand} {origin : Origin}
    (found : operand.origin? = some origin) : operand.plain.origin? = some origin := by
  obtain ⟨form, dword⟩ := operand
  cases form with
  | memory | target | word => cases found
  | _ => exact found

/-- What a statement does to the words it does when it is read back. -/
theorem Statement.execute?_plain {statement : Statement}
    (executed : statement.execute? words = some after) :
    statement.plain.execute? words = some after := by
  unfold execute? at executed
  split at executed
  · split at executed
    · rename_i known place
      rw [plain, List.map_singleton, execute?, known, Operand.origin?_plain place]
      exact executed
    · cases executed
  · split at executed
    · rename_i known place source
      rw [plain, List.map_cons, List.map_singleton, execute?, known, Operand.origin?_plain place,
        Operand.origin?_plain source]
      exact executed
    · cases executed
  · cases executed

/-- What code does to the words it does when it is read back. -/
theorem executeAll?_plain (executed : executeAll? code words = some after) :
    executeAll? (code.map Statement.plain) words = some after := by
  induction code generalizing words with
  | nil => exact executed
  | cons statement code ih =>
    obtain ⟨middle, first, rest⟩ := Option.bind_eq_some_iff.mp executed
    exact Option.bind_eq_some_iff.mpr ⟨middle, Statement.execute?_plain first, ih rest⟩

/-- Code that has an effect on the words is made of instructions. -/
theorem isInstruction_of_executeAll? (executed : executeAll? code words = some after) :
    ∀ statement ∈ code, statement.isInstruction = true := by
  induction code generalizing words with
  | nil => nofun
  | cons statement code ih =>
    obtain ⟨middle, first, rest⟩ := Option.bind_eq_some_iff.mp executed
    refine List.forall_mem_cons.mpr ⟨?_, ih rest⟩
    cases statement with
    | instruction mnemonic operands => rfl
    | _ => cases first

/-- Printable code that puts a word into a cell puts it there when it is read back. -/
theorem Puts.readBack {cell : Cell} {value : Words → BitVec 32} (puts : Puts code cell value)
    (printable : ∀ statement ∈ code, statement.IsPrintable) :
    Puts (readBack code) cell value := by
  intro words
  rw [readBack_eq printable]
  exact executeAll?_plain (puts words)

end Words

namespace Statement

/-- The register that an instruction writes is read back. -/
theorem register?_plain (statement : Statement) :
    statement.plain.register? = statement.register? := by
  cases statement with
  | instruction mnemonic operands =>
    cases operands with
    | nil => rfl
    | cons first others =>
      obtain ⟨form, dword⟩ := first
      cases form with
      | memory address =>
        rw [plain, List.map_cons, Operand.plain]
        obtain ⟨name, -, same⟩ | ⟨-, same⟩ := Operand.Form.plain_memory address
        all_goals
          rw [same]
          rfl
      | _ => rfl
  | _ => rfl

/-- The operands that an instruction reads are read back. -/
theorem reads_plain (statement : Statement) :
    statement.plain.reads = statement.reads.map Operand.plain := by
  cases statement with
  | instruction mnemonic operands =>
    cases mnemonic with
    | mov =>
      match operands with
      | [] | [_] | [_, _] | _ :: _ :: _ :: _ => rfl
    | _ => rfl
  | _ => rfl

/-- The width of an access is read back. -/
theorem width?_plain (statement : Statement) : statement.plain.width? = statement.width? := by
  have operand_width (operand : Operand) : operand.plain.width? = operand.width? := by
    obtain ⟨form, dword⟩ := operand
    cases form with
    | memory address =>
      rw [Operand.plain]
      obtain ⟨name, -, same⟩ | ⟨-, same⟩ := Operand.Form.plain_memory address
      · rw [same]
        rfl
      · rw [same]
    | _ => rfl
  cases statement with
  | instruction mnemonic operands =>
    cases operands with
    | nil => rfl
    | cons place others =>
      have same : Operand.width? ∘ Operand.plain = Operand.width? := funext operand_width
      rw [plain, List.map_cons, width?, List.findSome?_map, same]
      rfl
  | _ => rfl

/-- What is accessed is read back. -/
theorem accessed?_plain (statement : Statement) :
    statement.plain.accessed? = statement.accessed?.map Operand.Form.plain := by
  cases statement with
  | instruction mnemonic operands => cases operands <;> rfl
  | _ => rfl

/-- The width of an access is told by the text of the instruction. -/
theorem width?_ofText {statement : Statement} (printable : statement.IsPrintable) :
    (ofText statement.text).width? = statement.width? := by
  rw [ofText_text printable, width?_plain]

end Statement

section Clobbers

variable {register : String} {code : List Statement}

/-- Between brackets that hold a name there is no register. -/
theorem Text.not_names_of_nameWithin? {text name : String} (found : nameWithin? text = some name)
    (known : Token.isRegister register = true) : names text register = false := by
  obtain ⟨rfl, word, underscore⟩ := nameWithin?_eq_some_iff.mp found
  have parts : words ("[" ++ name ++ "]") = ["", name, ""] := by
    have nothing : ∀ c ∈ ([] : List Char), (!Lexeme.isWordPart c) = false :=
      fun _ never => absurd never List.not_mem_nil
    have inside : ∀ c ∈ name.toList, (!Lexeme.isWordPart c) = false := by
      intro c member
      rw [word c member]
      rfl
    unfold words
    rw [toList_bracketed,
      ← List.nil_append ('[' :: _), List.splitOnP_append_cons_of_forall_mem nothing '[' rfl,
      List.splitOnP_append_cons_of_forall_mem inside ']' rfl]
    simp
  -- What reads like a register is one, and a register is neither nothing nor joined.
  have alike {part : String} (same : sameLetters part register = true) :
      Token.isRegister part = true := by
    obtain ⟨capitals, member, other⟩ := List.any_eq_true.mp known
    have letters := (eq_of_beq other).trans (eq_of_beq same).symm
    exact List.any_eq_true.mpr ⟨capitals, member, beq_iff_eq.mpr letters⟩
  have empty : sameLetters "" register = false := by
    refine Bool.eq_false_iff.mpr fun same => ?_
    have never : Token.isRegister "" = false := by decide
    rw [alike same] at never
    cases never
  have joined : sameLetters name register = false := by
    refine Bool.eq_false_iff.mpr fun same => ?_
    have letter := (Token.letters_of_isRegister (alike same)).2 '_' underscore
    revert letter
    decide
  rw [names, parts]
  simp [empty, joined]

/-- An operand is memory at an address that names a register exactly if it is when it is read
back. -/
theorem Operand.addresses_plain_iff (known : Token.isRegister register = true)
    (operand : Operand) :
    (∃ address, operand.plain.form = .memory address ∧ Text.names address register = true) ↔
      ∃ address, operand.form = .memory address ∧ Text.names address register = true := by
  obtain ⟨form, dword⟩ := operand
  cases form with
  | memory address =>
    rw [plain]
    obtain ⟨name, found, same⟩ | ⟨-, same⟩ := Form.plain_memory address
    · rw [same]
      constructor
      · rintro ⟨other, form, -⟩
        cases form
      · rintro ⟨other, form, names⟩
        cases form
        rw [Text.not_names_of_nameWithin? found known] at names
        cases names
    · rw [same]
  | register | immediate | word => exact Iff.rfl
  | «variable» | target =>
    constructor <;>
    · rintro ⟨other, form, -⟩
      cases form

/-- An instruction reads memory through a register exactly if it does when it is read back. -/
theorem Statement.readsThrough_plain_iff (known : Token.isRegister register = true)
    (statement : Statement) :
    statement.plain.ReadsThrough register ↔ statement.ReadsThrough register := by
  unfold ReadsThrough
  rw [reads_plain]
  simp only [List.mem_map, exists_exists_and_eq_and]
  exact exists_congr fun operand =>
    and_congr_right fun _ => Operand.addresses_plain_iff known operand

/-- An instruction writes a register exactly if it does when it is read back. -/
theorem Statement.overwrites_plain_iff (register : String) (statement : Statement) :
    statement.plain.Overwrites register ↔ statement.Overwrites register := by
  unfold Overwrites
  rw [register?_plain]

/-- Code reads memory through a register that it has overwritten exactly if it does when it is read
back. -/
theorem clobbers_readBack_iff (known : Token.isRegister register = true)
    (printable : ∀ statement ∈ code, statement.IsPrintable) :
    Clobbers register (readBack code) ↔ Clobbers register code := by
  rw [readBack_eq printable]
  constructor
  · rintro ⟨before, statement, after, shape, ⟨earlier, member, overwrites⟩, reads⟩
    obtain ⟨front, back, rfl, rfl, rest⟩ := List.map_eq_append_iff.mp shape
    obtain ⟨here, others, rfl, rfl, rfl⟩ := List.map_eq_cons_iff.mp rest
    obtain ⟨first, present, rfl⟩ := List.mem_map.mp member
    exact ⟨front, here, others, rfl,
      ⟨first, present, (Statement.overwrites_plain_iff register first).mp overwrites⟩,
      (Statement.readsThrough_plain_iff known here).mp reads⟩
  · rintro ⟨before, statement, after, rfl, ⟨earlier, member, overwrites⟩, reads⟩
    refine ⟨before.map Statement.plain, statement.plain, after.map Statement.plain, ?_,
      ⟨earlier.plain, List.mem_map_of_mem member,
        (Statement.overwrites_plain_iff register earlier).mpr overwrites⟩,
      (Statement.readsThrough_plain_iff known statement).mpr reads⟩
    rw [List.map_append, List.map_cons]

end Clobbers

/-- A label is found by its name when it is read back. -/
theorem labelAt?_plain (program : List Statement) (name : String) :
    labelAt? (program.map Statement.plain) name = labelAt? program name := by
  have named (statement : Statement) :
      (statement.plain.label?.any fun symbol => symbol.text == name) =
        statement.label?.any fun symbol => symbol.text == name := by
    cases statement <;> rfl
  unfold labelAt?
  rw [List.findIdx?_map]
  exact congrArg (List.findIdx? · program) (funext named)

/-- An instruction that spares the count register does so when it is read back. -/
theorem Statement.SparesCount.plain {statement : Statement} (spares : statement.SparesCount) :
    statement.plain.SparesCount := by
  have unnamed {operand : Operand} (free : operand.namesCount = false) :
      operand.plain.namesCount = false := by
    obtain ⟨form, dword⟩ := operand
    cases form with
    | memory address =>
      rw [Operand.plain]
      obtain ⟨name, -, same⟩ | ⟨-, same⟩ := Operand.Form.plain_memory address
      · rw [same]
        rfl
      · rw [same]
        exact free
    | «variable» | target => rfl
    | _ => exact free
  cases statement with
  | instruction mnemonic operands =>
    refine ⟨spares.1, fun operand member => ?_⟩
    obtain ⟨before, present, rfl⟩ := List.mem_map.mp member
    exact unnamed (spares.2 before present)
  | _ => exact spares.elim

namespace CountMachine

variable {σ : Type}

/-- The machine that performs what is read back of each instruction. -/
def reading (machine : CountMachine σ) : CountMachine σ where
  perform := fun statement => machine.perform statement.plain
  count := machine.count
  countDown := machine.countDown
  count_load := machine.count_load
  count_spared := fun spares => machine.count_spared spares.plain
  count_countDown := machine.count_countDown

/-- The machine runs what is read back of a program as the machine that reads back runs the
program. -/
theorem next?_plain (machine : CountMachine σ) (program : List Statement) (point : Point σ) :
    machine.next? (program.map Statement.plain) point = machine.reading.next? program point := by
  cases here : program[point.position]? with
  | none =>
    have there : (program.map Statement.plain)[point.position]? = none := by
      rw [List.getElem?_map, here]
      rfl
    rw [next?, next?, here, there]
  | some statement =>
    have there : (program.map Statement.plain)[point.position]? = some statement.plain := by
      rw [List.getElem?_map, here]
      rfl
    cases statement with
    | label symbol => rw [next?_label here, next?_label there]
    | instruction mnemonic operands =>
      by_cases sequential : mnemonic.isSequential = true
      · rw [next?_sequential sequential here, next?_sequential sequential there]
        rfl
      · have departs := Bool.of_not_eq_true sequential
        by_cases back : mnemonic = .loop ∧ ∃ symbol dword, operands = [⟨.target symbol, dword⟩]
        · obtain ⟨rfl, symbol, dword, rfl⟩ := back
          rw [next?, next?, here, there]
          dsimp only [Statement.plain, List.map_singleton, Operand.plain, Operand.Form.plain]
          rw [labelAt?_plain]
          rfl
        · have other : mnemonic = .loop → ∀ symbol dword, operands ≠ [⟨.target symbol, dword⟩] :=
            fun loop symbol dword same => back ⟨loop, symbol, dword, same⟩
          have plain : mnemonic = .loop →
              ∀ symbol dword, operands.map Operand.plain ≠ [⟨.target symbol, dword⟩] := by
            intro loop symbol dword same
            obtain ⟨⟨form, width⟩, rfl, target⟩ := List.map_eq_singleton_iff.mp same
            obtain ⟨before, rfl⟩ := Operand.Form.exists_of_plain_eq_target (Operand.mk.inj target).1
            exact other loop before width rfl
          rw [next?_departing departs other here, next?_departing departs plain there]
    | _ =>
      rw [next?, next?, here, there]
      rfl

/-- The machine runs what is read back of a printable program as the machine that reads back runs
the program. -/
theorem next?_readBack (machine : CountMachine σ) {program : List Statement}
    (printable : ∀ statement ∈ program, statement.IsPrintable) :
    machine.next? (readBack program) = machine.reading.next? program := by
  rw [readBack_eq printable]
  exact funext (machine.next?_plain program)

end CountMachine

namespace Family

variable {text : String} {dispatch : Dispatch Family} {draft after : Draft} {code : List Statement}

/-- Instructions that a dispatched line adds in a scope of words can be told from their texts. -/
theorem printable_of_emit (parsed : Table.parse standard text = .ok dispatch)
    (worded : draft.state.scope.Worded)
    (emitted : dispatch.owner.emit dispatch.tokens draft = .ok () after)
    (added : after.listing = draft.listing.addAll code)
    (instructions : ∀ statement ∈ code, statement.isInstruction = true) :
    ∀ statement ∈ code, statement.IsPrintable :=
  fun statement member =>
    (printed_of_emit parsed worded emitted added statement member).isPrintable
      (Statement.isCode_of_isInstruction (instructions statement member))

/-- Where a dispatched line adds code that puts a word into a cell, what is written puts it
there. -/
theorem puts_readBack (parsed : Table.parse standard text = .ok dispatch)
    (worded : draft.state.scope.Worded)
    (emitted : dispatch.owner.emit dispatch.tokens draft = .ok () after)
    (added : after.listing = draft.listing.addAll code) {cell : Cell}
    {value : Words → BitVec 32} (puts : Puts code cell value) :
    Puts (readBack code) cell value :=
  puts.readBack (printable_of_emit parsed worded emitted added
    (isInstruction_of_executeAll? (puts fun _ => 0)))

end Family

namespace CountedProgram

/-- The statements of counted code are labels and instructions. -/
theorem isCode_statements {frame : Frame} {body : Counted} (spares : body.Spares frame.space)
    (before : Nat) : ∀ statement ∈ body.statements frame before, statement.isCode = true := by
  induction body generalizing before with
  | skip => exact List.forall_mem_nil _
  | seq front back front_ih back_ih =>
    exact List.forall_mem_append.mpr
      ⟨front_ih spares.1 before, back_ih spares.2 (before + front.blocks)⟩
  | straight line =>
    exact fun statement member =>
      Statement.isCode_of_isInstruction (spares statement member).isInstruction
  | again times opening inner closing ih =>
    refine List.forall_mem_cons.mpr ⟨rfl, List.forall_mem_cons.mpr ⟨rfl, ?_⟩⟩
    refine List.forall_mem_append.mpr ⟨ih spares (before + 1), ?_⟩
    exact List.forall_mem_cons.mpr ⟨rfl, List.forall_mem_singleton.mpr rfl⟩

/-- A machine runs what is written of a counted program that compiles as the machine that reads back
runs its statements. -/
theorem next?_readBack {σ : Type} (machine : CountMachine σ) {options : Options}
    {program : CountedProgram}
    (compiled : ((Compiler.new options Family.standard).compile ([] : List Listing.Line)
      program.source).failure = none) :
    let code := executable (Compiler.statements ((Compiler.new options Family.standard).compile
      ([] : List Listing.Line) program.source).sink)
    machine.next? (readBack code) = machine.reading.next? code := by
  intro code
  have reachable : (Compiler.new options Family.standard).Reachable := ⟨options, .refl⟩
  obtain ⟨spares, executed⟩ := executable_of_compiled compiled
  have printable := Compiler.printable_executable reachable program.source executed
    (isCode_functionCode (isCode_statements spares 0))
  rw [← executed] at printable
  exact machine.next?_readBack printable

end CountedProgram

end LineAsm
