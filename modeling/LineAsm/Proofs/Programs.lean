import LineAsm.Assembly.Statement
/-!
# Programs of statements

The statements of a program that are executed are those that are no comments (`executable`). Its
labels place symbols (`labelled`), and a label is found by the name of its symbol (`labelAt?`):
where it stands, if all labels have different names (`Placed.label`).
-/

namespace LineAsm

namespace Statement

/-- Whether a statement is there for the reader only. -/
def isComment : Statement → Bool
  | .comment _ => true
  | _ => false

/-- Whether a statement is an instruction. -/
def isInstruction : Statement → Bool
  | .instruction _ _ => true
  | _ => false

/-- Whether a statement is a label or an instruction. -/
def isCode : Statement → Bool
  | .label _ | .instruction _ _ => true
  | _ => false

/-- The symbol that a label places. -/
def label? : Statement → Option Symbol
  | .label symbol => some symbol
  | _ => none

/-- An instruction is code. -/
theorem isCode_of_isInstruction {statement : Statement}
    (instruction : statement.isInstruction = true) : statement.isCode = true := by
  cases statement with
  | instruction mnemonic operands => rfl
  | _ => cases instruction

end Statement

/-- The statements that are no comments. -/
def executable (statements : List Statement) : List Statement :=
  statements.filter fun statement => !statement.isComment

/-- The symbols that the labels of a program place, in order. -/
def labelled (program : List Statement) : List Symbol := program.filterMap Statement.label?

/-- The symbols of statements that follow each other. -/
theorem labelled_append (first last : List Statement) :
    labelled (first ++ last) = labelled first ++ labelled last := List.filterMap_append

/-- What is executed of statements that follow each other. -/
theorem executable_append (first last : List Statement) :
    executable (first ++ last) = executable first ++ executable last := List.filter_append ..

/-- Instructions are all executed. -/
theorem executable_instructions {code : List Statement}
    (instructions : ∀ statement ∈ code, statement.isInstruction = true) :
    executable code = code := by
  refine List.filter_eq_self.mpr fun statement member => ?_
  have plain := instructions statement member
  cases statement with
  | comment text => cases plain
  | _ => rfl

/-- Instructions place no symbol. -/
theorem labelled_instructions {code : List Statement}
    (instructions : ∀ statement ∈ code, statement.isInstruction = true) : labelled code = [] := by
  refine List.filterMap_eq_nil_iff.mpr fun statement member => ?_
  have plain := instructions statement member
  cases statement with
  | label symbol => cases plain
  | _ => rfl

/-- The position of the first label of a name. -/
def labelAt? (program : List Statement) (name : String) : Option Nat :=
  program.findIdx? fun statement => statement.label?.any fun symbol => symbol.text == name

/-- A label is found where it stands if no label before it has its name. -/
theorem labelAt?_append_label {before after : List Statement} {symbol : Symbol}
    (first : symbol.text ∉ (labelled before).map Symbol.text) :
    labelAt? (before ++ .label symbol :: after) symbol.text = some before.length := by
  have absent : ∀ statement ∈ before,
      (statement.label?.any fun other => other.text == symbol.text) = false := by
    intro statement member
    cases places : statement.label? with
    | none => rfl
    | some other =>
      have early := List.mem_map_of_mem (f := Symbol.text)
        (List.mem_filterMap.mpr ⟨statement, member, places⟩)
      have apart : other.text ≠ symbol.text := by
        intro same
        rw [same] at early
        exact first early
      simpa using apart
  have here : (Statement.label symbol :: after).findIdx? (fun statement =>
      statement.label?.any fun other => other.text == symbol.text) = some 0 := by
    simp [List.findIdx?_cons, Statement.label?]
  rw [labelAt?, List.findIdx?_append, List.findIdx?_eq_none_iff.mpr absent, here,
    Option.none_or, Option.map_some, Nat.zero_add]

/-- Statements stand in a program from a position on. -/
def Placed (program : List Statement) (position : Nat) (code : List Statement) : Prop :=
  ∃ before after, program = before ++ (code ++ after) ∧ before.length = position

namespace Placed

variable {program code more : List Statement} {statement : Statement} {position : Nat}

/-- A program stands in itself. -/
theorem whole (program : List Statement) : Placed program 0 program :=
  ⟨[], [], (List.append_nil program).symm, rfl⟩

/-- The first of the statements is at the position. -/
theorem head (placed : Placed program position (statement :: code)) :
    program[position]? = some statement := by
  obtain ⟨before, after, rfl, rfl⟩ := placed
  simp

/-- The statements after the first one follow it. -/
theorem tail (placed : Placed program position (statement :: code)) :
    Placed program (position + 1) code := by
  obtain ⟨before, after, rfl, rfl⟩ := placed
  exact ⟨before ++ [statement], after, by simp, by simp⟩

/-- The first of two parts is at the position. -/
theorem left (placed : Placed program position (code ++ more)) : Placed program position code := by
  obtain ⟨before, after, rfl, rfl⟩ := placed
  exact ⟨before, more ++ after, by simp, rfl⟩

/-- The second of two parts follows the first. -/
theorem right (placed : Placed program position (code ++ more)) :
    Placed program (position + code.length) more := by
  obtain ⟨before, after, rfl, rfl⟩ := placed
  exact ⟨before ++ code, after, by simp, by simp⟩

/-- A label is found at its position if all labels have different names. -/
theorem label {symbol : Symbol} (placed : Placed program position (.label symbol :: code))
    (distinct : ((labelled program).map Symbol.text).Nodup) :
    labelAt? program symbol.text = some position := by
  obtain ⟨before, after, rfl, rfl⟩ := placed
  have split : (labelled (before ++ (.label symbol :: code ++ after))).map Symbol.text =
      (labelled before).map Symbol.text ++
        symbol.text :: (labelled (code ++ after)).map Symbol.text := by
    simp [labelled, Statement.label?]
  rw [split] at distinct
  have apart := (List.nodup_append.mp distinct).2.2
  apply labelAt?_append_label
  intro early
  exact apart symbol.text early symbol.text List.mem_cons_self rfl

end Placed

end LineAsm
