import LineAsm.Proofs.Layout
/-!
# Structured code and its layout

A machine that runs the lines of a layout of structured code does what the structured execution
says. Every structured execution is a run to the place that belongs to its ending
(`Layout.reaches`), and a run that returns from the beginning of a layout has a structured execution
in front, after which it goes on no longer than before (`Layout.executes`). Both are put together
from one rule for each form of the code (`Machine.Leads`, `Machine.Traces`).
-/

namespace LineAsm

/-- The place where execution goes on after structured code: behind it, at the end of the block
around it, or at the exit of the function. -/
def Ending.place (behind beyond exit : Nat) : Ending → Nat
  | .through => behind
  | .leave => beyond
  | .exit => exit

/-- Statements of a function stand in a program. The program is read back from its lines, its labels
have different names, and the exit of the function and the end of the block around the statements
are known. -/
structure Stands (program : List Statement) (frame : Frame) (around : Option Nat)
    (beyond exit start : Nat) (statements : List Statement) : Prop where
  /-- The program is read back from its lines. -/
  readable : Readable program
  /-- The statements stand at their position. -/
  placed : Placed program start statements
  /-- Labels have different names. -/
  distinct : ((labelled program).map Symbol.text).Nodup
  /-- The exit of the function is known. -/
  exits : labelAt? program (Symbol.exit frame).text = some exit
  /-- The end of the block around the statements is known. -/
  leaves : ∀ id, around = some id →
    labelAt? program (Symbol.block frame id .finish).text = some beyond

namespace Stands

variable {program statements more : List Statement} {frame : Frame} {around : Option Nat}
  {beyond exit start : Nat}

/-- The first of two parts stands where both do. -/
theorem left (stands : Stands program frame around beyond exit start (statements ++ more)) :
    Stands program frame around beyond exit start statements :=
  { stands with placed := stands.placed.left }

/-- The second of two parts stands behind the first. -/
theorem right (stands : Stands program frame around beyond exit start (statements ++ more)) :
    Stands program frame around beyond exit (start + statements.length) more :=
  { stands with placed := stands.placed.right }

/-- The code in a block stands there with the end of the block. -/
theorem inside {code after : List Statement} {id here : Nat}
    (stands : Stands program frame around beyond exit start statements)
    (placed : Placed program here (code ++ after)) {rest : List Statement} {ended : Nat}
    (ends : Placed program ended (.label (.block frame id .finish) :: rest)) :
    Stands program frame (some id) ended exit here code where
  readable := stands.readable
  placed := placed.left
  distinct := stands.distinct
  exits := stands.exits
  leaves := by
    rintro _ ⟨rfl⟩
    exact ends.label stands.distinct

section Blocks

variable {id : Nat} {code : List Statement} {first second : Statement}

/-- The code of a group stands at its beginning, and the end of the group behind it. -/
theorem group
    (stands : Stands program frame around beyond exit start
      (code ++ [.label (.block frame id .finish)])) :
    let ended := start + code.length
    Stands program frame (some id) ended exit start code ∧
      Placed program ended [.label (.block frame id .finish)] ∧
      start + (code ++ [Statement.label (.block frame id .finish)]).length = ended + 1 := by
  refine ⟨stands.inside stands.placed stands.placed.right, stands.placed.right, ?_⟩
  rw [List.length_append, List.length_singleton, Nat.add_assoc]

/-- The code of a conditional block stands behind two statements, and the end behind the code. -/
theorem conditional
    (stands : Stands program frame around beyond exit start
      (first :: second :: (code ++ [.label (.block frame id .finish)]))) :
    let ended := start + 1 + 1 + code.length
    Stands program frame (some id) ended exit (start + 1 + 1) code ∧
      Placed program ended [.label (.block frame id .finish)] ∧
      labelAt? program (Symbol.block frame id .finish).text = some ended ∧
      start + (first :: second :: (code ++
        [Statement.label (.block frame id .finish)])).length = ended + 1 := by
  have body := stands.placed.tail.tail
  refine ⟨stands.inside body body.right, body.right, body.right.label stands.distinct, ?_⟩
  simp only [List.length_cons, List.length_append, List.length_nil]
  omega

/-- The code of a loop stands behind its label and two statements, the jump back to the label
behind the code, and the end behind the jump. -/
theorem looping
    (stands : Stands program frame around beyond exit start
      (.label (.block frame id .begin) :: first :: second ::
        (code ++ [.instruction .jmp [.target (.block frame id .begin)],
          .label (.block frame id .finish)]))) :
    let back := start + 1 + 1 + 1 + code.length
    Stands program frame (some id) (back + 1) exit (start + 1 + 1 + 1) code ∧
      program[back]? = some (.instruction .jmp [.target (.block frame id .begin)]) ∧
      labelAt? program (Symbol.block frame id .begin).text = some start ∧
      Placed program (back + 1) [.label (.block frame id .finish)] ∧
      labelAt? program (Symbol.block frame id .finish).text = some (back + 1) ∧
      start + (Statement.label (.block frame id .begin) :: first :: second :: (code ++
        [.instruction .jmp [.target (.block frame id .begin)],
          .label (.block frame id .finish)])).length = back + 1 + 1 := by
  have body := stands.placed.tail.tail.tail
  have ends := body.right.tail
  refine ⟨stands.inside body ends, body.right.head, stands.placed.label stands.distinct, ends,
    ends.label stands.distinct, ?_⟩
  simp only [List.length_cons, List.length_append, List.length_nil]
  omega

end Blocks

end Stands

/-- Where code ends early it does not matter what is behind it. -/
theorem Ending.place_of_early {ending : Ending} (early : ending ≠ .through)
    (behind other beyond exit : Nat) :
    ending.place behind beyond exit = ending.place other beyond exit := by
  cases ending with
  | through => exact absurd rfl early
  | leave | exit => rfl

section Runs

variable {σ : Type} {machine : Machine σ} {program : List Statement} {frame : Frame}

/-- The answer to a question is yes exactly when its condition holds of the numbers that are read
from the operands of the comparison that it becomes. -/
theorem Machine.satisfies_iff {keyword space : String} {question : Question keyword}
    {first second : Operand} {memory : σ}
    (operands : Operand.pairUnder (some space) question.left question.right =
      .ok [first, second]) :
    machine.Satisfies space question memory ↔
      question.condition.Holds (machine.read first.text memory)
        (machine.read second.text memory) := by
  obtain ⟨left, right⟩ := question.text_of_pair operands
  obtain ⟨meaning, means, tells⟩ := Construct.exists_meaning question.accepted.2.1
  rw [left, right]
  constructor
  · rintro ⟨other, meant, holds⟩
    obtain rfl := Option.some.inj (meant.symm.trans means)
    exact (tells _ _).mp holds
  · intro holds
    exact ⟨meaning, means, (tells _ _).mpr holds⟩

section Test

variable {keyword space : String} {question : Question keyword} {first second : Operand}
  {symbol begin : Symbol} {code : List Statement} {start beyond : Nat} {memory : σ}

/-- A comparison and the jump on its contrary lead behind them when the answer is yes. -/
theorem Machine.run_test_holds (readable : Readable program)
    (placed : Placed program start (.instruction .cmp [first, second] ::
      .instruction (.jumpIf question.condition.negate) [.target symbol] :: code))
    (found : labelAt? program symbol.text = some beyond)
    (operands : Operand.pairUnder (some space) question.left question.right = .ok [first, second])
    (holds : machine.Satisfies space question memory) (compared : Nat × Nat)
    (earlier : List Written) :
    ∃ noted, machine.run (written program) 2 ⟨start, memory, compared, earlier⟩ =
      some ⟨start + 1 + 1, memory, noted, earlier⟩ := by
  have tested : machine.next? (written program) ⟨start, memory, compared, earlier⟩ = _ :=
    next?_cmp readable placed.head
  refine ⟨(machine.read first.text memory, machine.read second.text memory), ?_⟩
  rw [run_succ tested]
  refine run_one ((next?_jumpIf readable placed.tail.head found).2 ?_)
  rw [Condition.negate_holds_iff, not_not]
  exact (satisfies_iff operands).mp holds

/-- A comparison and the jump on its contrary lead to the label when the answer is no. -/
theorem Machine.run_test_fails (readable : Readable program)
    (placed : Placed program start (.instruction .cmp [first, second] ::
      .instruction (.jumpIf question.condition.negate) [.target symbol] :: code))
    (found : labelAt? program symbol.text = some beyond)
    (operands : Operand.pairUnder (some space) question.left question.right = .ok [first, second])
    (fails : ¬ machine.Satisfies space question memory) (compared : Nat × Nat)
    (earlier : List Written) :
    ∃ noted, machine.run (written program) 2 ⟨start, memory, compared, earlier⟩ =
      some ⟨beyond, memory, noted, earlier⟩ := by
  have tested : machine.next? (written program) ⟨start, memory, compared, earlier⟩ = _ :=
    next?_cmp readable placed.head
  refine ⟨(machine.read first.text memory, machine.read second.text memory), ?_⟩
  rw [run_succ tested]
  refine run_one ((next?_jumpIf readable placed.tail.head found).1 ?_)
  rw [Condition.negate_holds_iff]
  exact fun holds => fails ((satisfies_iff operands).mpr holds)

/-- The label of a loop and its test lead to the code in it when the answer is yes. -/
theorem Machine.run_loop_holds (readable : Readable program)
    (placed : Placed program start (.label begin :: .instruction .cmp [first, second] ::
      .instruction (.jumpIf question.condition.negate) [.target symbol] :: code))
    (found : labelAt? program symbol.text = some beyond)
    (operands : Operand.pairUnder (some space) question.left question.right = .ok [first, second])
    (holds : machine.Satisfies space question memory) (compared : Nat × Nat)
    (earlier : List Written) :
    ∃ noted, machine.run (written program) 3 ⟨start, memory, compared, earlier⟩ =
      some ⟨start + 1 + 1 + 1, memory, noted, earlier⟩ := by
  obtain ⟨noted, tested⟩ :=
    run_test_holds readable placed.tail found operands holds compared earlier
  exact ⟨noted, (run_succ (next?_label (readable.label placed.head)) 2).trans tested⟩

/-- The label of a loop and its test lead to the end of it when the answer is no. -/
theorem Machine.run_loop_fails (readable : Readable program)
    (placed : Placed program start (.label begin :: .instruction .cmp [first, second] ::
      .instruction (.jumpIf question.condition.negate) [.target symbol] :: code))
    (found : labelAt? program symbol.text = some beyond)
    (operands : Operand.pairUnder (some space) question.left question.right = .ok [first, second])
    (fails : ¬ machine.Satisfies space question memory) (compared : Nat × Nat)
    (earlier : List Written) :
    ∃ noted, machine.run (written program) 3 ⟨start, memory, compared, earlier⟩ =
      some ⟨beyond, memory, noted, earlier⟩ := by
  obtain ⟨noted, tested⟩ :=
    run_test_fails readable placed.tail found operands fails compared earlier
  exact ⟨noted, (run_succ (next?_label (readable.label placed.head)) 2).trans tested⟩

end Test

/-- The place that the code in a block goes on at leads behind the block, unless the function
returns. -/
theorem Machine.reaches_outside (readable : Readable program) {symbol : Symbol}
    {code : List Statement} {ended : Nat} (ends : Placed program ended (.label symbol :: code))
    (ending : Ending) (beyond exit : Nat) (memory : σ) (compared : Nat × Nat)
    (earlier : List Written) :
    machine.Reaches (written program) ⟨ending.place ended ended exit, memory, compared, earlier⟩
      ⟨ending.outside.place (ended + 1) beyond exit, memory, compared, earlier⟩ := by
  have passed : machine.next? (written program) ⟨ended, memory, compared, earlier⟩ =
      some ⟨ended + 1, memory, compared, earlier⟩ := next?_label (readable.label ends.head)
  cases ending with
  | through | leave => exact ⟨1, run_one passed⟩
  | exit => exact ⟨0, rfl⟩

/-- A jump leads to its label. -/
theorem Machine.reaches_jump (readable : Readable program) {symbol : Symbol} {start place : Nat}
    {memory : σ} {compared : Nat × Nat} {earlier : List Written}
    (here : program[start]? = some (.instruction .jmp [.target symbol]))
    (found : labelAt? program symbol.text = some place) :
    machine.Reaches (written program) ⟨start, memory, compared, earlier⟩
      ⟨place, memory, compared, earlier⟩ := by
  have jumped : machine.next? (written program) ⟨start, memory, compared, earlier⟩ = _ :=
    next?_jmp readable here found
  exact ⟨1, run_one jumped⟩

/-- Wherever a layout of some code stands, a run leads from its beginning, with a memory, to the
place that belongs to an ending, with another memory and some lines performed on the way. -/
def Machine.Leads (machine : Machine σ) (program : List Statement) (frame : Frame) (code : Code)
    (memory : σ) (performed : List Written) (ending : Ending) (last : σ) : Prop :=
  ∀ ⦃around : Option Nat⦄ ⦃before after beyond exit start : Nat⦄ ⦃statements : List Statement⦄,
    Layout frame around before code after statements →
    Stands program frame around beyond exit start statements →
    ∀ (compared : Nat × Nat) (earlier : List Written), ∃ noted,
      machine.Reaches (written program) ⟨start, memory, compared, earlier⟩
        ⟨ending.place (start + statements.length) beyond exit, last, noted, earlier ++ performed⟩

namespace Machine.Leads

variable {code first second inner : Code} {memory middle last : σ}
  {performed more : List Written} {ending : Ending}

/-- The second part follows the first. -/
theorem next (front : machine.Leads program frame first memory performed .through middle)
    (back : machine.Leads program frame second middle more ending last) :
    machine.Leads program frame (.seq first second) memory (performed ++ more) ending last := by
  intro around before after beyond exit start statements layout stands compared earlier
  cases layout with
  | seq head rest =>
    obtain ⟨noted, fore⟩ := front head stands.left compared earlier
    obtain ⟨final, aft⟩ := back rest stands.right noted (earlier ++ performed)
    refine ⟨final, fore.trans ?_⟩
    rw [List.length_append, ← Nat.add_assoc, ← List.append_assoc]
    exact aft

/-- The second part is passed over. -/
theorem stop (early : ending ≠ .through)
    (front : machine.Leads program frame first memory performed ending last) :
    machine.Leads program frame (.seq first second) memory performed ending last := by
  intro around before after beyond exit start statements layout stands compared earlier
  cases layout with
  | seq head rest =>
    obtain ⟨noted, fore⟩ := front head stands.left compared earlier
    rw [Ending.place_of_early early _ (start + _)]
    exact ⟨noted, fore⟩

/-- The instructions of a straight line are performed. -/
theorem straight {line : Straight} :
    machine.Leads program frame (.straight line) memory (written (line.code frame.space)) .through
      (machine.performAll (written (line.code frame.space)) memory) := by
  intro around before after beyond exit start statements layout stands compared earlier
  cases layout
  obtain ⟨noted, reached⟩ : ∃ noted, machine.run (written program) _ _ = _ :=
    run_straight stands.readable (line.code_isOrdinary frame.space)
      ⟨start, memory, compared, earlier⟩ stands.placed
  exact ⟨noted, _, reached⟩

/-- The innermost block is left with a jump. -/
theorem leave {line : Phrase ["break"]} :
    machine.Leads program frame (.leave line) memory [] .leave memory := by
  intro around before after beyond exit start statements layout stands compared earlier
  cases layout with
  | leave =>
    refine ⟨compared, ?_⟩
    rw [List.append_nil]
    exact reaches_jump stands.readable stands.placed.head (stands.leaves _ rfl)

/-- The function is left with a jump. -/
theorem exit {line : Phrase ["return"]} :
    machine.Leads program frame (.exit line) memory [] .exit memory := by
  intro around before after beyond exit start statements layout stands compared earlier
  cases layout with
  | exit =>
    refine ⟨compared, ?_⟩
    rw [List.append_nil]
    exact reaches_jump stands.readable stands.placed.head stands.exits

/-- The code of a group leads behind the group. -/
theorem group {opening : Phrase ["\x7b"]} {closing : Phrase ["\x7d"]}
    (within : machine.Leads program frame inner memory performed ending last) :
    machine.Leads program frame (.group opening inner closing) memory performed ending.outside
      last := by
  intro around before after beyond exit start statements layout stands compared earlier
  cases layout with
  | group layout =>
    obtain ⟨inside, ends, length⟩ := stands.group
    obtain ⟨noted, body⟩ := within layout inside compared earlier
    refine ⟨noted, body.trans ?_⟩
    rw [length]
    exact reaches_outside stands.readable ends ending beyond exit last noted (earlier ++ performed)

section Conditional

variable {opening : Question "if"} {closing : Phrase ["\x7d"]}

/-- The code of a conditional block is entered when the answer is yes. -/
theorem conditional (holds : machine.Satisfies frame.space opening memory)
    (within : machine.Leads program frame inner memory performed ending last) :
    machine.Leads program frame (.conditional opening inner closing) memory performed
      ending.outside last := by
  intro around before after beyond exit start statements layout stands compared earlier
  cases layout with
  | conditional operands layout =>
    obtain ⟨inside, ends, found, length⟩ := stands.conditional
    obtain ⟨noted, tested⟩ :=
      run_test_holds stands.readable stands.placed found operands holds compared earlier
    obtain ⟨final, body⟩ := within layout inside noted earlier
    refine ⟨final, Reaches.trans ⟨2, tested⟩ (body.trans ?_)⟩
    rw [length]
    exact reaches_outside stands.readable ends ending beyond exit last final (earlier ++ performed)

/-- A conditional block is passed over when the answer is no. -/
theorem otherwise (fails : ¬ machine.Satisfies frame.space opening memory) :
    machine.Leads program frame (.conditional opening inner closing) memory [] .through memory := by
  intro around before after beyond exit start statements layout stands compared earlier
  cases layout with
  | conditional operands layout =>
    obtain ⟨inside, ends, found, length⟩ := stands.conditional
    obtain ⟨noted, tested⟩ :=
      run_test_fails stands.readable stands.placed found operands fails compared earlier
    refine ⟨noted, Reaches.trans ⟨2, tested⟩ ?_⟩
    rw [length, List.append_nil]
    exact reaches_outside stands.readable ends .through beyond exit memory noted earlier

end Conditional

section Looping

variable {opening : Question "while"} {closing : Phrase ["\x7d"]}

/-- A loop is over when the answer is no. -/
theorem finished (fails : ¬ machine.Satisfies frame.space opening memory) :
    machine.Leads program frame (.looping opening inner closing) memory [] .through memory := by
  intro around before after beyond exit start statements layout stands compared earlier
  cases layout with
  | looping operands layout =>
    obtain ⟨inside, back, begin, ends, found, length⟩ := stands.looping
    obtain ⟨noted, tested⟩ :=
      run_loop_fails stands.readable stands.placed found operands fails compared earlier
    refine ⟨noted, Reaches.trans ⟨3, tested⟩ ?_⟩
    rw [length, List.append_nil]
    exact reaches_outside stands.readable ends .through beyond exit memory noted earlier

/-- A round of a loop leads back to its beginning. -/
theorem again (holds : machine.Satisfies frame.space opening memory)
    (within : machine.Leads program frame inner memory performed .through middle)
    (rounds : machine.Leads program frame (.looping opening inner closing) middle more ending
      last) :
    machine.Leads program frame (.looping opening inner closing) memory (performed ++ more) ending
      last := by
  intro around before after beyond exit start statements layout stands compared earlier
  cases layout with
  | looping operands layout =>
    obtain ⟨inside, back, begin, ends, found, length⟩ := stands.looping
    obtain ⟨noted, tested⟩ :=
      run_loop_holds stands.readable stands.placed found operands holds compared earlier
    obtain ⟨reached, body⟩ := within layout inside noted earlier
    obtain ⟨final, round⟩ := rounds (.looping operands layout) stands reached
      (earlier ++ performed)
    refine ⟨final, Reaches.trans ⟨3, tested⟩ (body.trans ?_)⟩
    rw [← List.append_assoc]
    exact (reaches_jump stands.readable back begin).trans round

/-- A loop is over when the code in it ends early. -/
theorem broken (holds : machine.Satisfies frame.space opening memory) (early : ending ≠ .through)
    (within : machine.Leads program frame inner memory performed ending last) :
    machine.Leads program frame (.looping opening inner closing) memory performed ending.outside
      last := by
  intro around before after beyond exit start statements layout stands compared earlier
  cases layout with
  | looping operands layout =>
    obtain ⟨inside, back, begin, ends, found, length⟩ := stands.looping
    obtain ⟨noted, tested⟩ :=
      run_loop_holds stands.readable stands.placed found operands holds compared earlier
    obtain ⟨final, body⟩ := within layout inside noted earlier
    refine ⟨final, Reaches.trans ⟨3, tested⟩ (body.trans ?_)⟩
    rw [length, Ending.place_of_early early _ (start + 1 + 1 + 1 + _ + 1)]
    exact reaches_outside stands.readable ends ending beyond exit last final (earlier ++ performed)

end Looping

end Machine.Leads

/-- A structured execution of code is a run of its layout, from the beginning to the place that
belongs to its ending. -/
theorem Layout.reaches {code : Code} {memory last : σ} {performed : List Written}
    {ending : Ending} (executes : Executes machine frame.space code memory performed ending last) :
    machine.Leads program frame code memory performed ending last := by
  -- The induction is on the execution: the rounds of a loop run through one and the same layout.
  induction executes with
  | skip =>
    intro around before after beyond exit start statements layout stands compared earlier
    cases layout
    refine ⟨compared, 0, ?_⟩
    rw [List.append_nil]
    rfl
  | next front back front_ih back_ih => exact front_ih.next back_ih
  | stop early front ih => exact ih.stop early
  | straight => exact .straight
  | leave => exact .leave
  | exit => exact .exit
  | group within ih => exact ih.group
  | conditional holds within ih => exact ih.conditional holds
  | otherwise fails => exact .otherwise fails
  | finished fails => exact .finished fails
  | again holds within more within_ih more_ih => exact .again holds within_ih more_ih
  | broken holds early within ih => exact .broken holds early ih

/-- Some code has been executed in front of a run that returns. The run goes on, no longer than
before, from the place that belongs to the ending. -/
def Machine.Fronted (machine : Machine σ) (program : List Statement) (frame : Frame) (code : Code)
    (memory : σ) (steps behind beyond exit : Nat) (earlier : List Written) (final : Point σ) :
    Prop :=
  ∃ performed ending last noted rest, rest ≤ steps ∧
    Executes machine frame.space code memory performed ending last ∧
    machine.Returns (written program) rest
      ⟨ending.place behind beyond exit, last, noted, earlier ++ performed⟩ final

/-- Wherever the statements of some code stand, a run that returns from their beginning has the code
executed in front. -/
def Machine.Traces (machine : Machine σ) (program : List Statement) (frame : Frame)
    (around : Option Nat) (code : Code) (statements : List Statement) : Prop :=
  ∀ ⦃beyond exit start steps : Nat⦄ ⦃memory : σ⦄ ⦃compared : Nat × Nat⦄ ⦃earlier : List Written⦄
    ⦃final : Point σ⦄, Stands program frame around beyond exit start statements →
    machine.Returns (written program) steps ⟨start, memory, compared, earlier⟩ final →
    machine.Fronted program frame code memory steps (start + statements.length) beyond exit earlier
      final

section Fronts

variable {code block : Code} {memory last : σ} {performed earlier : List Written}
  {ending : Ending} {noted : Nat × Nat} {final : Point σ}
  {steps fewer rest behind ended beyond exit : Nat}

/-- What leads to the place that belongs to an ending has executed the code in front. -/
theorem Machine.Returns.fronted {start : Point σ}
    (returns : machine.Returns (written program) steps start final)
    (reached : ∃ noted, machine.Reaches (written program) start
      ⟨ending.place behind beyond exit, last, noted, earlier ++ performed⟩)
    (executes : Executes machine frame.space code memory performed ending last) :
    machine.Fronted program frame code memory steps behind beyond exit earlier final := by
  obtain ⟨noted, reached⟩ := reached
  obtain ⟨rest, bound, further⟩ := returns.through reached
  exact ⟨performed, ending, last, noted, rest, bound, executes, further⟩

/-- A run in front of which the code in a block has been executed has the block in front. -/
theorem Machine.Returns.fronted_outside (readable : Readable program) {symbol : Symbol}
    {statements : List Statement} (ends : Placed program ended (.label symbol :: statements))
    (bound : fewer ≤ steps)
    (further : machine.Returns (written program) fewer
      ⟨ending.place ended ended exit, last, noted, earlier ++ performed⟩ final)
    (executes : Executes machine frame.space block memory performed ending.outside last) :
    machine.Fronted program frame block memory steps (ended + 1) beyond exit earlier final := by
  obtain ⟨rest, lower, outside⟩ := further.through
    (reaches_outside readable ends ending beyond exit last noted (earlier ++ performed))
  exact ⟨performed, ending.outside, last, noted, rest, by omega, executes, outside⟩

/-- A round of a loop stands in front of the rounds that stand in front of the rest of the run. -/
theorem Machine.Fronted.again {opening : Question "while"} {closing : Phrase ["\x7d"]} {middle : σ}
    (rounds : machine.Fronted program frame (.looping opening code closing) middle fewer behind
      beyond exit (earlier ++ performed) final) (bound : fewer ≤ steps)
    (holds : machine.Satisfies frame.space opening memory)
    (executes : Executes machine frame.space code memory performed .through middle) :
    machine.Fronted program frame (.looping opening code closing) memory steps behind beyond exit
      earlier final := by
  obtain ⟨more, ending, last, noted, rest, least, follows, returned⟩ := rounds
  rw [List.append_assoc] at returned
  exact ⟨performed ++ more, ending, last, noted, rest, by omega, .again holds executes follows,
    returned⟩

end Fronts

namespace Machine.Traces

variable {around : Option Nat} {code first second inner : Code} {front back : List Statement}

/-- The second part is traced behind the first, unless that ends early. -/
theorem seq (head : machine.Traces program frame around first front)
    (rest : machine.Traces program frame around second back) :
    machine.Traces program frame around (.seq first second) (front ++ back) := by
  intro beyond exit start steps memory compared earlier final stands returns
  obtain ⟨performed, ending, last, noted, fewer, bound, executes, further⟩ :=
    head stands.left returns
  by_cases early : ending = .through
  · rw [early] at executes further
    obtain ⟨more, next, final, seen, least, lower, follows, returned⟩ := rest stands.right further
    refine ⟨performed ++ more, next, final, seen, least, by omega, .next executes follows, ?_⟩
    rw [List.length_append, ← Nat.add_assoc, ← List.append_assoc]
    exact returned
  · refine ⟨performed, ending, last, noted, fewer, bound, .stop early executes, ?_⟩
    rw [Ending.place_of_early early _ (start + front.length)]
    exact further

/-- The instructions of a straight line are traced. -/
theorem straight (line : Straight) :
    machine.Traces program frame around (.straight line) (line.code frame.space) := by
  intro beyond exit start steps memory compared earlier final stands returns
  obtain ⟨noted, reached⟩ : ∃ noted, machine.run (written program) _ _ = _ :=
    run_straight stands.readable (line.code_isOrdinary frame.space)
      ⟨start, memory, compared, earlier⟩ stands.placed
  exact returns.fronted ⟨noted, _, reached⟩ .straight

/-- The jump to the end of the innermost block is traced. -/
theorem leave {id : Nat} (line : Phrase ["break"]) :
    machine.Traces program frame (some id) (.leave line)
      [.instruction .jmp [.target (.block frame id .finish)]] := by
  intro beyond exit start steps memory compared earlier final stands returns
  refine returns.fronted ⟨compared, ?_⟩ .leave
  rw [List.append_nil]
  exact reaches_jump stands.readable stands.placed.head (stands.leaves _ rfl)

/-- The jump to the exit of the function is traced. -/
theorem exit (line : Phrase ["return"]) :
    machine.Traces program frame around (.exit line)
      [.instruction .jmp [.target (.exit frame)]] := by
  intro beyond exit start steps memory compared earlier final stands returns
  refine returns.fronted ⟨compared, ?_⟩ .exit
  rw [List.append_nil]
  exact reaches_jump stands.readable stands.placed.head stands.exits

/-- A group is traced if the code in it is. -/
theorem group {opening : Phrase ["\x7b"]} {closing : Phrase ["\x7d"]} {id : Nat}
    (within : machine.Traces program frame (some id) inner front) :
    machine.Traces program frame around (.group opening inner closing)
      (front ++ [.label (.block frame id .finish)]) := by
  intro beyond exit start steps memory compared earlier final stands returns
  obtain ⟨inside, ends, length⟩ := stands.group
  obtain ⟨performed, ending, last, noted, fewer, bound, executes, further⟩ := within inside returns
  rw [length]
  exact further.fronted_outside stands.readable ends bound (.group executes)

/-- A conditional block is traced if the code in it is: its test has led into it or behind it. -/
theorem conditional {opening : Question "if"} {closing : Phrase ["\x7d"]} {id : Nat}
    {left right : Operand}
    (operands : Operand.pairUnder (some frame.space) opening.left opening.right =
      .ok [left, right])
    (within : machine.Traces program frame (some id) inner front) :
    machine.Traces program frame around (.conditional opening inner closing)
      (.instruction .cmp [left, right] ::
        .instruction (.jumpIf opening.condition.negate) [.target (.block frame id .finish)] ::
          (front ++ [.label (.block frame id .finish)])) := by
  intro beyond exit start steps memory compared earlier final stands returns
  obtain ⟨inside, ends, found, length⟩ := stands.conditional
  rw [length]
  by_cases holds : machine.Satisfies frame.space opening memory
  · obtain ⟨met, tested⟩ :=
      run_test_holds stands.readable stands.placed found operands holds compared earlier
    obtain ⟨most, counted, entered⟩ := returns.skip tested
    obtain ⟨performed, ending, last, noted, fewer, bound, executes, further⟩ :=
      within inside entered
    exact further.fronted_outside stands.readable ends (by omega) (.conditional holds executes)
  · obtain ⟨met, tested⟩ :=
      run_test_fails stands.readable stands.placed found operands holds compared earlier
    refine returns.fronted ⟨met, ?_⟩ (.otherwise holds)
    rw [List.append_nil]
    exact .trans ⟨2, tested⟩
      (reaches_outside stands.readable ends .through beyond exit memory met earlier)

/-- A loop is traced if the code in it is: each round that its test has led into comes back to the
test, or leaves the loop. -/
theorem looping {opening : Question "while"} {closing : Phrase ["\x7d"]} {id : Nat}
    {left right : Operand}
    (operands : Operand.pairUnder (some frame.space) opening.left opening.right =
      .ok [left, right])
    (within : machine.Traces program frame (some id) inner front) :
    machine.Traces program frame around (.looping opening inner closing)
      (.label (.block frame id .begin) :: .instruction .cmp [left, right] ::
        .instruction (.jumpIf opening.condition.negate) [.target (.block frame id .finish)] ::
          (front ++ [.instruction .jmp [.target (.block frame id .begin)],
            .label (.block frame id .finish)])) := by
  intro beyond exit start steps memory compared earlier final stands returns
  obtain ⟨inside, back, begin, ends, found, length⟩ := stands.looping
  rw [length]
  -- Every round takes steps, so that the run from the next test is shorter.
  induction steps using Nat.strongRecOn generalizing memory compared earlier with
  | ind steps rounds =>
    by_cases holds : machine.Satisfies frame.space opening memory
    · obtain ⟨met, tested⟩ :=
        run_loop_holds stands.readable stands.placed found operands holds compared earlier
      obtain ⟨most, counted, entered⟩ := returns.skip tested
      obtain ⟨performed, ending, last, noted, fewer, bound, executes, further⟩ :=
        within inside entered
      by_cases early : ending = .through
      · rw [early] at executes further
        obtain ⟨round, lower, returned⟩ :=
          further.through (reaches_jump stands.readable back begin)
        exact (rounds round (by omega) returned).again (by omega) holds executes
      · rw [Ending.place_of_early early _ (start + 1 + 1 + 1 + front.length + 1)] at further
        exact further.fronted_outside stands.readable ends (by omega)
          (.broken holds early executes)
    · obtain ⟨met, tested⟩ :=
        run_loop_fails stands.readable stands.placed found operands holds compared earlier
      refine returns.fronted ⟨met, ?_⟩ (.finished holds)
      rw [List.append_nil]
      exact .trans ⟨3, tested⟩
        (reaches_outside stands.readable ends .through beyond exit memory met earlier)

end Machine.Traces

/-- A run that returns from the beginning of a layout is a structured execution of the code first.
It goes on, no longer than before, from the place that belongs to the ending. -/
theorem Layout.executes {around : Option Nat} {before after : Nat} {code : Code}
    {statements : List Statement} (layout : Layout frame around before code after statements) :
    machine.Traces program frame around code statements := by
  -- The induction is on the layout: what the run has executed is not known before.
  induction layout with
  | skip =>
    intro beyond exit start steps memory compared earlier final stands returns
    refine returns.fronted ⟨compared, 0, ?_⟩ .skip
    rw [List.append_nil]
    rfl
  | seq head rest head_ih rest_ih => exact head_ih.seq rest_ih
  | straight => exact .straight _
  | leave => exact .leave _
  | exit => exact .exit _
  | group within ih => exact ih.group
  | conditional operands within ih => exact ih.conditional operands
  | looping operands within ih => exact ih.looping operands

end Runs

end LineAsm
