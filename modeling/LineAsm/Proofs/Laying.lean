import LineAsm.Proofs.Layout
import LineAsm.Proofs.Transcript
/-!
# Lines of structured code

Lines of structured code that compile in a function leave the scope as it was, the counter of
blocks apart, and are executed as a layout of the code (`Code.laidOut`). A program that compiles is
executed as a function around a layout of its body (`Program.layout`).
-/

namespace LineAsm

/-- Comments of lines that are repeated are not executed. -/
theorem executable_echoed (options : Options) (text : String) (tokens : List Token) :
    executable (Reading.echoed options text tokens) = [] := by
  unfold Reading.echoed
  split
  · rfl
  · rfl

/-- The end of a block is executed. -/
theorem executable_blockEnd (frame : Frame) (block : Block) :
    executable (Flow.blockEnd frame block) = Flow.blockEnd frame block := by
  unfold Flow.blockEnd
  cases block.kind <;> rfl

/-- A line that says a construct is executed as the rule of the construct says. -/
theorem Saying.executed {construct : Construct} (line : Saying construct) {passage : Passage}
    (holds : passage.Holds) (same : passage.raw = line.raw) :
    ∃ code, Flow.Writes construct passage.before passage.after code ∧
      executable passage.written = executable code := by
  have said : passage.construct? = some construct := by
    rw [Passage.construct?, Passage.reading, same]
    exact line.said
  obtain ⟨tokens, code, rule, whole⟩ := holds.writes_echoed said
  refine ⟨code, rule, ?_⟩
  rw [whole, executable_append, executable_echoed, List.nil_append]

/-- A line of a family that depends on the namespace only succeeds, leaves the scope and is executed
as what its family writes. -/
theorem Passage.Holds.plain {passage : Passage} (holds : passage.Holds) {family : Family}
    {tokens : List Token} {sort : Statement → Prop}
    (read : passage.reading = .owned family tokens) (plain : (family.emit tokens).Plain sort) :
    passage.after = passage.before ∧
      ((family.emit tokens).effect passage.before).answer = .ok () ∧
      executable passage.written =
        executable ((family.emit tokens).effect passage.before).written := by
  unfold Passage.Holds at holds
  rw [read] at holds
  have answers := congrArg Effect.answer holds
  have scopes := congrArg Effect.scope holds
  have statements := congrArg Effect.written holds
  dsimp only [Reading.effect] at answers scopes statements
  refine ⟨?_, ?_, ?_⟩
  · rw [← scopes]
    exact (plain.still passage.before).1
  · generalize ((family.emit tokens).effect passage.before).answer = answer at answers
    cases answer with
    | ok value => rfl
    | error cause => cases answers
  · rw [← statements, executable_append, executable_echoed, List.nil_append]

/-- A straight line leaves the scope and is executed as its instructions. -/
theorem Straight.executed (line : Straight) {passage : Passage} (holds : passage.Holds)
    (same : passage.raw = line.raw) {space : String}
    (declared : passage.before.declared = some space) :
    passage.after = passage.before ∧ executable passage.written = line.code space := by
  have plain := line.plain
  have read : passage.reading = .owned line.family line.tokens := by
    rw [Passage.reading, same]
    exact line.read
  obtain ⟨kept, -, executed⟩ := holds.plain read plain
  have code : ((line.family.emit line.tokens).effect passage.before).written = line.code space :=
    plain.written_congr declared
  refine ⟨kept, ?_⟩
  rw [executed, code]
  exact executable_instructions (line.code_isInstruction space)

/-- A closing line in a block ends the block. -/
theorem Saying.closes (line : Saying .finish) {passage : Passage} (holds : passage.Holds)
    (same : passage.raw = line.raw) {frame : Frame} (framed : passage.before.frame? = some frame)
    {block : Block} {outer : List Block}
    (innermost : passage.before.blocks.blocks = block :: outer) :
    passage.after = { passage.before with
      blocks := { passage.before.blocks with blocks := outer } } ∧
    executable passage.written = Flow.blockEnd frame block := by
  obtain ⟨code, rule, executed⟩ := line.executed holds same
  rw [executed]
  generalize passage.before = before at rule framed innermost
  generalize passage.after = after at rule
  cases rule with
  | finishFunction bare other =>
    rw [innermost] at bare
    cases bare
  | finishBlock top other =>
    rw [innermost] at top
    cases top
    rw [framed] at other
    cases other
    exact ⟨rfl, executable_blockEnd frame block⟩

/-- A closing line in a function where no block is open ends the function. -/
theorem Saying.returns (line : Saying .finish) {passage : Passage} (holds : passage.Holds)
    (same : passage.raw = line.raw) {frame : Frame} (framed : passage.before.frame? = some frame)
    (bare : passage.before.blocks.blocks = []) :
    executable passage.written = [.label (.exit frame), .instruction .ret []] := by
  obtain ⟨code, rule, executed⟩ := line.executed holds same
  rw [executed]
  generalize passage.before = before at rule framed bare
  generalize passage.after = after at rule
  cases rule with
  | finishBlock innermost other =>
    rw [innermost] at bare
    cases bare
  | finishFunction empty other =>
    rw [framed] at other
    cases other
    rfl

namespace Transcribed

variable {first last : Scope} {passages : List Passage}

/-- Lines with an opening and a closing are transcribed as these two, with the lines between. -/
theorem brackets {opening closing : String} {inner : List String}
    (lines : Transcribed first passages last)
    (read : passages.map Passage.raw = opening :: (inner ++ [closing])) :
    ∃ opener between closer, passages = opener :: (between ++ [closer]) ∧
      opener.raw = opening ∧ between.map Passage.raw = inner ∧ closer.raw = closing ∧
      opener.Holds ∧ opener.before = first ∧
      Transcribed opener.after between closer.before ∧ closer.Holds ∧ closer.after = last := by
  obtain ⟨opener, rest, rfl, opened, others⟩ := List.map_eq_cons_iff.mp read
  obtain ⟨between, ending, rfl, within, closed⟩ := List.map_eq_append_iff.mp others
  obtain ⟨closer, rfl, ended⟩ := List.map_eq_singleton_iff.mp closed
  obtain ⟨opens, start, tail⟩ := lines.uncons
  obtain ⟨middle, front, back⟩ := tail.split
  obtain ⟨closes, rfl, left⟩ := back.single
  exact ⟨opener, between, closer, rfl, opened, within, ended, opens, start, front, closes, left⟩

end Transcribed

/-- A construct that opens a block without a name changes the open blocks only. -/
theorem Flow.Writes.opened {construct : Construct} {scope last : Scope} {code : List Statement}
    {kind : Block.Kind} (rule : Flow.Writes construct scope last code)
    (opens : construct.opens? = some kind) (unnamed : kind ≠ .labelled) :
    last = { scope with blocks := scope.blocks.start kind } := by
  cases rule with
  | group | conditional | looping | counted =>
    cases opens
    rfl
  | labelled =>
    cases opens
    exact absurd rfl unnamed
  | _ => cases opens

/-- A declaration changes the namespace and nothing of it is executed. -/
theorem Declaring.executed {space : String} (line : Declaring space) {passage : Passage}
    (holds : passage.Holds) (same : passage.raw = line.raw) :
    passage.after = { passage.before with declared := some space } ∧
      executable passage.written = [] := by
  have read : passage.reading.declares? = some space := by
    rw [Passage.reading, same]
    exact line.declares
  obtain ⟨first, second, rest, owned, rfl⟩ := Reading.owned_of_declares? read
  have declared := (Family.hasEffect_declare first second rest).effect_eq passage.before
  unfold Passage.Holds at holds
  rw [owned, Reading.effect, Family.emit, declared] at holds
  have scopes := congrArg Effect.scope holds
  have statements := congrArg Effect.written holds
  dsimp only at scopes statements
  rw [← scopes, ← statements, List.append_nil, executable_echoed]
  exact ⟨rfl, rfl⟩

/-- Some lines are laid out in a way in every function that they compile in: they leave the scope as
it was, the counter of blocks apart, and what is executed of them is laid out in this way after the
number of the block around them, with the counter before them and the one after them. -/
def LaidOutAs (lines : List String) (frame : Frame)
    (lays : Option Nat → Nat → Nat → List Statement → Prop) : Prop :=
  ∀ ⦃first last : Scope⦄ ⦃passages : List Passage⦄, Transcribed first passages last →
    passages.map Passage.raw = lines → first.frame? = some frame →
      ∃ count, last = { first with blocks := ⟨first.blocks.blocks, count⟩ } ∧
        lays (first.blocks.current.map Block.id) first.blocks.counter count
          (executable (writtenBy passages))

namespace LaidOutAs

variable {inner : List String} {frame : Frame}
  {lays : Option Nat → Nat → Nat → List Statement → Prop} {last : Scope} {passages : List Passage}

/-- No lines are laid out as no statements. -/
theorem nil (frame : Frame) :
    LaidOutAs [] frame fun _ before after body => after = before ∧ body = [] := by
  intro first last passages lines read framed
  obtain rfl := List.map_eq_nil_iff.mp read
  obtain rfl := lines.eq_of_nil
  exact ⟨_, rfl, rfl, rfl⟩

/-- Lines that follow each other are laid out one after the other. -/
theorem append {more : List String} {lay : Option Nat → Nat → Nat → List Statement → Prop}
    (front : LaidOutAs inner frame lays) (back : LaidOutAs more frame lay) :
    LaidOutAs (inner ++ more) frame fun around before after body =>
      ∃ middle head rest, lays around before middle head ∧ lay around middle after rest ∧
        body = head ++ rest := by
  intro first last passages lines read framed
  obtain ⟨before, after, rfl, head, tail⟩ := List.map_eq_append_iff.mp read
  obtain ⟨middle, start, rest⟩ := lines.split
  obtain ⟨count, rfl, fore⟩ := front start head framed
  obtain ⟨total, rfl, aft⟩ := back rest tail framed
  refine ⟨total, rfl, count, _, _, fore, aft, ?_⟩
  rw [writtenBy, List.flatMap_append, executable_append]
  rfl

/-- A block around lines that are laid out is executed as its opening, the layout of the lines in
it, and its end. -/
theorem block {construct : Construct} {kind : Block.Kind} {first : Scope}
    (within : LaidOutAs inner frame lays) (opening : Saying construct) (closing : Saying .finish)
    (opens : construct.opens? = some kind) (unnamed : kind ≠ .labelled)
    (lines : Transcribed first passages last)
    (read : passages.map Passage.raw = opening.raw :: (inner ++ [closing.raw]))
    (framed : first.frame? = some frame) :
    ∃ count after head body, last = { first with blocks := ⟨first.blocks.blocks, count⟩ } ∧
      Flow.Writes construct first after head ∧
      lays (some (first.blocks.counter + 1)) (first.blocks.counter + 1) count body ∧
      executable (writtenBy passages) =
        executable head ++ (body ++ Flow.blockEnd frame (first.blocks.next kind)) := by
  obtain ⟨opener, between, closer, rfl, opened, lined, closed, holds, rfl, middle, ends, rfl⟩ :=
    lines.brackets read
  obtain ⟨head, rule, executed⟩ := opening.executed holds opened
  have started := rule.opened opens unnamed
  rw [started] at middle
  obtain ⟨count, left, layout⟩ := within middle lined framed
  have framedCloser : closer.before.frame? = some frame := by
    rw [left]
    exact framed
  have innermost : closer.before.blocks.blocks =
      opener.before.blocks.next kind :: opener.before.blocks.blocks := by
    rw [left]
    rfl
  obtain ⟨beyond, ended⟩ := closing.closes ends closed framedCloser innermost
  refine ⟨count, opener.after, head, _, ?_, rule, layout, ?_⟩
  · rw [beyond, left]
  · have whole : writtenBy (opener :: (between ++ [closer])) =
        opener.written ++ (writtenBy between ++ closer.written) := by
      simp [writtenBy]
    rw [whole, executable_append, executable_append, executed, ended]

/-- A namespace and a function around lines that are laid out are executed as the entry of the
function, the layout of the lines, the exit and a return. -/
theorem function (within : LaidOutAs inner frame lays) (declaration : Declaring frame.space)
    (opening : Saying (.function frame.function)) (closing : Saying .finish) {options : Options}
    (lines : Transcribed (.initial options) passages last)
    (read : passages.map Passage.raw =
      declaration.raw :: opening.raw :: (inner ++ [closing.raw])) :
    ∃ count body, lays none 0 count body ∧
      executable (writtenBy passages) = functionCode frame body := by
  obtain ⟨declaring, rest, rfl, declared, others⟩ := List.map_eq_cons_iff.mp read
  obtain ⟨holds, start, tail⟩ := lines.uncons
  obtain ⟨space, silent⟩ := declaration.executed holds declared
  obtain ⟨opener, between, closer, rfl, opened, lined, closed, opens, same, middle, closes, -⟩ :=
    tail.brackets others
  obtain ⟨head, rule, begun⟩ := opening.executed opens opened
  have scope : opener.before =
      { Scope.initial options with declared := some frame.space } := by
    rw [same, space, start]
  have inForce : opener.before.space? = some frame.space := by
    rw [scope]
    exact Option.filter_eq_some_iff.mpr ⟨rfl, by simpa using declaration.ne_empty⟩
  have whole : executable (writtenBy (declaring :: opener :: (between ++ [closer]))) =
      executable head ++ (executable (writtenBy between) ++ executable closer.written) := by
    have parts : writtenBy (declaring :: opener :: (between ++ [closer])) =
        declaring.written ++ (opener.written ++ (writtenBy between ++ closer.written)) := by
      simp [writtenBy]
    rw [parts, executable_append, executable_append, executable_append, silent, begun]
    rfl
  rw [whole]
  obtain ⟨space, found, framed, empty, rfl⟩ := rule.enters
  rw [inForce] at found
  cases found
  obtain ⟨count, left, layout⟩ := within middle lined framed
  have framedCloser : closer.before.frame? = some frame := by
    rw [left]
    exact framed
  have bare : closer.before.blocks.blocks = [] := by
    rw [left, empty]
    rfl
  rw [empty] at layout
  refine ⟨count, _, layout, ?_⟩
  rw [closing.returns closes closed framedCloser bare]
  rfl

end LaidOutAs

/-- Some code compiles to its layout in every function that its lines compile in: they leave the
scope as it was, the counter of blocks apart, and are executed as a layout of the code. -/
def Code.LaidOut (code : Code) (frame : Frame) : Prop :=
  ∀ {first last : Scope} {passages : List Passage}, Transcribed first passages last →
    passages.map Passage.raw = code.lines → first.frame? = some frame →
      ∃ count, last = { first with blocks := ⟨first.blocks.blocks, count⟩ } ∧
        Layout frame (first.blocks.current.map Block.id) first.blocks.counter code count
          (executable (writtenBy passages))

/-- Code that compiles to its layout is laid out as its layout says. -/
theorem Code.LaidOut.as {code : Code} {frame : Frame} (within : code.LaidOut frame) :
    LaidOutAs code.lines frame fun around before after body =>
      Layout frame around before code after body :=
  fun _ _ _ lines read framed => within lines read framed

/-- Structured code compiles to its layout. -/
theorem Code.laidOut (code : Code) (frame : Frame) : code.LaidOut frame := by
  induction code with
  | skip =>
    intro first last passages lines read framed
    obtain ⟨count, left, rfl, executed⟩ := LaidOutAs.nil frame lines read framed
    refine ⟨_, left, ?_⟩
    rw [executed]
    exact .skip
  | seq front back front_ih back_ih =>
    intro first last passages lines read framed
    obtain ⟨total, left, middle, head, rest, fore, aft, executed⟩ :=
      (Code.LaidOut.as front_ih).append (Code.LaidOut.as back_ih) lines read framed
    refine ⟨total, left, ?_⟩
    rw [executed]
    exact .seq fore aft
  | straight line =>
    intro first last passages lines read framed
    obtain ⟨passage, rfl, same⟩ := List.map_eq_singleton_iff.mp read
    obtain ⟨holds, rfl, rfl⟩ := lines.single
    obtain ⟨kept, executed⟩ := line.executed holds same (Scope.declared_of_frame framed)
    refine ⟨passage.before.blocks.counter, kept, ?_⟩
    rw [writtenBy, List.flatMap_singleton, executed]
    exact .straight
  | leave line =>
    intro first last passages lines read framed
    obtain ⟨passage, rfl, same⟩ := List.map_eq_singleton_iff.mp read
    obtain ⟨holds, rfl, rfl⟩ := lines.single
    obtain ⟨code, rule, executed⟩ := line.leave.executed holds same
    rw [writtenBy, List.flatMap_singleton, executed]
    generalize passage.before = before at rule framed
    generalize passage.after = after at rule
    cases rule with
    | leave found innermost =>
      rw [framed] at found
      cases found
      rw [innermost]
      exact ⟨_, rfl, .leave⟩
  | exit line =>
    intro first last passages lines read framed
    obtain ⟨passage, rfl, same⟩ := List.map_eq_singleton_iff.mp read
    obtain ⟨holds, rfl, rfl⟩ := lines.single
    obtain ⟨code, rule, executed⟩ := line.exit.executed holds same
    rw [writtenBy, List.flatMap_singleton, executed]
    generalize passage.before = before at rule framed
    generalize passage.after = after at rule
    cases rule with
    | exit found =>
      rw [framed] at found
      cases found
      exact ⟨_, rfl, .exit⟩
  | group opening inner closing ih =>
    intro first last passages lines read framed
    obtain ⟨count, after, head, body, left, rule, layout, executed⟩ :=
      ih.as.block opening.group closing.finish rfl (by decide) lines read framed
    refine ⟨count, left, ?_⟩
    rw [executed]
    cases rule with
    | group found => exact .group layout
  | conditional opening inner closing ih =>
    intro first last passages lines read framed
    obtain ⟨count, after, head, body, left, rule, layout, executed⟩ :=
      ih.as.block opening.conditional closing.finish rfl (by decide) lines read framed
    refine ⟨count, left, ?_⟩
    rw [executed]
    cases rule with
    | conditional found compared =>
      rw [framed] at found
      cases found
      rw [Scope.declared_of_frame framed] at compared
      obtain ⟨first, second, rfl⟩ := Operand.pairUnder_eq_ok compared
      exact .conditional compared layout
  | looping opening inner closing ih =>
    intro first last passages lines read framed
    obtain ⟨count, after, head, body, left, rule, layout, executed⟩ :=
      ih.as.block opening.looping closing.finish rfl (by decide) lines read framed
    refine ⟨count, left, ?_⟩
    rw [executed]
    cases rule with
    | looping found compared =>
      rw [framed] at found
      cases found
      rw [Scope.declared_of_frame framed] at compared
      obtain ⟨first, second, rfl⟩ := Operand.pairUnder_eq_ok compared
      exact .looping compared layout

namespace Program

/-- A program that compiles is executed as its entry, a layout of its body, its exit and a
return. -/
theorem layout (program : Program) {options : Options} {passages : List Passage} {last : Scope}
    (lines : Transcribed (.initial options) passages last)
    (read : passages.map Passage.raw = program.lines) :
    ∃ count body, Layout program.frame none 0 program.body count body ∧
      executable (writtenBy passages) = functionCode program.frame body :=
  (Code.LaidOut.as (program.body.laidOut program.frame)).function program.declaration
    program.opening.function program.closing.finish lines read

end Program

end LineAsm
