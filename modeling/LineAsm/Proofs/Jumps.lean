import LineAsm.Proofs.Brackets
import LineAsm.Proofs.Symbols
import Mathlib.Data.List.Nodup
/-!
# Jumps made for blocks and functions

Blocks and functions are written with jumps and labels of their own: to and at the begin and the
end of a block, and to and at the exit of the function. The code of a function up to one of its
lines is pending (`Pending`): every label made for it stands once, every jump back has its label
before it, and every other jump has its label after it or goes to the exit or the end of a block
that is open still. Each line keeps this (`Pending.line`), and the closing of the function leaves
no jump without its label (`Pending.resolves`).
-/

namespace LineAsm

/-- The symbols of the places that blocks and functions are left by or entered again. -/
def Symbol.isGenerated : Symbol → Bool
  | .exit _ | .block _ _ _ => true
  | .plain _ | .member _ _ | .entry _ | .inner _ _ => false

/-- The symbol of a place that jumps go back to. -/
def Symbol.isBackward : Symbol → Bool
  | .block _ _ .begin => true
  | _ => false

namespace Statement

/-- The place of a block or function that a statement jumps to. -/
def jumpsTo? : Statement → Option Symbol
  | .instruction mnemonic [⟨.target symbol, _⟩] =>
    if mnemonic.isJump && symbol.isGenerated then some symbol else none
  | _ => none

/-- The place of a block or function that a statement names. -/
def marks? : Statement → Option Symbol
  | .label symbol => if symbol.isGenerated then some symbol else none
  | _ => none

/-- A statement that neither names nor jumps to a place of a block or function. -/
def IsApart (statement : Statement) : Prop := statement.jumpsTo? = none ∧ statement.marks? = none

/-- A quiet statement is apart. -/
theorem IsQuiet.isApart {statement : Statement} (quiet : statement.IsQuiet) :
    statement.IsApart := by
  unfold IsApart jumpsTo? marks?
  constructor
  · split
    · rename_i mnemonic symbol dword
      have other : mnemonic.isJump = false := quiet
      simp [other]
    · rfl
  · cases statement with
    | label symbol => exact quiet.elim
    | _ => rfl

/-- A bare statement is apart. -/
theorem IsBare.isApart {statement : Statement} (bare : statement.IsBare) : statement.IsApart :=
  bare.isQuiet.isApart

/-- An instruction that does not jump is apart. -/
theorem isApart_instruction (mnemonic : Mnemonic) (operands : List Operand)
    (other : mnemonic.isJump = false) : (instruction mnemonic operands).IsApart :=
  IsQuiet.isApart other

/-- A jump goes to its target. -/
theorem target_of_jumpsTo? {mnemonic : Mnemonic} {target symbol : Symbol}
    (jumps : (instruction mnemonic [.target target]).jumpsTo? = some symbol) :
    symbol = target := by
  have place : (instruction mnemonic [.target target]).jumpsTo? =
      if mnemonic.isJump && target.isGenerated then some target else none := rfl
  rw [place] at jumps
  split at jumps
  · exact (Option.some.inj jumps).symm
  · cases jumps

end Statement

/-- The places of blocks and functions that some code names, in order. -/
def marked (code : List Statement) : List Symbol := code.filterMap Statement.marks?

/-- What holds of the code of a function up to one of its lines, where some blocks are open. -/
structure Pending (frame : Frame) (stack : OpenBlocks) (code : List Statement) : Prop where
  /-- No place is named twice. -/
  once : (marked code).Nodup
  /-- The places named are edges of blocks that have been counted. -/
  counted : ∀ symbol ∈ marked code, ∃ id edge, symbol = .block frame id edge ∧ id ≤ stack.counter
  /-- The end of an open block is not named yet. -/
  waiting : ∀ block ∈ stack.blocks, .block frame block.id .finish ∉ marked code
  /-- The begin of an open block that is repeated has been named. -/
  entered : ∀ block ∈ stack.blocks, block.kind = .looping ∨ block.kind = .counted →
    .block frame block.id .begin ∈ marked code
  /-- A jump back goes to a place named before it. -/
  back : ∀ before statement after symbol, code = before ++ statement :: after →
    statement.jumpsTo? = some symbol → symbol.isBackward = true → symbol ∈ marked before
  /-- Any other jump goes to a place named after it, to the exit or to the end of an open block. -/
  forth : ∀ before statement after symbol, code = before ++ statement :: after →
    statement.jumpsTo? = some symbol → symbol.isBackward = false →
    symbol ∈ marked after ∨ symbol = .exit frame ∨
      ∃ block ∈ stack.blocks, symbol = .block frame block.id .finish

/-- The places named by code that follows other code. -/
@[simp] theorem marked_append (first last : List Statement) :
    marked (first ++ last) = marked first ++ marked last := List.filterMap_append

/-- A statement in code with one more statement is the last one or one of those before. -/
theorem split_snoc {code before after : List Statement} {last statement : Statement}
    (split : code ++ [last] = before ++ statement :: after) :
    (code = before ∧ last = statement ∧ after = []) ∨
      ∃ more, after = more ++ [last] ∧ code = before ++ statement :: more := by
  rcases List.eq_nil_or_concat after with rfl | ⟨more, final, rfl⟩
  · obtain ⟨same, whole⟩ := List.append_inj' split rfl
    exact .inl ⟨same, (List.cons.inj whole).1, rfl⟩
  · rw [List.concat_eq_append, ← List.cons_append, ← List.append_assoc] at split
    obtain ⟨same, whole⟩ := List.append_inj' split rfl
    obtain rfl := (List.cons.inj whole).1
    exact .inr ⟨more, List.concat_eq_append, same⟩

namespace Pending

variable {frame : Frame} {stack : OpenBlocks} {code : List Statement}

/-- Before the first line nothing is named and nothing jumps. -/
theorem initial (apart : ∀ statement ∈ code, statement.IsApart) : Pending frame .empty code := by
  have none : marked code = [] := List.filterMap_eq_nil_iff.mpr fun s member => (apart s member).2
  have still : ∀ before statement after symbol, code = before ++ statement :: after →
      statement.jumpsTo? ≠ some symbol := by
    intro before statement after symbol split jumps
    have member : statement ∈ code := by
      rw [split]
      exact List.mem_append_right before List.mem_cons_self
    rw [(apart statement member).1] at jumps
    cases jumps
  constructor
  · rw [none]
    exact List.nodup_nil
  · rw [none]
    nofun
  · nofun
  · nofun
  · exact fun before statement after symbol split jumps => absurd jumps (still _ _ _ _ split)
  · exact fun before statement after symbol split jumps => absurd jumps (still _ _ _ _ split)

/-- A statement that names no place may follow, if it jumps back to a place named or on to the exit
or the end of an open block. -/
theorem unmarked {statement : Statement} (pending : Pending frame stack code)
    (unnamed : statement.marks? = none)
    (back : ∀ symbol, statement.jumpsTo? = some symbol → symbol.isBackward = true →
      symbol ∈ marked code)
    (forth : ∀ symbol, statement.jumpsTo? = some symbol → symbol.isBackward = false →
      symbol = .exit frame ∨ ∃ block ∈ stack.blocks, symbol = .block frame block.id .finish) :
    Pending frame stack (code ++ [statement]) := by
  have same : marked (code ++ [statement]) = marked code := by
    simp [marked, unnamed]
  constructor
  · rw [same]
    exact pending.once
  · rw [same]
    exact pending.counted
  · rw [same]
    exact pending.waiting
  · rw [same]
    exact pending.entered
  · intro before other after symbol split jumps backward
    rcases split_snoc split with ⟨rfl, rfl, -⟩ | ⟨more, rfl, whole⟩
    · exact back symbol jumps backward
    · exact pending.back before other more symbol whole jumps backward
  · intro before other after symbol split jumps forward
    rcases split_snoc split with ⟨rfl, rfl, rfl⟩ | ⟨more, rfl, whole⟩
    · exact .inr (forth symbol jumps forward)
    · rcases pending.forth before other more symbol whole jumps forward with named | open_
      · exact .inl (by rw [marked_append]; exact List.mem_append_left _ named)
      · exact .inr open_

/-- A statement that is apart may follow. -/
theorem apart {statement : Statement} (pending : Pending frame stack code)
    (apart : statement.IsApart) : Pending frame stack (code ++ [statement]) := by
  refine pending.unmarked apart.2 ?_ ?_
  · intro symbol jumps
    rw [apart.1] at jumps
    cases jumps
  · intro symbol jumps
    rw [apart.1] at jumps
    cases jumps

/-- Statements that are apart may follow. -/
theorem allApart {more : List Statement} (pending : Pending frame stack code)
    (apart : ∀ statement ∈ more, statement.IsApart) : Pending frame stack (code ++ more) := by
  induction more generalizing code with
  | nil => rwa [List.append_nil]
  | cons statement more ih =>
    have next := ih (pending.apart (apart statement List.mem_cons_self))
      fun other member => apart other (List.mem_cons_of_mem statement member)
    rwa [List.append_assoc, List.singleton_append] at next

/-- The edges of a block that has not been counted are not named. -/
theorem fresh (pending : Pending frame stack code) (edge : Edge) :
    .block frame (stack.counter + 1) edge ∉ marked code := by
  intro member
  obtain ⟨id, place, same, bound⟩ := pending.counted _ member
  cases same
  omega

/-- A block that is not repeated may begin. -/
theorem start (pending : Pending frame stack code) (kind : Block.Kind)
    (once : ¬ (kind = .looping ∨ kind = .counted)) : Pending frame (stack.start kind) code where
  once := pending.once
  counted := by
    intro symbol member
    obtain ⟨id, edge, same, bound⟩ := pending.counted symbol member
    exact ⟨id, edge, same, Nat.le_succ_of_le bound⟩
  waiting := by
    intro block member
    rcases List.mem_cons.mp member with rfl | old
    · exact pending.fresh .finish
    · exact pending.waiting block old
  entered := by
    intro block member repeated
    rcases List.mem_cons.mp member with rfl | old
    · exact absurd repeated once
    · exact pending.entered block old repeated
  back := pending.back
  forth := by
    intro before statement after symbol split jumps forward
    rcases pending.forth before statement after symbol split jumps forward with
      named | exit | ⟨block, member, finish⟩
    · exact .inl named
    · exact .inr (.inl exit)
    · exact .inr (.inr ⟨block, List.mem_cons_of_mem _ member, finish⟩)

/-- An edge of a block that is not named yet may be named. A block that is open no longer must be
the one whose end is named, and a block that is open now must have the begin that it needs. -/
theorem named {later : OpenBlocks} {id : Nat} {edge : Edge} (pending : Pending frame stack code)
    (absent : .block frame id edge ∉ marked code) (bound : id ≤ later.counter)
    (grows : stack.counter ≤ later.counter)
    (waiting : ∀ block ∈ later.blocks, .block frame block.id .finish ∉ marked code ∧
      ¬ (block.id = id ∧ edge = .finish))
    (entered : ∀ block ∈ later.blocks, block.kind = .looping ∨ block.kind = .counted →
      .block frame block.id .begin ∈ marked code ∨ block.id = id ∧ edge = .begin)
    (kept : ∀ block ∈ stack.blocks, block ∈ later.blocks ∨ block.id = id ∧ edge = .finish) :
    Pending frame later (code ++ [.label (.block frame id edge)]) := by
  have more : marked (code ++ [.label (.block frame id edge)]) =
      marked code ++ [.block frame id edge] := marked_append _ _
  have still : (Statement.label (.block frame id edge)).jumpsTo? = none := rfl
  constructor
  · rw [more]
    refine List.nodup_append.mpr ⟨pending.once, by simp, ?_⟩
    intro symbol member other last same
    rw [same, List.mem_singleton.mp last] at member
    exact absent member
  · intro symbol member
    rw [more] at member
    rcases List.mem_append.mp member with old | new
    · obtain ⟨number, place, same, counted⟩ := pending.counted symbol old
      exact ⟨number, place, same, Nat.le_trans counted grows⟩
    · exact ⟨id, edge, List.mem_singleton.mp new, bound⟩
  · intro block member named
    obtain ⟨unnamed, other⟩ := waiting block member
    rw [more] at named
    rcases List.mem_append.mp named with before | last
    · exact unnamed before
    · obtain ⟨-, numbers, edges⟩ := Symbol.block.inj (List.mem_singleton.mp last)
      exact other ⟨numbers, edges.symm⟩
  · intro block member repeated
    rw [more]
    rcases entered block member repeated with before | ⟨rfl, rfl⟩
    · exact List.mem_append_left _ before
    · exact List.mem_append_right _ (List.mem_singleton.mpr rfl)
  · intro before statement after symbol split jumps backward
    rcases split_snoc split with ⟨-, rfl, -⟩ | ⟨rest, rfl, whole⟩
    · rw [still] at jumps
      cases jumps
    · exact pending.back before statement rest symbol whole jumps backward
  · intro before statement after symbol split jumps forward
    rcases split_snoc split with ⟨-, rfl, -⟩ | ⟨rest, rfl, whole⟩
    · rw [still] at jumps
      cases jumps
    · rcases pending.forth before statement rest symbol whole jumps forward with
        named | exit | ⟨block, member, finish⟩
      · exact .inl (by rw [marked_append]; exact List.mem_append_left _ named)
      · exact .inr (.inl exit)
      · rcases kept block member with open_ | ⟨rfl, rfl⟩
        · exact .inr (.inr ⟨block, open_, finish⟩)
        · refine .inl ?_
          rw [marked_append, finish]
          exact List.mem_append_right _ (List.mem_singleton.mpr rfl)

/-- A block that is repeated may begin where its begin is named. -/
theorem startRepeated (pending : Pending frame stack code) (kind : Block.Kind) :
    Pending frame (stack.start kind)
      (code ++ [.label (.block frame (stack.counter + 1) .begin)]) := by
  refine pending.named (pending.fresh .begin) (Nat.le_refl _) (Nat.le_succ _) ?_ ?_ ?_
  · intro block member
    refine ⟨?_, nofun⟩
    rcases List.mem_cons.mp member with rfl | old
    · exact pending.fresh .finish
    · exact pending.waiting block old
  · intro block member repeated
    rcases List.mem_cons.mp member with rfl | old
    · exact .inr ⟨rfl, rfl⟩
    · exact .inl (pending.entered block old repeated)
  · intro block member
    exact .inl (List.mem_cons_of_mem _ member)

/-- The innermost block may end where its end is named. -/
theorem finish {block : Block} {outer : List Block} (pending : Pending frame stack code)
    (innermost : stack.blocks = block :: outer) (counted : block.id ≤ stack.counter)
    (lower : ∀ other ∈ outer, other.id < block.id) :
    Pending frame { stack with blocks := outer }
      (code ++ [.label (.block frame block.id .finish)]) := by
  have below : ∀ other ∈ outer, other ∈ stack.blocks := by
    intro other member
    rw [innermost]
    exact List.mem_cons_of_mem block member
  have top : block ∈ stack.blocks := by
    rw [innermost]
    exact List.mem_cons_self
  refine pending.named (pending.waiting block top) counted (Nat.le_refl _) ?_ ?_ ?_
  · intro other member
    have less := lower other member
    exact ⟨pending.waiting other (below other member), by omega⟩
  · intro other member repeated
    exact .inl (pending.entered other (below other member) repeated)
  · intro other member
    rw [innermost] at member
    rcases List.mem_cons.mp member with rfl | old
    · exact .inr ⟨rfl, rfl⟩
    · exact .inl old

/-- A jump to the end of an open block may follow. -/
theorem leave {block : Block} {mnemonic : Mnemonic} (pending : Pending frame stack code)
    (member : block ∈ stack.blocks) :
    Pending frame stack
      (code ++ [.instruction mnemonic [.target (.block frame block.id .finish)]]) := by
  refine pending.unmarked rfl ?_ ?_
  · intro symbol jumps backward
    rw [Statement.target_of_jumpsTo? jumps] at backward
    cases backward
  · intro symbol jumps forward
    exact .inr ⟨block, member, Statement.target_of_jumpsTo? jumps⟩

/-- A jump to the end of the block just opened may follow. -/
theorem skip {kind : Block.Kind} (pending : Pending frame (stack.start kind) code)
    (mnemonic : Mnemonic) :
    Pending frame (stack.start kind)
      (code ++ [.instruction mnemonic [.target (.block frame (stack.counter + 1) .finish)]]) := by
  have top : stack.next kind ∈ (stack.start kind).blocks := List.mem_cons_self
  exact pending.leave top

/-- A jump to the exit may follow. -/
theorem exit (pending : Pending frame stack code) :
    Pending frame stack (code ++ [.instruction .jmp [.target (.exit frame)]]) := by
  refine pending.unmarked rfl ?_ ?_
  · intro symbol jumps backward
    rw [Statement.target_of_jumpsTo? jumps] at backward
    cases backward
  · intro symbol jumps forward
    exact .inl (Statement.target_of_jumpsTo? jumps)

/-- A jump back to the begin of an open block that is repeated may follow. -/
theorem again {block : Block} {mnemonic : Mnemonic} (pending : Pending frame stack code)
    (member : block ∈ stack.blocks) (repeated : block.kind = .looping ∨ block.kind = .counted) :
    Pending frame stack
      (code ++ [.instruction mnemonic [.target (.block frame block.id .begin)]]) := by
  refine pending.unmarked rfl ?_ ?_
  · intro symbol jumps backward
    rw [Statement.target_of_jumpsTo? jumps]
    exact pending.entered block member repeated
  · intro symbol jumps forward
    rw [Statement.target_of_jumpsTo? jumps] at forward
    cases forward

/-- The statements that end the innermost block may follow. -/
theorem blockEnd {block : Block} {outer : List Block} (pending : Pending frame stack code)
    (innermost : stack.blocks = block :: outer) (counted : block.id ≤ stack.counter)
    (lower : ∀ other ∈ outer, other.id < block.id) :
    Pending frame { stack with blocks := outer } (code ++ Flow.blockEnd frame block) := by
  have top : block ∈ stack.blocks := by
    rw [innermost]
    exact List.mem_cons_self
  have ended : ∀ more, Pending frame stack (code ++ more) →
      Pending frame { stack with blocks := outer }
        (code ++ (more ++ [.label (.block frame block.id .finish)])) := by
    intro more before
    rw [← List.append_assoc]
    exact before.finish innermost counted lower
  unfold Flow.blockEnd
  cases kind : block.kind with
  | looping => exact ended _ (pending.again top (.inl kind))
  | counted => exact ended _ (pending.again top (.inr kind))
  | plain | conditional | labelled => exact ended [] (by rwa [List.append_nil])

/-- A construct in an open function keeps what holds of the code before it. -/
theorem writes {construct : Construct} {scope last : Scope} {written : List Statement}
    (rule : Flow.Writes construct scope last written) (pending : Pending frame scope.blocks code)
    (sound : scope.Sound) (framed : scope.frame? = some frame) (stays : last.function.isSome) :
    Pending frame last.blocks (code ++ written) := by
  have same : ∀ other, scope.frame? = some other → other = frame := by
    intro other found
    exact Option.some.inj (found.symm.trans framed)
  cases rule with
  | function closed found =>
    have opened := Scope.function_of_frame framed
    rw [closed] at opened
    cases opened
  | finishFunction => cases stays
  | @finishBlock _ other block outer innermost found =>
    obtain rfl := same other found
    have ordered := sound.ids_ordered
    rw [innermost] at ordered
    refine pending.blockEnd innermost (sound.ids_counted block ?_) (List.pairwise_cons.mp ordered).1
    rw [innermost]
    exact List.mem_cons_self
  | group found =>
    rw [List.append_nil]
    exact pending.start .plain (by decide)
  | @exit _ other found =>
    obtain rfl := same other found
    exact pending.exit
  | @leave _ other block found innermost =>
    obtain rfl := same other found
    exact pending.leave (List.mem_of_mem_head? innermost)
  | @conditional _ other left right condition operands found compared =>
    obtain rfl := same other found
    have started := (pending.start .conditional (by decide)).apart
      (Statement.isApart_instruction .cmp operands rfl)
    have whole := started.skip (.jumpIf condition.negate)
    rwa [List.append_assoc] at whole
  | @looping _ other left right condition operands found compared =>
    obtain rfl := same other found
    have started := (pending.startRepeated .looping).apart
      (Statement.isApart_instruction .cmp operands rfl)
    have whole := started.skip (.jumpIf condition.negate)
    rwa [List.append_assoc, List.append_assoc] at whole
  | @counted _ other count found =>
    obtain rfl := same other found
    have loaded : ∀ statement ∈ Flow.countLoad count, statement.IsApart := by
      intro statement member
      unfold Flow.countLoad at member
      split at member
      · cases member
      · rw [List.mem_singleton.mp member]
        exact Statement.isApart_instruction .mov _ rfl
    have whole := (pending.allApart loaded).startRepeated .counted
    rwa [List.append_assoc] at whole
  | labelled found =>
    exact (pending.start .labelled (by decide)).apart ⟨rfl, rfl⟩
  | label named =>
    rw [Scope.labelSymbol?_of_frame framed] at named
    obtain rfl := Option.some.inj named
    exact pending.apart ⟨rfl, rfl⟩
  | jump named =>
    rw [Scope.labelSymbol?_of_frame framed] at named
    obtain rfl := Option.some.inj named
    exact pending.apart ⟨rfl, rfl⟩
  | call found => exact pending.apart (Statement.isApart_instruction .call _ rfl)
  | declare found => exact pending.apart ⟨rfl, rfl⟩

/-- A line of the function keeps what holds of the code before it. -/
theorem line {passage : Passage} (pending : Pending frame passage.before.blocks code)
    (inside : passage.Inside frame) (sound : passage.before.Sound) :
    Pending frame passage.after.blocks (code ++ passage.written) ∧ passage.after.Sound := by
  cases said : passage.construct? with
  | none =>
    obtain ⟨kept, bare⟩ := inside.holds.still said inside.undeclared
    rw [kept]
    exact ⟨pending.allApart fun statement member => (bare statement member).isApart, sound⟩
  | some construct =>
    obtain ⟨echo, written, rule, quiet, whole⟩ := inside.holds.writes said
    have repeated := pending.allApart fun statement member => (quiet statement member).isApart
    rw [whole, ← List.append_assoc]
    exact ⟨repeated.writes rule sound inside.framed inside.stays, rule.sound sound⟩

/-- The lines of the function keep what holds of the code before them. -/
theorem body {first last : Scope} {passages : List Passage}
    (pending : Pending frame first.blocks code) (lines : Body frame first passages last)
    (sound : first.Sound) : Pending frame last.blocks (code ++ writtenBy passages) := by
  induction lines generalizing code with
  | nil framed => rwa [writtenBy, List.flatMap_nil, List.append_nil]
  | @cons passage passages last inside rest ih =>
    obtain ⟨next, after⟩ := pending.line inside sound
    have whole := ih next after
    rwa [List.append_assoc] at whole

/-- The names of the places named up to the exit are all different. -/
theorem names_nodup (pending : Pending frame stack code) :
    ((marked code ++ [Symbol.exit frame]).map Symbol.text).Nodup := by
  have made : ∀ symbol ∈ marked code ++ [Symbol.exit frame], symbol.MadeFor frame := by
    intro symbol member
    rcases List.mem_append.mp member with edge | exit
    · obtain ⟨id, edge, rfl, -⟩ := pending.counted symbol edge
      rfl
    · rw [List.mem_singleton.mp exit]
      rfl
  have once : (marked code ++ [Symbol.exit frame]).Nodup := by
    refine List.nodup_append.mpr ⟨pending.once, by simp, ?_⟩
    intro symbol member other last same
    rw [same, List.mem_singleton.mp last] at member
    obtain ⟨id, edge, exit, -⟩ := pending.counted _ member
    cases exit
  refine List.Nodup.map_on ?_ once
  intro symbol member other another same
  exact Symbol.eq_of_text (made symbol member) (made other another) same

end Pending

end LineAsm
