import LineAsm.Proofs.Transcript
/-!
# Openings and closings

Inside a function the lines that open a block and the lines that close one are brackets. Lines in
which every opening has its closing are balanced (`Balanced`); they leave the open blocks as they
were (`Balanced.blocks_eq`). Between two lines of a function the openings without a closing are
those of the open blocks (`Nested`). So a closing line closes the very block that the line opened
which it matches as a bracket.
-/

namespace LineAsm

namespace Passage

/-- What opens a block in the line, if the line opens one. -/
def opens? (passage : Passage) : Option Block.Kind := passage.construct?.bind Construct.opens?

/-- The line closes a block or a function. -/
def Closes (passage : Passage) : Prop := passage.construct? = some .finish

/-- A line of a function after which the function is open still, and no declaration. -/
structure Inside (frame : Frame) (passage : Passage) : Prop where
  /-- The line has the effect noted of it. -/
  holds : passage.Holds
  /-- The function is open before the line. -/
  framed : passage.before.frame? = some frame
  /-- The function is open after the line. -/
  stays : passage.after.function.isSome
  /-- The line declares no namespace. -/
  undeclared : passage.declares? = none

variable {frame : Frame} {passage : Passage}

/-- The namespace and the function are those of the line before. -/
theorem Inside.framed_after (inside : passage.Inside frame) :
    passage.after.frame? = some frame := by
  cases said : passage.construct? with
  | none => rw [(inside.holds.still said inside.undeclared).1, inside.framed]
  | some construct =>
    obtain ⟨echo, code, rule, -, -⟩ := inside.holds.writes said
    have framed := inside.framed
    have stays := inside.stays
    generalize passage.before = before at rule framed
    generalize passage.after = after at rule stays ⊢
    cases rule with
    | function closed found =>
      have opened := Scope.function_of_frame framed
      rw [closed] at opened
      cases opened
    | finishFunction => cases stays
    | _ => exact framed

/-- What a line of a function does to the open blocks: it opens one, closes the innermost one or
leaves them. -/
theorem Inside.blocks_cases (inside : passage.Inside frame) :
    (∃ kind, passage.opens? = some kind ∧ ¬ passage.Closes ∧
      passage.after.blocks = passage.before.blocks.start kind) ∨
    (passage.opens? = none ∧ passage.Closes ∧
      ∃ block, passage.before.blocks.blocks = block :: passage.after.blocks.blocks) ∨
    (passage.opens? = none ∧ ¬ passage.Closes ∧
      passage.after.blocks = passage.before.blocks) := by
  unfold opens? Closes
  cases said : passage.construct? with
  | none =>
    have kept := (inside.holds.still said inside.undeclared).1
    exact .inr (.inr ⟨rfl, nofun, by rw [kept]⟩)
  | some construct =>
    obtain ⟨echo, code, rule, -, -⟩ := inside.holds.writes said
    have framed := inside.framed
    have stays := inside.stays
    generalize passage.before = before at rule framed ⊢
    generalize passage.after = after at rule stays ⊢
    cases rule with
    | function closed found =>
      have opened := Scope.function_of_frame framed
      rw [closed] at opened
      cases opened
    | finishFunction => cases stays
    | finishBlock innermost _ => exact .inr (.inl ⟨rfl, rfl, _, innermost⟩)
    | group | conditional | looping | counted | labelled => exact .inl ⟨_, rfl, nofun, rfl⟩
    | exit | leave | label | jump | call | declare => exact .inr (.inr ⟨rfl, nofun, rfl⟩)

end Passage

/-- Lines compiled one after the other inside a function. -/
inductive Body (frame : Frame) : Scope → List Passage → Scope → Prop where
  /-- There is no line. -/
  | nil {scope : Scope} (framed : scope.frame? = some frame) : Body frame scope [] scope
  /-- There is one more line in front. -/
  | cons {passage : Passage} {passages : List Passage} {last : Scope}
      (inside : passage.Inside frame) (rest : Body frame passage.after passages last) :
      Body frame passage.before (passage :: passages) last

namespace Body

variable {frame : Frame} {first last : Scope} {passages more : List Passage}

/-- Lines after which the function is open still, and none of which declares a namespace, are
lines inside the function. -/
theorem of_transcribed (lines : Transcribed first passages last)
    (framed : first.frame? = some frame)
    (stays : ∀ passage ∈ passages, passage.after.function.isSome)
    (undeclared : ∀ passage ∈ passages, passage.declares? = none) :
    Body frame first passages last := by
  induction lines with
  | nil => exact .nil framed
  | @cons passage passages last holds rest ih =>
    have inside : passage.Inside frame :=
      ⟨holds, framed, stays passage List.mem_cons_self, undeclared passage List.mem_cons_self⟩
    exact .cons inside (ih inside.framed_after
      (fun other member => stays other (List.mem_cons_of_mem passage member))
      (fun other member => undeclared other (List.mem_cons_of_mem passage member)))

/-- Lines inside a function can be cut anywhere. -/
theorem split (body : Body frame first (passages ++ more) last) :
    ∃ middle, Body frame first passages middle ∧ Body frame middle more last := by
  induction passages generalizing first with
  | nil =>
    refine ⟨first, .nil ?_, body⟩
    cases body with
    | nil framed => exact framed
    | cons inside rest => exact inside.framed
  | cons passage passages ih =>
    cases body with
    | cons inside rest =>
      obtain ⟨middle, front, back⟩ := ih rest
      exact ⟨middle, .cons inside front, back⟩

/-- The function is open after the lines. -/
theorem framed_last (body : Body frame first passages last) : last.frame? = some frame := by
  induction body with
  | nil framed => exact framed
  | cons inside rest ih => exact ih

end Body

/-- Lines in which every opening of a block has its closing. -/
inductive Balanced : List Passage → Prop where
  /-- There is no line. -/
  | nil : Balanced []
  /-- A line that is no bracket stands in front. -/
  | other {passage : Passage} {rest : List Passage} (opens : passage.opens? = none)
      (closes : ¬ passage.Closes) (further : Balanced rest) : Balanced (passage :: rest)
  /-- A block stands in front, from its opening to its closing. -/
  | block {opener closer : Passage} {inner rest : List Passage} (opens : opener.opens?.isSome)
      (within : Balanced inner) (closes : closer.Closes) (further : Balanced rest) :
      Balanced (opener :: (inner ++ closer :: rest))

namespace Balanced

variable {frame : Frame} {first last : Scope} {passages more : List Passage}

/-- Balanced lines may follow each other. -/
theorem append (front : Balanced passages) (back : Balanced more) :
    Balanced (passages ++ more) := by
  induction front with
  | nil => exact back
  | other opens closes further ih => exact .other opens closes ih
  | @block opener closer inner rest opens within closes further _ ih =>
    rw [List.cons_append, List.append_assoc]
    exact .block opens within closes ih

end Balanced

/-- Lines whose openings without a closing are those of some blocks, innermost first. -/
inductive Nested : List Passage → List Block → Prop where
  /-- Every opening has its closing. -/
  | flat {passages : List Passage} (balanced : Balanced passages) : Nested passages []
  /-- The last opening without a closing is that of the innermost block. -/
  | inside {outer inner : List Passage} {opener : Passage} {block : Block} {blocks : List Block}
      (around : Nested outer blocks) (opens : opener.opens?.isSome)
      (opened : opener.after.blocks.blocks = block :: blocks) (balanced : Balanced inner) :
      Nested (outer ++ opener :: inner) (block :: blocks)

namespace Nested

variable {frame : Frame} {first last : Scope} {passages more : List Passage} {blocks : List Block}

/-- Balanced lines may follow. -/
theorem append (nested : Nested passages blocks) (balanced : Balanced more) :
    Nested (passages ++ more) blocks := by
  cases nested with
  | flat before => exact .flat (before.append balanced)
  | inside around opens opened before =>
    rw [List.append_assoc, List.cons_append]
    exact .inside around opens opened (before.append balanced)

/-- One more line of the function follows. -/
theorem snoc {passage : Passage} (nested : Nested passages passage.before.blocks.blocks)
    (inside : passage.Inside frame) :
    Nested (passages ++ [passage]) passage.after.blocks.blocks := by
  rcases inside.blocks_cases with ⟨kind, opened, -, started⟩ | ⟨unopened, closed, block, ended⟩ |
    ⟨unopened, unclosed, kept⟩
  · have opens : passage.opens?.isSome := by rw [opened]; rfl
    have top : passage.after.blocks.blocks =
        passage.before.blocks.next kind :: passage.before.blocks.blocks := by
      rw [started]
      rfl
    rw [top]
    exact .inside nested opens top .nil
  · rw [ended] at nested
    cases nested with
    | inside around opens opened before =>
      rw [List.append_assoc, List.cons_append]
      exact around.append (.block opens before closed .nil)
  · rw [kept]
    exact nested.append (.other unopened unclosed .nil)

/-- All lines of the function follow. -/
theorem body (nested : Nested passages first.blocks.blocks) (lines : Body frame first more last) :
    Nested (passages ++ more) last.blocks.blocks := by
  induction lines generalizing passages with
  | nil framed => rwa [List.append_nil]
  | @cons passage others last inside rest ih =>
    have next := ih (nested.snoc inside)
    rwa [List.append_assoc, List.singleton_append] at next

end Nested

end LineAsm
