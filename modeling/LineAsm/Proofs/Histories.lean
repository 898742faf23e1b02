import LineAsm.Block
import Mathlib.Data.List.Basic
import Mathlib.Data.Set.Card
/-!
# Histories of open blocks

Operations on the open blocks are performed one after the other, beginning with no block. A start
and an end match as brackets when what stands between them is paired (`Paired`, `Matches`). What is
open after a history are the starts since the last clearing that nothing matches (`Frames`): one
operation keeps this, so every history has it (`exists_frames`). The numbers of blocks, on the other
hand, depend on the starts only (`opened_answers`). Together these give the answer to every
operation in terms of the history before it (`answers_of_history`).
-/

namespace LineAsm.OpenBlocks

/-- A use of the open blocks. -/
inductive Operation where
  /-- Forget all blocks, and how many there have been. -/
  | clear
  /-- Open a block. -/
  | start (kind : Block.Kind)
  /-- End the innermost block. -/
  | finish
deriving DecidableEq, Repr

/-- The kind of block that an operation opens. -/
def Operation.kind? : Operation → Option Block.Kind
  | .start kind => some kind
  | .clear | .finish => none

/-- The kinds of the blocks that some operations open, in order. -/
def kinds (operations : List Operation) : List Block.Kind := operations.filterMap Operation.kind?

/-- No operation opens no block. -/
@[simp] theorem kinds_nil : kinds [] = [] := rfl

/-- Every start adds a kind. -/
@[simp] theorem kinds_start (kind : Block.Kind) (rest : List Operation) :
    kinds (.start kind :: rest) = kind :: kinds rest := rfl

/-- An end adds no kind. -/
@[simp] theorem kinds_finish (rest : List Operation) : kinds (.finish :: rest) = kinds rest := rfl

/-- The kinds of one part stand before those of the next. -/
@[simp] theorem kinds_append (front back : List Operation) :
    kinds (front ++ back) = kinds front ++ kinds back := List.filterMap_append

/-- What an operation answers. -/
inductive Answer where
  /-- Nothing is open. -/
  | cleared
  /-- The block that has been opened. -/
  | opened (block : Block)
  /-- The block that has been ended. -/
  | closed (block : Block)
  /-- Why no block has been ended. -/
  | failed (cause : BlockError)
deriving DecidableEq, Repr

/-- The block that has been opened, if one has. -/
def Answer.opened? : Answer → Option Block
  | .opened block => some block
  | .cleared | .closed _ | .failed _ => none

/-- Perform an operation. An end that fails changes nothing. -/
def perform (stack : OpenBlocks) : Operation → Answer × OpenBlocks
  | .clear => (.cleared, .empty)
  | .start kind => (.opened (stack.next kind), stack.start kind)
  | .finish =>
    match stack.finish with
    | .ok (block, rest) => (.closed block, rest)
    | .error cause => (.failed cause, stack)

/-- An end without an open block fails. -/
theorem perform_finish_of_nil {stack : OpenBlocks} (flat : stack.blocks = []) :
    stack.perform .finish = (.failed .underflow, stack) := by
  rw [perform, finish, flat]

/-- An end closes the innermost block. -/
theorem perform_finish_of_cons {stack : OpenBlocks} {block : Block} {rest : List Block}
    (top : stack.blocks = block :: rest) :
    stack.perform .finish = (.closed block, { stack with blocks := rest }) := by
  rw [perform, finish, top]

/-- What is open after some operations. -/
def after (stack : OpenBlocks) (operations : List Operation) : OpenBlocks :=
  operations.foldl (fun stack operation => (stack.perform operation).2) stack

/-- The answers to some operations, one for each. -/
def answers (stack : OpenBlocks) : List Operation → List Answer
  | [] => []
  | operation :: rest => (stack.perform operation).1 :: (stack.perform operation).2.answers rest

section Runs

variable (stack : OpenBlocks) (front back : List Operation)

/-- Operations are performed one part after the other. -/
@[simp] theorem after_append : stack.after (front ++ back) = (stack.after front).after back :=
  List.foldl_append

/-- The first operation is performed first. -/
@[simp] theorem after_cons (operation : Operation) :
    stack.after (operation :: back) = (stack.perform operation).2.after back := rfl

/-- Every operation has an answer. -/
@[simp] theorem length_answers : (stack.answers front).length = front.length := by
  induction front generalizing stack with
  | nil => rfl
  | cons operation rest ih => rw [answers, List.length_cons, List.length_cons, ih]

/-- The answers to one part do not depend on what follows it. -/
theorem answers_append :
    stack.answers (front ++ back) = stack.answers front ++ (stack.after front).answers back := by
  induction front generalizing stack with
  | nil => rfl
  | cons operation rest ih =>
    rw [List.cons_append, answers, answers, ih, List.cons_append, after_cons]

variable {stack}

/-- The answer to the operation at a place is that to performing it after those before it. -/
theorem answers_getElem? {operations : List Operation} {operation : Operation} {place : Nat}
    (there : operations[place]? = some operation) :
    (stack.answers operations)[place]? =
      some ((stack.after (operations.take place)).perform operation).1 := by
  induction operations generalizing stack place with
  | nil => cases there
  | cons first rest ih =>
    cases place with
    | zero =>
      obtain rfl := Option.some.inj there
      rfl
    | succ place => exact ih there

end Runs

/-- Operations in which every start has its end, and every end its start. -/
inductive Paired : List Operation → Prop where
  /-- There is no operation. -/
  | nil : Paired []
  /-- A block stands in front, from its start to its end. -/
  | block {kind : Block.Kind} {inner rest : List Operation} (within : Paired inner)
      (further : Paired rest) : Paired (.start kind :: (inner ++ .finish :: rest))

namespace Paired

variable {operations front back : List Operation}

/-- Paired operations may follow each other. -/
theorem append (first : Paired front) (second : Paired back) : Paired (front ++ back) := by
  induction first with
  | nil => exact second
  | block within further _ ih =>
    rw [List.cons_append, List.append_assoc, List.cons_append]
    exact .block within ih

/-- Paired operations leave the open blocks as they were. -/
theorem blocks_after (paired : Paired operations) (stack : OpenBlocks) :
    (stack.after operations).blocks = stack.blocks := by
  induction paired generalizing stack with
  | nil => rfl
  | @block kind inner rest within further inner_ih rest_ih =>
    have inside : ((stack.start kind).after inner).blocks = stack.next kind :: stack.blocks :=
      inner_ih (stack.start kind)
    rw [after_cons, after_append, after_cons, rest_ih]
    exact congrArg (fun result : Answer × OpenBlocks => result.2.blocks)
      (perform_finish_of_cons inside)

/-- Nothing is cleared between a start and its end. -/
theorem not_mem_clear (paired : Paired operations) : Operation.clear ∉ operations := by
  induction paired with
  | nil => exact List.not_mem_nil
  | block within further inner_ih rest_ih => simp [inner_ih, rest_ih]

/-- A start among paired operations has its end among them. -/
theorem exists_finish {kind : Block.Kind} (paired : Paired (front ++ .start kind :: back)) :
    ∃ inner rest, back = inner ++ .finish :: rest ∧ Paired inner := by
  generalize shape : front ++ .start kind :: back = operations at paired
  induction paired generalizing front back with
  | nil => simp at shape
  | @block other inner rest within further inner_ih rest_ih =>
    cases front with
    | nil =>
      obtain ⟨-, rfl⟩ := List.cons.inj shape
      exact ⟨inner, rest, rfl, within⟩
    | cons first front =>
      -- The start stands within the first block or behind it.
      obtain ⟨-, same⟩ := List.cons.inj shape
      rcases List.append_eq_append_iff.mp same with ⟨more, split, ends⟩ | ⟨more, -, ends⟩
      · cases more with
        | nil => cases ends
        | cons head more =>
          obtain ⟨rfl, rfl⟩ := List.cons.inj ends
          obtain ⟨within, others, rfl, paired⟩ := inner_ih split.symm
          exact ⟨within, others ++ .finish :: rest, by simp, paired⟩
      · cases more with
        | nil => cases ends
        | cons head more => exact rest_ih (List.cons.inj ends).2.symm

/-- A start is no end. -/
theorem count_finish_start (kind : Block.Kind) (rest : List Operation) :
    (Operation.start kind :: rest).count .finish = rest.count .finish :=
  List.count_cons_of_ne (by simp)

/-- As many blocks are ended as are started. -/
theorem count_finish (paired : Paired operations) :
    operations.count .finish = (kinds operations).length := by
  induction paired with
  | nil => rfl
  | @block kind inner rest within further inner_ih rest_ih =>
    simp only [count_finish_start, kinds_start, List.count_append, kinds_append,
      List.count_cons_self, kinds_finish, List.length_cons, List.length_append]
    omega

/-- At every place among paired operations at least as many blocks have been started as ended. -/
theorem count_finish_le (paired : Paired (front ++ back)) :
    front.count .finish ≤ (kinds front).length := by
  generalize shape : front ++ back = operations at paired
  induction paired generalizing front back with
  | nil => simp_all
  | @block kind inner rest within further inner_ih rest_ih =>
    cases front with
    | nil => exact Nat.le_refl 0
    | cons first front =>
      obtain ⟨rfl, same⟩ := List.cons.inj shape
      rcases List.append_eq_append_iff.mp same with ⟨more, split, -⟩ | ⟨more, rfl, ends⟩
      · rw [count_finish_start, kinds_start, List.length_cons]
        exact Nat.le_succ_of_le (inner_ih split.symm)
      · rw [count_finish_start, kinds_start, List.count_append, kinds_append, List.length_cons,
          List.length_append, within.count_finish]
        cases more with
        | nil => exact Nat.le_succ _
        | cons head more =>
          obtain ⟨rfl, split⟩ := List.cons.inj ends
          have behind := rest_ih split.symm
          rw [List.count_cons_self, kinds_finish]
          omega

/-- No end follows paired operations at the front of paired operations. -/
theorem not_finish (paired : Paired (front ++ .finish :: back)) : ¬ Paired front := by
  intro closed
  rw [List.append_cons] at paired
  have started := paired.count_finish_le
  have same := closed.count_finish
  rw [List.count_append, kinds_append, List.length_append, List.count_singleton_self, kinds_finish]
    at started
  exact absurd started (by rw [same]; exact Nat.not_succ_le_self _)

end Paired

/-- A start and an end at two places of a history match: what stands between them is paired. -/
def Matches (history : List Operation) (i j : Nat) : Prop :=
  i < j ∧ (∃ kind, history[i]? = some (.start kind)) ∧ history[j]? = some .finish ∧
    Paired ((history.take j).drop (i + 1))

/-- A start at a place of a history has not been cleared and no end matches it. -/
def Unmatched (history : List Operation) (i : Nat) : Prop :=
  (∃ kind, history[i]? = some (.start kind)) ∧ .clear ∉ history.drop (i + 1) ∧
    ∀ j, ¬ Matches history i j

section Places

variable {history more : List Operation} {i j : Nat}

/-- An operation stands between those before it and those behind it. -/
theorem eq_append_of_getElem? {operation : Operation} (there : history[i]? = some operation) :
    history = history.take i ++ operation :: history.drop (i + 1) := by
  obtain ⟨inside, rfl⟩ := List.getElem?_eq_some_iff.mp there
  rw [← List.drop_eq_getElem_cons inside, List.take_append_drop]

/-- What matches inside a history does not depend on what follows. -/
theorem matches_append_iff (inside : j < history.length) :
    Matches (history ++ more) i j ↔ Matches history i j := by
  unfold Matches
  refine and_congr_right fun before => ?_
  rw [List.getElem?_append_left (by omega), List.getElem?_append_left inside,
    List.take_append_of_le_length (by omega)]

/-- A start that is unmatched at the end of a history was so all the time. -/
theorem Unmatched.of_append (unmatched : Unmatched (history ++ more) i)
    (inside : i < history.length) : Unmatched history i := by
  obtain ⟨started, kept, alone⟩ := unmatched
  rw [List.getElem?_append_left inside] at started
  rw [List.drop_append_of_le_length (by omega), List.mem_append, not_or] at kept
  refine ⟨started, kept.1, fun j matched => alone j ?_⟩
  have ended := (List.getElem?_eq_some_iff.mp matched.2.2.1).1
  exact (matches_append_iff ended).mpr matched

/-- A start stands inside the history. -/
theorem Unmatched.lt (unmatched : Unmatched history i) : i < history.length := by
  obtain ⟨⟨kind, started⟩, -⟩ := unmatched
  exact (List.getElem?_eq_some_iff.mp started).1

/-- No unmatched start is the last operation where that is no start. -/
theorem Unmatched.lt_of_snoc {operation : Operation} (other : operation.kind? = none)
    (unmatched : Unmatched (history ++ [operation]) i) : i < history.length := by
  obtain ⟨⟨kind, started⟩, -⟩ := unmatched
  by_contra late
  rw [List.getElem?_append_right (Nat.le_of_not_lt late)] at started
  obtain rfl := List.mem_singleton.mp (List.mem_of_getElem? started)
  cases other

/-- A start and an end around paired operations match. -/
theorem matches_of_paired (outer : List Operation) (kind : Block.Kind) {inner : List Operation}
    (paired : Paired inner) (rest : List Operation) :
    Matches (outer ++ .start kind :: (inner ++ .finish :: rest)) outer.length
      (outer.length + (inner.length + 1)) := by
  refine ⟨by omega, ⟨kind, by simp⟩, ?_, ?_⟩
  · rw [List.getElem?_append_right (by omega), Nat.add_sub_cancel_left, List.getElem?_cons_succ,
      List.getElem?_append_right (Nat.le_refl _), Nat.sub_self, List.getElem?_cons_zero]
  · rwa [List.take_length_add_append, List.take_succ_cons, List.take_left,
      List.drop_length_add_append, List.drop_one, List.tail_cons]

/-- What stands before an end is what stands before its start, the start, and paired operations. -/
theorem Matches.take_eq (matched : Matches history i j) :
    ∃ kind inner, history[i]? = some (.start kind) ∧ Paired inner ∧
      history.take j = history.take i ++ .start kind :: inner := by
  obtain ⟨before, ⟨kind, started⟩, -, paired⟩ := matched
  have there : (history.take j)[i]? = some (.start kind) := by
    rw [List.getElem?_take_of_lt before, started]
  have split := eq_append_of_getElem? there
  rw [List.take_take, Nat.min_eq_left (by omega)] at split
  exact ⟨kind, _, started, paired, split⟩

/-- A start among paired operations is matched by an end among them. -/
theorem Paired.not_unmatched (paired : Paired more) (late : history.length ≤ i) :
    ¬ Unmatched (history ++ more) i := by
  rintro ⟨⟨kind, started⟩, -, alone⟩
  obtain ⟨place, rfl⟩ := Nat.exists_eq_add_of_le late
  rw [List.getElem?_append_right late, Nat.add_sub_cancel_left] at started
  have split := eq_append_of_getElem? started
  have bound := (List.getElem?_eq_some_iff.mp started).1
  rw [split] at paired
  obtain ⟨inner, rest, shape, within⟩ := paired.exists_finish
  have matched := matches_of_paired (history ++ more.take place) kind within rest
  rw [← shape, List.append_assoc, ← split, List.length_append, List.length_take_of_le (by omega)]
    at matched
  exact alone _ matched

/-- No end behind a start that paired operations follow matches it or a start before it. -/
theorem Paired.not_matches {outer inner : List Operation} {kind : Block.Kind}
    (paired : Paired inner) (low : i ≤ outer.length) (high : outer.length ≤ j) :
    ¬ Matches (outer ++ .start kind :: inner) i j := by
  rintro ⟨before, -, ended, within⟩
  obtain ⟨place, rfl⟩ := Nat.exists_eq_add_of_le high
  rw [List.getElem?_append_right high, Nat.add_sub_cancel_left] at ended
  rw [List.take_length_add_append] at within
  cases place with
  | zero => cases ended
  | succ place =>
    rw [List.getElem?_cons_succ] at ended
    rw [List.take_succ_cons] at within
    have split := eq_append_of_getElem? ended
    obtain same | less := Nat.eq_or_lt_of_le low
    · rw [same, List.drop_length_add_append, List.drop_one, List.tail_cons] at within
      rw [split] at paired
      exact paired.not_finish within
    · rw [List.drop_append_of_le_length less] at within
      obtain ⟨first, rest, shape, closed⟩ := within.exists_finish
      rw [shape, List.append_assoc, List.cons_append] at split
      rw [split] at paired
      exact paired.not_finish closed

/-- A start that paired operations follow is unmatched. -/
theorem Paired.unmatched_start {outer inner : List Operation} {kind : Block.Kind}
    (paired : Paired inner) : Unmatched (outer ++ .start kind :: inner) outer.length := by
  refine ⟨⟨kind, by simp⟩, ?_, fun j matched => ?_⟩
  · rw [List.drop_length_add_append, List.drop_one, List.tail_cons]
    exact paired.not_mem_clear
  · exact paired.not_matches (Nat.le_refl _) (Nat.le_of_lt matched.1) matched

/-- A start that is unmatched stays so behind another one that paired operations follow. -/
theorem Unmatched.append_start {inner : List Operation} {kind : Block.Kind}
    (unmatched : Unmatched history i) (paired : Paired inner) :
    Unmatched (history ++ .start kind :: inner) i := by
  have early := unmatched.lt
  obtain ⟨started, kept, alone⟩ := unmatched
  refine ⟨by rwa [List.getElem?_append_left early], ?_, fun j matched => ?_⟩
  · rw [List.drop_append_of_le_length early, List.mem_append, List.mem_cons]
    rintro (before | other | after)
    · exact kept before
    · cases other
    · exact paired.not_mem_clear after
  · by_cases first : j < history.length
    · exact alone j ((matches_append_iff first).mp matched)
    · exact paired.not_matches (Nat.le_of_lt early) (Nat.le_of_not_lt first) matched

end Places

/-- The places of the starts that are open after a history, the innermost first. -/
inductive Frames : List Operation → List Nat → Prop where
  /-- Nothing is open, and no start is unmatched. -/
  | ground {history : List Operation} (flat : (empty.after history).blocks = [])
      (matched : ∀ i, ¬ Unmatched history i) : Frames history []
  /-- The innermost open start stands in front of paired operations. -/
  | inside {outer inner : List Operation} {kind : Block.Kind} {starts : List Nat}
      (around : Frames outer starts) (paired : Paired inner) :
      Frames (outer ++ .start kind :: inner) (outer.length :: starts)

namespace Frames

variable {history more : List Operation} {starts : List Nat}

/-- Paired operations open nothing and match nothing before them. -/
theorem append (frames : Frames history starts) (paired : Paired more) :
    Frames (history ++ more) starts := by
  cases frames with
  | ground flat matched =>
    refine .ground (by rw [after_append, paired.blocks_after, flat]) fun i unmatched => ?_
    by_cases early : i < history.length
    · exact matched i (unmatched.of_append early)
    · exact paired.not_unmatched (Nat.le_of_not_lt early) unmatched
  | inside around closed =>
    rw [List.append_assoc, List.cons_append]
    exact .inside around (closed.append paired)

/-- The open starts are those that are unmatched. -/
theorem mem_iff (frames : Frames history starts) (i : Nat) : i ∈ starts ↔ Unmatched history i := by
  induction frames with
  | @ground history flat matched => simp [matched i]
  | @inside outer inner kind starts around paired ih =>
    rw [List.mem_cons, ih]
    constructor
    · rintro (rfl | unmatched)
      · exact paired.unmatched_start
      · exact unmatched.append_start paired
    · intro unmatched
      rcases Nat.lt_trichotomy i outer.length with early | rfl | late
      · exact .inr (unmatched.of_append early)
      · exact .inl rfl
      · rw [List.append_cons] at unmatched
        have behind : (outer ++ [Operation.start kind]).length ≤ i := by
          rw [List.length_append, List.length_singleton]
          omega
        exact absurd unmatched (paired.not_unmatched behind)

/-- An open block for each. -/
theorem depth_eq (frames : Frames history starts) :
    (empty.after history).depth = starts.length := by
  induction frames with
  | ground flat matched => rw [depth, flat, List.length_nil, List.length_nil]
  | @inside outer inner kind starts around paired ih =>
    rw [after_append, after_cons, depth, paired.blocks_after, List.length_cons, ← ih]
    rfl

/-- No start is counted twice. -/
theorem nodup (frames : Frames history starts) : starts.Nodup := by
  induction frames with
  | ground flat matched => exact .nil
  | inside around paired ih =>
    refine List.nodup_cons.mpr ⟨fun member => ?_, ih⟩
    exact Nat.lt_irrefl _ ((around.mem_iff _).mp member).lt

/-- A clearing leaves nothing open. -/
theorem clear (history : List Operation) : Frames (history ++ [.clear]) [] := by
  refine .ground (by rw [after_append]; rfl) fun i unmatched => ?_
  have kept := unmatched.2.1
  rw [List.drop_append_of_le_length (unmatched.lt_of_snoc rfl)] at kept
  exact kept (List.mem_append_right _ (List.mem_singleton_self _))

/-- A start is open behind those that were. -/
theorem start (frames : Frames history starts) (kind : Block.Kind) :
    Frames (history ++ [.start kind]) (history.length :: starts) := .inside frames .nil

/-- An end closes the innermost start, if one is open. -/
theorem finish (frames : Frames history starts) : Frames (history ++ [.finish]) starts.tail := by
  cases frames with
  | ground flat matched =>
    refine .ground ?_ fun i unmatched => ?_
    · rw [after_append, after_cons, perform_finish_of_nil flat]
      exact flat
    · exact matched i (unmatched.of_append (unmatched.lt_of_snoc rfl))
  | inside around paired =>
    rw [List.append_assoc, List.cons_append]
    exact around.append (.block paired .nil)

end Frames

/-- Every history leaves open what nothing matches. -/
theorem exists_frames (history : List Operation) : ∃ starts, Frames history starts := by
  induction history using List.reverseRecOn with
  | nil => exact ⟨[], .ground rfl fun i unmatched => Nat.not_lt_zero i unmatched.lt⟩
  | append_singleton history operation ih =>
    obtain ⟨starts, frames⟩ := ih
    cases operation with
    | clear => exact ⟨[], .clear history⟩
    | start kind => exact ⟨_, frames.start kind⟩
    | finish => exact ⟨_, frames.finish⟩

section Answers

variable {history : List Operation} {i j : Nat}

/-- The numbers of blocks are counted on from start to start, whatever is ended between them. -/
theorem opened_answers {segment : List Operation} (kept : .clear ∉ segment) (stack : OpenBlocks) :
    (stack.answers segment).filterMap Answer.opened? =
      ((kinds segment).zipIdx (stack.counter + 1)).map fun counted => ⟨counted.1, counted.2⟩ := by
  induction segment generalizing stack with
  | nil => rfl
  | cons operation rest ih =>
    obtain ⟨other, later⟩ := not_or.mp (mt List.mem_cons.mpr kept)
    rw [answers]
    cases operation with
    | clear => exact absurd rfl other
    | start kind =>
      rw [kinds_start, List.zipIdx_cons, List.map_cons]
      exact congrArg (stack.next kind :: ·) (ih later (stack.start kind))
    | finish =>
      have same : (stack.perform .finish).1.opened? = none ∧
          (stack.perform .finish).2.counter = stack.counter := by
        cases held : stack.blocks with
        | nil =>
          rw [perform_finish_of_nil held]
          exact ⟨rfl, rfl⟩
        | cons top others =>
          rw [perform_finish_of_cons held]
          exact ⟨rfl, rfl⟩
      rw [List.filterMap_cons_none same.1, kinds_finish, ih later, same.2]

/-- An end gets the block that the start got which it matches. -/
theorem Matches.answers_eq (matched : Matches history i j) :
    ∃ block, (empty.answers history)[i]? = some (.opened block) ∧
      (empty.answers history)[j]? = some (.closed block) := by
  obtain ⟨kind, inner, started, paired, front⟩ := matched.take_eq
  refine ⟨(empty.after (history.take i)).next kind, answers_getElem? started, ?_⟩
  have top := paired.blocks_after ((empty.after (history.take i)).start kind)
  rw [answers_getElem? matched.2.2.1, front, after_append]
  exact congrArg (fun result : Answer × OpenBlocks => some result.1) (perform_finish_of_cons top)

/-- An end matches the innermost open start. -/
theorem Frames.matches_finish {starts : List Nat} (frames : Frames (history.take j) (i :: starts))
    (ended : history[j]? = some .finish) : Matches history i j := by
  have split := eq_append_of_getElem? ended
  have bound := (List.getElem?_eq_some_iff.mp ended).1
  have length : (history.take j).length = j := List.length_take_of_le (by omega)
  generalize history.take j = front at frames split length
  cases frames with
  | @inside outer inner kind _ around paired =>
    have matched := matches_of_paired outer kind paired (history.drop (j + 1))
    rw [← List.cons_append, ← List.append_assoc, ← split] at matched
    rw [List.length_append, List.length_cons] at length
    rwa [length] at matched

/-- An end matches a start and gets its block, or no start is unmatched and it fails. -/
theorem finish_cases (ended : history[j]? = some .finish) :
    (∃ i block, Matches history i j ∧ Unmatched (history.take j) i ∧
      (empty.answers history)[i]? = some (.opened block) ∧
        (empty.answers history)[j]? = some (.closed block)) ∨
    ((∀ i, ¬ Unmatched (history.take j) i) ∧
      (empty.answers history)[j]? = some (.failed .underflow) ∧
        empty.after (history.take (j + 1)) = empty.after (history.take j)) := by
  obtain ⟨starts, frames⟩ := exists_frames (history.take j)
  cases starts with
  | nil =>
    have flat := List.length_eq_zero_iff.mp frames.depth_eq
    refine .inr ⟨fun i unmatched => ?_, ?_, ?_⟩
    · exact List.not_mem_nil ((frames.mem_iff i).mpr unmatched)
    · rw [answers_getElem? ended, perform_finish_of_nil flat]
    · obtain ⟨bound, last⟩ := List.getElem?_eq_some_iff.mp ended
      rw [← List.take_append_getElem bound, last, after_append, after_cons,
        perform_finish_of_nil flat]
      rfl
  | cons i starts =>
    have pair := frames.matches_finish ended
    obtain ⟨block, opened, closed⟩ := pair.answers_eq
    exact .inl ⟨i, block, pair, (frames.mem_iff i).mp List.mem_cons_self, opened, closed⟩

/-- The blocks that a part of a history starts behind a clearing, or at its beginning, are numbered
from one on. -/
theorem opened_of_segment {before segment rest : List Operation}
    (whole : history = before ++ segment ++ rest)
    (fresh : before = [] ∨ before.getLast? = some .clear) (kept : .clear ∉ segment) :
    (((empty.answers history).drop before.length).take segment.length).filterMap Answer.opened? =
      ((kinds segment).zipIdx 1).map fun counted => ⟨counted.1, counted.2⟩ := by
  have none_yet : (empty.after before).counter = 0 := by
    obtain rfl | cleared := fresh
    · rfl
    · obtain ⟨earlier, rfl⟩ := List.getLast?_eq_some_iff.mp cleared
      rw [after_append]
      rfl
  have parts : empty.answers history = empty.answers before ++
      ((empty.after before).answers segment ++
        (empty.after (before ++ segment)).answers rest) := by
    rw [← List.append_assoc, ← answers_append, ← answers_append, ← whole]
  have taken : ((empty.answers history).drop before.length).take segment.length =
      (empty.after before).answers segment := by
    rw [parts, ← length_answers empty before, List.drop_left,
      ← length_answers (empty.after before) segment, List.take_left]
  rw [taken, opened_answers kept, none_yet]

/-- As many blocks are open as starts are unmatched. -/
theorem depth_eq_ncard (history : List Operation) :
    (empty.after history).depth = {i | Unmatched history i}.ncard := by
  obtain ⟨starts, frames⟩ := exists_frames history
  have places : {i | Unmatched history i} = (starts.toFinset : Set Nat) := by
    ext i
    rw [Set.mem_ofPred_eq, ← frames.mem_iff, Finset.mem_coe, List.mem_toFinset]
  rw [frames.depth_eq, places, Set.ncard_coe_finset, List.toFinset_card_of_nodup frames.nodup]

/-- The current block is the one that an end would close. -/
theorem current_eq_some_iff (stack : OpenBlocks) (block : Block) :
    stack.current = some block ↔ (stack.perform .finish).1 = .closed block := by
  rw [current]
  cases held : stack.blocks with
  | nil => simp [perform_finish_of_nil held]
  | cons top rest => simp [perform_finish_of_cons held]

end Answers

/-- The open blocks are matched as brackets and numbered afresh. In every history of operations that
begins with no block (i) the blocks started since a clearing, or since the beginning, are of the
kinds asked for and have the numbers from one on in order, however ends stand between them; (ii) an
end closes exactly the block of the start that it matches, and fails exactly if no start is
unmatched, changing nothing then; (iii) the current block is the one that an end would close next;
and (iv) there are as many open blocks as unmatched starts. -/
theorem answers_of_history (history : List Operation) :
    let answers := empty.answers history
    (∀ before segment rest, history = before ++ segment ++ rest →
      (before = [] ∨ before.getLast? = some .clear) → .clear ∉ segment →
      ((answers.drop before.length).take segment.length).filterMap Answer.opened? =
        ((kinds segment).zipIdx 1).map fun counted => ⟨counted.1, counted.2⟩) ∧
    (∀ j, history[j]? = some .finish →
      (∀ block, answers[j]? = some (.closed block) ↔
        ∃ i, Matches history i j ∧ answers[i]? = some (.opened block)) ∧
      (answers[j]? = some (.failed .underflow) ↔ ∀ i, ¬ Unmatched (history.take j) i) ∧
      (answers[j]? = some (.failed .underflow) →
        empty.after (history.take (j + 1)) = empty.after (history.take j)) ∧
      (answers[j]? = some (.failed .underflow) ∨ ∃ block, answers[j]? = some (.closed block))) ∧
    (∀ block, (empty.after history).current = some block ↔
      (empty.answers (history ++ [.finish])).getLast? = some (.closed block)) ∧
    (empty.after history).depth = {i | Unmatched history i}.ncard := by
  intro answers
  refine ⟨fun before segment rest whole fresh kept => ?_, fun j ended => ?_, fun block => ?_, ?_⟩
  · exact opened_of_segment whole fresh kept
  · have unique : ∀ {first second : Answer}, answers[j]? = some first →
        answers[j]? = some second → first = second := fun one other =>
      Option.some.inj (one.symm.trans other)
    rcases finish_cases ended with ⟨i, block, pair, unmatched, opened, closed⟩ |
      ⟨matched, failed, same⟩
    · refine ⟨fun other => ⟨fun got => ⟨i, pair, ?_⟩, ?_⟩, ⟨fun failed => ?_, fun matched => ?_⟩,
        fun failed => ?_, .inr ⟨block, closed⟩⟩
      · cases unique closed got
        exact opened
      · rintro ⟨place, mate, found⟩
        obtain ⟨first, started, got⟩ := mate.answers_eq
        cases Option.some.inj (started.symm.trans found)
        exact got
      · cases unique closed failed
      · exact absurd unmatched (matched i)
      · cases unique closed failed
    · refine ⟨fun block => ⟨fun closed => ?_, ?_⟩, ⟨fun _ => matched, fun _ => failed⟩,
        fun _ => same, .inl failed⟩
      · cases unique failed closed
      · rintro ⟨place, mate, -⟩
        obtain ⟨block, -, closed⟩ := mate.answers_eq
        cases unique failed closed
  · have last : (empty.answers (history ++ [.finish])).getLast? =
        some ((empty.after history).perform .finish).1 := by
      rw [answers_append, List.getLast?_append]
      rfl
    rw [last, current_eq_some_iff, Option.some.injEq]
  · exact depth_eq_ncard history

/-- Three blocks, of which the second and the third stand one after the other in the first, get
three numbers. The third end matches the first start, and the fourth finds every start matched. -/
theorem answers_of_history_interleaved :
    let history : List Operation := [.start .conditional, .start .looping, .finish, .start .plain,
      .finish, .finish, .finish, .clear, .start .counted]
    (((empty.answers history).drop 0).take 7).filterMap Answer.opened? =
      [⟨.conditional, 1⟩, ⟨.looping, 2⟩, ⟨.plain, 3⟩] ∧
    (∃ i, Matches history i 5 ∧
      (empty.answers history)[i]? = some (.opened ⟨.conditional, 1⟩)) ∧
    (∀ i, ¬ Unmatched (history.take 6) i) ∧
    1 = {i | Unmatched history i}.ncard := by
  intro history
  obtain ⟨fresh, ends, -, depth⟩ := answers_of_history history
  exact ⟨fresh [] (history.take 7) (history.drop 7) rfl (.inl rfl) (by decide),
    ((ends 5 rfl).1 ⟨.conditional, 1⟩).mp (by decide), (ends 6 rfl).2.1.mp (by decide), depth⟩

end LineAsm.OpenBlocks
