import LineAsm.Proofs.Structured
import LineAsm.Proofs.Symbols
import Mathlib.Data.List.Nodup
/-!
# Layout of structured code

The statements of structured code are laid out part by part, and each block has the next number
when it is opened (`Layout`). The labels of a layout are edges of the blocks numbered in it, each
placed once (`Layout.numbered`), so that the labels of a whole function have different names
(`Layout.distinct`). All its statements are labels and instructions (`Layout.isCode`).
-/

namespace LineAsm

/-- Structured code in a function is laid out as statements. The innermost block around it and the
number of blocks before it are known, and the number of blocks after it is counted. -/
inductive Layout (frame : Frame) : Option Nat → Nat → Code → Nat → List Statement → Prop where
  /-- No line writes nothing. -/
  | skip {around : Option Nat} {count : Nat} : Layout frame around count .skip count []
  /-- The statements of two parts follow each other. -/
  | seq {around : Option Nat} {first second : Code} {before middle after : Nat}
      {front back : List Statement} (head : Layout frame around before first middle front)
      (rest : Layout frame around middle second after back) :
      Layout frame around before (.seq first second) after (front ++ back)
  /-- A straight line is its instructions. -/
  | straight {around : Option Nat} {count : Nat} {line : Straight} :
      Layout frame around count (.straight line) count (line.code frame.space)
  /-- Leaving a block is a jump to its end. -/
  | leave {id count : Nat} {line : Phrase ["break"]} :
      Layout frame (some id) count (.leave line) count
        [.instruction .jmp [.target (.block frame id .finish)]]
  /-- Returning is a jump to the exit. -/
  | exit {around : Option Nat} {count : Nat} {line : Phrase ["return"]} :
      Layout frame around count (.exit line) count [.instruction .jmp [.target (.exit frame)]]
  /-- A group is the code in it and its end. -/
  | group {around : Option Nat} {before after : Nat} {opening : Phrase ["\x7b"]} {inner : Code}
      {closing : Phrase ["\x7d"]} {code : List Statement}
      (within : Layout frame (some (before + 1)) (before + 1) inner after code) :
      Layout frame around before (.group opening inner closing) after
        (code ++ [.label (.block frame (before + 1) .finish)])
  /-- A conditional block passes the code in it over unless its condition holds. -/
  | conditional {around : Option Nat} {before after : Nat} {opening : Question "if"}
      {inner : Code} {closing : Phrase ["\x7d"]} {first second : Operand} {code : List Statement}
      (compared : Operand.pairUnder (some frame.space) opening.left opening.right =
        .ok [first, second])
      (within : Layout frame (some (before + 1)) (before + 1) inner after code) :
      Layout frame around before (.conditional opening inner closing) after
        (.instruction .cmp [first, second] ::
          .instruction (.jumpIf opening.condition.negate)
            [.target (.block frame (before + 1) .finish)] ::
            (code ++ [.label (.block frame (before + 1) .finish)]))
  /-- A loop begins with its label, and goes back to it after the code in it. -/
  | looping {around : Option Nat} {before after : Nat} {opening : Question "while"}
      {inner : Code} {closing : Phrase ["\x7d"]} {first second : Operand} {code : List Statement}
      (compared : Operand.pairUnder (some frame.space) opening.left opening.right =
        .ok [first, second])
      (within : Layout frame (some (before + 1)) (before + 1) inner after code) :
      Layout frame around before (.looping opening inner closing) after
        (.label (.block frame (before + 1) .begin) :: .instruction .cmp [first, second] ::
          .instruction (.jumpIf opening.condition.negate)
            [.target (.block frame (before + 1) .finish)] ::
            (code ++ [.instruction .jmp [.target (.block frame (before + 1) .begin)],
              .label (.block frame (before + 1) .finish)]))

/-- Symbols are edges of blocks numbered after one count and up to another, each once. -/
structure Numbered (frame : Frame) (before after : Nat) (symbols : List Symbol) : Prop where
  /-- Numbers are counted up. -/
  grows : before ≤ after
  /-- No symbol is there twice. -/
  once : symbols.Nodup
  /-- Each symbol is an edge of a block with a number between the counts. -/
  between : ∀ symbol ∈ symbols, ∃ id edge,
    symbol = .block frame id edge ∧ before < id ∧ id ≤ after

namespace Numbered

variable {frame : Frame} {before middle after : Nat} {symbols more : List Symbol}

/-- There are no symbols where nothing is counted. -/
theorem nil (count : Nat) : Numbered frame count count [] := ⟨Nat.le_refl count, .nil, nofun⟩

/-- Symbols of later numbers may follow. -/
theorem append (front : Numbered frame before middle symbols)
    (back : Numbered frame middle after more) : Numbered frame before after (symbols ++ more) := by
  have grows := front.grows
  have further := back.grows
  constructor
  · omega
  · refine List.nodup_append.mpr ⟨front.once, back.once, ?_⟩
    rintro symbol first other second rfl
    obtain ⟨id, edge, rfl, -, low⟩ := front.between symbol first
    obtain ⟨number, place, same, high, -⟩ := back.between _ second
    have numbers := (Symbol.block.inj same).2.1
    omega
  · intro symbol member
    rcases List.mem_append.mp member with first | second
    · obtain ⟨id, edge, same, low, high⟩ := front.between symbol first
      exact ⟨id, edge, same, low, by omega⟩
    · obtain ⟨id, edge, same, low, high⟩ := back.between symbol second
      exact ⟨id, edge, same, by omega, high⟩

/-- Different edges of a new block are symbols of its number. -/
theorem edges {places : List Edge} (distinct : places.Nodup) (count : Nat) :
    Numbered frame count (count + 1) (places.map (.block frame (count + 1))) := by
  constructor
  · omega
  · exact List.Nodup.map (fun place other same => (Symbol.block.inj same).2.2) distinct
  · intro symbol member
    obtain ⟨edge, -, rfl⟩ := List.mem_map.mp member
    exact ⟨count + 1, edge, rfl, by omega, by omega⟩

/-- The order of the symbols does not matter. -/
theorem perm (numbered : Numbered frame before after symbols) (same : more.Perm symbols) :
    Numbered frame before after more :=
  ⟨numbered.grows, same.nodup_iff.mpr numbered.once,
    fun symbol member => numbered.between symbol (same.mem_iff.mp member)⟩

end Numbered

/-- The labels of a layout are edges of the blocks numbered in it, each placed once. -/
theorem Layout.numbered {frame : Frame} {around : Option Nat} {before after : Nat} {code : Code}
    {statements : List Statement} (layout : Layout frame around before code after statements) :
    Numbered frame before after (labelled statements) := by
  induction layout with
  | skip | leave | exit => exact .nil _
  | straight =>
    rw [labelled_instructions (Straight.code_isInstruction _ _)]
    exact .nil _
  | seq head rest front back =>
    rw [labelled_append]
    exact front.append back
  | @group around before after opening inner closing code within ih =>
    have edge : [Edge.finish].Nodup := by decide
    refine ((Numbered.edges edge before).append ih).perm ?_
    rw [labelled_append]
    exact List.perm_append_comm
  | @conditional around before after opening inner closing first second code compared within ih =>
    have edge : [Edge.finish].Nodup := by decide
    refine ((Numbered.edges edge before).append ih).perm ?_
    change (labelled (code ++ [.label (.block frame (before + 1) .finish)])).Perm _
    rw [labelled_append]
    exact List.perm_append_comm
  | @looping around before after opening inner closing first second code compared within ih =>
    have both : [Edge.begin, Edge.finish].Nodup := by decide
    refine ((Numbered.edges both before).append ih).perm ?_
    change (Symbol.block frame (before + 1) .begin :: labelled (code ++
      [.instruction .jmp [.target (.block frame (before + 1) .begin)],
        .label (.block frame (before + 1) .finish)])).Perm _
    rw [labelled_append]
    exact List.perm_append_comm.cons _

/-- The statements of a function, around those of its body. -/
def functionCode (frame : Frame) (body : List Statement) : List Statement :=
  .label (.entry frame) :: (body ++ [.label (.exit frame), .instruction .ret []])

/-- The labels of a function have different names if those of its body are edges of blocks that are
numbered from one on, each placed once. -/
theorem Numbered.distinct {frame : Frame} {count : Nat} {body : List Statement}
    (numbered : Numbered frame 0 count (labelled body)) :
    ((labelled (functionCode frame body)).map Symbol.text).Nodup := by
  have symbols : labelled (functionCode frame body) =
      .entry frame :: (labelled body ++ [.exit frame]) := by
    change Symbol.entry frame :: labelled (body ++ _) = _
    rw [labelled_append]
    rfl
  have edges : ∀ symbol ∈ labelled body, ∃ id edge, symbol = .block frame id edge := by
    intro symbol member
    obtain ⟨id, edge, same, -, -⟩ := numbered.between symbol member
    exact ⟨id, edge, same⟩
  have made : ∀ symbol ∈ labelled (functionCode frame body), symbol.MadeFor frame := by
    intro symbol member
    rw [symbols] at member
    rcases List.mem_cons.mp member with rfl | member
    · rfl
    · rcases List.mem_append.mp member with inner | last
      · obtain ⟨id, edge, rfl⟩ := edges symbol inner
        rfl
      · rw [List.mem_singleton.mp last]
        rfl
  have once : (labelled (functionCode frame body)).Nodup := by
    rw [symbols]
    refine List.nodup_cons.mpr ⟨?_, List.nodup_append.mpr ⟨numbered.once, by simp, ?_⟩⟩
    · intro member
      rcases List.mem_append.mp member with inner | last
      · obtain ⟨id, edge, same⟩ := edges _ inner
        cases same
      · cases List.mem_singleton.mp last
    · rintro symbol inner other last rfl
      obtain ⟨id, edge, rfl⟩ := edges symbol inner
      cases List.mem_singleton.mp last
  refine List.Nodup.map_on ?_ once
  intro symbol member other another same
  exact Symbol.eq_of_text (made symbol member) (made other another) same

/-- The labels of a function around a layout have different names. -/
theorem Layout.distinct {frame : Frame} {count : Nat} {code : Code} {body : List Statement}
    (layout : Layout frame none 0 code count body) :
    ((labelled (functionCode frame body)).map Symbol.text).Nodup :=
  layout.numbered.distinct

/-- A layout is made of labels and instructions. -/
theorem Layout.isCode {frame : Frame} {around : Option Nat} {before after : Nat} {code : Code}
    {statements : List Statement} (layout : Layout frame around before code after statements) :
    ∀ statement ∈ statements, statement.isCode = true := by
  have label (symbol : Symbol) : ∀ statement ∈ [Statement.label symbol],
      statement.isCode = true := List.forall_mem_singleton.mpr rfl
  induction layout with
  | skip => exact List.forall_mem_nil _
  | seq head rest front back => exact List.forall_mem_append.mpr ⟨front, back⟩
  | @straight around count line =>
    exact fun statement member =>
      Statement.isCode_of_isInstruction (line.code_isInstruction frame.space statement member)
  | leave | exit => exact List.forall_mem_singleton.mpr rfl
  | group within ih => exact List.forall_mem_append.mpr ⟨ih, label _⟩
  | conditional compared within ih =>
    exact List.forall_mem_cons.mpr ⟨rfl, List.forall_mem_cons.mpr
      ⟨rfl, List.forall_mem_append.mpr ⟨ih, label _⟩⟩⟩
  | looping compared within ih =>
    exact List.forall_mem_cons.mpr ⟨rfl, List.forall_mem_cons.mpr ⟨rfl, List.forall_mem_cons.mpr
      ⟨rfl, List.forall_mem_append.mpr ⟨ih, List.forall_mem_cons.mpr ⟨rfl, label _⟩⟩⟩⟩⟩

/-- A function is made of labels and instructions if its body is. -/
theorem isCode_functionCode {frame : Frame} {body : List Statement}
    (only : ∀ statement ∈ body, statement.isCode = true) :
    ∀ statement ∈ functionCode frame body, statement.isCode = true :=
  List.forall_mem_cons.mpr ⟨rfl, List.forall_mem_append.mpr ⟨only, List.forall_mem_cons.mpr
    ⟨rfl, List.forall_mem_singleton.mpr rfl⟩⟩⟩

end LineAsm
