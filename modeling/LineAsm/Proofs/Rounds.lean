import LineAsm.Proofs.CountMachine
/-!
# Rounds of counted code

A machine runs a function of counted code. If no block of the body stands in another one, the
function returns, and each line has been executed as often as the counts around it say; otherwise it
never returns (`Compiler.rounds_of_counted`). What a block does depends on what the code in it
leaves in the count register (`Counted.left`): a count is there to count down only if no block
stands in the block.
-/

namespace LineAsm

open StateTransition

namespace Counted

/-- The number of statements of the code under a namespace. -/
def size (space : String) : Counted → Nat
  | .skip => 0
  | .seq first second => first.size space + second.size space
  | .straight line => (line.code space).length
  | .again _ _ inner _ => inner.size space + 4

/-- Whether no block stands in the code. -/
def isPlain : Counted → Bool
  | .skip | .straight _ => true
  | .seq first second => first.isPlain && second.isPlain
  | .again _ _ _ _ => false

/-- Whether no block of the code stands in another one. -/
def isFlat : Counted → Bool
  | .skip | .straight _ => true
  | .seq first second => first.isFlat && second.isFlat
  | .again _ _ inner _ => inner.isPlain

/-- The positions of the instructions that are performed if each block takes its rounds, in order,
where the code begins at a position. -/
def trail (space : String) : Counted → Nat → List Nat
  | .skip, _ => []
  | .seq first second, start =>
    first.trail space start ++ second.trail space (start + first.size space)
  | .straight line, start => List.range' start (line.code space).length
  | .again times _ inner _, start =>
    start :: (List.replicate times.rounds (inner.trail space (start + 2))).flatten

/-- A line of counted code, with the place of its instructions and the counts around it. -/
structure Leaf where
  /-- The line. -/
  line : Sparing
  /-- The position of its first instruction. -/
  position : Nat
  /-- The counts of the blocks around the line, the outermost first. -/
  around : List Times

/-- The lines of the code that are no edges of blocks, in order, where the code begins at a
position. -/
def leaves (space : String) : Counted → Nat → List Leaf
  | .skip, _ => []
  | .seq first second, start =>
    first.leaves space start ++ second.leaves space (start + first.size space)
  | .straight line, start => [⟨line, start, []⟩]
  | .again times _ inner _, start =>
    (inner.leaves space (start + 2)).map fun leaf => { leaf with around := times :: leaf.around }

/-- The number that flat code leaves in the count register: zero if there is a block in it. -/
def left (code : Counted) (count : BitVec 32) : BitVec 32 := if code.isPlain then count else 0

/-- The statements are as many as the code has. -/
theorem length_statements (code : Counted) (frame : Frame) (before : Nat) :
    (code.statements frame before).length = code.size frame.space := by
  induction code generalizing before with
  | skip => rfl
  | seq first second first_ih second_ih =>
    rw [statements, List.length_append, first_ih, second_ih, size]
  | straight line => rfl
  | again times opening inner closing ih =>
    simp only [statements, List.length_cons, List.length_append, List.length_nil, ih, size]

/-- Code without a block has no block in another one. -/
theorem isFlat_of_isPlain {code : Counted} (plain : code.isPlain = true) : code.isFlat = true := by
  induction code with
  | skip | straight line => rfl
  | seq first second first_ih second_ih =>
    have both := Bool.and_eq_true_iff.mp plain
    exact Bool.and_eq_true_iff.mpr ⟨first_ih both.1, second_ih both.2⟩
  | again times opening inner closing => cases plain

/-- Code without a block leaves the number in the count register. -/
theorem left_of_isPlain {code : Counted} (plain : code.isPlain = true) : code.left = id := by
  funext count
  exact if_pos plain

/-- Code with a block leaves zero in the count register. -/
theorem left_of_not_isPlain {code : Counted} (blocks : code.isPlain = false) :
    code.left = fun _ => 0 := by
  funext count
  exact if_neg (Bool.eq_false_iff.mp blocks)

/-- Two parts leave what the second makes of what the first leaves. -/
theorem left_seq (first second : Counted) : (seq first second).left = second.left ∘ first.left := by
  funext count
  show (if first.isPlain && second.isPlain then count else 0) =
    if second.isPlain then (if first.isPlain then count else 0) else 0
  cases first.isPlain <;> cases second.isPlain <;> rfl

section Leaves

variable {code : Counted} {space : String} {start : Nat} {leaf : Leaf}

/-- A position of the trail is one of the code. -/
theorem bounds_of_trail {position : Nat} (member : position ∈ code.trail space start) :
    start ≤ position ∧ position < start + code.size space := by
  induction code generalizing start with
  | skip => cases member
  | seq first second first_ih second_ih =>
    rw [size]
    rcases List.mem_append.mp member with early | late
    · have bounds := first_ih early
      omega
    · have bounds := second_ih late
      omega
  | straight line => exact List.mem_range'_1.mp member
  | again times opening inner closing ih =>
    rw [size]
    rcases List.mem_cons.mp member with rfl | inside
    · omega
    · obtain ⟨round, copies, present⟩ := List.mem_flatten.mp inside
      rw [List.eq_of_mem_replicate copies] at present
      have bounds := ih present
      omega

/-- The instructions of a line are in the code. -/
theorem bounds_of_leaf (member : leaf ∈ code.leaves space start) :
    start ≤ leaf.position ∧
      leaf.position + (leaf.line.code space).length ≤ start + code.size space := by
  induction code generalizing start leaf with
  | skip => cases member
  | seq first second first_ih second_ih =>
    rw [size]
    rcases List.mem_append.mp member with early | late
    · have bounds := first_ih early
      omega
    · have bounds := second_ih late
      omega
  | straight line =>
    rw [List.mem_singleton.mp member]
    exact ⟨Nat.le_refl start, Nat.le_refl _⟩
  | again times opening inner closing ih =>
    obtain ⟨other, inside, rfl⟩ := List.mem_map.mp member
    have bounds := ih inside
    rw [size]
    dsimp only
    omega

/-- The trail comes to each instruction of a line as often as the counts around the line say. -/
theorem count_trail (member : leaf ∈ code.leaves space start) {offset : Nat}
    (inside : offset < (leaf.line.code space).length) :
    (code.trail space start).count (leaf.position + offset) =
      (leaf.around.map Times.rounds).prod := by
  induction code generalizing start leaf with
  | skip => cases member
  | seq first second first_ih second_ih =>
    rw [trail, List.count_append]
    rcases List.mem_append.mp member with early | late
    · have bounds := bounds_of_leaf early
      have absent : leaf.position + offset ∉ second.trail space (start + first.size space) := by
        intro present
        have others := bounds_of_trail present
        omega
      rw [first_ih early inside, List.count_eq_zero_of_not_mem absent, Nat.add_zero]
    · have bounds := bounds_of_leaf late
      have absent : leaf.position + offset ∉ first.trail space start := by
        intro present
        have others := bounds_of_trail present
        omega
      rw [second_ih late inside, List.count_eq_zero_of_not_mem absent, Nat.zero_add]
  | straight line =>
    have here := List.mem_singleton.mp member
    subst here
    have present : start + offset ∈ List.range' start (line.code space).length := by
      apply List.mem_range'_1.mpr
      dsimp only at inside
      omega
    exact List.count_eq_one_of_mem List.nodup_range' present
  | again times opening inner closing ih =>
    obtain ⟨other, within, rfl⟩ := List.mem_map.mp member
    have bounds := bounds_of_leaf within
    have apart : start ≠ other.position + offset := by omega
    have rounds := ih within inside
    dsimp only
    rw [trail, List.count_cons_of_ne apart, List.count_flatten, List.map_replicate, rounds,
      List.sum_replicate_nat, List.map_cons, List.prod_cons]

end Leaves

section Runs

variable {σ : Type} {program : List Statement} {frame : Frame}

/-- Where the statements of a counted block stand, the block stands with the code in it. -/
theorem blockAt {times : Times} {opening : Saying (.counted times.token)} {inner : Counted}
    {closing : Saying .finish} {before start : Nat}
    (distinct : ((labelled program).map Symbol.text).Nodup)
    (placed : Placed program start
      ((again times opening inner closing).statements frame before)) :
    CountMachine.BlockAt program times start (inner.size frame.space)
        (.block frame (before + 1) .begin) ∧
      Placed program (start + 2) (inner.statements frame (before + 1)) := by
  have inside : Placed program (start + 2) (inner.statements frame (before + 1) ++ _) :=
    placed.tail.tail
  have behind := inside.right
  rw [length_statements] at behind
  exact ⟨⟨placed.head, placed.tail.head, placed.tail.label distinct, behind.head, _,
    behind.tail.head⟩, inside.left⟩

/-- Where the statements of the code stand, the instructions of its lines stand at their
positions. -/
theorem placed_of_leaf {code : Counted} (distinct : ((labelled program).map Symbol.text).Nodup)
    {before start : Nat} (placed : Placed program start (code.statements frame before))
    {leaf : Leaf} (member : leaf ∈ code.leaves frame.space start) :
    Placed program leaf.position (leaf.line.code frame.space) := by
  induction code generalizing before start leaf with
  | skip => cases member
  | seq first second first_ih second_ih =>
    rcases List.mem_append.mp member with early | late
    · exact first_ih placed.left early
    · have rest := placed.right
      rw [length_statements] at rest
      exact second_ih rest late
  | straight line =>
    rw [List.mem_singleton.mp member]
    exact placed
  | again times opening inner closing ih =>
    obtain ⟨other, inside, rfl⟩ := List.mem_map.mp member
    have stands : Placed program other.position (other.line.code frame.space) :=
      ih (blockAt distinct placed).2 inside
    exact stands

/-- Where its statements stand, flat code is run along its trail. -/
theorem runs (code : Counted) (machine : CountMachine σ) (spares : code.Spares frame.space)
    (flat : code.isFlat = true) (distinct : ((labelled program).map Symbol.text).Nodup)
    {before start : Nat} (placed : Placed program start (code.statements frame before)) :
    machine.Runs program start (start + code.size frame.space) (code.trail frame.space start)
      code.left := by
  induction code generalizing before start with
  | skip => exact .refl start
  | seq first second first_ih second_ih =>
    have both := Bool.and_eq_true_iff.mp flat
    have rest := placed.right
    rw [length_statements] at rest
    have whole := (first_ih spares.1 both.1 placed.left).trans (second_ih spares.2 both.2 rest)
    rw [left_seq, size, ← Nat.add_assoc]
    exact whole
  | straight line => exact CountMachine.runs_spared spares placed
  | again times opening inner closing ih =>
    have plain : inner.isPlain = true := flat
    obtain ⟨block, inside⟩ := blockAt distinct placed
    have body := ih spares (isFlat_of_isPlain plain) inside
    rw [left_of_isPlain plain] at body
    exact block.runs body

/-- Where its statements stand, code with a block in another one does not come to an end. -/
theorem not_mem_eval (code : Counted) (machine : CountMachine σ)
    (spares : code.Spares frame.space) (nested : code.isFlat = false)
    (distinct : ((labelled program).map Symbol.text).Nodup) {before start : Nat}
    (placed : Placed program start (code.statements frame before)) (memory : σ)
    (performed : List Nat) (last : CountMachine.Point σ) :
    last ∉ eval (machine.next? program) ⟨start, memory, performed⟩ := by
  induction code generalizing before start memory performed with
  | skip | straight line => cases nested
  | seq first second first_ih second_ih =>
    have rest := placed.right
    rw [length_statements] at rest
    by_cases flat : first.isFlat = true
    · have other : second.isFlat = false := by
        have either : (first.isFlat && second.isFlat) = false := nested
        rwa [flat, Bool.true_and] at either
      obtain ⟨middle, -, reached⟩ :=
        first.runs machine spares.1 flat distinct placed.left memory performed
      rw [reaches_eval reached]
      exact second_ih spares.2 other rest middle _
    · exact first_ih spares.1 (Bool.of_not_eq_true flat) placed.left memory performed
  | again times opening inner closing ih =>
    have blocks : inner.isPlain = false := nested
    obtain ⟨block, inside⟩ := blockAt distinct placed
    -- Flat code with a block ends with zero in the count register; other code does not end.
    by_cases flat : inner.isFlat = true
    · have body := inner.runs machine spares flat distinct inside
      rw [left_of_not_isPlain blocks] at body
      exact block.not_mem_eval body memory performed last
    · obtain ⟨loaded, -, entered⟩ := block.enters.trans block.passes memory performed
      rw [reaches_eval entered]
      exact ih spares (Bool.of_not_eq_true flat) inside loaded _

end Runs

end Counted

section Function

variable {σ : Type} {frame : Frame} {body : Counted}

/-- A machine enters a function at its first statement and goes on with its body. -/
theorem Counted.reaches_body (machine : CountMachine σ) (memory : σ) :
    Reaches (machine.next? (functionCode frame (body.statements frame 0))) ⟨0, memory, []⟩
      ⟨1, memory, []⟩ :=
  .single (CountMachine.next?_label rfl)

/-- A function of flat code comes to its return along the trail of its body. -/
theorem Counted.exists_mem_eval (machine : CountMachine σ) (spares : body.Spares frame.space)
    (flat : body.isFlat = true) (memory : σ) :
    ∃ last ∈ eval (machine.next? (functionCode frame (body.statements frame 0)))
        ⟨0, memory, []⟩,
      (functionCode frame (body.statements frame 0))[last.position]? =
          some (.instruction .ret []) ∧
        last.performed = body.trail frame.space 1 := by
  have distinct := (numbered spares 0).distinct
  have whole := Placed.whole (functionCode frame (body.statements frame 0))
  have ends := whole.tail.right
  rw [length_statements] at ends
  obtain ⟨left, -, reached⟩ := body.runs machine spares flat distinct whole.tail.left memory []
  have passed : machine.next? (functionCode frame (body.statements frame 0))
      ⟨0 + 1 + body.size frame.space, left, [] ++ body.trail frame.space (0 + 1)⟩ =
        some ⟨0 + 1 + body.size frame.space + 1, left, [] ++ body.trail frame.space (0 + 1)⟩ :=
    CountMachine.next?_label ends.head
  refine ⟨_, mem_eval.mpr ⟨((reaches_body machine memory).trans reached).tail passed, ?_⟩, ?_, rfl⟩
  · exact CountMachine.next?_ret ends.tail.head
  · exact ends.tail.head

end Function

/-- A function around some counted code. -/
def CountedProgram.of (body : Counted) : CountedProgram where
  frame := ⟨"N", "F"⟩
  declaration := ⟨"namespace N", by decide +kernel⟩
  opening := ⟨"function F \x7b", by decide +kernel⟩
  body
  closing := ⟨"  \x7d", by decide +kernel⟩

/-- A block that counts a register up three times. -/
def Counted.thrice : Counted :=
  .again ⟨⟨.integer, "3", 7⟩, 3, rfl, by decide +kernel, by decide⟩
    ⟨"repeat 3 times \x7b", by decide +kernel⟩
    (.straight ⟨"EBX++", .counting, [⟨.register, "EBX", 0⟩, ⟨.symbol, "++", 3⟩],
      by decide +kernel, .inl rfl, by decide +kernel, by decide⟩)
    ⟨"  \x7d", by decide +kernel⟩

/-- A block around a block. -/
def Counted.nested : Counted :=
  .again ⟨⟨.integer, "2", 7⟩, 2, rfl, by decide +kernel, by decide⟩
    ⟨"repeat 2 times \x7b", by decide +kernel⟩ .thrice ⟨"  \x7d", by decide +kernel⟩

/-- A machine whose memory is the count register only. -/
def CountMachine.register : CountMachine (BitVec 32) where
  perform statement memory :=
    match statement with
    | .instruction .mov [⟨.register "ECX", _⟩, ⟨.immediate digits, _⟩] =>
      (Port.value? digits.toList).elim memory (BitVec.ofNat 32)
    | _ => memory
  count := id
  countDown memory := memory - 1
  count_load times memory := by
    have value := times.said
    show (Port.value? times.token.value.toList).elim memory (BitVec.ofNat 32) = _
    rw [value]
    rfl
  count_spared {statement} spared memory := by
    dsimp only [id]
    split
    · have named := spared.2 _ List.mem_cons_self
      have known : Text.namesCount "ECX" = true := by decide +kernel
      have same : Text.namesCount "ECX" = false := named
      rw [known] at same
      cases same
    · rfl
  count_countDown _ := rfl

namespace Compiler

/-- A function of counted code that compiles begins at a label. If no block of it stands in another
one, it returns from there, and each instruction of each line has been performed as often as the
rounds of the blocks around the line say, which is what their counts say exactly if none of them is
zero. If a block stands in another one, the function never returns. -/
theorem rounds_of_counted {σ : Type} (machine : CountMachine σ) (options : Options)
    (program : CountedProgram)
    (compiled : ((new options Family.standard).compile ([] : List Listing.Line)
      program.source).failure = none) :
    let code := executable (statements ((new options Family.standard).compile
      ([] : List Listing.Line) program.source).sink)
    ∃ entry, labelAt? code (Symbol.entry program.frame).text = some entry ∧
      (∀ leaf ∈ program.body.leaves program.frame.space (entry + 1),
        Placed code leaf.position (leaf.line.code program.frame.space)) ∧
      ∀ memory,
        (program.body.isFlat = true →
          ∃ last ∈ eval (machine.next? code) ⟨entry, memory, []⟩,
            code[last.position]? = some (.instruction .ret []) ∧
            ∀ leaf ∈ program.body.leaves program.frame.space (entry + 1),
              ∀ offset < (leaf.line.code program.frame.space).length,
                last.performed.count (leaf.position + offset) =
                    (leaf.around.map Times.rounds).prod ∧
                  (last.performed.count (leaf.position + offset) =
                      (leaf.around.map Times.value).prod ↔
                    ∀ times ∈ leaf.around, times.value ≠ 0)) ∧
        (program.body.isFlat = false →
          ∀ last, last ∉ eval (machine.next? code) ⟨entry, memory, []⟩) := by
  obtain ⟨spares, executed⟩ := CountedProgram.executable_of_compiled compiled
  have distinct := (Counted.numbered spares 0).distinct
  have whole := Placed.whole
    (functionCode program.frame (program.body.statements program.frame 0))
  dsimp only
  rw [executed]
  refine ⟨0, whole.label distinct, ?_, ?_⟩
  · intro leaf member
    exact Counted.placed_of_leaf distinct whole.tail.left member
  · intro memory
    constructor
    · intro flat
      obtain ⟨last, ended, ret, performed⟩ :=
        Counted.exists_mem_eval machine spares flat memory
      refine ⟨last, ended, ret, ?_⟩
      intro leaf member offset inside
      rw [performed, Counted.count_trail member inside]
      exact ⟨rfl, Times.prod_rounds_eq_iff leaf.around⟩
    · intro nested last
      rw [reaches_eval (Counted.reaches_body machine memory)]
      exact program.body.not_mem_eval machine spares nested distinct whole.tail.left memory [] last

/-- A function of one block returns when it has performed the instruction in the block three times.
With another block around it the function never returns. -/
theorem rounds_of_counted_nested :
    let result (program : CountedProgram) :=
      (new {} Family.standard).compile ([] : List Listing.Line) program.source
    let next? (program : CountedProgram) :=
      CountMachine.register.next? (executable (statements (result program).sink))
    ((result (.of .thrice)).failure = none ∧
        ∃ last ∈ eval (next? (.of .thrice)) ⟨0, 0, []⟩, last.performed.count 3 = 3) ∧
      (result (.of .nested)).failure = none ∧
        ∀ last, last ∉ eval (next? (.of .nested)) ⟨0, 0, []⟩ := by
  have compiled : ((new {} Family.standard).compile ([] : List Listing.Line)
      (CountedProgram.of .thrice).source).failure = none := by decide +kernel
  have also : ((new {} Family.standard).compile ([] : List Listing.Line)
      (CountedProgram.of .nested).source).failure = none := by decide +kernel
  obtain ⟨entry, found, -, rounds⟩ := rounds_of_counted .register {} (.of .thrice) compiled
  obtain ⟨other, there, -, never⟩ := rounds_of_counted .register {} (.of .nested) also
  have first : some entry = some 0 := found.symm.trans (by decide +kernel)
  have second : some other = some 0 := there.symm.trans (by decide +kernel)
  cases first
  cases second
  obtain ⟨last, ended, -, counts⟩ := (rounds 0).1 rfl
  have instruction := counts _ List.mem_cons_self 0 (by decide +kernel)
  exact ⟨⟨compiled, last, ended, instruction.1⟩, also, (never 0).2 rfl⟩

end Compiler

end LineAsm
