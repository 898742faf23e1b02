import LineAsm.Proofs.Margins
import LineAsm.Proofs.Sinks
import LineAsm.Proofs.Sources
import Mathlib.Data.List.Forall2
/-!
# Two layouts of one source

Two sources whose lines are equal without their blank ends are compiled alike
(`Compiler.compile_congr_trim`). Line by line, both compilers go on from one scope and write the
same statements, and the blanks before a statement stay on its line; so what is written is the same
but for the blanks at the front of its lines. Where the lines that are not blank are indented alike
too, the compilers do not differ at all, and the same text is written.
-/

namespace LineAsm

namespace Text

section Parts

variable {α : Type} [BEq α] [LawfulBEq α] {separator : α}

/-- The parts before a separator are followed by the parts behind it. -/
theorem parts_append_separator (separator : α) (first rest : List α) :
    parts separator (first ++ separator :: rest) =
      parts separator first ++ parts separator rest := by
  by_cases member : separator ∈ first
  · obtain ⟨before, after, split, absent⟩ := List.eq_append_cons_of_mem member
    have short : after.length < first.length := by
      rw [split, List.length_append, List.length_cons]
      omega
    rw [split, List.append_assoc, List.cons_append, parts_append_cons absent,
      parts_append_separator separator after rest, parts_append_cons absent, List.cons_append]
  · rw [parts_append_cons member, parts_of_not_mem member, List.singleton_append]
termination_by first.length

/-- What has no separator only makes the first part longer. -/
theorem parts_append_front {front : List α} (absent : separator ∉ front) (items : List α) :
    ∃ first rest, parts separator items = first :: rest ∧
      parts separator (front ++ items) = (front ++ first) :: rest := by
  by_cases member : separator ∈ items
  · obtain ⟨first, rest, rfl, before⟩ := List.eq_append_cons_of_mem member
    have longer : separator ∉ front ++ first := fun there =>
      (List.mem_append.mp there).elim absent before
    refine ⟨first, parts separator rest, parts_append_cons before rest, ?_⟩
    rw [← List.append_assoc, parts_append_cons longer]
  · have longer : separator ∉ front ++ items := fun there =>
      (List.mem_append.mp there).elim absent member
    exact ⟨items, [], parts_of_not_mem member, parts_of_not_mem longer⟩

end Parts

/-- Blank characters that stay on one line. -/
def IsMargin (text : String) : Prop := ∀ c ∈ text.toList, isBlank c = true ∧ c ≠ '\n'

/-- The blank front of a line, where the line is not blank. -/
def margin (text : String) : String := if allBlank text then "" else indentation text

/-- The lines of a text without their blank fronts. -/
def outline (text : String) : List (List Char) := (parts '\n' text.toList).map dropBlank

section Blanks

variable {text front : String} {blanks : List Char} (whole : text.toList = front.toList ++ blanks)
  (blank : ∀ c ∈ blanks, isBlank c = true)

include whole blank

/-- Blanks at the end of a text are trimmed. -/
theorem trim_eq_of_append : trim text = trim front := by
  rw [trim, whole, trimChars_append _ blank, trim]

/-- Blanks at the end of a line do not belong to its blank front. -/
theorem margin_eq_of_append : margin text = margin front := by
  have last : blanks.all isBlank = true := List.all_eq_true.mpr blank
  have same : allBlank text = allBlank front := by
    rw [allBlank, whole, List.all_append, last, Bool.and_true, allBlank]
  unfold margin
  rw [same]
  split
  · rfl
  · rename_i visible
    have early : (front.toList.takeWhile isBlank).length ≠ front.toList.length := by
      intro length
      have every := (List.takeWhile_prefix isBlank).eq_of_length length
      refine visible ?_
      rw [allBlank, ← every]
      exact List.all_takeWhile
    rw [indentation, whole, List.takeWhile_append, if_neg early, indentation]

end Blanks

/-- The blank front of a line stays on it. -/
theorem isMargin_indentation {text : String} (unbroken : '\n' ∉ text.toList) :
    IsMargin (indentation text) := by
  intro c member
  rw [indentation, String.toList_ofList] at member
  refine ⟨List.all_eq_true.mp List.all_takeWhile c member, ?_⟩
  rintro rfl
  exact unbroken ((List.takeWhile_sublist _).mem member)

/-- Blanks in front of a text do not change its outline. -/
theorem outline_append_margin {front : String} (margin : IsMargin front) (text : String) :
    outline (front ++ text) = outline text := by
  have absent : '\n' ∉ front.toList := fun member => (margin _ member).2 rfl
  obtain ⟨first, rest, parted, longer⟩ := parts_append_front absent text.toList
  rw [outline, outline, String.toList_append, parted, longer, List.map_cons, List.map_cons,
    dropBlank_append fun c member => (margin c member).1]

/-- The outlines of two texts follow each other where a line feed stands between the texts. -/
theorem outline_append_lineFeed (first rest : String) :
    outline (first ++ "\n" ++ rest) = outline first ++ outline rest := by
  have joined : (first ++ "\n" ++ rest).toList = first.toList ++ '\n' :: rest.toList := by simp
  rw [outline, joined, parts_append_separator, List.map_append, outline, outline]

/-- A text that is read from bytes has these bytes. -/
theorem encode_of_decode? {bytes : List UInt8} {text : String}
    (read : decode? bytes = some text) : encode text = bytes := by
  unfold decode? String.fromUTF8? at read
  split at read
  · rename_i valid
    obtain rfl := Option.some.inj read
    have whole := @String.utf8Encode_toList (String.fromUTF8 _ valid)
    have data := congrArg (fun array => array.data.toList) whole
    simpa [List.utf8Encode, String.fromUTF8, encode] using data
  · cases read

/-- A line feed in a text is a line feed in its bytes. -/
theorem lineFeed_mem_encode {text : String} (member : '\n' ∈ text.toList) :
    Source.lineFeed ∈ encode text :=
  List.mem_flatMap.mpr ⟨'\n', member, List.mem_singleton.mpr rfl⟩

end Text

/-- The outline of some lines is told by their statements when only blanks stand before these. -/
theorem Listing.outline_written {lines : List Listing.Line}
    (margins : ∀ line ∈ lines, Text.IsMargin line.indent) :
    Text.outline (Listing.written lines) =
      (Compiler.statements lines).flatMap (fun statement => Text.outline statement.text) ++
        [[]] := by
  induction lines with
  | nil =>
    have empty : Listing.written [] = "" := rfl
    rw [empty, Text.outline, String.toList_empty, Text.parts_of_not_mem List.not_mem_nil]
    rfl
  | cons line rest ih =>
    obtain ⟨first, others⟩ := List.forall_mem_cons.mp margins
    have joined : Listing.written (line :: rest) =
        line.indent ++ (line.statement.text ++ "\n" ++ Listing.written rest) := by
      simp [Listing.written, Listing.Line.written, Listing.Line.text, String.join_cons,
        String.append_assoc]
    have said : Compiler.statements (line :: rest) =
        line.statement :: Compiler.statements rest := rfl
    rw [joined, Text.outline_append_margin first, Text.outline_append_lineFeed, ih others, said,
      List.flatMap_cons, List.append_assoc]

namespace Read

/-- Two readings of a line that are equal without the blank ends of the line. -/
inductive Alike : Read → Read → Prop where
  /-- Both have read a line. -/
  | line {one other : String} (unbroken : '\n' ∉ one.toList) (whole : '\n' ∉ other.toList)
      (same : Text.trim one = Text.trim other) : Alike (.ok one) (.ok other)
  /-- Both have failed for one reason. -/
  | lost (words : String) : Alike (.error words) (.error words)

end Read

namespace Source

/-- A line that has been read is one line. -/
theorem unbroken_of_mem_ofBytes {bytes : List UInt8} {broken : Option String} {text : String}
    (member : .ok text ∈ ofBytes bytes broken) : '\n' ∉ text.toList := by
  have decoded {line : List UInt8} (unbroken : lineFeed ∉ line) (read : .ok text = ofLine line) :
      '\n' ∉ text.toList := by
    unfold ofLine at read
    split at read
    · rename_i found
      obtain rfl := Except.ok.inj read
      intro there
      exact unbroken (Text.encode_of_decode? found ▸ Text.lineFeed_mem_encode there)
    · cases read
  obtain ⟨before, after, split⟩ := List.append_of_mem member
  obtain ⟨-, rest, -, -, -, -, begins⟩ := exists_place split
  generalize shape : (Except.ok text : Read) = read at begins
  cases begins with
  | whole unbroken =>
    refine decoded (fun there => unbroken ?_) shape
    unfold dropReturn at there
    split at there
    · exact (List.dropLast_sublist _).mem there
    · exact there
  | last unbroken => exact decoded unbroken shape
  | lost => cases shape

/-- Sources whose lines are equal without their blank ends are alike line by line. -/
theorem alike_ofBytes {one other : List UInt8} {broken lost : Option String}
    (same : (ofBytes one broken).map (Except.map Text.trim) =
      (ofBytes other lost).map (Except.map Text.trim)) :
    List.Forall₂ Read.Alike (ofBytes one broken) (ofBytes other lost) := by
  rw [← List.forall₂_eq_eq_eq, List.forall₂_map_left_iff, List.forall₂_map_right_iff,
    List.forall₂_iff_zip] at same
  refine List.forall₂_iff_zip.mpr ⟨same.1, fun {first second} member => ?_⟩
  have equal := same.2 member
  obtain ⟨mine, yours⟩ := List.of_mem_zip member
  cases first with
  | error words =>
    cases second with
    | error reason =>
      obtain rfl := Except.error.inj equal
      exact .lost words
    | ok text => cases equal
  | ok text =>
    cases second with
    | error reason => cases equal
    | ok again =>
      exact .line (unbroken_of_mem_ofBytes mine) (unbroken_of_mem_ofBytes yours)
        (Except.ok.inj equal)

end Source

/-- Why a call failed, without the place of what cannot be read and the blank ends of the line. -/
def LocatedError.unplaced (failure : LocatedError) : LocatedError :=
  { failure with cause := failure.cause.unplaced, text := failure.text.map Text.trim }

/-- Lines that are alike and indented alike, where they are not blank, indent a draft alike. -/
theorem Draft.indentedBy_congr (draft : Draft) {one other : String} (unbroken : '\n' ∉ one.toList)
    (whole : '\n' ∉ other.toList) (same : Text.trim one = Text.trim other)
    (level : Text.margin one = Text.margin other) :
    draft.indentedBy one = draft.indentedBy other := by
  have visible {text : String} (indents : (Reading.of text).indents = true) :
      Text.margin text = Text.indentation text := by
    unfold Reading.of at indents
    split at indents
    · cases indents
    · rename_i visible
      rw [Text.margin, if_neg visible]
  have both := Reading.indents_congr unbroken whole same
  unfold Draft.indentedBy
  rw [both]
  split
  · rename_i indents
    rw [← visible indents, ← visible (both.trans indents), level]
  · rfl

/-- States of one scope at one line differ in the indentation at most. -/
theorem State.eq_of_scope {state other : State} (scope : state.scope = other.scope)
    (line : state.line = other.line) :
    { state with indent := "" } = { other with indent := "" } := by
  obtain ⟨declared, function, label, blocks, indent, number, options⟩ := state
  obtain rfl := line
  obtain ⟨rfl, rfl, rfl, rfl, rfl⟩ := Scope.mk.inj scope
  rfl

namespace Compiler

/-- The text of a line is the line, but for blanks at its end. -/
theorem exists_textOf (raw : String) : ∃ blanks, raw.toList = (textOf raw).toList ++ blanks ∧
    ∀ c ∈ blanks, Text.isBlank c = true := by
  rw [textOf, String.toList_ofList, Source.dropReturn]
  split
  · rename_i last
    have whole := List.dropLast_append_getLast? '\r' (eq_of_beq last)
    exact ⟨['\r'], whole.symm, List.forall_mem_singleton.mpr (by decide)⟩
  · exact ⟨[], (List.append_nil _).symm, fun _ member => absurd member List.not_mem_nil⟩

/-- Lines that are alike have texts that are alike. -/
theorem textOf_alike {one other : String} (alike : Read.Alike (.ok one) (.ok other)) :
    '\n' ∉ (textOf one).toList ∧ '\n' ∉ (textOf other).toList ∧
      Text.trim (textOf one) = Text.trim (textOf other) := by
  obtain ⟨unbroken, whole, same⟩ := alike
  obtain ⟨blanks, split, blank⟩ := exists_textOf one
  obtain ⟨blanks', split', blank'⟩ := exists_textOf other
  rw [split] at unbroken
  rw [split'] at whole
  rw [Text.trim_eq_of_append split blank, Text.trim_eq_of_append split' blank'] at same
  exact ⟨fun member => unbroken (List.mem_append_left blanks member),
    fun member => whole (List.mem_append_left blanks' member), same⟩

/-- A compiler goes on with the indentation of a line. -/
theorem indent_left (compiler : Compiler Family) (text : String) (scope : Scope) :
    (compiler.left text scope).listing.indent =
      (compiler.toDraft.indentedBy text).listing.indent := rfl

/-- The line number is no matter of the indentation. -/
theorem indent_advance (compiler : Compiler Family) :
    compiler.advance.listing.indent = compiler.listing.indent := rfl

/-- A compiler indents lines by blanks that stay on the line, and has indented some lines so. -/
structure Indents (compiler : Compiler Family) (lines : List Listing.Line) : Prop where
  /-- The next line is indented so. -/
  next : Text.IsMargin compiler.listing.indent
  /-- The lines before are indented so. -/
  taken : ∀ line ∈ lines, Text.IsMargin line.indent

section Runs

variable {compiler left right : Compiler Family} {lines others : List Listing.Line}
  {read one other : Read}

/-- A line of source is indented by blanks that stay on the line. -/
theorem Indents.step (indents : compiler.Indents lines) (ready : compiler.Ready)
    (unbroken : ∀ raw, read = .ok raw → '\n' ∉ (textOf raw).toList) :
    (compiler.step lines read).2.1.Indents (compiler.step lines read).2.2 := by
  cases read with
  | error words =>
    rw [step_error ready]
    exact indents
  | ok raw =>
    have next : Text.IsMargin (compiler.toDraft.indentedBy (textOf raw)).listing.indent := by
      unfold Draft.indentedBy
      split
      · exact Text.isMargin_indentation (unbroken raw rfl)
      · exact indents.next
    rw [step_list ready]
    dsimp only
    split
    · refine ⟨?_, indents.taken⟩
      rw [indent_left]
      exact next
    · refine ⟨?_, List.forall_mem_append.mpr ⟨indents.taken, ?_⟩⟩
      · rw [indent_advance, indent_left]
        exact next
      · exact List.forall_mem_map.mpr fun _ _ => next

/-- Lines that are alike do the same to two compilers, but for the place of what cannot be read. -/
theorem Alike.step_alike (alike : Alike left right lines others) (ready : left.Ready)
    (prepared : right.Ready) (reads : Read.Alike one other) :
    (left.step lines one).1.mapError LocatedError.unplaced =
        (right.step others other).1.mapError LocatedError.unplaced ∧
      Alike (left.step lines one).2.1 (right.step others other).2.1
        (left.step lines one).2.2 (right.step others other).2.2 := by
  cases reads with
  | lost words =>
    rw [step_error ready, step_error prepared, alike.line]
    exact ⟨rfl, alike⟩
  | @line one other unbroken whole same =>
    obtain ⟨unbroken, whole, same⟩ := textOf_alike (.line unbroken whole same)
    have effects := Reading.unplaced_effect unbroken whole same right.state.scope
    rw [step_list ready, step_list prepared]
    dsimp only
    rw [alike.scope, alike.line]
    generalize (Reading.of (textOf one)).effect (textOf one) right.state.scope = effect at effects
    generalize (Reading.of (textOf other)).effect (textOf other) right.state.scope = effect'
      at effects
    obtain ⟨answer, scope, written⟩ := effect
    obtain ⟨answer', scope', written'⟩ := effect'
    obtain ⟨answers, rfl, rfl⟩ := Effect.mk.inj effects
    have counted : (left.left (textOf one) scope).state.line =
        (right.left (textOf other) scope).state.line := by
      rw [line_left, line_left, alike.line]
    have scopes : (left.left (textOf one) scope).state.scope =
        (right.left (textOf other) scope).state.scope := by
      rw [scope_left, scope_left]
    obtain ⟨cause, reason, rfl, rfl, causes⟩ | ⟨progress, rfl, rfl⟩ := cases_of_mapError_eq answers
    · refine ⟨?_, scopes, counted, alike.written⟩
      simp only [Except.mapError, LocatedError.unplaced, causes, same, Option.map_some]
    · refine ⟨rfl, ⟨?_, congrArg (· + 1) counted, ?_⟩⟩
      · rw [scope_advance, scope_advance, scopes]
      · simp only [statements_append, statements_map, alike.written]

/-- Lines that are alike and indented alike, where they are not blank, leave the same of a compiler
and write the same. -/
theorem step_congr (ready : compiler.Ready) (lines : List Listing.Line)
    (reads : Read.Alike one other) (level : one.map Text.margin = other.map Text.margin) :
    (compiler.step lines one).2 = (compiler.step lines other).2 := by
  cases reads with
  | lost words => rfl
  | @line one other unbroken whole same =>
    obtain ⟨unbroken, whole, same⟩ := textOf_alike (.line unbroken whole same)
    have margins : Text.margin (textOf one) = Text.margin (textOf other) := by
      obtain ⟨blanks, split, blank⟩ := exists_textOf one
      obtain ⟨blanks', split', blank'⟩ := exists_textOf other
      rw [← Text.margin_eq_of_append split blank, ← Text.margin_eq_of_append split' blank']
      exact Except.ok.inj level
    have drafts := compiler.toDraft.indentedBy_congr unbroken whole same margins
    have effects := Reading.unplaced_effect unbroken whole same compiler.state.scope
    rw [step_list ready, step_list ready]
    unfold Compiler.left
    dsimp only
    rw [drafts]
    generalize (Reading.of (textOf one)).effect (textOf one) compiler.state.scope = effect
      at effects
    generalize (Reading.of (textOf other)).effect (textOf other) compiler.state.scope = effect'
      at effects
    obtain ⟨answer, scope, written⟩ := effect
    obtain ⟨answer', scope', written'⟩ := effect'
    obtain ⟨answers, rfl, rfl⟩ := Effect.mk.inj effects
    obtain ⟨cause, reason, rfl, rfl, -⟩ | ⟨progress, rfl, rfl⟩ := cases_of_mapError_eq answers
    · rfl
    · rfl

/-- What every line keeps of two runs is kept by sources that are alike, and if lines that are alike
fail alike then so do the sources. -/
theorem run_forall₂
    {holds : Compiler Family → List Listing.Line → Compiler Family → List Listing.Line → Prop}
    {like : Read → Read → Prop}
    (kept : ∀ left lines right others one other, holds left lines right others → like one other →
      (left.step lines one).1.mapError LocatedError.unplaced =
          (right.step others other).1.mapError LocatedError.unplaced ∧
        holds (left.step lines one).2.1 (left.step lines one).2.2
          (right.step others other).2.1 (right.step others other).2.2)
    {one other : List Read} (sources : List.Forall₂ like one other)
    (start : holds left lines right others) :
    (left.run lines one).failure.map LocatedError.unplaced =
        (right.run others other).failure.map LocatedError.unplaced ∧
      holds (left.run lines one).compiler (left.run lines one).sink
        (right.run others other).compiler (right.run others other).sink := by
  induction sources generalizing left lines right others with
  | nil => exact ⟨rfl, start⟩
  | cons first _ ih =>
    obtain ⟨outcome, next⟩ := kept _ _ _ _ _ _ start first
    simp only [run]
    generalize left.step lines _ = result at outcome next ⊢
    generalize right.step others _ = result' at outcome next ⊢
    obtain ⟨answer, left, lines⟩ := result
    obtain ⟨answer', right, others⟩ := result'
    obtain ⟨failure, failure', rfl, rfl, failures⟩ | ⟨progress, rfl, rfl⟩ :=
      cases_of_mapError_eq outcome
    · exact ⟨congrArg some failures, next⟩
    · cases progress with
      | next => exact ih next
      | stop => exact ⟨rfl, next⟩

/-- Two compilers with the lists they write to, which differ in indentation at most. -/
structure Beside (left : Compiler Family) (lines : List Listing.Line) (right : Compiler Family)
    (others : List Listing.Line) : Prop where
  /-- Both go on from one scope, at one line, and have written the same statements. -/
  alike : Alike left right lines others
  /-- One is ready for the next line. -/
  ready : left.Ready
  /-- The other is, too. -/
  prepared : right.Ready
  /-- One indents by blanks that stay on their lines. -/
  indents : left.Indents lines
  /-- The other does, too. -/
  margins : right.Indents others

/-- Lines that are alike do the same to two compilers, indentation apart. -/
theorem Beside.step (beside : Beside left lines right others) (reads : Read.Alike one other) :
    (left.step lines one).1.mapError LocatedError.unplaced =
        (right.step others other).1.mapError LocatedError.unplaced ∧
      Beside (left.step lines one).2.1 (left.step lines one).2.2
        (right.step others other).2.1 (right.step others other).2.2 := by
  obtain ⟨outcome, alike⟩ := beside.alike.step_alike beside.ready beside.prepared reads
  refine ⟨outcome, alike, beside.ready.step lines one, beside.prepared.step others other,
    beside.indents.step beside.ready ?_, beside.margins.step beside.prepared ?_⟩
  · rintro raw rfl
    cases reads with
    | line unbroken whole same => exact (textOf_alike (.line unbroken whole same)).1
  · rintro raw rfl
    cases reads with
    | line unbroken whole same => exact (textOf_alike (.line unbroken whole same)).2.1

/-- Two compilers that do not differ, with one list they write to. -/
structure One (left : Compiler Family) (lines : List Listing.Line) (right : Compiler Family)
    (others : List Listing.Line) : Prop where
  /-- The compilers are one. -/
  compiler : left = right
  /-- They have written the same. -/
  lines : lines = others
  /-- The compiler is ready for the next line. -/
  ready : left.Ready

/-- Lines that are alike and indented alike, where they are not blank, keep compilers from
differing. -/
theorem One.step (both : One left lines right others) (reads : Read.Alike one other)
    (level : one.map Text.margin = other.map Text.margin) :
    (left.step lines one).1.mapError LocatedError.unplaced =
        (right.step others other).1.mapError LocatedError.unplaced ∧
      One (left.step lines one).2.1 (left.step lines one).2.2
        (right.step others other).2.1 (right.step others other).2.2 := by
  obtain ⟨rfl, rfl, ready⟩ := both
  have same := step_congr ready lines reads level
  have alike : Alike left left lines lines := ⟨rfl, rfl, rfl⟩
  exact ⟨(alike.step_alike ready ready reads).1, congrArg Prod.fst same, congrArg Prod.snd same,
    ready.step lines one⟩

end Runs

/-- Two sources whose lines are equal without their blank ends are compiled alike by compilers that
have not been used. Both calls succeed, or both fail at one line for one cause, but for the column;
the states they leave differ in the indentation at most; and so do the lines they write. If the
lines that are not blank are indented alike, one and the same text is written. -/
theorem compile_congr_trim (options : Options) {one other : List UInt8}
    {broken lost : Option String}
    (alike : (Source.ofBytes one broken).map (Except.map Text.trim) =
      (Source.ofBytes other lost).map (Except.map Text.trim)) :
    let left := (new options Family.standard).compile "" (Source.ofBytes one broken)
    let right := (new options Family.standard).compile "" (Source.ofBytes other lost)
    left.failure.map LocatedError.unplaced = right.failure.map LocatedError.unplaced ∧
      { left.compiler.state with indent := "" } = { right.compiler.state with indent := "" } ∧
      Text.outline left.sink = Text.outline right.sink ∧
      ((Source.ofBytes one broken).map (Except.map Text.margin) =
        (Source.ofBytes other lost).map (Except.map Text.margin) → left.sink = right.sink) := by
  have ready : (new options Family.standard).restart.Ready := (ready_new options).restart
  have reads := Source.alike_ofBytes alike
  generalize Source.ofBytes one broken = source at alike reads ⊢
  generalize Source.ofBytes other lost = source' at alike reads ⊢
  have fresh : (new options Family.standard).restart.Indents [] := ⟨nofun, nofun⟩
  have start : Beside (new options Family.standard).restart [] (new options Family.standard).restart
      [] := ⟨⟨rfl, rfl, rfl⟩, ready, ready, fresh, fresh⟩
  obtain ⟨failure, beside⟩ := run_forall₂ (fun _ _ _ _ _ _ => Beside.step) reads start
  have written (source : List Read) := run_text ready "" source
  unfold compile
  rw [← restart, written source, written source']
  refine ⟨failure, State.eq_of_scope beside.alike.scope beside.alike.line, ?_, fun level => ?_⟩
  · rw [String.empty_append, String.empty_append, Listing.outline_written beside.indents.taken,
      Listing.outline_written beside.margins.taken, beside.alike.written]
  · rw [← List.forall₂_eq_eq_eq, List.forall₂_map_left_iff, List.forall₂_map_right_iff] at level
    have flush := reads.mp (fun _ _ alike same => And.intro alike same) level
    have whole : One (new options Family.standard).restart []
        (new options Family.standard).restart [] := ⟨rfl, rfl, ready⟩
    obtain ⟨-, last⟩ :=
      run_forall₂ (fun _ _ _ _ _ _ one both => one.step both.1 both.2) flush whole
    rw [last.lines]

/-- Carriage returns and blanks behind lines change nothing in what is written. -/
theorem compile_congr_trim_returns :
    let one := Text.encode "namespace K\r\nfunction A \x7b \r\n  EAX = 1\t\r\n\r\n\x7d\r\n"
    let other := Text.encode "namespace K\nfunction A \x7b\n  EAX = 1\n  \n\x7d"
    let left := (new {} Family.standard).compile "" (Source.ofBytes one none)
    let right := (new {} Family.standard).compile "" (Source.ofBytes other none)
    (Source.ofBytes one none).map (Except.map Text.trim) =
        (Source.ofBytes other none).map (Except.map Text.trim) ∧
      left.failure = none ∧ right.failure.map LocatedError.unplaced = none ∧
      { left.compiler.state with indent := "" } = { right.compiler.state with indent := "" } ∧
      Text.outline left.sink = Text.outline right.sink ∧ left.sink = right.sink := by
  intro one other left right
  have alike : (Source.ofBytes one none).map (Except.map Text.trim) =
      (Source.ofBytes other none).map (Except.map Text.trim) := by decide +kernel
  have level : (Source.ofBytes one none).map (Except.map Text.margin) =
      (Source.ofBytes other none).map (Except.map Text.margin) := by decide +kernel
  have succeeds : left.failure = none := by decide +kernel
  obtain ⟨failure, state, outline, same⟩ := compile_congr_trim {} alike
  refine ⟨alike, succeeds, ?_, state, outline, same level⟩
  rw [← failure]
  exact congrArg _ succeeds

end Compiler

end LineAsm
