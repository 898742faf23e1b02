import LineAsm.Proofs.Rejection
/-!
# Transcripts of sources

A transcript says for each line of a source in which scope it was compiled, which statements it
wrote and which scope it left (`Compiler.transcript`). A source that compiles into a list writes
the statements of its transcript (`Compiler.statements_of_run`), and each line of the transcript
goes on from the scope that the line before has left (`Transcribed`). A line that says a construct
follows its rule (`Passage.Holds.writes`); a line that neither says one nor declares a namespace
leaves the scope and writes nothing that execution could come to (`Passage.Holds.still`).
-/

namespace LineAsm

/-- A line of a source as it has been compiled. -/
structure Passage where
  /-- The line as it was read. -/
  raw : String
  /-- The scope before the line. -/
  before : Scope
  /-- The statements that the line wrote. -/
  written : List Statement
  /-- The scope after the line. -/
  after : Scope
deriving DecidableEq, Repr

namespace Passage

/-- How the line was taken. -/
def reading (passage : Passage) : Reading := .of (Compiler.textOf passage.raw)

/-- The construct that the line says, if it is a line of control flow. -/
def construct? (passage : Passage) : Option Construct := passage.reading.construct?

/-- The namespace that the line declares, if it is a declaration. -/
def declares? (passage : Passage) : Option String := passage.reading.declares?

/-- The line has the effect that is noted of it, and lets the next line follow. -/
def Holds (passage : Passage) : Prop :=
  passage.reading.effect (Compiler.textOf passage.raw) passage.before =
    ⟨.ok .next, passage.after, passage.written⟩

/-- A line that lets the next line follow is transcribed with its effect. -/
theorem holds_of_effect {raw : String} {before : Scope} {effect : Effect Progress}
    (same : (Reading.of (Compiler.textOf raw)).effect (Compiler.textOf raw) before = effect)
    (passed : effect.answer = .ok .next) : Holds ⟨raw, before, effect.written, effect.scope⟩ := by
  obtain ⟨answer, after, written⟩ := effect
  obtain rfl : answer = .ok .next := passed
  exact same

/-- A line that says a construct is repeated and follows the rule of the construct. -/
theorem Holds.writes_echoed {passage : Passage} {construct : Construct} (holds : passage.Holds)
    (said : passage.construct? = some construct) :
    ∃ tokens code, Flow.Writes construct passage.before passage.after code ∧
      passage.written =
        Reading.echoed passage.before.options (Compiler.textOf passage.raw) tokens ++ code := by
  obtain ⟨tokens, read, tokens_say⟩ := Reading.owned_of_construct? said
  unfold Holds at holds
  rw [read] at holds
  have passed := congrArg Effect.answer holds
  obtain ⟨-, last, code, rule, whole⟩ := Reading.effect_of_construct tokens_say passed
  rw [whole] at holds
  have scopes := congrArg Effect.scope holds
  have statements := congrArg Effect.written holds
  dsimp only at scopes statements
  rw [scopes] at rule
  exact ⟨tokens, code, rule, statements.symm⟩

/-- A line that says a construct follows the rule of the construct, after quiet statements. -/
theorem Holds.writes {passage : Passage} {construct : Construct} (holds : passage.Holds)
    (said : passage.construct? = some construct) :
    ∃ echo code, Flow.Writes construct passage.before passage.after code ∧
      (∀ statement ∈ echo, statement.IsQuiet) ∧ passage.written = echo ++ code := by
  obtain ⟨tokens, code, rule, whole⟩ := holds.writes_echoed said
  exact ⟨_, code, rule, fun _ member => (Reading.echoed_isBare member).isQuiet, whole⟩

/-- A line that neither says a construct nor declares a namespace leaves the scope and writes bare
statements. -/
theorem Holds.still {passage : Passage} (holds : passage.Holds)
    (unsaid : passage.construct? = none) (undeclared : passage.declares? = none) :
    passage.after = passage.before ∧ ∀ statement ∈ passage.written, statement.IsBare := by
  have effect : (passage.reading.effect (Compiler.textOf passage.raw) passage.before).scope =
      passage.before ∧ _ := Reading.effect_of_still unsaid undeclared
  unfold Holds at holds
  rw [holds] at effect
  exact effect

end Passage

/-- Lines compiled one after the other, from a first scope to a last one. -/
inductive Transcribed : Scope → List Passage → Scope → Prop where
  /-- There is no line. -/
  | nil {scope : Scope} : Transcribed scope [] scope
  /-- There is one more line in front. -/
  | cons {passage : Passage} {passages : List Passage} {last : Scope} (holds : passage.Holds)
      (rest : Transcribed passage.after passages last) :
      Transcribed passage.before (passage :: passages) last

/-- A line that is transcribed keeps the scope sound. -/
theorem Passage.Holds.sound {passage : Passage} (holds : passage.Holds)
    (sound : passage.before.Sound) : passage.after.Sound := by
  have kept := Reading.sound_effect (Compiler.textOf passage.raw) sound
  have effect : (Reading.of (Compiler.textOf passage.raw)).effect (Compiler.textOf passage.raw)
      passage.before = _ := holds
  rw [effect] at kept
  exact kept

/-- Where no line is transcribed the scope stays. -/
theorem Transcribed.eq_of_nil {first last : Scope} (lines : Transcribed first [] last) :
    last = first := by
  cases lines
  rfl

/-- The first of some lines is transcribed from the first scope, and the others follow it. -/
theorem Transcribed.uncons {first last : Scope} {passage : Passage} {passages : List Passage}
    (lines : Transcribed first (passage :: passages) last) :
    passage.Holds ∧ passage.before = first ∧ Transcribed passage.after passages last := by
  cases lines with
  | cons holds rest => exact ⟨holds, rfl, rest⟩

/-- One line is transcribed from its scope to the scope it leaves. -/
theorem Transcribed.single {first last : Scope} {passage : Passage}
    (lines : Transcribed first [passage] last) :
    passage.Holds ∧ passage.before = first ∧ passage.after = last := by
  obtain ⟨holds, start, rest⟩ := lines.uncons
  exact ⟨holds, start, rest.eq_of_nil.symm⟩

/-- Lines that are transcribed keep the scope sound. -/
theorem Transcribed.sound {first last : Scope} {passages : List Passage}
    (lines : Transcribed first passages last) (sound : first.Sound) : last.Sound := by
  induction lines with
  | nil => exact sound
  | cons holds rest ih => exact ih (holds.sound sound)

/-- Lines can be cut anywhere. -/
theorem Transcribed.split {first last : Scope} {passages more : List Passage}
    (lines : Transcribed first (passages ++ more) last) :
    ∃ middle, Transcribed first passages middle ∧ Transcribed middle more last := by
  induction passages generalizing first with
  | nil => exact ⟨first, .nil, lines⟩
  | cons passage passages ih =>
    cases lines with
    | cons holds rest =>
      obtain ⟨middle, front, back⟩ := ih rest
      exact ⟨middle, .cons holds front, back⟩

/-- The statements of some lines. -/
def writtenBy (passages : List Passage) : List Statement := passages.flatMap Passage.written

namespace Compiler

/-- The transcript of a source from a scope on, as far as lines succeed and let lines follow. -/
def transcript (scope : Scope) : List Read → List Passage
  | [] => []
  | .error _ :: _ => []
  | .ok raw :: rest =>
    let effect := (Reading.of (textOf raw)).effect (textOf raw) scope
    match effect.answer with
    | .ok .next => ⟨raw, scope, effect.written, effect.scope⟩ :: transcript effect.scope rest
    | _ => []

/-- A transcript goes on from line to line. -/
theorem transcribed_transcript (scope : Scope) (source : List Read) :
    ∃ last, Transcribed scope (transcript scope source) last := by
  induction source generalizing scope with
  | nil => exact ⟨scope, .nil⟩
  | cons read rest ih =>
    cases read with
    | error words => exact ⟨scope, .nil⟩
    | ok raw =>
      unfold transcript
      dsimp only
      split
      · rename_i passed
        obtain ⟨last, further⟩ :=
          ih ((Reading.of (textOf raw)).effect (textOf raw) scope).scope
        exact ⟨last, .cons (Passage.holds_of_effect rfl passed) further⟩
      · exact ⟨scope, .nil⟩

section Compiled

variable {compiler : Compiler Family} {lines : List Listing.Line}

/-- A source that compiles into a list is transcribed up to its end or to the end marker, and adds
the statements of the transcript to the list. -/
theorem statements_of_run (ready : compiler.Ready) (source : List Read)
    (compiled : (compiler.run lines source).failure = none) :
    let passages := transcript compiler.state.scope source
    statements (compiler.run lines source).sink = statements lines ++ writtenBy passages ∧
      (source = passages.map (fun passage => .ok passage.raw) ∨
        ∃ raw rest, source = passages.map (fun passage => .ok passage.raw) ++ .ok raw :: rest ∧
          Reading.of (textOf raw) = .marker) := by
  induction source generalizing compiler lines with
  | nil => exact ⟨(List.append_nil _).symm, .inl rfl⟩
  | cons read rest ih =>
    cases read with
    | error words =>
      rw [run, step_error ready] at compiled
      cases compiled
    | ok raw =>
      have next := (ready.left (textOf raw)
        (Reading.sound_effect (textOf raw) ready.sound)).advance
      rw [run, step_list ready] at compiled ⊢
      unfold transcript
      dsimp only at compiled ⊢
      have marker : ((Reading.of (textOf raw)).effect (textOf raw) compiler.state.scope).answer =
          .ok .stop → Reading.of (textOf raw) = .marker := Reading.marker_of_stop
      have unwritten : Reading.of (textOf raw) = .marker →
          ((Reading.of (textOf raw)).effect (textOf raw) compiler.state.scope).written = [] := by
        intro read
        rw [read]
        rfl
      generalize (Reading.of (textOf raw)).effect (textOf raw) compiler.state.scope = effect
        at compiled next marker unwritten ⊢
      obtain ⟨answer, scope, written⟩ := effect
      dsimp only at compiled next marker unwritten ⊢
      rcases answer with cause | progress
      · cases compiled
      · cases progress with
        | stop =>
          dsimp only
          rw [unwritten (marker rfl)]
          exact ⟨by simp [writtenBy], .inr ⟨raw, rest, rfl, marker rfl⟩⟩
        | next =>
          dsimp only at compiled ⊢
          obtain ⟨further, split⟩ := ih next compiled
          rw [scope_advance, scope_left] at further split
          constructor
          · rw [further, statements_append, statements_map, List.append_assoc]
            rfl
          · rcases split with whole | ⟨last, after, whole, ended⟩
            · exact .inl (congrArg (.ok raw :: ·) whole)
            · exact .inr ⟨last, after, congrArg (.ok raw :: ·) whole, ended⟩

/-- A source without an end marker that compiles is transcribed line for line, and writes the
statements of its transcript. -/
theorem transcribed_of_compiled {options : Options} {source : List String}
    (unmarked : ∀ raw ∈ source, Reading.of (textOf raw) ≠ .marker)
    (compiled : ((new options Family.standard).compile ([] : List Listing.Line)
      (source.map .ok)).failure = none) :
    ∃ passages last, Transcribed (.initial options) passages last ∧
      passages.map Passage.raw = source ∧
      statements ((new options Family.standard).compile ([] : List Listing.Line)
        (source.map .ok)).sink = writtenBy passages := by
  obtain ⟨written, read⟩ :=
    statements_of_run (ready_new options).restart (source.map .ok) compiled
  obtain ⟨last, lines⟩ := transcribed_transcript (.initial options) (source.map .ok)
  refine ⟨_, last, lines, ?_, written⟩
  rcases read with whole | ⟨raw, rest, split, marker⟩
  · rw [← Function.comp_def, ← List.map_map] at whole
    exact ((List.map_inj_right fun _ _ same => Except.ok.inj same).mp whole).symm
  · have member : (.ok raw : Read) ∈ source.map .ok := by
      rw [split]
      exact List.mem_append_right _ List.mem_cons_self
    obtain ⟨line, listed, same⟩ := List.mem_map.mp member
    cases same
    exact absurd marker (unmarked raw listed)

end Compiled

end Compiler

end LineAsm
