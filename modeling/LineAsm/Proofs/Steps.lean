import LineAsm.Proofs.Calls
/-!
# What a line and a call can do

A line of a call cannot be read, fails, is refused by the sink or succeeds, and what it leaves is
known in each case (`Compiler.steps`). A call has all its lines pass, comes to the end marker or
comes to a line that fails (`Compiler.ends`). A line that succeeds is counted, and stops the call
exactly when it is the end marker.
-/

namespace LineAsm

/-- What was read is the line that ends a source before its end. -/
def Read.IsMarker : Read → Prop
  | .ok raw => Text.trim (Compiler.textOf raw) = Compiler.endMarker
  | .error _ => False

instance (read : Read) : Decidable read.IsMarker :=
  match read with
  | .ok raw => inferInstanceAs (Decidable (Text.trim (Compiler.textOf raw) = Compiler.endMarker))
  | .error _ => .isFalse id

namespace Text

/-- Nothing is left of blank characters when they are trimmed. -/
theorem trim_of_allBlank {text : String} (blank : allBlank text = true) : trim text = "" := by
  have dropped : dropBlank text.toList = [] := dropBlank_eq_nil_iff.mpr (List.all_eq_true.mp blank)
  unfold trim trimChars
  rw [dropped]
  rfl

end Text

namespace Reading

variable {text : String} {scope : Scope}

/-- A line is the end marker when it reads so without its blank ends. -/
theorem of_eq_marker_iff : of text = .marker ↔ Text.trim text = Compiler.endMarker := by
  unfold of
  constructor
  · intro read
    split at read
    · cases read
    · split at read
      · rename_i same
        exact eq_of_beq same
      · split at read <;> cases read
  · intro same
    have visible : ¬ Text.allBlank text = true := by
      intro blank
      rw [Text.trim_of_allBlank blank] at same
      exact absurd same (by decide)
    rw [if_neg visible, if_pos (beq_iff_eq.mpr same)]

/-- A line that succeeds stops the reading exactly when it is the end marker. -/
theorem stop_iff {progress : Progress}
    (passed : ((of text).effect text scope).answer = .ok progress) :
    progress = .stop ↔ Text.trim text = Compiler.endMarker := by
  rw [← of_eq_marker_iff]
  constructor
  · rintro rfl
    exact marker_of_stop passed
  · intro read
    rw [read] at passed
    exact (Except.ok.inj passed).symm

end Reading

namespace Compiler

variable {σ : Type} [Sink σ] {compiler : Compiler Family} {sink : σ}

/-- What a line does to the scope of a compiler. -/
def effectOf (compiler : Compiler Family) (raw : String) : Effect Progress :=
  (Reading.of (textOf raw)).effect (textOf raw) compiler.state.scope

/-- The lines that a line gives to the sink if it succeeds. -/
def linesOf (compiler : Compiler Family) (raw : String) : List Listing.Line :=
  (compiler.effectOf raw).written.map
    (Listing.Line.mk (compiler.toDraft.indentedBy (textOf raw)).listing.indent)

/-- The end marker gives nothing to a sink. -/
theorem linesOf_of_stop {raw : String} (stopped : (compiler.effectOf raw).answer = .ok .stop) :
    compiler.linesOf raw = [] := by
  have marker := Reading.marker_of_stop stopped
  rw [linesOf, effectOf, marker]
  rfl

/-- A line that fails on its own fails with every sink. -/
theorem step_of_failed (ready : compiler.Ready) {raw : String} {cause : CompileError}
    (failed : (compiler.effectOf raw).answer = .error cause) (sink : σ) :
    compiler.step sink (.ok raw) = (.error ⟨cause, compiler.state.line, some (textOf raw)⟩,
      compiler.left (textOf raw) (compiler.effectOf raw).scope, sink) := by
  rw [step_eq ready]
  dsimp only
  rw [← effectOf, failed]

/-- A line that succeeds on its own hands its lines to the sink. -/
theorem step_of_answered (ready : compiler.Ready) {raw : String} {progress : Progress}
    (answered : (compiler.effectOf raw).answer = .ok progress) (sink : σ) :
    compiler.step sink (.ok raw) =
      match Sink.writeAll sink (compiler.linesOf raw) with
      | (none, sink) =>
        (.ok progress, (compiler.left (textOf raw) (compiler.effectOf raw).scope).advance, sink)
      | (some words, sink) => (.error ⟨.io words, compiler.state.line, some (textOf raw)⟩,
          compiler.left (textOf raw) (compiler.effectOf raw).scope, sink) := by
  rw [step_eq ready]
  dsimp only
  rw [← effectOf, answered]
  dsimp only
  rewrite [← linesOf]
  cases Sink.writeAll sink (compiler.linesOf raw) with
  | mk refused taken => cases refused <;> rfl

/-- What a line does: how it ends, what it leaves and what the sink has become. -/
inductive Steps (compiler : Compiler Family) (sink : σ) :
    Read → Except LocatedError Progress × Compiler Family × σ → Prop where
  /-- A line that cannot be read changes nothing. -/
  | lost (words : String) :
      Steps compiler sink (.error words)
        (.error ⟨.io words, compiler.state.line, none⟩, compiler, sink)
  /-- A line that fails gives nothing to the sink. -/
  | failed {raw : String} {cause : CompileError}
      (answered : (compiler.effectOf raw).answer = .error cause) :
      Steps compiler sink (.ok raw) (.error ⟨cause, compiler.state.line, some (textOf raw)⟩,
        compiler.left (textOf raw) (compiler.effectOf raw).scope, sink)
  /-- A line whose lines are refused fails, and the sink keeps what it has taken. -/
  | refused {raw words : String} {progress : Progress} {taken : σ}
      (answered : (compiler.effectOf raw).answer = .ok progress)
      (written : Sink.writeAll sink (compiler.linesOf raw) = (some words, taken)) :
      Steps compiler sink (.ok raw) (.error ⟨.io words, compiler.state.line, some (textOf raw)⟩,
        compiler.left (textOf raw) (compiler.effectOf raw).scope, taken)
  /-- A line that succeeds is counted. -/
  | passed {raw : String} {progress : Progress} {taken : σ}
      (answered : (compiler.effectOf raw).answer = .ok progress)
      (written : Sink.writeAll sink (compiler.linesOf raw) = (none, taken)) :
      Steps compiler sink (.ok raw)
        (.ok progress, (compiler.left (textOf raw) (compiler.effectOf raw).scope).advance, taken)

/-- Every line does one of these things. -/
theorem steps (ready : compiler.Ready) (sink : σ) (read : Read) :
    Steps compiler sink read (compiler.step sink read) := by
  cases read with
  | error words =>
    rw [step_error ready]
    exact .lost words
  | ok raw =>
    cases answered : (compiler.effectOf raw).answer with
    | error cause =>
      rw [step_of_failed ready answered]
      exact .failed answered
    | ok progress =>
      rw [step_of_answered ready answered]
      cases written : Sink.writeAll sink (compiler.linesOf raw) with
      | mk refused taken =>
        cases refused with
        | none => exact .passed answered written
        | some words => exact .refused answered written

section Lists

variable {sort : Statement → Prop}

/-- What a line adds to a list is of one sort if all is that it writes when it succeeds. -/
theorem sorted_of_step (ready : compiler.Ready)
    (sorted : ∀ raw progress, (compiler.effectOf raw).answer = .ok progress →
      ∀ statement ∈ (compiler.effectOf raw).written, sort statement)
    (lines : List Listing.Line) (read : Read) :
    ∀ line ∈ (compiler.step lines read).2.2, line ∈ lines ∨ sort line.statement := by
  have known := steps ready lines read
  generalize compiler.step lines read = result at known ⊢
  cases known with
  | lost | failed => exact fun line member => .inl member
  | refused answered written =>
    rw [Sink.writeAll_list] at written
    cases written
  | @passed raw progress taken answered written =>
    rw [Sink.writeAll_list] at written
    cases written
    intro line member
    refine (List.mem_append.mp member).imp_right fun added => ?_
    obtain ⟨statement, present, rfl⟩ := List.mem_map.mp added
    exact sorted raw progress answered statement present

/-- What a source adds to a list is of one sort if all is that its lines write when they succeed,
where every line keeps what this rests on. -/
theorem sorted_of_run {holds : Compiler Family → Prop}
    (kept : ∀ (compiler : Compiler Family) (lines : List Listing.Line) (read : Read),
      compiler.Ready → holds compiler → holds (compiler.step lines read).2.1)
    (sorted : ∀ compiler : Compiler Family, compiler.Ready → holds compiler → ∀ raw progress,
      (compiler.effectOf raw).answer = .ok progress →
        ∀ statement ∈ (compiler.effectOf raw).written, sort statement)
    (ready : compiler.Ready) (start : holds compiler) (lines : List Listing.Line)
    (source : List Read) :
    ∀ line ∈ (compiler.run lines source).sink, line ∈ lines ∨ sort line.statement := by
  induction source generalizing compiler lines with
  | nil => exact fun line member => .inl member
  | cons read rest ih =>
    have next := ready.step lines read
    have held := kept compiler lines read ready start
    have here := sorted_of_step ready (sorted compiler ready start) lines read
    unfold run
    split
    all_goals rename_i stepped; rw [stepped] at next held here
    · intro line member
      exact (ih next held _ line member).elim (here line) .inr
    · exact here
    · exact here

end Lists

/-- A line that succeeds stops the reading exactly when it is the end marker. -/
theorem step_stop_iff (ready : compiler.Ready) {read : Read} {progress : Progress}
    (passed : (compiler.step sink read).1 = .ok progress) :
    progress = .stop ↔ read.IsMarker := by
  have known := steps ready sink read
  generalize compiler.step sink read = result at known passed
  cases known with
  | lost | failed | refused => cases passed
  | passed answered written =>
    cases passed
    exact Reading.stop_iff answered

/-- A line that succeeds is counted. -/
theorem line_of_step (ready : compiler.Ready) {read : Read} {progress : Progress}
    (passed : (compiler.step sink read).1 = .ok progress) :
    (compiler.step sink read).2.1.state.line = compiler.state.line + 1 := by
  have known := steps ready sink read
  generalize compiler.step sink read = result at known passed ⊢
  cases known with
  | lost | failed | refused => cases passed
  | passed answered written => exact congrArg (· + 1) (line_left compiler _ _)

section Passing

variable {here : Compiler Family} {taken : σ} {before : List Read}

/-- Each line that has been passed has been counted. -/
theorem Passes.line (passed : Passes compiler sink before here taken) (ready : compiler.Ready) :
    here.state.line = compiler.state.line + before.length := by
  induction passed with
  | nil => rfl
  | @cons compiler middle last sink between taken read reads first rest ih =>
    have next := ready.step sink read
    have counted := line_of_step ready (congrArg Prod.fst first)
    rw [first] at next counted
    rw [ih next, counted, List.length_cons]
    omega

/-- No line that has been passed is the end marker. -/
theorem Passes.unmarked (passed : Passes compiler sink before here taken)
    (ready : compiler.Ready) : ∀ read ∈ before, ¬ read.IsMarker := by
  induction passed with
  | nil => nofun
  | @cons compiler middle last sink between taken read reads first rest ih =>
    have next := ready.step sink read
    have stops := step_stop_iff ready (congrArg Prod.fst first)
    rw [first] at next
    refine List.forall_mem_cons.mpr ⟨fun marker => ?_, ih next⟩
    cases stops.mpr marker

end Passing

/-- How a call ends. -/
inductive Ends (compiler : Compiler Family) (sink : σ) :
    List Read → Outcome Family σ → Prop where
  /-- All lines pass. -/
  | done {source : List Read} {here : Compiler Family} {taken : σ}
      (passed : Passes compiler sink source here taken) :
      Ends compiler sink source ⟨none, here, taken⟩
  /-- Some lines pass, and the next one stops the reading. -/
  | stopped {before : List Read} {here last : Compiler Family} {taken written : σ} {read : Read}
      (passed : Passes compiler sink before here taken)
      (stepped : here.step taken read = (.ok .stop, last, written)) (after : List Read) :
      Ends compiler sink (before ++ read :: after) ⟨none, last, written⟩
  /-- Some lines pass, and the next one fails. -/
  | failed {before : List Read} {here last : Compiler Family} {taken written : σ} {read : Read}
      {failure : LocatedError} (passed : Passes compiler sink before here taken)
      (stepped : here.step taken read = (.error failure, last, written)) (after : List Read) :
      Ends compiler sink (before ++ read :: after) ⟨some failure, last, written⟩

/-- What happens behind a line that passes happens behind it. -/
theorem Ends.cons {middle : Compiler Family} {between : σ} {read : Read} {source : List Read}
    {outcome : Outcome Family σ} (first : compiler.step sink read = (.ok .next, middle, between))
    (rest : Ends middle between source outcome) :
    Ends compiler sink (read :: source) outcome := by
  cases rest with
  | done passed => exact .done (.cons first passed)
  | stopped passed stepped after => exact .stopped (.cons first passed) stepped after
  | failed passed stepped after => exact .failed (.cons first passed) stepped after

/-- Every call ends in one of these ways. -/
theorem ends (compiler : Compiler Family) (sink : σ) (source : List Read) :
    Ends compiler sink source (compiler.run sink source) := by
  induction source generalizing compiler sink with
  | nil => exact .done .nil
  | cons read rest ih =>
    rw [run]
    cases stepped : compiler.step sink read with
    | mk answer result =>
      obtain ⟨next, taken⟩ := result
      rcases answer with failure | progress
      · exact .failed .nil stepped rest
      · cases progress with
        | next => exact .cons stepped (ih next taken)
        | stop => exact .stopped .nil stepped rest

end Compiler

end LineAsm
