import LineAsm.CommandLine.Command
import LineAsm.Proofs.Sinks
import LineAsm.Proofs.Sources
import Mathlib.Control.Monad.Basic
/-!
# What the command does to files

The command opens its input, creates its output and compiles what it then reads from the input. So
it delivers what the compiler gives for the bytes that the input held before, if the two are
different files; if they are one file, that file has been emptied before it is read
(`Directory.runCommand_compile`). No other file changes (`Directory.get?_put`). The buffer between
the compiler and the output loses nothing of a call that succeeds, and of a call that fails at most
an end of what was written (`Command.delivers_assemble`).
-/

namespace LineAsm

namespace Directory

/-- Where the contents of the files of one name are replaced, all others are found as before. -/
theorem lookup_map_replace (files : List (String × List UInt8)) (name other : String)
    (contents : List UInt8) :
    (files.map fun file => if file.1 == name then (name, contents) else file).lookup other =
      if other = name then (files.lookup name).map fun _ => contents else files.lookup other := by
  induction files with
  | nil => simp
  | cons file rest ih =>
    obtain ⟨here, held⟩ := file
    by_cases same : here = name
    · subst same
      by_cases wanted : other = here
      · simp [wanted]
      · have past : (other == here) = false := beq_false_of_ne wanted
        rw [if_neg wanted] at ih ⊢
        simp only [List.map_cons, beq_self_eq_true, ↓reduceIte, List.lookup_cons, past, ih]
    · have kept : (here == name) = false := beq_false_of_ne same
      have apart : (name == here) = false := beq_false_of_ne fun equal => same equal.symm
      by_cases wanted : other = here
      · subst wanted
        simp [same]
      · have past : (other == here) = false := beq_false_of_ne wanted
        simp only [List.map_cons, kept, Bool.false_eq_true, ↓reduceIte, List.lookup_cons, past,
          apart, ih]

/-- A file that is given new contents has them, and no other file changes. -/
theorem get?_put (directory : Directory) (name : String) (contents : List UInt8) (other : String) :
    (directory.put name contents).get? other =
      if other = name then some contents else directory.get? other := by
  unfold put
  split
  · rename_i present
    obtain ⟨held, found⟩ := Option.isSome_iff_exists.mp present
    refine (lookup_map_replace directory.files name other contents).trans ?_
    rw [show directory.files.lookup name = some held from found]
    rfl
  · rename_i absent
    have none : directory.files.lookup name = none := Option.not_isSome_iff_eq_none.mp absent
    refine List.lookup_append.trans ?_
    by_cases wanted : other = name
    · subst wanted
      simp [none]
    · have apart : (other == name) = false := beq_false_of_ne wanted
      simp [wanted, apart, List.lookup_cons, get?]

end Directory

namespace Sink

/-- A buffered text takes all lines, and what was written to it grows by them. -/
theorem writeAll_buffered (buffer : BufferedText) (lines : List Listing.Line) :
    (writeAll buffer lines).1 = none ∧
      (writeAll buffer lines).2.all = buffer.all ++ Listing.written lines := by
  induction lines generalizing buffer with
  | nil => simp [writeAll, Listing.written]
  | cons line rest ih =>
    have written : Sink.write buffer line = (none, (buffer.put line.text).put "\n") := rfl
    have joined : Listing.written (line :: rest) = line.written ++ Listing.written rest := by
      simp [Listing.written, String.join_cons]
    obtain ⟨taken, grown⟩ := ih ((buffer.put line.text).put "\n")
    simp only [writeAll, written]
    refine ⟨taken, ?_⟩
    rw [grown, BufferedText.all_put, BufferedText.all_put, joined, Listing.Line.written,
      String.append_assoc, String.append_assoc, String.append_assoc]

/-- A buffered text is unfailing. -/
theorem unfailing_buffered (buffer : BufferedText) : Unfailing buffer := fun lines =>
  (writeAll_buffered buffer lines).1

end Sink

namespace Compiler

/-- A source is compiled into a buffered text as it is into a text, and the buffered text is the
text that was handed on and then the text that waits. -/
theorem run_buffered {compiler : Compiler Family} (ready : compiler.Ready) (source : List Read) :
    let whole := compiler.run "" source
    let buffered := compiler.run ({} : BufferedText) source
    buffered.failure = whole.failure ∧
      whole.sink = buffered.sink.delivered ++ buffered.sink.pending := by
  dsimp only
  rw [run_text ready, run_of_unfailing ready (Sink.unfailing_buffered {})]
  exact ⟨rfl, (Sink.writeAll_buffered {} _).2.symm⟩

end Compiler

namespace Command

/-- The call of a new compiler that a request asks for, on a source. -/
def compiled (request : Arguments) (source : List Read) : Compiler.Outcome Family String :=
  (Compiler.new (options request) Family.standard).compile "" source

/-- What the command leaves of a call. If the call succeeds, the command succeeds and its output
holds what the call has written. If the call fails, the command reports it, and its output holds a
first part of that. -/
def Delivers (call : Compiler.Outcome Family String) (outcome : Outcome)
    (output : Option (List UInt8)) : Prop :=
  match call.failure with
  | none => outcome = .ended 0 "" "" ∧ output = some (Text.encode call.sink)
  | some failure => outcome = .ended 2 "" (report failure) ∧
      ∃ kept lost, call.sink = kept ++ lost ∧ output = some (Text.encode kept)

/-- What is assembled for a request is delivered. -/
theorem delivers_assemble (request : Arguments) (source : List Read) :
    Delivers (compiled request source) (conclude "" (assemble request source).2)
      (some (Text.encode (assemble request source).1)) := by
  have ready := (Compiler.ready_new (options request)).restart
  obtain ⟨failed, written⟩ := Compiler.run_buffered ready source
  have call : compiled request source =
      (Compiler.new (options request) Family.standard).restart.run "" source := rfl
  have buffered : (Compiler.new (options request) Family.standard).compile ({} : BufferedText)
      source = (Compiler.new (options request) Family.standard).restart.run {} source := rfl
  unfold Delivers assemble
  dsimp only
  rw [call, buffered, ← failed]
  cases ended : ((Compiler.new (options request) Family.standard).restart.run
      ({} : BufferedText) source).failure with
  | none => exact ⟨rfl, by rw [written]; rfl⟩
  | some failure => exact ⟨rfl, _, _, written, rfl⟩

end Command

namespace Directory

/-- What can be read from the place that a path leads to, and the failure after it. -/
def held (directory : Directory) : Place → List UInt8 × Option String
  | .directory => ([], some PathError.isDirectory.message)
  | .file name => ((directory.get? name).getD [], none)

/-- The lines of what can be read from a place. -/
def readings (directory : Directory) (source : Place) : List Read :=
  Source.ofBytes (directory.held source).1 (directory.held source).2

section Operations

variable (directory : Directory)

/-- An input is opened where its path leads, and opening it leaves the directory as it is. -/
theorem system_openInput (path : String) :
    (system.openInput path).run directory = pure (match directory.resolve false path with
      | .error cause => (.error cause.message, directory)
      | .ok place => (.ok place, directory)) := by
  have opened : (system.openInput path).run directory =
      pure ((directory.resolve false path).mapError PathError.message, directory) := rfl
  rw [opened]
  cases directory.resolve false path <;> rfl

/-- An output is created where its path leads to a file, and that file is emptied. -/
theorem system_create (path : String) :
    (system.create path).run directory = pure (match directory.resolve true path with
      | .error cause => (.error cause.message, directory)
      | .ok .directory => (.error PathError.isDirectory.message, directory)
      | .ok (.file name) => (.ok name, directory.put name [])) := by
  simp only [system, StateT.run_bind, StateT.run_get, pure_bind]
  cases directory.resolve true path with
  | error cause => rfl
  | ok place => cases place <;> rfl

/-- Reading what a path leads to leaves the directory as it is. -/
theorem system_contents (source : Place) :
    (system.contents source).run directory = pure (directory.held source, directory) := by
  cases source <;> rfl

/-- Text is added to the end of a file. -/
theorem system_append (name text : String) :
    (system.append name text).run directory = pure (.ok (), directory.put name
      ((directory.get? name).getD [] ++ Text.encode text)) := rfl

end Operations

section Run

variable {directory : Directory} {arguments : List String} {request : Arguments}
  {output : String}

/-- Where the input cannot be opened, the command says so and touches nothing. -/
theorem runCommand_of_unreadable
    (asked : Arguments.request arguments = .ok (.compile request)) {cause : PathError}
    (lost : directory.resolve false request.input = .error cause) :
    directory.runCommand arguments =
      (.ended 1 "" (Command.unreadable request.input cause.message), directory) := by
  simp only [runCommand, Command.run, asked, Command.compile, StateT.run_bind, system_openInput,
    lost, pure_bind]
  rfl

/-- Where the output cannot be created, the command says so and touches nothing. -/
theorem runCommand_of_uncreatable
    (asked : Arguments.request arguments = .ok (.compile request))
    (named : request.output = some output) {source : Place}
    (opened : directory.resolve false request.input = .ok source) {cause : PathError}
    (lost : directory.resolve true output = .error cause ∨
      directory.resolve true output = .ok .directory ∧ cause = .isDirectory) :
    directory.runCommand arguments =
      (.ended 1 "" (Command.uncreatable output cause.message), directory) := by
  obtain lost | ⟨lost, rfl⟩ := lost <;>
    simp only [runCommand, Command.run, asked, Command.compile, StateT.run_bind, system_openInput,
      opened, named, system_create, lost, pure_bind] <;>
    rfl

/-- Where the input is opened and the output created, the output is emptied, the input is read, and
what is assembled of it goes to the output. -/
theorem runCommand_of_created
    (asked : Arguments.request arguments = .ok (.compile request))
    (named : request.output = some output) {source : Place} {target : String}
    (opened : directory.resolve false request.input = .ok source)
    (created : directory.resolve true output = .ok (.file target)) :
    let emptied := directory.put target []
    let assembled := Command.assemble request (emptied.readings source)
    directory.runCommand arguments = (Command.conclude "" assembled.2,
      emptied.put target (Text.encode assembled.1)) := by
  have nothing : ((directory.put target []).get? target).getD [] = [] := by
    rw [get?_put, if_pos rfl, Option.getD_some]
  simp only [runCommand, Command.run, asked, Command.compile, StateT.run_bind, system_openInput,
    opened, named, system_create, created, system_contents, system_append,
    nothing, List.nil_append, pure_bind]
  rfl

/-- The command opens its input and creates its output before it reads. If that fails, it says so
and no file changes. If the two are different files, the output then holds what a call of the
compiler on the bytes that the input held leaves of it, and the command succeeds if that call does.
If they are the same file, the command empties it and succeeds. No other file changes. The directory
holds files only: where a directory below it would have to be entered, the path is one that cannot
be opened, as if nothing were there. -/
theorem runCommand_compile
    (asked : Arguments.request arguments = .ok (.compile request))
    (named : request.output = some output) :
    let outcome := (directory.runCommand arguments).1
    let after := (directory.runCommand arguments).2
    match directory.resolve false request.input, directory.resolve true output with
    | .error cause, _ =>
      outcome = .ended 1 "" (Command.unreadable request.input cause.message) ∧ after = directory
    | .ok _, .error cause =>
      outcome = .ended 1 "" (Command.uncreatable output cause.message) ∧ after = directory
    | .ok _, .ok .directory =>
      outcome = .ended 1 "" (Command.uncreatable output PathError.isDirectory.message) ∧
        after = directory
    | .ok source, .ok (.file target) =>
      (∀ name, name ≠ target → after.get? name = directory.get? name) ∧
        (source ≠ .file target → Command.Delivers
          (Command.compiled request (directory.readings source)) outcome (after.get? target)) ∧
        (source = .file target → outcome = .ended 0 "" "" ∧ after.get? target = some []) := by
  dsimp only
  split
  · rename_i cause _ lost
    rw [runCommand_of_unreadable asked lost]
    exact ⟨rfl, rfl⟩
  · rename_i source cause opened lost
    rw [runCommand_of_uncreatable asked named opened (.inl lost)]
    exact ⟨rfl, rfl⟩
  · rename_i source opened lost
    rw [runCommand_of_uncreatable asked named opened (.inr ⟨lost, rfl⟩)]
    exact ⟨rfl, rfl⟩
  · rename_i source target opened created
    rw [runCommand_of_created asked named opened created]
    dsimp only
    have others (name : String) (other : name ≠ target) (contents : List UInt8) :
        ((directory.put target []).put target contents).get? name = directory.get? name := by
      rw [get?_put, if_neg other, get?_put, if_neg other]
    have held (contents : List UInt8) :
        ((directory.put target []).put target contents).get? target = some contents := by
      rw [get?_put, if_pos rfl]
    refine ⟨fun name other => others name other _, fun apart => ?_, fun alike => ?_⟩
    · have kept : (directory.put target []).readings source = directory.readings source := by
        cases source with
        | directory => rfl
        | file name =>
          have other : name ≠ target := fun same => apart (congrArg Place.file same)
          simp only [readings, Directory.held, get?_put, if_neg other]
      rw [held, kept]
      exact Command.delivers_assemble request _
    · have nothing : (directory.put target []).readings source = [] := by
        rw [alike, readings, Directory.held, get?_put, if_pos rfl]
        exact Source.ofBytes_nil
      rw [held, nothing]
      exact ⟨rfl, rfl⟩

/-- A file is compiled into another one, and the file that is its own output is lost, though the
compiler would make text of it. -/
theorem runCommand_compile_itself :
    let line := Text.encode "EAX = 1\n"
    let directory : Directory := ⟨[("a.xs", line)]⟩
    let request : Arguments := ⟨"a.xs", some "./a.xs", true, false⟩
    let elsewhere : Arguments := ⟨"a.xs", some "b.asm", true, false⟩
    (Command.compiled request (Source.ofBytes line none)).sink = "mov EAX, 1\n" ∧
      (directory.runCommand ["-i", "a.xs", "-o", "./a.xs", "--no-source"]).1 = .ended 0 "" "" ∧
      (directory.runCommand ["-i", "a.xs", "-o", "./a.xs", "--no-source"]).2.get? "a.xs" =
        some [] ∧
      Command.Delivers (Command.compiled elsewhere (Source.ofBytes line none))
        (directory.runCommand ["-i", "a.xs", "-o", "b.asm", "--no-source"]).1
        ((directory.runCommand ["-i", "a.xs", "-o", "b.asm", "--no-source"]).2.get? "b.asm") := by
  intro line directory request elsewhere
  have asked : Arguments.request ["-i", "a.xs", "-o", "./a.xs", "--no-source"] =
      .ok (.compile request) := rfl
  have other : Arguments.request ["-i", "a.xs", "-o", "b.asm", "--no-source"] =
      .ok (.compile elsewhere) := rfl
  have itself := @runCommand_compile directory _ request "./a.xs" asked rfl
  have apart := @runCommand_compile directory _ elsewhere "b.asm" other rfl
  have opened : directory.resolve false "a.xs" = .ok (.file "a.xs") := by decide +kernel
  have created : directory.resolve true "./a.xs" = .ok (.file "a.xs") := by decide +kernel
  have fresh : directory.resolve true "b.asm" = .ok (.file "b.asm") := by decide +kernel
  dsimp only at itself apart
  rw [show request.input = "a.xs" from rfl, opened, created] at itself
  rw [show elsewhere.input = "a.xs" from rfl, opened, fresh] at apart
  obtain ⟨succeeded, emptied⟩ := itself.2.2 rfl
  exact ⟨by decide +kernel, succeeded, emptied, apart.2.1 (by decide)⟩

end Run

end Directory

end LineAsm
