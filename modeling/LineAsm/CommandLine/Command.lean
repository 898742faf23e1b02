import LineAsm.CommandLine.Arguments
import LineAsm.CommandLine.Directory
import LineAsm.Compiler
/-!
# The command

The command opens its input, creates its output, compiles and hands the assembly over. What it
needs of the files around it is a `FileSystem`, so that the same command runs on real files and
on a `Directory`. The output is created, and emptied, before the input is read. When
compilation fails, only what the output buffer has already handed on is written.
-/

namespace LineAsm

/-- What the command needs of the files around it. Every failure comes with its words. -/
structure FileSystem (m : Type → Type) (Input Output : Type) where
  /-- Open a file for reading. -/
  openInput : String → m (Except String Input)
  /-- Create a file, or empty the one that is there. -/
  create : String → m (Except String Output)
  /-- Everything that can be read, and the failure after it, if there is one. -/
  contents : Input → m (List UInt8 × Option String)
  /-- Add text to the end of a created file. -/
  append : Output → String → m (Except String Unit)

/-- How the command ended. -/
inductive Command.Outcome where
  /-- The arguments made no request. -/
  | rejected (cause : UsageError)
  /-- The command ran, and left an exit code and what it printed. -/
  | ended (code : Nat) (stdout stderr : String)
deriving DecidableEq, Repr

namespace Command

/-- What is printed when the version is asked for. -/
def version : String := "xscc 0.1.0\n"

/-- What is printed when help is asked for. -/
def help : String :=
  "Usage: xscc [OPTIONS] --input <INPUT>\n\n" ++
  "Options:\n" ++
  "  -i, --input <INPUT>    Filename of the input\n" ++
  "  -o, --output <OUTPUT>  Filename of the output, stdout if not provided\n" ++
  "      --no-source        Do not echo source lines as comments\n" ++
  "      --no-comments      Drop user comments from the output\n" ++
  "  -h, --help             Print help\n" ++
  "  -V, --version          Print version\n"

/-- What is printed when the input cannot be opened. -/
def unreadable (name words : String) : String :=
  "Unable to read input file " ++ name ++ " - " ++ words ++ "\n"

/-- What is printed when the output cannot be created. -/
def uncreatable (name words : String) : String :=
  "Unable to create output file " ++ name ++ " - " ++ words ++ "\n"

/-- What is printed when the assembly cannot be handed over. -/
def unwritable (words : String) : String := "Unable to write output - " ++ words ++ "\n"

/-- What is printed when compilation fails. -/
def report (failure : LocatedError) : String :=
  "Error: " ++ failure.cause.message ++ "\n" ++
    match failure.text with
    | some text => toString failure.line ++ " >> " ++ text ++ "\n"
    | none => ""

/-- The options that the flags of the arguments ask for. -/
def options (arguments : Arguments) : Options := ⟨!arguments.noSource, !arguments.noComments⟩

/-- What compiling gives: the text handed on, and the failure if there was one. Without a
failure the buffer is emptied; with one, what waits in it is lost. -/
def assemble (arguments : Arguments) (source : List Read) : String × Option LocatedError :=
  let compiler := Compiler.new (options arguments) Family.standard
  let outcome := compiler.compile ({} : BufferedText) source
  match outcome.failure with
  | none => (outcome.sink.all, none)
  | some failure => (outcome.sink.delivered, some failure)

/-- The end of a run that has compiled, with what went to the standard output. -/
def conclude (stdout : String) : Option LocatedError → Outcome
  | none => .ended 0 stdout ""
  | some failure => .ended 2 stdout (report failure)

variable {m : Type → Type} [Monad m] {Input Output : Type}

/-- Compile a file. -/
def compile (system : FileSystem m Input Output) (arguments : Arguments) : m Outcome := do
  match ← system.openInput arguments.input with
  | .error words => return .ended 1 "" (unreadable arguments.input words)
  | .ok input =>
    match arguments.output with
    | none =>
      let (bytes, failure) ← system.contents input
      let (text, failure) := assemble arguments (Source.ofBytes bytes failure)
      return conclude text failure
    | some name =>
      match ← system.create name with
      | .error words => return .ended 1 "" (uncreatable name words)
      | .ok output =>
        let (bytes, failure) ← system.contents input
        let (text, failure) := assemble arguments (Source.ofBytes bytes failure)
        match ← system.append output text, failure with
        | .error words, none => return .ended 1 "" (unwritable words)
        | _, failure => return conclude "" failure

/-- Do what the arguments ask for. -/
def run (system : FileSystem m Input Output) (arguments : List String) : m Outcome :=
  match Arguments.request arguments with
  | .error cause => return .rejected cause
  | .ok .version => return .ended 0 version ""
  | .ok .help => return .ended 0 help ""
  | .ok (.compile arguments) => compile system arguments

end Command

namespace Directory

/-- The files of a directory. A directory opens as an input and cannot be read. -/
def system : FileSystem (StateM Directory) Place String where
  openInput path := do return ((← get).resolve false path).mapError PathError.message
  create path := do
    match (← get).resolve true path with
    | .error cause => return .error cause.message
    | .ok .directory => return .error PathError.isDirectory.message
    | .ok (.file name) =>
      modify fun directory => directory.put name []
      return .ok name
  contents
    | .directory => return ([], some PathError.isDirectory.message)
    | .file name => do return (((← get).get? name).getD [], none)
  append name text := do
    modify fun directory =>
      directory.put name ((directory.get? name).getD [] ++ Text.encode text)
    return .ok ()

/-- Run the command in a directory: how it ended, and the directory after it. -/
def runCommand (directory : Directory) (arguments : List String) : Command.Outcome × Directory :=
  (Command.run system arguments).run directory

end Directory

end LineAsm
