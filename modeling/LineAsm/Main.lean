import LineAsm.CommandLine.Command
/-!
# The program

The command on the real files of the system. Everything it decides is in `Command.run`; this
module opens, reads, writes and prints.
-/

namespace LineAsm

/-- The words of the system for a failure. -/
def systemWords : IO.Error → String
  | .noFileOrDirectory .. => PathError.notFound.message
  | .inappropriateType _ 20 _ => PathError.notDirectory.message
  | .inappropriateType _ 21 _ => PathError.isDirectory.message
  | .permissionDenied _ code _ => "Permission denied (os error " ++ toString code ++ ")"
  | failure => toString failure

/-- A step of the system, with the words of its failure. -/
def attempt {α : Type} (step : IO α) : IO (Except String α) := do
  match ← step.toBaseIO with
  | .ok value => return .ok value
  | .error failure => return .error (systemWords failure)

/-- The files of the system. -/
def realFiles : FileSystem IO IO.FS.Handle IO.FS.Handle where
  openInput path := attempt (IO.FS.Handle.mk path .read)
  create path := attempt (IO.FS.Handle.mk path .write)
  contents handle := do
    match ← attempt handle.readBinToEnd with
    | .ok bytes => return (bytes.toList, none)
    | .error words => return ([], some words)
  append handle text := attempt do
    handle.write text.toUTF8
    handle.flush

end LineAsm

/-- Run the command on the arguments of the program, print what it prints, and end with its
exit code. -/
def main (arguments : List String) : IO UInt32 := do
  match ← LineAsm.Command.run LineAsm.realFiles arguments with
  | .rejected cause =>
    (← IO.getStderr).putStr ("error: " ++ cause.message ++ "\n")
    return 2
  | .ended code stdout stderr =>
    (← IO.getStdout).putStr stdout
    (← IO.getStderr).putStr stderr
    return code.toUInt32
