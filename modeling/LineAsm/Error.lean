import LineAsm.Block
import LineAsm.Token.Lexer
/-!
# Causes of failure

A line of source fails because its tokens cannot be read or are not recognised, because no
namespace is declared, because its operands or its place are wrong, because blocks do not
match, or because reading or writing fails. Each cause is a value; its wording is in one
function for each type.
-/

namespace LineAsm

/-- What can be missing of the surroundings of a line. -/
inductive ConfigError where
  /-- A name has to be qualified and no namespace is declared. -/
  | namespaceUnavailable
deriving DecidableEq, Repr

/-- The wording of a missing surrounding. -/
def ConfigError.message : ConfigError → String
  | .namespaceUnavailable =>
    "namespace not available - source must begin with a namespace declaration"

/-- Why a line is no line of the dialect. -/
inductive DialectError where
  /-- Some text of the line is no token. -/
  | malformed (cause : LexError)
  /-- The line has no token. -/
  | empty
  /-- No construct ends with the last token. -/
  | unrecognized (text : String)
deriving DecidableEq, Repr

/-- The wording of a line that is none of the dialect. -/
def DialectError.message : DialectError → String
  | .malformed cause => "Malformed Line => " ++ cause.message
  | .empty => "No tokens found"
  | .unrecognized text => "Unrecognized Construct \"" ++ text ++ "\""

/-- What is wrong with the operands of a line. -/
inductive OperandError where
  /-- The token is of no kind that names an operand. -/
  | notOperand (value : String)
  /-- A number is written to. -/
  | immediateDestination (value : String)
  /-- Both operands of one instruction are memory. -/
  | bothMemory (destination source : String)
  /-- Two operands cannot be combined in memory. -/
  | needsRegister (destination left right : String)
  /-- A number is popped into. -/
  | immediatePop (value : String)
  /-- The port is neither the port register nor a number of one byte. -/
  | badPort (found : String)
  /-- A shift is counted by a register other than the count register. -/
  | badCount (found : String)
deriving DecidableEq, Repr

/-- The wording of wrong operands. -/
def OperandError.message : OperandError → String
  | .notOperand value => "\"" ++ value ++ "\" is not an operand"
  | .immediateDestination value => "immediate \"" ++ value ++ "\" cannot be a destination"
  | .bothMemory destination source =>
    "\"" ++ destination ++ "\" and \"" ++ source ++ "\" are both memory"
  | .needsRegister destination left right =>
    "\"" ++ destination ++ "\" needs a register to combine \"" ++ left ++ "\" and \"" ++ right ++
      "\""
  | .immediatePop value => "cannot pop into immediate \"" ++ value ++ "\""
  | .badPort found => "port must be DX or an 8-bit immediate, found \"" ++ found ++ "\""
  | .badCount found => "shift count must be CL or an immediate, found \"" ++ found ++ "\""

/-- Why no assembly can be written for a line. -/
inductive EmissionError where
  /-- The operands are wrong. -/
  | invalidOperands (cause : OperandError)
  /-- The construct belongs inside a function. -/
  | outsideFunction (construct : String)
  /-- A function begins inside the one named. -/
  | nestedFunction (function : String)
  /-- The construct belongs inside a block. -/
  | noOpenBlock (construct : String)
deriving DecidableEq, Repr

/-- The wording of a line that no assembly can be written for. -/
def EmissionError.message : EmissionError → String
  | .invalidOperands cause => "Invalid Operands - " ++ cause.message
  | .outsideFunction construct => "\"" ++ construct ++ "\" is only allowed inside a function"
  | .nestedFunction function =>
    "function \"" ++ function ++ "\" started before the previous one ended"
  | .noOpenBlock construct => "\"" ++ construct ++ "\" used without an open block"

/-- Why compilation stops. -/
inductive CompileError where
  /-- The surroundings of the line lack something. -/
  | config (cause : ConfigError)
  /-- The line is none of the dialect. -/
  | dialect (cause : DialectError)
  /-- No assembly can be written for the line. -/
  | emission (cause : EmissionError)
  /-- The blocks do not match. -/
  | structural (cause : BlockError)
  /-- Reading or writing failed, with the words of the system. -/
  | io (text : String)
deriving DecidableEq, Repr

/-- The wording of a failed compilation, without the place. -/
def CompileError.message : CompileError → String
  | .config cause => "Configuration Error => " ++ cause.message
  | .dialect cause => "Dialect Error => " ++ cause.message
  | .emission cause => "Emission Error => " ++ cause.message
  | .structural cause => "Structural Error => " ++ cause.message
  | .io text => "IO Error => " ++ text

/-- A failure and the line of source it happened on. -/
structure LocatedError where
  /-- Why compilation stopped. -/
  cause : CompileError
  /-- The number of the line, counted from one. -/
  line : Nat
  /-- The line, if it could be read. -/
  text : Option String
deriving DecidableEq, Repr

/-- The wording of a failure with its line. -/
def LocatedError.message (e : LocatedError) : String :=
  "compilation failed at line " ++ toString e.line ++ " - " ++ e.cause.message ++
    match e.text with
    | some text => " - \"" ++ Text.trim text ++ "\""
    | none => ""

end LineAsm
