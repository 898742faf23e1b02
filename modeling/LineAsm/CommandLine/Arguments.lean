/-!
# Arguments of the command

The command takes the name of an input file, the name of an output file if the assembly is not
to go to the standard output, and flags that leave comments out. A parameter is written long
after two dashes or, where it has a letter, short after one. The value of an option is attached
to it, with or without an equals sign when the option is short, or is the next argument; a next
argument that begins with a dash is no value, unless it is the dash alone. Nothing may be given
twice. A request for the version or for help is answered as soon as it is met. Two dashes alone
end the parameters, and nothing may follow them.
-/

namespace LineAsm

/-- What the command was asked to compile. -/
structure Arguments where
  /-- The name of the input file. -/
  input : String
  /-- The name of the output file, if the assembly does not go to the standard output. -/
  output : Option String := none
  /-- Lines of source are not repeated as comments. -/
  noSource : Bool := false
  /-- Comment lines of the source are left out. -/
  noComments : Bool := false
deriving DecidableEq, Repr

/-- Why arguments make no request. -/
inductive UsageError where
  /-- The command has no such parameter. -/
  | unexpected (argument : String)
  /-- A parameter is given twice. -/
  | repeated (name : String)
  /-- An option has no value. -/
  | missingValue (name : String)
  /-- A flag is given a value. -/
  | needlessValue (name : String)
  /-- No input file is named. -/
  | missingInput
deriving DecidableEq, Repr

/-- The wording of a usage error. -/
def UsageError.message : UsageError → String
  | .unexpected argument => "unexpected argument: " ++ argument
  | .repeated name => "--" ++ name ++ " cannot be used multiple times"
  | .missingValue name => "--" ++ name ++ " needs a value"
  | .needlessValue name => "--" ++ name ++ " takes no value"
  | .missingInput => "--input is required"

/-- What the command was asked to do. -/
inductive Request where
  /-- Compile a file. -/
  | compile (arguments : Arguments)
  /-- Print the version. -/
  | version
  /-- Print how the command is used. -/
  | help
deriving DecidableEq, Repr

namespace Arguments

/-- The parameters of the command. -/
inductive Parameter where
  /-- The option that names the input file. -/
  | input
  /-- The option that names the output file. -/
  | output
  /-- The flag that leaves out lines of source. -/
  | noSource
  /-- The flag that leaves out comments of the source. -/
  | noComments
  /-- The flag that asks for the version. -/
  | version
  /-- The flag that asks for help. -/
  | help
deriving DecidableEq, Repr

/-- The long name of a parameter. -/
def Parameter.name : Parameter → String
  | .input => "input"
  | .output => "output"
  | .noSource => "no-source"
  | .noComments => "no-comments"
  | .version => "version"
  | .help => "help"

/-- The letter of a parameter that has a short form. -/
def Parameter.letter? : Parameter → Option Char
  | .input => some 'i'
  | .output => some 'o'
  | .version => some 'V'
  | .help => some 'h'
  | .noSource | .noComments => none

/-- Options take a value, flags do not. -/
def Parameter.takesValue : Parameter → Bool
  | .input | .output => true
  | _ => false

/-- Every parameter once. -/
def Parameter.all : List Parameter := [.input, .output, .noSource, .noComments, .version, .help]

/-- The parameter of a long name. -/
def Parameter.named? (name : String) : Option Parameter :=
  Parameter.all.find? fun parameter => parameter.name == name

/-- The parameter of a letter. -/
def Parameter.lettered? (letter : Char) : Option Parameter :=
  Parameter.all.find? fun parameter => parameter.letter? == some letter

/-- What the arguments read so far have set. -/
structure Settings where
  /-- The name of the input file, once given. -/
  input : Option String := none
  /-- The name of the output file, once given. -/
  output : Option String := none
  /-- Whether source lines are left out. -/
  noSource : Bool := false
  /-- Whether user comments are left out. -/
  noComments : Bool := false
deriving DecidableEq, Repr

namespace Settings

/-- What the settings ask for, when no argument is left: an input file is needed. -/
def finish (settings : Settings) : Except UsageError Request :=
  match settings.input with
  | none => .error .missingInput
  | some input =>
    .ok (.compile ⟨input, settings.output, settings.noSource, settings.noComments⟩)

/-- Set the value of an option that has none. -/
def supply (settings : Settings) (parameter : Parameter) (value : String) :
    Except UsageError Settings :=
  match parameter with
  | .input =>
    if settings.input.isSome then .error (.repeated parameter.name)
    else .ok { settings with input := some value }
  | .output =>
    if settings.output.isSome then .error (.repeated parameter.name)
    else .ok { settings with output := some value }
  | _ => .error (.needlessValue parameter.name)

/-- Set a flag that is not set. -/
def raise (settings : Settings) (parameter : Parameter) : Except UsageError Settings :=
  match parameter with
  | .noSource =>
    if settings.noSource then .error (.repeated parameter.name)
    else .ok { settings with noSource := true }
  | .noComments =>
    if settings.noComments then .error (.repeated parameter.name)
    else .ok { settings with noComments := true }
  | _ => .error (.missingValue parameter.name)

end Settings

/-- One argument as it is written. -/
inductive Written where
  /-- Two dashes alone. -/
  | divider
  /-- A parameter, with a value if one is attached. -/
  | setting (parameter : Parameter) (value : Option String)
  /-- Anything else. -/
  | other
deriving DecidableEq, Repr

/-- How an argument is written. -/
def Written.ofArgument (argument : String) : Written :=
  match argument.toList with
  | ['-', '-'] => .divider
  | '-' :: '-' :: body =>
    let value := match body.dropWhile (· != '=') with
      | [] => none
      | _ :: value => some (String.ofList value)
    match Parameter.named? (.ofList (body.takeWhile (· != '='))) with
    | some parameter => .setting parameter value
    | none => .other
  | '-' :: letter :: body =>
    let value := match body with
      | [] => none
      | '=' :: value => some (String.ofList value)
      | value => some (String.ofList value)
    match Parameter.lettered? letter with
    | some parameter => .setting parameter (if parameter.takesValue then value else none)
    | none => .other
  | _ => .other

/-- Whether an argument can be the value of the option before it. -/
def isValue (argument : String) : Bool := argument == "-" || argument.toList.head? != some '-'

/-- What the rest of the arguments asks for, under the settings made before. -/
def read (settings : Settings) : List String → Except UsageError Request
  | [] => settings.finish
  | argument :: rest =>
    match Written.ofArgument argument with
    | .divider =>
      match rest with
      | [] => settings.finish
      | extra :: _ => .error (.unexpected extra)
    | .other => .error (.unexpected argument)
    | .setting parameter (some value) => do read (← settings.supply parameter value) rest
    | .setting .version none => .ok .version
    | .setting .help none => .ok .help
    | .setting parameter none =>
      if parameter.takesValue then
        match rest with
        | [] => .error (.missingValue parameter.name)
        | value :: rest =>
          if isValue value then do read (← settings.supply parameter value) rest
          else .error (.missingValue parameter.name)
      else do read (← settings.raise parameter) rest

/-- What the arguments ask for. -/
def request (arguments : List String) : Except UsageError Request := read {} arguments

end Arguments

end LineAsm
