import ShaderMachine.Decimal.Notation
import ShaderMachine.Machine.Lane
import ShaderMachine.Text.Basic

/-! # Arguments

The arguments of the program: a command with its own switches and at most one file. Arguments are
read from left to right, and the first one that asks for help or makes no sense decides.

**`Switch`** lists the switches; **`scanArguments`** splits arguments into switches, their values
and plain arguments; **`Request`** is what the arguments ask for, and **`Request.ofArguments`**
reads it. -/

namespace ShaderMachine

/-- A switch. -/
inductive Switch where
  /-- Say more about what happens; may be repeated. -/
  | verbose
  /-- Explain the arguments. -/
  | help
  /-- Tell the version. -/
  | version
  /-- The entry point to call. -/
  | entry
  /-- Data for an input location; may be repeated. -/
  | input
  /-- The largest number of instructions that the call may execute. -/
  | maxInstructions
  /-- Fail on unsupported instructions. -/
  | strict
  /-- The file to write. -/
  | output
  deriving DecidableEq, Repr

namespace Switch

/-- The long spelling, without its dashes. -/
def long : Switch → String
  | verbose => "verbose"
  | help => "help"
  | version => "version"
  | entry => "entry"
  | input => "input"
  | maxInstructions => "max-instructions"
  | strict => "strict"
  | output => "output"

/-- The short spelling, without its dash. -/
def short? : Switch → Option Char
  | verbose => some 'v'
  | help => some 'h'
  | version => some 'V'
  | output => some 'o'
  | entry | input | maxInstructions | strict => none

/-- Whether a value follows the switch. -/
def takesValue : Switch → Bool
  | entry | input | maxInstructions | output => true
  | verbose | help | version | strict => false

end Switch

/-- Why arguments make no sense. -/
inductive UsageError where
  /-- No command is given. -/
  | missingCommand
  /-- There is no such command. -/
  | unknownCommand (name : String)
  /-- There is no place for an argument. -/
  | unexpected (argument : String)
  /-- A switch has no value. -/
  | missingValue (switch : Switch)
  /-- A switch that stands alone is given a value. -/
  | unexpectedValue (switch : Switch)
  /-- A switch is given twice. -/
  | repeated (switch : Switch)
  /-- A value cannot be read. -/
  | invalidValue (switch : Switch) (value : String)
  /-- The name of a file is empty. -/
  | emptyFile
  /-- The file is missing. -/
  | missingFile
  /-- A switch that must be given is missing. -/
  | missingSwitch (switch : Switch)
  deriving DecidableEq, Repr

namespace UsageError

/-- The wording of an error. -/
def message : UsageError → String
  | missingCommand => "a command is required"
  | unknownCommand name => "unrecognized command '" ++ name ++ "'"
  | unexpected argument => "unexpected argument '" ++ argument ++ "'"
  | missingValue switch => "a value is required for '--" ++ switch.long ++ "'"
  | unexpectedValue switch => "unexpected value for '--" ++ switch.long ++ "'"
  | repeated switch => "'--" ++ switch.long ++ "' cannot be used multiple times"
  | invalidValue switch value => "invalid value '" ++ value ++ "' for '--" ++ switch.long ++ "'"
  | emptyFile => "the name of a file is empty"
  | missingFile => "a file is required"
  | missingSwitch switch => "'--" ++ switch.long ++ "' is required"

end UsageError

/-! ## Scanning -/

/-- One thing that the arguments say. -/
inductive Argument where
  /-- A switch without a value. -/
  | flag (switch : Switch)
  /-- A switch with its value. -/
  | option (switch : Switch) (value : String)
  /-- An argument that is no switch. -/
  | plain (text : String)
  /-- Something that makes no sense. -/
  | bad (error : UsageError)
  deriving DecidableEq, Repr

/-- Whether an argument is spelt like a switch. A lone dash is not. -/
def isDashed (argument : String) : Bool :=
  match argument.toList with
  | '-' :: _ :: _ => true
  | _ => false

/-- A switch whose value is the next argument, unless that is spelt like a switch; the answer says
whether the next argument is used up. -/
def valueFrom (switch : Switch) (next : Option String) : Argument × Bool :=
  match next with
  | some value =>
      if isDashed value then (.bad (.missingValue switch), false) else (.option switch value, true)
  | none => (.bad (.missingValue switch), false)

/-- Read a long switch, given without its dashes; a value may stand after an equals sign. -/
def scanLong (switches : List Switch) (text : List Char) (next : Option String) :
    List Argument × Bool :=
  let (name, attached) := text.span (· != '=')
  match switches.find? fun switch => switch.long.toList = name with
  | none => ([.bad (.unexpected (String.ofList ('-' :: '-' :: text)))], false)
  | some switch =>
      match switch.takesValue, attached with
      | true, [] => let (argument, used) := valueFrom switch next; ([argument], used)
      | true, _ :: value => ([.option switch (String.ofList value)], false)
      | false, [] => ([.flag switch], false)
      | false, _ :: _ => ([.bad (.unexpectedValue switch)], false)

/-- Read short switches that share a dash, given without it; the value of one that takes a value
is the rest, without an equals sign before it, or else the next argument. -/
def scanShort (switches : List Switch) (next : Option String) :
    List Char → List Argument × Bool
  | [] => ([], false)
  | c :: rest =>
      match switches.find? fun switch => switch.short? = some c with
      | none => ([.bad (.unexpected (String.ofList ['-', c]))], false)
      | some switch =>
          if switch.takesValue then
            match rest with
            | [] => let (argument, used) := valueFrom switch next; ([argument], used)
            | '=' :: value => ([.option switch (String.ofList value)], false)
            | value => ([.option switch (String.ofList value)], false)
          else
            let (arguments, used) := scanShort switches next rest
            (.flag switch :: arguments, used)

/-- Read an argument; one that is not spelt like a switch is plain. -/
def scanArgument (switches : List Switch) (argument : String) (next : Option String) :
    List Argument × Bool :=
  match argument.toList with
  | '-' :: '-' :: text => scanLong switches text next
  | '-' :: c :: text => scanShort switches next (c :: text)
  | _ => ([.plain argument], false)

/-- Read the arguments of a command with the given switches. After two dashes every argument is
plain. -/
def scanArguments (switches : List Switch) : List String → List Argument
  | [] => []
  | argument :: rest =>
      if argument = "--" then
        rest.map .plain
      else
        let (arguments, used) := scanArgument switches argument rest.head?
        arguments ++ scanArguments switches (rest.drop used.toNat)
termination_by arguments => arguments.length
decreasing_by simp only [List.length_drop, List.length_cons]; omega

/-! ## Requests -/

/-- What to run, and how. -/
structure RunOptions where
  /-- The file with the module. -/
  file : String
  /-- The entry point to call. -/
  entry : String
  /-- The data for the input locations, in order. -/
  inputs : List (Word × Bytes)
  /-- The largest number of instructions that the call may execute, if it is not the usual one. -/
  maxInstructions : Option Nat
  /-- Whether unsupported instructions are errors. -/
  strict : Bool
  deriving DecidableEq, Repr

/-- What the arguments ask for. -/
inductive Request where
  /-- Explain the arguments. -/
  | help
  /-- Tell the version. -/
  | version
  /-- Call an entry point once and print its outputs. -/
  | run (options : RunOptions)
  /-- Print the listing of a module. -/
  | list (file : String)
  /-- Assemble a text into a file. -/
  | assemble (file output : String)
  /-- Print which instructions are handled. -/
  | instructions
  deriving DecidableEq, Repr

/-- The values found so far among the arguments of a command. -/
structure Settings where
  /-- The plain argument. -/
  file : Option String := none
  /-- The value of `entry`. -/
  entry : Option String := none
  /-- The values of `input`, in order. -/
  inputs : List (Word × Bytes) := []
  /-- The value of `maxInstructions`. -/
  maxInstructions : Option Nat := none
  /-- Whether `strict` is given. -/
  strict : Bool := false
  /-- The value of `output`. -/
  output : Option String := none

/-- A natural number below a limit, with an optional plus sign. -/
def readBelow? (limit : Nat) (text : List Char) : Option Nat :=
  let digits := match text with
    | '+' :: rest => rest
    | _ => text
  (readDigits? digits).filter (· < limit)

/-- The data for an input location: the location, an equals sign, and floats between commas, with
blanks around any of them. -/
def readInput? (text : List Char) : Option (Word × Bytes) :=
  match text.span (· != '=') with
  | (_, []) => none
  | (location, _ :: values) => do
      let location ← readBelow? 4294967296 (Text.trim location)
      let floats ← (values.splitOn ',').mapM fun value =>
        FloatFormat.single.read? (Text.trim value)
      return (UInt32.ofNat location,
        encodeLanes (floats.map fun bits => Single.mk (UInt32.ofNat bits)))

namespace Settings

/-- Note a switch with its value. Only the data for inputs may be given more than once. -/
def noteOption (settings : Settings) (switch : Switch) (value : String) :
    Except UsageError Settings :=
  match switch with
  | .entry =>
      if settings.entry.isSome then .error (.repeated switch)
      else .ok { settings with entry := some value }
  | .output =>
      if settings.output.isSome then .error (.repeated switch)
      else if value = "" then .error .emptyFile
      else .ok { settings with output := some value }
  | .maxInstructions =>
      if settings.maxInstructions.isSome then .error (.repeated switch)
      else match readBelow? 18446744073709551616 value.toList with
        | some limit => .ok { settings with maxInstructions := some limit }
        | none => .error (.invalidValue switch value)
  | .input =>
      match readInput? value.toList with
      | some input => .ok { settings with inputs := settings.inputs ++ [input] }
      | none => .error (.invalidValue switch value)
  | .verbose | .help | .version | .strict => .error (.unexpectedValue switch)

/-- Note a plain argument, which is the file. -/
def notePlain (settings : Settings) (takesFile : Bool) (text : String) :
    Except UsageError Settings :=
  if !takesFile || settings.file.isSome then .error (.unexpected text)
  else if text = "" then .error .emptyFile
  else .ok { settings with file := some text }

/-- Collect the settings of a command. Nothing is the answer if help is asked for before anything
that makes no sense. -/
def collect (takesFile : Bool) (settings : Settings) :
    List Argument → Except UsageError (Option Settings)
  | [] => .ok (some settings)
  | .bad error :: _ => .error error
  | .flag .help :: _ => .ok none
  | .flag .strict :: rest =>
      if settings.strict then .error (.repeated .strict)
      else collect takesFile { settings with strict := true } rest
  | .flag _ :: rest => collect takesFile settings rest
  | .option switch value :: rest => do
      collect takesFile (← settings.noteOption switch value) rest
  | .plain text :: rest => do
      collect takesFile (← settings.notePlain takesFile text) rest

/-- The file, which must be given. -/
def requiredFile (settings : Settings) : Except UsageError String :=
  match settings.file with
  | some file => .ok file
  | none => .error .missingFile

end Settings

/-- A command of the program. -/
inductive Command where
  | run
  | disasm
  | asm
  | ops
  | help
  deriving DecidableEq, Repr

namespace Command

/-- Every command. -/
def all : List Command :=
  [.run, .disasm, .asm, .ops, .help]

/-- The name of a command. -/
def name : Command → String
  | run => "run"
  | disasm => "disasm"
  | asm => "asm"
  | ops => "ops"
  | help => "help"

/-- The command with a given name. -/
def ofName? (name : String) : Option Command :=
  all.find? fun command => command.name == name

/-- The switches of a command; every command has those for help and for saying more. -/
def switches : Command → List Switch
  | run => [.verbose, .help, .entry, .input, .maxInstructions, .strict]
  | asm => [.verbose, .help, .output]
  | disasm | ops | help => [.verbose, .help]

/-- Whether a file stands among the arguments of a command. -/
def takesFile : Command → Bool
  | run | disasm | asm => true
  | ops | help => false

/-- The request that a command and its settings make. -/
def request (command : Command) (settings : Settings) : Except UsageError Request :=
  match command with
  | run => settings.requiredFile.map fun file =>
      .run ⟨file, settings.entry.getD "main", settings.inputs, settings.maxInstructions,
        settings.strict⟩
  | disasm => settings.requiredFile.map .list
  | asm => do
      let file ← settings.requiredFile
      match settings.output with
      | some output => return .assemble file output
      | none => .error (.missingSwitch .output)
  | ops => .ok .instructions
  | help => .ok .help

/-- The request that a command makes with the arguments after it. The command for help takes the
name of a command and nothing else. -/
def ofArguments (command : Command) (arguments : List String) : Except UsageError Request :=
  match command, arguments with
  | help, [] => .ok .help
  | help, name :: rest =>
      match ofName? name, rest with
      | none, _ => .error (.unknownCommand name)
      | some _, [] => .ok .help
      | some _, extra :: _ => .error (.unknownCommand extra)
  | _, _ => do
      match ← Settings.collect command.takesFile {} (scanArguments command.switches arguments) with
      | some settings => command.request settings
      | none => return .help

end Command

namespace Request

/-- What the switches before a command ask for, if they ask for anything. -/
def early? : List Argument → Except UsageError (Option Request)
  | [] => .ok none
  | .flag .help :: _ => .ok (some .help)
  | .flag .version :: _ => .ok (some .version)
  | .bad error :: _ => .error error
  | _ :: rest => early? rest

/-- Read the arguments of the program. -/
def ofArguments : List String → Except UsageError Request
  | [] => .error .missingCommand
  | argument :: rest =>
      if argument = "--" then
        match rest with
        | [] => .error .missingCommand
        | extra :: _ => .error (.unexpected extra)
      else if isDashed argument then do
        match ← early? (scanArgument [.verbose, .help, .version] argument none).1 with
        | some request => return request
        | none => ofArguments rest
      else
        match Command.ofName? argument with
        | some command => command.ofArguments rest
        | none => .error (.unknownCommand argument)

end Request

end ShaderMachine
