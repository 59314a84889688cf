import ShaderMachine.Assembly.Encoder
import ShaderMachine.CommandLine.Arguments
import ShaderMachine.CommandLine.Report
import ShaderMachine.Listing.Page
import ShaderMachine.Machine.Call

/-! # Actions

What a request does with files, step by step, without saying where the files are.

**`Action`** is a sequence of reads and writes that ends in a report; **`Request.action`** is the
action of a request, and **`actionOfArguments`** that of the program's arguments. -/

namespace ShaderMachine

/-- Why a file cannot be read or written. -/
inductive FileFault where
  /-- There is no such file. -/
  | notFound
  /-- A directory on the way is a file. -/
  | notDirectory
  /-- It is a directory. -/
  | isDirectory
  /-- A name, or the whole path, is too long. -/
  | nameTooLong
  /-- There is no room for the contents. -/
  | noSpace
  /-- Access is not allowed. -/
  | permissionDenied
  /-- Any other reason, in the system's words. -/
  | other (reason : String)
  deriving DecidableEq, Repr

namespace FileFault

/-- The wording of a fault. -/
def message : FileFault → String
  | notFound => "No such file or directory (os error 2)"
  | notDirectory => "Not a directory (os error 20)"
  | isDirectory => "Is a directory (os error 21)"
  | nameTooLong => "File name too long (os error 36)"
  | noSpace => "No space left on device (os error 28)"
  | permissionDenied => "Permission denied (os error 13)"
  | other reason => reason

end FileFault

/-- A sequence of reads and writes that ends in a report. -/
inductive Action where
  /-- The end. -/
  | finish (report : Report)
  /-- Read a file and go on with its contents. -/
  | read (file : String) (next : Except FileFault Bytes → Action)
  /-- Write a file, in place of what it held, and go on. -/
  | write (file : String) (contents : Bytes) (next : Except FileFault Unit → Action)

namespace Action

/-- End in the text to print or in a failure. -/
def conclude (result : Except Failure String) : Action :=
  .finish (match result with
    | .ok output => .success output
    | .error failure => .failure failure)

/-- Go on with the result of a step, or end if it failed. -/
def orFail {ε α : Type} (context : String) (causes : ε → List String) (next : α → Action) :
    Except ε α → Action
  | .ok value => next value
  | .error error => .finish (.failure ⟨context, causes error⟩)

/-- Read a file and go on with its contents. -/
def readFile (file : String) (next : Bytes → Action) : Action :=
  .read file (orFail ("failed to read " ++ file) (fun fault => [fault.message]) next)

/-- Read a file and go on with the module it holds. -/
def loadModule (file : String) (next : Module → Action) : Action :=
  readFile file fun bytes =>
    orFail ("failed to load " ++ file) BinaryError.causes next (Module.ofBytes bytes)

end Action

/-! ## Requests -/

/-- The line about the data of an output location. -/
def outputLine (location : Nat) (data : Bytes) : String :=
  let values := (decodeLanes data).map fun lane : Single =>
    DecimalStyle.report.write .single lane.bits.toNat
  s!"location {location}: [" ++ ", ".intercalate values ++ "]\n"

namespace RunOptions

/-- The limits of the machine. -/
def configuration (options : RunOptions) : Configuration :=
  let usual : Configuration := {}
  { usual with
    maxInstructions := options.maxInstructions.getD usual.maxInstructions
    strict := options.strict }

/-- A machine with the inputs bound, in order. -/
def bindInputs (machine : Machine) (inputs : List (Word × Bytes)) : Except Failure Machine :=
  inputs.foldlM
    (fun machine (location, data) => (machine.bind location data).mapError fun error =>
      ⟨s!"cannot bind input location {location}", error.causes⟩)
    machine

/-- Call the entry point of a module and list the outputs. -/
def outputText (options : RunOptions) (loaded : Module) : Except Failure String := do
  let machine ← (Machine.ofModule options.configuration loaded).mapError fun error =>
    ⟨"setup failed", error.causes⟩
  let machine ← bindInputs machine options.inputs
  let outcome := machine.callEntryPoint options.configuration options.entry
  let _ ← outcome.result.mapError fun error =>
    ⟨"entry point \"" ++ options.entry ++ "\" failed", error.causes⟩
  return String.join (outcome.machine.slots.written.map fun (location, data) =>
    outputLine location data)

end RunOptions

/-- Assemble the contents of a file, which must be text. -/
def assembleContents (file : String) (contents : Bytes) : Except Failure Module :=
  match textOfBytes? contents with
  | none => .error ⟨"failed to read " ++ file, ["stream did not contain valid UTF-8"]⟩
  | some source => (assemble source).mapError fun error =>
      ⟨"failed to assemble " ++ file, error.causes⟩

/-- The names of instructions, one per line under a heading. -/
def instructionList (heading : String) (opcodes : List Opcode) : String :=
  heading ++ ":\n" ++ String.join (opcodes.map fun opcode => "  " ++ opcode.mnemonic ++ "\n")

/-- The explanation of the arguments. -/
def helpText : String :=
  "Run, assemble and disassemble SPIR-V shaders\n\n" ++
    "Usage: spirv-vm [OPTIONS] <COMMAND>\n\n" ++
    "Commands:\n" ++
    "  run FILE [--entry NAME] [--input LOC=VALUES]... [--max-instructions N] [--strict]\n" ++
    "          Execute an entry point once and print its outputs\n" ++
    "  disasm FILE\n" ++
    "          Print the assembly listing of a binary\n" ++
    "  asm FILE --output FILE\n" ++
    "          Assemble text into a binary\n" ++
    "  ops\n" ++
    "          List the opcodes the interpreter handles\n" ++
    "  help [COMMAND]\n" ++
    "          Print this message\n\n" ++
    "Options:\n" ++
    "  -v, --verbose  Raise the log level\n" ++
    "  -h, --help     Print help\n" ++
    "  -V, --version  Print version\n"

namespace Request

/-- The action of a request. -/
def action : Request → Action
  | help => .finish (.success helpText)
  | version => .finish (.success "spirv-vm 0.1.0\n")
  | run options => .loadModule options.file fun loaded => .conclude (options.outputText loaded)
  | list file => .loadModule file fun loaded =>
      .conclude ((listing loaded).mapError fun error =>
        ⟨"failed to disassemble " ++ file, error.causes⟩)
  | assemble file output => .readFile file fun contents =>
      match assembleContents file contents with
      | .error failure => .finish (.failure failure)
      | .ok loaded => .write output loaded.bytes
          (Action.orFail ("failed to write " ++ output) (fun fault => [fault.message])
            fun () => .finish (.success ""))
  | instructions => .finish (.success (instructionList "setup" setupTable.opcodes ++
      instructionList "execution" executionTable.opcodes))

end Request

/-- What the program does with its arguments. -/
def actionOfArguments (arguments : List String) : Action :=
  match Request.ofArguments arguments with
  | .ok request => request.action
  | .error error => .finish { code := 2, errors := "error: " ++ error.message ++ "\n" }

end ShaderMachine
