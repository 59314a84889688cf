import ShaderMachine.Assembly.Statement
import ShaderMachine.Listing.Decoded
import ShaderMachine.Machine.Error
import ShaderMachine.Text.Basic

/-! # Reports

What a command leaves behind when it ends: an exit code, what it prints, and what it says about a
failure.

**`Failure`** is what went wrong with its causes, the outermost first, and **`Failure.text`** words
it; **`Report`** is the end of a command. -/

namespace ShaderMachine

/-- What a command could not do. -/
structure Failure where
  /-- What it was about to do. -/
  context : String
  /-- Why it could not, each cause explained by the next one. -/
  causes : List String
  deriving DecidableEq, Repr

namespace Failure

/-- A cause with a label before its first line, the further lines aligned below it. -/
def labelled (label cause : String) : String :=
  let margin := String.ofList (List.replicate label.length ' ')
  let lines := (cause.toList.splitOn '\n').map String.ofList
  "\n" ++ label ++ ("\n" ++ margin).intercalate lines

/-- The wording of a failure. Causes are numbered from zero if there is more than one. -/
def text (failure : Failure) : String :=
  let listed := match failure.causes with
    | [] => ""
    | [cause] => "\n\nCaused by:" ++ labelled "    " cause
    | causes => "\n\nCaused by:" ++ String.join (causes.zipIdx.map fun (cause, number) =>
        labelled (Text.alignRight 5 (toString number) ++ ": ") cause)
  "Error: " ++ failure.context ++ listed ++ "\n"

end Failure

/-! ## Causes -/

/-- The causes in a fault of the binary form. -/
def BinaryError.causes (error : BinaryError) : List String :=
  [error.message]

/-- The causes in an error of an assembly text. -/
def AssemblyError.causes (error : AssemblyError) : List String :=
  match error with
  | invalidModule inner => error.message :: inner.causes
  | _ => [error.message]

/-- The causes in an error of a listing. -/
def ListingError.causes (error : ListingError) : List String :=
  match error with
  | invalidModule inner => error.message :: inner.causes
  | _ => [error.message]

/-- The causes in a fault of a machine. -/
def MachineError.causes (error : MachineError) : List String :=
  match error with
  | binary inner => error.message :: inner.causes
  | _ => [error.message]

/-! ## The end of a command -/

/-- What a command leaves behind. -/
structure Report where
  /-- The exit code: zero, one for a failure, two for arguments that make no sense. -/
  code : UInt8
  /-- What it prints. -/
  output : String := ""
  /-- What it says about a failure. -/
  errors : String := ""
  deriving DecidableEq, Repr

namespace Report

/-- A command that did its work. -/
def success (output : String) : Report :=
  { code := 0, output }

/-- A command that could not do its work. Nothing is printed. -/
def failure (failure : Failure) : Report :=
  { code := 1, errors := failure.text }

end Report

end ShaderMachine
