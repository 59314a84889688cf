import ShaderMachine.CommandLine.Action

/-! # The program

**`Action.perform`** carries out an action on the files of the system, and **`main`** that of the
program's arguments. -/

namespace ShaderMachine

/-- What the system says about a file. -/
def faultOfError : IO.Error → FileFault
  | .noFileOrDirectory _ _ _ => .notFound
  | .permissionDenied _ _ _ => .permissionDenied
  | .inappropriateType _ 21 _ => .isDirectory
  | .inappropriateType _ _ _ => .notDirectory
  | .invalidArgument _ _ "name too long" => .nameTooLong
  | .resourceExhausted _ 28 _ => .noSpace
  | error => .other (toString error)

/-- Do something with a file; what the system says about it is part of the result. -/
def attempt {α : Type} (act : IO α) : IO (Except FileFault α) := do
  match ← act.toBaseIO with
  | .ok value => return .ok value
  | .error error => return .error (faultOfError error)

/-- Write a file. What the system holds back is written out before the end, so that no fault is
missed. -/
def writeWhole (file : String) (contents : Bytes) : IO Unit :=
  IO.FS.withFile file .write fun handle => do
    handle.write contents.toByteArray
    handle.flush

/-- Carry out an action on the files of the system. -/
def Action.perform : Action → IO Report
  | .finish report => return report
  | .read file next => do
      let contents ← attempt (IO.FS.readBinFile file)
      (next (contents.map fun bytes => bytes.toList)).perform
  | .write file contents next => do
      let written ← attempt (writeWhole file contents)
      (next written).perform

end ShaderMachine

/-- Run the program with its arguments. -/
def main (arguments : List String) : IO UInt32 := do
  let report ← (ShaderMachine.actionOfArguments arguments).perform
  IO.print report.output
  IO.eprint report.errors
  return report.code.toUInt32
