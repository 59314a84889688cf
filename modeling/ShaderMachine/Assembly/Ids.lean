import Std.Data.HashMap
import Std.Data.HashSet
import ShaderMachine.Assembly.Statement
import ShaderMachine.Binary.Module
import ShaderMachine.Decimal.Notation

/-! # Numbers for IDs

An ID whose name is a number keeps that number. The other names are numbered in order of first
appearance, from one above the largest numeric ID on.

**`Statement.idNames`** are the IDs a statement mentions; **`IdNumbers`** is the numbering, and
**`IdNumbers.ofStatements`** finds it. The numbers are words: **`IdNumbers.needed`** is how far they
go, and **`IdNumbers.counted`** is the numbering of a text whose IDs can be counted in words. -/

namespace ShaderMachine

namespace Statement

/-- The names of the IDs that a statement mentions, its result first. -/
def idNames (statement : Statement) : List String :=
  statement.result.toList ++ statement.operands.filterMap Operand.idName?

end Statement

/-- Whether the name of an ID is a number. -/
def isNumericName (name : String) : Bool :=
  name.toList.all Char.isDigit

/-- The number that a numeric name stands for, if an ID may have it. -/
def numericId? (name : String) : Option Nat :=
  (readDigits? name.toList).filter fun number => 0 < number && number < maxBound.toNat

/-- The elements of a list without repetition, in order of first appearance. -/
def distinct (names : List String) : List String :=
  (names.foldl
    (fun (seen, kept) name =>
      if seen.contains name then (seen, kept) else (seen.insert name, name :: kept))
    ((∅ : Std.HashSet String), ([] : List String))).2.reverse

/-- The numbers of all IDs that a text mentions. -/
structure IdNumbers where
  /-- The number of each name. -/
  table : Std.HashMap String Id
  /-- One above the largest number. -/
  bound : Id

namespace IdNumbers

/-- The first numeric name that no ID may have, with its line. -/
def firstInvalid? (statements : List Statement) : Option (Nat × String) :=
  statements.findSome? fun statement =>
    (statement.idNames.find? fun name => isNumericName name && (numericId? name).isNone).map
      fun name => (statement.line, name)

/-- Number the names of a text, given without repetition in order of first appearance. -/
def ofNames (names : List String) : IdNumbers :=
  let (numeric, named) := names.partition isNumericName
  let numbered := numeric.filterMap fun name => (numericId? name).map fun number => (name, number)
  let largest := numbered.foldl (fun largest pair => max largest pair.2) 0
  let pairs := numbered ++ named.zipIdx (largest + 1)
  ⟨pairs.foldl (fun table pair => table.insert pair.1 (UInt32.ofNat pair.2)) ∅,
    UInt32.ofNat (largest + 1 + named.length)⟩

/-- Number the IDs that the statements of a text mention. -/
def ofStatements (statements : List Statement) : Except AssemblyError IdNumbers :=
  match firstInvalid? statements with
  | some (line, name) => .error (.invalidId line name)
  | none => .ok (ofNames (distinct (statements.flatMap Statement.idNames)))

/-- The numeric names among some, with their numbers. -/
def numbered (names : List String) : List (String × Nat) :=
  (names.filter isNumericName).filterMap fun name =>
    (numericId? name).map fun number => (name, number)

/-- The bound that names need: one above the largest number, with one more number for each name that
is no number. -/
def needed (names : List String) : Nat :=
  (numbered names).foldl (fun largest pair => max largest pair.2) 0 + 1 +
    (names.filter (not ∘ isNumericName)).length

/-- Number the IDs that the statements of a text mention, counting up from the largest number. The
program stops if a sum on the way, up to the bound itself, is no word. -/
def counted (statements : List Statement) : Except AssemblyError IdNumbers := do
  let numbers ← ofStatements statements
  if needed (distinct (statements.flatMap Statement.idNames)) < UInt32.size then
    return numbers
  else
    .error (.stopped .sumTooLarge)

/-- The number of a name. -/
def get? (numbers : IdNumbers) (name : String) : Option Id :=
  numbers.table[name]?

end IdNumbers

end ShaderMachine
