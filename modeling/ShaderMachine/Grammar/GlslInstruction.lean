import ShaderMachine.Binary.Word

/-! # The extended instructions

The instructions of the set `GLSL.std.450` that this machine evaluates.

**`GlslInstruction`** lists them by number; **`GlslInstruction.arity`** is the number of operand
IDs each one takes. -/

namespace ShaderMachine

/-- The name under which a module imports the set. -/
def glslSetName : String := "GLSL.std.450"

/-- An extended instruction this machine evaluates. -/
inductive GlslInstruction where
  /-- Absolute value. -/
  | fAbs
  /-- Greatest integer not above. -/
  | floor
  /-- Least integer not below. -/
  | ceil
  /-- Distance above the floor. -/
  | fract
  /-- Power. -/
  | pow
  /-- Square root. -/
  | sqrt
  /-- One over the square root. -/
  | inverseSqrt
  /-- Lesser of two. -/
  | fMin
  /-- Greater of two. -/
  | fMax
  /-- Nearest value of an interval. -/
  | fClamp
  /-- Linear blend. -/
  | fMix
  /-- Length of a vector. -/
  | length
  /-- Distance of two points. -/
  | distance
  /-- Cross product. -/
  | cross
  /-- Vector of length one. -/
  | normalize
  deriving DecidableEq, Repr

namespace GlslInstruction

/-- Every extended instruction, in numeric order. -/
def all : List GlslInstruction :=
  [.fAbs, .floor, .ceil, .fract, .pow, .sqrt, .inverseSqrt, .fMin, .fMax, .fClamp, .fMix,
    .length, .distance, .cross, .normalize]

/-- The literal operand that selects the instruction. -/
def number : GlslInstruction → Word
  | fAbs => 4
  | floor => 8
  | ceil => 9
  | fract => 10
  | pow => 26
  | sqrt => 31
  | inverseSqrt => 32
  | fMin => 37
  | fMax => 40
  | fClamp => 43
  | fMix => 46
  | length => 66
  | distance => 67
  | cross => 68
  | normalize => 69

/-- The spelling in assembly text. -/
def name : GlslInstruction → String
  | fAbs => "FAbs"
  | floor => "Floor"
  | ceil => "Ceil"
  | fract => "Fract"
  | pow => "Pow"
  | sqrt => "Sqrt"
  | inverseSqrt => "InverseSqrt"
  | fMin => "FMin"
  | fMax => "FMax"
  | fClamp => "FClamp"
  | fMix => "FMix"
  | length => "Length"
  | distance => "Distance"
  | cross => "Cross"
  | normalize => "Normalize"

/-- The number of operand IDs. -/
def arity : GlslInstruction → Nat
  | fAbs | floor | ceil | fract | sqrt | inverseSqrt | length | normalize => 1
  | pow | fMin | fMax | distance | cross => 2
  | fClamp | fMix => 3

/-- The extended instruction with a given number. -/
def ofNumber? (number : Word) : Option GlslInstruction :=
  all.find? fun instruction => instruction.number == number

/-- The extended instruction with a given spelling. -/
def ofName? (name : String) : Option GlslInstruction :=
  all.find? fun instruction => instruction.name == name

/-- An extended instruction is found by its number. -/
@[simp] theorem ofNumber?_number (instruction : GlslInstruction) :
    ofNumber? instruction.number = some instruction := by
  cases instruction <;> rfl

/-- An extended instruction is found by its spelling. -/
@[simp] theorem ofName?_name (instruction : GlslInstruction) :
    ofName? instruction.name = some instruction := by
  cases instruction <;> rfl

end GlslInstruction

end ShaderMachine
