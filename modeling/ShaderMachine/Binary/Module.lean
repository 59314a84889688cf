import ShaderMachine.Binary.Cursor
import ShaderMachine.Grammar.Opcode

/-! # Modules

A module is a header and a stream of well-framed instructions. Loading checks the header, cuts
the stream into instructions and gathers what the module says about itself, so no later reader
has to check a word count again.

**`ModuleHeader`** is the header; **`Framing`** is a stream cut into instructions as far as that
works; **`Metadata`** is what the mode-setting instructions say; **`Module`** is the loaded
module, with **`Module.ofWords`** and **`Module.ofBytes`** to load one and **`Module.words`** and
**`Module.bytes`** to write it again. **`Module.Scan`** is what loading has gathered so far. -/

namespace ShaderMachine

/-- The first word of every module. -/
def magicNumber : Word := 0x07230203

/-- The first word of a module that was written in the other byte order. -/
def swappedMagicNumber : Word := 0x03022307

/-- The number of words before the first instruction. -/
def headerLength : Nat := 5

/-- The largest bound on IDs that a module may have. -/
def maxBound : Word := 4194304

/-- The header of a module, without its magic number. -/
structure ModuleHeader where
  /-- The version, its major number in the third byte and its minor number in the second. -/
  version : Word
  /-- The tool that wrote the module in the high half, the tool's own version in the low half. -/
  generator : Word
  /-- All IDs are below this number. -/
  bound : Word
  /-- A reserved word. -/
  schema : Word
  deriving DecidableEq, Repr

namespace ModuleHeader

/-- The header of a module of version 1.0. -/
def ofBound (bound generator : Word) : ModuleHeader :=
  ⟨0x00010000, generator, bound, 0⟩

/-- The major number of the version. -/
def majorVersion (header : ModuleHeader) : Nat :=
  header.version.toNat / 65536 % 256

/-- The minor number of the version. -/
def minorVersion (header : ModuleHeader) : Nat :=
  header.version.toNat / 256 % 256

/-- The registered number of the tool that wrote the module. -/
def tool (header : ModuleHeader) : Nat :=
  header.generator.toNat / 65536

/-- The version that the tool gives itself. -/
def toolVersion (header : ModuleHeader) : Nat :=
  header.generator.toNat % 65536

/-- The registered tools, by number. -/
def toolNames : List String :=
  ["Khronos", "LunarG", "Valve", "Codeplay", "NVIDIA", "ARM", "Khronos LLVM/SPIR-V Translator",
    "Khronos SPIR-V Tools Assembler", "Khronos Glslang Reference Front End", "Qualcomm", "AMD",
    "Intel", "Imagination", "Google Shaderc over Glslang", "Google spiregg", "Google rspirv"]

/-- The name of the tool that wrote the module, if it is a registered one. -/
def toolName? (header : ModuleHeader) : Option String :=
  toolNames[header.tool]?

/-- The header as the first words of a module. -/
def words (header : ModuleHeader) : List Word :=
  [magicNumber, header.version, header.generator, header.bound, header.schema]

end ModuleHeader

/-- A stream cut into instructions as far as that works. -/
structure Framing where
  /-- The instructions before the first fault. -/
  instructions : List Instruction
  /-- The fault, if the stream has one. -/
  fault : Option BinaryError

namespace Framing

/-- Cut a stream that starts at `offset`, after the instructions already `read` (latest first). -/
def cut (read : List Instruction) (offset : Nat) (words : List Word) : Framing :=
  if words.isEmpty then
    ⟨read.reverse, none⟩
  else
    match _h : cutInstruction offset words with
    | .error fault => ⟨read.reverse, some fault⟩
    | .ok (instruction, rest) => cut (instruction :: read) instruction.stop rest
termination_by words.length
decreasing_by exact length_lt_of_cutInstruction ‹_›

/-- Cut a stream that starts at `offset`. -/
def ofWords (offset : Nat) (words : List Word) : Framing :=
  cut [] offset words

end Framing

/-- What a module says about itself. -/
structure Metadata where
  /-- The capabilities it declares, in order. -/
  capabilities : Array Word := #[]
  /-- How it represents pointers. -/
  addressingModel : Option Word := none
  /-- How it orders memory accesses. -/
  memoryModel : Option Word := none
  /-- The language of its source text and that language's version. -/
  source : Option (Word × Word) := none
  deriving DecidableEq, Repr

namespace Metadata

/-- Note what one instruction says. Only the instructions read here need operands to load. -/
def note (metadata : Metadata) (instruction : Instruction) : Except BinaryError Metadata :=
  match Opcode.ofNumber? instruction.opcode, instruction.operands with
  | some .capability, capability :: _ =>
      .ok { metadata with capabilities := metadata.capabilities.push capability }
  | some .memoryModel, addressing :: memory :: _ =>
      .ok { metadata with addressingModel := some addressing, memoryModel := some memory }
  | some .source, language :: version :: _ =>
      .ok { metadata with source := some (language, version) }
  | some .capability, _ | some .memoryModel, _ | some .source, _ =>
      .error (instruction.malformed .missingOperands)
  | _, _ => .ok metadata

end Metadata

/-- A loaded module. -/
structure Module where
  /-- Its header. -/
  header : ModuleHeader
  /-- Its instructions, in order. -/
  instructions : List Instruction
  /-- What it says about itself. -/
  metadata : Metadata
  /-- How many instructions were counted when it was loaded. -/
  instructionCount : Nat

namespace Module

/-- What is gathered while the instructions of a module are gone through. -/
structure Scan where
  /-- What the instructions so far say about the module. -/
  metadata : Metadata := {}
  /-- How many they are. -/
  count : Nat := 0

/-- Go on to the next instruction: it is counted, then noted. -/
def Scan.visit (scan : Scan) (instruction : Instruction) : Except BinaryError Scan :=
  (scan.metadata.note instruction).map (⟨·, scan.count + 1⟩)

/-- Check the header of a module given as words; the answer holds the words after it. -/
def readHeader : List Word → Except BinaryError (ModuleHeader × List Word)
  | magic :: version :: generator :: bound :: schema :: rest =>
      if magic ≠ magicNumber then
        .error (.badMagic magic)
      else if bound = 0 ∨ maxBound < bound then
        .error (.invalidBound bound)
      else
        .ok (⟨version, generator, bound, schema⟩, rest)
  | words => .error (.truncated (4 * words.length))

/-- Load a module given as words. The first fault in stream order is the one reported. -/
def ofWords (words : List Word) : Except BinaryError Module := do
  let (header, stream) ← readHeader words
  let framing := Framing.ofWords headerLength stream
  let scan ← framing.instructions.foldlM Scan.visit {}
  match framing.fault with
  | some fault => .error fault
  | none => .ok ⟨header, framing.instructions, scan.metadata, scan.count⟩

/-- Load a module given as bytes, in either byte order. -/
def ofBytes (bytes : Bytes) : Except BinaryError Module :=
  if bytes.length % 4 ≠ 0 ∨ bytes.length < 4 * headerLength then
    .error (.truncated bytes.length)
  else if (wordsOfBytes (bytes.take 4)).head? = some swappedMagicNumber then
    ofWords (wordsOfSwappedBytes bytes)
  else
    ofWords (wordsOfBytes bytes)

/-- The words after the header. -/
def stream (loaded : Module) : List Word :=
  loaded.instructions.flatMap Instruction.words

/-- All the words of a module. -/
def words (loaded : Module) : List Word :=
  loaded.header.words ++ loaded.stream

/-- A module as a file, each word stored least significant byte first. -/
def bytes (loaded : Module) : Bytes :=
  bytesOfWords loaded.words

/-- All IDs are below this number. -/
def bound (loaded : Module) : Word :=
  loaded.header.bound

/-- The position at the first instruction; offsets count from the start of the file. -/
def cursor (loaded : Module) : Cursor :=
  .ofWords loaded.stream headerLength

end Module

end ShaderMachine
