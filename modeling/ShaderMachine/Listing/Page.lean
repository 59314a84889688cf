import ShaderMachine.Listing.Spelling
import ShaderMachine.Text.Basic

/-! # Listings

A listing is a comment block about the header and then one instruction per line, the results
right-aligned before their equals signs.

**`listing`** is the listing of a module. -/

namespace ShaderMachine

/-- How the tool that wrote a module is named in a listing. -/
def ModuleHeader.generatorText (header : ModuleHeader) : String :=
  (header.toolName?.getD s!"Unknown({header.tool})") ++ s!"; {header.toolVersion}"

/-- The comment block about a header. -/
def ModuleHeader.listing (header : ModuleHeader) : String :=
  "; SPIR-V\n" ++
    s!"; Version: {header.majorVersion}.{header.minorVersion}\n" ++
    "; Generator: " ++ header.generatorText ++ "\n" ++
    s!"; Bound: {header.bound}\n" ++
    s!"; Schema: {header.schema}\n"

/-- How a result is spelt. -/
def resultText (id : Id) : String :=
  "%" ++ toString id

/-- The line of an instruction, its result taking `width` places; without any result in the
listing no place is left for them. -/
def DecodedInstruction.line (width : Nat) (instruction : DecodedInstruction) : String :=
  match instruction.result with
  | some id => Text.alignRight width (resultText id) ++ " = " ++ instruction.spell ++ "\n"
  | none =>
      if width = 0 then instruction.spell ++ "\n"
      else Text.alignRight (width + 3) "" ++ instruction.spell ++ "\n"

/-- The width of the longest result. -/
def resultWidth (instructions : List DecodedInstruction) : Nat :=
  (instructions.filterMap fun instruction => instruction.result.map fun id =>
    (resultText id).length).foldl max 0

/-- The listing of a module. -/
def listing (loaded : Module) : Except ListingError String := do
  let instructions ← loaded.decode
  let width := resultWidth instructions
  return loaded.header.listing ++ String.join (instructions.map (DecodedInstruction.line width))

/-- The listing of a module given as words. -/
def listingOfWords (words : List Word) : Except ListingError String := do
  listing (← (Module.ofWords words).mapError .invalidModule)

end ShaderMachine
