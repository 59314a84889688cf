import ShaderMachine.Grammar.GlslInstruction
import ShaderMachine.Machine.DataType

/-! # Records

What a module says about one ID, and what running it stores there: a name, decorations and one
definition.

**`Definition`** is what an ID stands for, with **`DefinitionKind`** for its kind alone;
**`Record`** is all that is known about an ID. -/

namespace ShaderMachine

/-- A decoration with its literals; those it does not have are zero. -/
structure DecorationEntry where
  /-- What the decoration says. -/
  kind : Word
  /-- The first literal. -/
  first : Word
  /-- The second literal. -/
  second : Word
  deriving DecidableEq, Repr

/-- An imported set of extended instructions. -/
inductive ExtendedSet where
  /-- The set whose instructions this machine evaluates. -/
  | glsl
  /-- Any other set. -/
  | other (name : String)
  deriving DecidableEq, Repr

namespace ExtendedSet

/-- The set with a given name. -/
def ofName (name : String) : ExtendedSet :=
  if name = glslSetName then glsl else other name

/-- The name under which a set is imported. -/
def name : ExtendedSet → String
  | glsl => glslSetName
  | other name => name

/-- The instruction of a set with a given number, if this machine evaluates it. -/
def instruction? (set : ExtendedSet) (number : Word) : Option GlslInstruction :=
  match set with
  | glsl => GlslInstruction.ofNumber? number
  | other _ => none

end ExtendedSet

/-- A function of a module. -/
structure FunctionRecord where
  /-- The type it returns. -/
  returnType : Id
  /-- Its signature. -/
  functionType : Id
  /-- Its control mask. -/
  control : Word
  /-- The offset of the first instruction of its body. -/
  start : Nat
  /-- The offset of the instruction that ends its body, once that is seen. -/
  stop : Option Nat
  deriving DecidableEq, Repr

/-- A function that can be entered from outside. -/
structure EntryPointRecord where
  /-- The stages it is declared for, without repetition. -/
  models : List ExecutionModel
  /-- The names it is declared under, without repetition. -/
  names : List String
  /-- Its execution modes with their literals. -/
  modes : List (Word × List Word)
  /-- The interface IDs of all its declarations, without repetition in later ones. -/
  interface : List Id
  /-- The function itself, once it is seen. -/
  function : Option FunctionRecord
  deriving DecidableEq, Repr

namespace EntryPointRecord

/-- What the first declaration of an entry point says. -/
def ofDeclaration (model : ExecutionModel) (name : String) (interface : List Id) :
    EntryPointRecord :=
  ⟨[model], [name], [], interface, none⟩

/-- Put an element after the others unless it is among them. -/
def addNew {α : Type} [DecidableEq α] (known : List α) (element : α) : List α :=
  if element ∈ known then known else known ++ [element]

/-- Add what a further declaration says. -/
def augment (entry : EntryPointRecord) (model : ExecutionModel) (name : String)
    (interface : List Id) : EntryPointRecord :=
  { entry with
    models := addNew entry.models model
    names := addNew entry.names name
    interface := interface.foldl addNew entry.interface }

/-- Whether the entry point has a given name. -/
def hasName (entry : EntryPointRecord) (name : String) : Bool :=
  entry.names.contains name

end EntryPointRecord

/-- A constant or the result of an executed instruction. -/
structure Value where
  /-- The ID of its type. -/
  type : Id
  /-- Its bytes. -/
  bytes : Bytes
  deriving DecidableEq, Repr

/-- A variable with its storage. -/
structure Variable where
  /-- The ID of its pointer type. -/
  type : Id
  /-- The storage class it lives in. -/
  storage : StorageClass
  /-- The ID of the type of what it holds. -/
  pointee : Id
  /-- The ID of the constant it starts with. -/
  initializer : Option Id
  /-- What it holds. -/
  data : Bytes
  deriving DecidableEq, Repr

/-- The kinds of definitions. -/
inductive DefinitionKind where
  | unset
  | entryPoint
  | type
  | constant
  | var
  | function
  | label
  | extendedSet
  deriving DecidableEq, Repr

namespace DefinitionKind

/-- The name of a kind. -/
def name : DefinitionKind → String
  | unset => "Unset"
  | entryPoint => "EntryPoint"
  | type => "Type"
  | constant => "Constant"
  | var => "Variable"
  | function => "Function"
  | label => "BlockLabel"
  | extendedSet => "ExtInstSet"

end DefinitionKind

/-- What an ID stands for. -/
inductive Definition where
  /-- Nothing yet. -/
  | unset
  /-- An entry point. -/
  | entryPoint (entry : EntryPointRecord)
  /-- A type. -/
  | type (type : DataType)
  /-- A constant or a computed value. -/
  | constant (value : Value)
  /-- A variable. -/
  | var (contents : Variable)
  /-- A function that is no entry point. -/
  | function (body : FunctionRecord)
  /-- A block label at an offset. -/
  | label (offset : Nat)
  /-- An imported set of extended instructions. -/
  | extendedSet (set : ExtendedSet)
  deriving DecidableEq, Repr

namespace Definition

/-- The kind of a definition. -/
def kind : Definition → DefinitionKind
  | unset => .unset
  | entryPoint _ => .entryPoint
  | type _ => .type
  | constant _ => .constant
  | var _ => .var
  | function _ => .function
  | label _ => .label
  | extendedSet _ => .extendedSet

/-- The function that a definition carries. -/
def function? : Definition → Option FunctionRecord
  | function body => some body
  | entryPoint entry => entry.function
  | _ => none

/-- Note where the body of the function ends; other definitions stay as they are. -/
def endFunction (definition : Definition) (stop : Nat) : Definition :=
  match definition with
  | function body => function { body with stop := some stop }
  | entryPoint entry =>
      entryPoint { entry with function := entry.function.map fun body =>
        { body with stop := some stop } }
  | other => other

end Definition

/-- All that is known about an ID. -/
structure Record where
  /-- Its debug name. -/
  name : Option String := none
  /-- Its decorations, in order. -/
  decorations : List DecorationEntry := []
  /-- What it stands for. -/
  definition : Definition := .unset
  deriving DecidableEq, Repr

namespace Record

/-- Whether the ID stands for nothing yet. -/
def isUnset (record : Record) : Bool :=
  record.definition.kind = .unset

/-- The first decoration of a kind. -/
def decoration? (record : Record) (kind : Word) : Option DecorationEntry :=
  record.decorations.find? fun entry => entry.kind == kind

/-- The interface location of a variable. -/
def location? (record : Record) : Option Word :=
  (record.decoration? locationDecoration).map DecorationEntry.first

/-- Whether a name differs from the one the record has. -/
def isRenamedBy (record : Record) (name : String) : Bool :=
  record.name ≠ some name

/-- The record with another name. -/
def named (record : Record) (name : String) : Record :=
  { record with name := some name }

/-- The record with a further decoration. -/
def decorated (record : Record) (entry : DecorationEntry) : Record :=
  { record with decorations := record.decorations ++ [entry] }

/-- The record with what a further declaration of its entry point says; one of another kind
stays as it is. -/
def augmented (record : Record) (model : ExecutionModel) (name : String) (interface : List Id) :
    Record :=
  match record.definition with
  | .entryPoint entry =>
      { record with definition := .entryPoint (entry.augment model name interface) }
  | _ => record

/-- The record with the end of its function's body noted. -/
def ended (record : Record) (stop : Nat) : Record :=
  { record with definition := record.definition.endFunction stop }

end Record

end ShaderMachine
