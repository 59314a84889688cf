import ShaderMachine.Text.Basic
import ShaderMachine.Binary.Word

/-! # Enumerants

Operand words that stand for one of a fixed set of names.

**`StorageClass`** and **`ExecutionModel`** are the sets the machine itself tells apart;
**`EnumFamily`** lists every set an operand may belong to; **`EnumFamily.nameOf`** and
**`EnumFamily.valueOf`** pass between the words and the names; **`formatMask`** and
**`parseMask`** do so for the bit set of function controls. -/

namespace ShaderMachine

/-- Where the storage behind a pointer lives. -/
inductive StorageClass where
  /-- Read-only data shared by all invocations. -/
  | uniformConstant
  /-- Data handed in by the pipeline. -/
  | input
  /-- Uniform blocks. -/
  | uniform
  /-- Data handed on to the pipeline. -/
  | output
  /-- Shared by a workgroup. -/
  | workgroup
  /-- Shared by all workgroups. -/
  | crossWorkgroup
  /-- Module scope, one copy per invocation. -/
  | privateScope
  /-- Function scope. -/
  | functionScope
  /-- Any of several classes. -/
  | generic
  /-- Push constants. -/
  | pushConstant
  /-- Atomic counters. -/
  | atomicCounter
  /-- Image texels. -/
  | image
  /-- Storage buffers. -/
  | storageBuffer
  deriving DecidableEq, Repr

namespace StorageClass

/-- Every storage class, by value. -/
def all : List StorageClass :=
  [.uniformConstant, .input, .uniform, .output, .workgroup, .crossWorkgroup, .privateScope,
    .functionScope, .generic, .pushConstant, .atomicCounter, .image, .storageBuffer]

/-- The operand word. -/
def value : StorageClass → Word
  | uniformConstant => 0
  | input => 1
  | uniform => 2
  | output => 3
  | workgroup => 4
  | crossWorkgroup => 5
  | privateScope => 6
  | functionScope => 7
  | generic => 8
  | pushConstant => 9
  | atomicCounter => 10
  | image => 11
  | storageBuffer => 12

/-- The spelling in assembly text. -/
def name : StorageClass → String
  | uniformConstant => "UniformConstant"
  | input => "Input"
  | uniform => "Uniform"
  | output => "Output"
  | workgroup => "Workgroup"
  | crossWorkgroup => "CrossWorkgroup"
  | privateScope => "Private"
  | functionScope => "Function"
  | generic => "Generic"
  | pushConstant => "PushConstant"
  | atomicCounter => "AtomicCounter"
  | image => "Image"
  | storageBuffer => "StorageBuffer"

/-- The storage class with a given operand word. -/
def ofValue? (value : Word) : Option StorageClass :=
  all.find? fun storage => storage.value == value

/-- The storage class with a given spelling. -/
def ofName? (name : String) : Option StorageClass :=
  all.find? fun storage => storage.name == name

/-- A storage class is found by its operand word. -/
@[simp] theorem ofValue?_value (storage : StorageClass) :
    ofValue? storage.value = some storage := by
  cases storage <;> rfl

/-- Whether a shader may write through pointers of this class. -/
def isWritable : StorageClass → Bool
  | input | uniformConstant => false
  | _ => true

/-- Whether variables of this class are bound to interface locations. -/
def isInterface : StorageClass → Bool
  | input | output => true
  | _ => false

end StorageClass

/-- The pipeline stage an entry point is written for. -/
inductive ExecutionModel where
  /-- Vertex shading. -/
  | vertex
  /-- Tessellation control. -/
  | tessellationControl
  /-- Tessellation evaluation. -/
  | tessellationEvaluation
  /-- Geometry shading. -/
  | geometry
  /-- Fragment shading. -/
  | fragment
  /-- Graphics compute. -/
  | glCompute
  /-- Compute kernel. -/
  | kernel
  deriving DecidableEq, Repr

namespace ExecutionModel

/-- Every execution model, by value. -/
def all : List ExecutionModel :=
  [.vertex, .tessellationControl, .tessellationEvaluation, .geometry, .fragment, .glCompute,
    .kernel]

/-- The operand word. -/
def value : ExecutionModel → Word
  | vertex => 0
  | tessellationControl => 1
  | tessellationEvaluation => 2
  | geometry => 3
  | fragment => 4
  | glCompute => 5
  | kernel => 6

/-- The spelling in assembly text. -/
def name : ExecutionModel → String
  | vertex => "Vertex"
  | tessellationControl => "TessellationControl"
  | tessellationEvaluation => "TessellationEvaluation"
  | geometry => "Geometry"
  | fragment => "Fragment"
  | glCompute => "GLCompute"
  | kernel => "Kernel"

/-- The execution model with a given operand word. -/
def ofValue? (value : Word) : Option ExecutionModel :=
  all.find? fun model => model.value == value

/-- The execution model with a given spelling. -/
def ofName? (name : String) : Option ExecutionModel :=
  all.find? fun model => model.name == name

/-- An execution model is found by its operand word. -/
@[simp] theorem ofValue?_value (model : ExecutionModel) : ofValue? model.value = some model := by
  cases model <;> rfl

end ExecutionModel

/-- A set of names an operand word may stand for. -/
inductive EnumFamily where
  /-- Where the storage behind a pointer lives. -/
  | storageClass
  /-- The pipeline stage of an entry point. -/
  | executionModel
  /-- How pointers are represented. -/
  | addressingModel
  /-- How memory accesses are ordered. -/
  | memoryModel
  /-- A feature that the module needs. -/
  | capability
  /-- How an entry point is run. -/
  | executionMode
  /-- The language of the source text. -/
  | sourceLanguage
  /-- The bit set of hints on a function. -/
  | functionControl
  /-- What a decoration says. -/
  | decoration
  deriving DecidableEq, Repr

namespace EnumFamily

/-- Every family. -/
def all : List EnumFamily :=
  [.storageClass, .executionModel, .addressingModel, .memoryModel, .capability, .executionMode,
    .sourceLanguage, .functionControl, .decoration]

/-- The name of a family. -/
def name : EnumFamily → String
  | storageClass => "StorageClass"
  | executionModel => "ExecutionModel"
  | addressingModel => "AddressingModel"
  | memoryModel => "MemoryModel"
  | capability => "Capability"
  | executionMode => "ExecutionMode"
  | sourceLanguage => "SourceLanguage"
  | functionControl => "FunctionControl"
  | decoration => "Decoration"

/-- The family with a given name. -/
def ofName? (name : String) : Option EnumFamily :=
  all.find? fun family => family.name == name

/-- The members of a family with their operand words; of a bit set, the single bits. -/
def members : EnumFamily → List (Word × String)
  | storageClass => StorageClass.all.map fun storage => (storage.value, storage.name)
  | executionModel => ExecutionModel.all.map fun model => (model.value, model.name)
  | addressingModel =>
    [(0, "Logical"), (1, "Physical32"), (2, "Physical64")]
  | memoryModel =>
    [(0, "Simple"), (1, "GLSL450"), (2, "OpenCL"), (3, "Vulkan")]
  | capability =>
    [(0, "Matrix"), (1, "Shader"), (2, "Geometry"), (3, "Tessellation"), (4, "Addresses"),
      (5, "Linkage"), (6, "Kernel"), (7, "Vector16"), (8, "Float16Buffer"), (9, "Float16"),
      (10, "Float64"), (11, "Int64"), (12, "Int64Atomics"), (13, "ImageBasic"), (22, "Int16"),
      (23, "TessellationPointSize"), (24, "GeometryPointSize"), (25, "ImageGatherExtended"),
      (27, "StorageImageMultisample"), (32, "ClipDistance"), (33, "CullDistance"),
      (35, "SampleRateShading"), (39, "Int8"), (40, "InputAttachment"), (43, "Sampled1D"),
      (44, "Image1D"), (46, "SampledBuffer"), (50, "ImageQuery"), (51, "DerivativeControl")]
  | executionMode =>
    [(0, "Invocations"), (1, "SpacingEqual"), (2, "SpacingFractionalEven"),
      (3, "SpacingFractionalOdd"), (4, "VertexOrderCw"), (5, "VertexOrderCcw"),
      (6, "PixelCenterInteger"), (7, "OriginUpperLeft"), (8, "OriginLowerLeft"),
      (9, "EarlyFragmentTests"), (10, "PointMode"), (11, "Xfb"), (12, "DepthReplacing"),
      (14, "DepthGreater"), (15, "DepthLess"), (16, "DepthUnchanged"), (17, "LocalSize"),
      (18, "LocalSizeHint")]
  | sourceLanguage =>
    [(0, "Unknown"), (1, "ESSL"), (2, "GLSL"), (3, "OpenCL_C"), (4, "OpenCL_CPP"), (5, "HLSL")]
  | functionControl =>
    [(0, "None"), (1, "Inline"), (2, "DontInline"), (4, "Pure"), (8, "Const")]
  | decoration =>
    [(0, "RelaxedPrecision"), (1, "SpecId"), (2, "Block"), (3, "BufferBlock"), (4, "RowMajor"),
      (5, "ColMajor"), (6, "ArrayStride"), (7, "MatrixStride"), (8, "GLSLShared"),
      (9, "GLSLPacked"), (10, "CPacked"), (11, "BuiltIn"), (13, "NoPerspective"), (14, "Flat"),
      (15, "Patch"), (16, "Centroid"), (17, "Sample"), (18, "Invariant"), (19, "Restrict"),
      (20, "Aliased"), (21, "Volatile"), (22, "Constant"), (23, "Coherent"),
      (24, "NonWritable"), (25, "NonReadable"), (26, "Uniform"), (27, "UniformId"),
      (28, "SaturatedConversion"), (29, "Stream"), (30, "Location"), (31, "Component"),
      (32, "Index"), (33, "Binding"), (34, "DescriptorSet"), (35, "Offset"), (36, "XfbBuffer"),
      (37, "XfbStride"), (38, "FuncParamAttr"), (39, "FPRoundingMode"), (40, "FPFastMathMode"),
      (41, "LinkageAttributes"), (42, "NoContraction"), (43, "InputAttachmentIndex"),
      (44, "Alignment"), (45, "MaxByteOffset"), (46, "AlignmentId"), (47, "MaxByteOffsetId")]

/-- The member with a given operand word. -/
def memberOfValue? (family : EnumFamily) (value : Word) : Option String :=
  (family.members.find? fun member => member.1 == value).map Prod.snd

/-- The operand word of the member with a given name. -/
def valueOfMember? (family : EnumFamily) (name : String) : Option Word :=
  (family.members.find? fun member => member.2 == name).map Prod.fst

end EnumFamily

/-- Spell a set of function controls: the names of its bits, then the unknown bits as a number. -/
def formatMask (mask : Word) : String :=
  if mask = 0 then
    "None"
  else
    let known := EnumFamily.functionControl.members.filter fun member => mask &&& member.1 != 0
    let unknown := mask.toNat / 16 * 16
    "|".intercalate
      (known.map Prod.snd ++ if unknown = 0 then [] else [Text.hex unknown])

/-- Read a set of function controls: bit names separated by bars, blanks around them ignored. -/
def parseMask (text : String) : Option Word :=
  (text.toList.splitOn '|').foldl
    (fun mask part => do
      let bits ← mask
      let bit ← EnumFamily.functionControl.valueOfMember? (String.ofList (Text.trim part))
      return bits ||| bit)
    (some 0)

namespace EnumFamily

/-- Spell an operand word; a bit set always has a spelling. -/
def nameOf (family : EnumFamily) (value : Word) : Option String :=
  match family with
  | functionControl => some (formatMask value)
  | _ => family.memberOfValue? value

/-- The operand word that a spelling stands for. -/
def valueOf (family : EnumFamily) (name : String) : Option Word :=
  match family with
  | functionControl => parseMask name
  | _ => family.valueOfMember? name

end EnumFamily

/-- The raw word of the decoration that binds a variable to an interface location. -/
def locationDecoration : Word := 30

/-- The raw word of the decoration that names an exported or imported object. -/
def linkageDecoration : Word := 41

/-- The number of literals after the kind word of a decoration.

Linkage counts two: a name, which is a string of any length, and a linkage type. -/
def decorationLiterals (kind : Word) : Nat :=
  if kind = linkageDecoration then 2
  else if kind = 1 ∨ kind = 6 ∨ kind = 7 ∨ kind = 11 ∨ kind = 27 ∨ (29 ≤ kind ∧ kind ≤ 40) ∨
      (43 ≤ kind ∧ kind ≤ 47) then 1
  else 0

end ShaderMachine
