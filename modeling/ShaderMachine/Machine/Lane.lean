import ShaderMachine.Binary.Word

/-! # Float lanes

A value of a float type or of a vector of floats is a sequence of lanes, each a float stored least
significant byte first. A lane is kept as its bit pattern, so that reading and writing it loses
nothing, whatever number it stands for.

**`Lane`** gathers what the machine does with lanes of one width, with **`Single`** and
**`Double`** for the two widths; **`decodeLanes`** and **`encodeLanes`** pass between bytes and
lanes; **`map1`**, **`map2`** and **`map3`** compute lane by lane on operands of equal shape. -/

namespace ShaderMachine

/-- The operations on lanes of one width. -/
class Lane (α : Type) where
  /-- The number of bytes of a lane. -/
  byteCount : Nat
  /-- The lane at the front of some bytes. -/
  read : Bytes → α
  /-- The bytes of a lane. -/
  write : α → Bytes
  /-- Zero. -/
  zero : α
  /-- One. -/
  one : α
  /-- The sum. -/
  add : α → α → α
  /-- The difference. -/
  sub : α → α → α
  /-- The product. -/
  mul : α → α → α
  /-- The quotient. -/
  div : α → α → α
  /-- The power. -/
  pow : α → α → α
  /-- Whether the first is less than the second; never so if either is no number. -/
  less : α → α → Bool
  /-- The same number with the other sign. -/
  neg : α → α
  /-- The same number without a sign. -/
  abs : α → α
  /-- The greatest integer not above. -/
  floor : α → α
  /-- The least integer not below. -/
  ceil : α → α
  /-- The square root. -/
  sqrt : α → α

/-- A float of 32 bits as its bit pattern. -/
structure Single where
  /-- The bit pattern. -/
  bits : UInt32
  deriving DecidableEq, Repr

namespace Single

/-- Compute with one float. -/
def lift1 (f : Float32 → Float32) (x : Single) : Single :=
  ⟨(f (Float32.ofBits x.bits)).toBits⟩

/-- Compute with two floats. -/
def lift2 (f : Float32 → Float32 → Float32) (x y : Single) : Single :=
  ⟨(f (Float32.ofBits x.bits) (Float32.ofBits y.bits)).toBits⟩

/-- The lane at the front of some bytes; missing bytes count as zero. -/
def read : Bytes → Single
  | b₀ :: b₁ :: b₂ :: b₃ :: _ => ⟨Word.ofBytes b₀ b₁ b₂ b₃⟩
  | _ => ⟨0⟩

/-- The bytes of a lane. -/
def write (x : Single) : Bytes :=
  Word.bytes x.bits

instance : Lane Single where
  byteCount := 4
  read := read
  write := write
  zero := ⟨0⟩
  one := ⟨0x3F800000⟩
  add := lift2 (· + ·)
  sub := lift2 (· - ·)
  mul := lift2 (· * ·)
  div := lift2 (· / ·)
  pow := lift2 Float32.pow
  less x y := Float32.ofBits x.bits < Float32.ofBits y.bits
  neg x := ⟨x.bits ^^^ 0x80000000⟩
  abs x := ⟨x.bits &&& 0x7FFFFFFF⟩
  floor := lift1 Float32.floor
  ceil := lift1 Float32.ceil
  sqrt := lift1 Float32.sqrt

end Single

/-- A float of 64 bits as its bit pattern. -/
structure Double where
  /-- The bit pattern. -/
  bits : UInt64
  deriving DecidableEq, Repr

namespace Double

/-- Compute with one float. -/
def lift1 (f : Float → Float) (x : Double) : Double :=
  ⟨(f (Float.ofBits x.bits)).toBits⟩

/-- Compute with two floats. -/
def lift2 (f : Float → Float → Float) (x y : Double) : Double :=
  ⟨(f (Float.ofBits x.bits) (Float.ofBits y.bits)).toBits⟩

/-- The lane at the front of some bytes; missing bytes count as zero. -/
def read : Bytes → Double
  | b₀ :: b₁ :: b₂ :: b₃ :: b₄ :: b₅ :: b₆ :: b₇ :: _ =>
      ⟨UInt64.ofNat ((Word.ofBytes b₀ b₁ b₂ b₃).toNat +
        4294967296 * (Word.ofBytes b₄ b₅ b₆ b₇).toNat)⟩
  | _ => ⟨0⟩

/-- The bytes of a lane. -/
def write (x : Double) : Bytes :=
  Word.bytes (UInt32.ofNat x.bits.toNat) ++
    Word.bytes (UInt32.ofNat (x.bits.toNat / 4294967296))

instance : Lane Double where
  byteCount := 8
  read := read
  write := write
  zero := ⟨0⟩
  one := ⟨0x3FF0000000000000⟩
  add := lift2 (· + ·)
  sub := lift2 (· - ·)
  mul := lift2 (· * ·)
  div := lift2 (· / ·)
  pow := lift2 Float.pow
  less x y := Float.ofBits x.bits < Float.ofBits y.bits
  neg x := ⟨x.bits ^^^ 0x8000000000000000⟩
  abs x := ⟨x.bits &&& 0x7FFFFFFFFFFFFFFF⟩
  floor := lift1 Float.floor
  ceil := lift1 Float.ceil
  sqrt := lift1 Float.sqrt

end Double

section

variable {α : Type} [Lane α]

/-! ## Bytes and lanes -/

/-- Read `count` lanes off the front of some bytes, after those already `read` (latest first). -/
def readLanes (read : List α) : Nat → Bytes → List α
  | 0, _ => read.reverse
  | count + 1, bytes =>
      readLanes (Lane.read bytes :: read) count (bytes.drop (Lane.byteCount α))

/-- The whole lanes in some bytes. -/
def decodeLanes (bytes : Bytes) : List α :=
  readLanes [] (bytes.length / Lane.byteCount α) bytes

/-- The bytes of some lanes. -/
def encodeLanes (lanes : List α) : Bytes :=
  lanes.flatMap Lane.write

/-- The number of lanes in some bytes, if it is a whole number. -/
def laneCount? (α : Type) [Lane α] (bytes : Bytes) : Option Nat :=
  if bytes.length % Lane.byteCount α = 0 then some (bytes.length / Lane.byteCount α) else none

/-- The lane that some bytes are, if they are exactly one. -/
def scalarLane? (bytes : Bytes) : Option α :=
  if bytes.length = Lane.byteCount α then some (Lane.read bytes) else none

/-! ## Lane by lane -/

/-- Apply a function to every lane. -/
def map1 (f : α → α) (a : Bytes) : Option Bytes :=
  (laneCount? α a).map fun _ => encodeLanes ((decodeLanes a).map f)

/-- Apply a function lane by lane to two operands of the same length. -/
def map2 (f : α → α → α) (a b : Bytes) : Option Bytes :=
  if a.length = b.length then
    (laneCount? α a).map fun _ => encodeLanes (List.zipWith f (decodeLanes a) (decodeLanes b))
  else
    none

/-- Apply a function lane by lane to three operands of the same length. -/
def map3 (f : α → α → α → α) (a b c : Bytes) : Option Bytes :=
  if a.length = b.length ∧ a.length = c.length then
    (laneCount? α a).map fun _ =>
      encodeLanes (List.zipWith (fun g z => g z)
        (List.zipWith f (decodeLanes a) (decodeLanes b)) (decodeLanes c))
  else
    none

/-! ## Derived operations -/

/-- The lesser of two lanes; the first one unless the second is less. -/
def laneMin (x y : α) : α :=
  if Lane.less y x then y else x

/-- The greater of two lanes; the first one unless the second is greater. -/
def laneMax (x y : α) : α :=
  if Lane.less x y then y else x

/-- A lane moved into an interval. -/
def laneClamp (x low high : α) : α :=
  laneMin (laneMax x low) high

/-- The distance of a lane above its floor. -/
def laneFract (x : α) : α :=
  Lane.sub x (Lane.floor x)

/-- One over the square root of a lane. -/
def laneInverseSqrt (x : α) : α :=
  Lane.div Lane.one (Lane.sqrt x)

/-- The blend of two lanes, all of the first at zero and all of the second at one. -/
def laneMix (x y a : α) : α :=
  Lane.add (Lane.mul x (Lane.sub Lane.one a)) (Lane.mul y a)

/-- The sum of the products of the lanes, from the first lane on. -/
def dotLanes (a b : List α) : α :=
  (List.zipWith Lane.mul a b).foldl Lane.add Lane.zero

/-- The length of a vector. -/
def lengthLanes (v : List α) : α :=
  Lane.sqrt (dotLanes v v)

end

end ShaderMachine
