import ClusterKeeper.Cipher.Sha512
import ClusterKeeper.Decimal.Binary64

/-!
Public keys of Ed25519 (RFC 8032): the base point of the twisted Edwards curve
`-x² + y² = 1 + d x² y²` times a scalar that the hash of the seed gives.
-/

namespace ClusterKeeper.Ed25519

/-- The prime `2 ^ 255 - 19` of the field. -/
def p : Nat := twoTo 255 - 19

/-- The constant of the curve, `-121665 / 121666`. -/
def d : Nat :=
  37095705934669439343138083508754565189542113879843219016388785533085940283555

/-- A point in extended coordinates: `x / z` and `y / z`, with `t = x y / z`. -/
structure Point where
  x : Nat
  y : Nat
  z : Nat
  t : Nat
deriving DecidableEq

def identity : Point := ⟨0, 1, 1, 0⟩

def baseX : Nat :=
  15112221349535400772501151409588531511454012693041857206046113283949847762202

def baseY : Nat :=
  46316835694926478169428394003475163141307993866256225615783033603165251855960

/-- The point of order `l` with `y = 4 / 5` and even `x`. -/
def base : Point := ⟨baseX, baseY, 1, baseX * baseY % p⟩

def Point.add (a b : Point) : Point :=
  -- `p` is added to what is subtracted from, so that no difference is negative
  let m := (a.y + p - a.x) * (b.y + p - b.x) % p
  let n := (a.y + a.x) * (b.y + b.x) % p
  let c := 2 * d * a.t * b.t % p
  let e := 2 * a.z * b.z % p
  let f := n + p - m
  let g := e + p - c
  let h := e + c
  let k := n + m
  { x := f * g % p, y := h * k % p, z := g * h % p, t := f * k % p }

/-- The bits of a number below `2 ^ width`, the most significant first. -/
def bits (width n : Nat) : List Bool := (List.range width).reverse.map n.testBit

/-- The point added to itself that many times, for a count below `2 ^ 256`. -/
def Point.times (a : Point) (count : Nat) : Point :=
  (bits 256 count).foldl (fun sum bit => let twice := sum.add sum; if bit then twice.add a else twice)
    identity

/-- A power in the field, for an exponent below `2 ^ 256`. -/
def power (n exponent : Nat) : Nat :=
  (bits 256 exponent).foldl
    (fun product bit => let square := product * product % p; if bit then square * n % p else square) 1

/-- The inverse in the field, zero for zero. -/
def inverse (n : Nat) : Nat := power n (p - 2)

/-- The bytes of a number, the least significant first, that many. -/
def littleEndian (count n : Nat) : List UInt8 :=
  (List.range count).map fun i => UInt8.ofNat (n >>> (8 * i))

/-- The 32 bytes of a point: `y`, and in the top bit whether `x` is odd. -/
def Point.encode (a : Point) : List UInt8 :=
  let zInverse := inverse a.z
  let x := a.x * zInverse % p
  let y := a.y * zInverse % p
  littleEndian 32 (y + x % 2 * twoTo 255)

/-- The scalar of a seed: the first half of its hash, the three lowest bits and the top bit cleared
and bit 254 set. -/
def scalar (seed : List UInt8) : Nat :=
  let half := ((Sha512.hash seed).take 32).foldr (fun byte n => byte.toNat + 256 * n) 0
  half % twoTo 254 / 8 * 8 + twoTo 254

def publicKey (seed : List UInt8) : List UInt8 := (base.times (scalar seed)).encode

@[simp] theorem length_littleEndian (count n : Nat) : (littleEndian count n).length = count := by
  simp [littleEndian]

@[simp] theorem length_publicKey (seed : List UInt8) : (publicKey seed).length = 32 := by
  simp [publicKey, Point.encode]

end ClusterKeeper.Ed25519
