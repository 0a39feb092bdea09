/-!
Double-precision numbers by their bits: rounding a quotient to the nearest one, the fewest decimal
digits that read back, and the positional text of those digits. Powers of two and of ten bound and
scale them.
-/

namespace ClusterKeeper

def twoTo (exponent : Nat) : Nat := Nat.pow 2 exponent

def tenTo (exponent : Nat) : Nat := Nat.pow 10 exponent

end ClusterKeeper

namespace ClusterKeeper.Decimal

/-- A finite double is `mantissa * 2 ^ exponent`, negated if the sign is set. -/
structure Binary64 where
  negative : Bool
  mantissa : Nat
  exponent : Int
deriving DecidableEq, Repr

namespace Binary64

/-- Reads the three fields of the bits; the values above the finite ones are not told apart. -/
def ofBits (bits : UInt64) : Binary64 :=
  let raw := bits.toNat
  let fraction := raw % twoTo 52
  let biased := raw / twoTo 52 % twoTo 11
  { negative := raw / twoTo 63 = 1
    mantissa := if biased = 0 then fraction else fraction + twoTo 52
    exponent := (max biased 1 : Nat) - 1075 }

def isZero (x : Binary64) : Bool := x.mantissa = 0

end Binary64

/-- `a / b * 2 ^ (-e)` as a quotient of naturals. -/
def scaleTwo (a b : Nat) (e : Int) : Nat × Nat :=
  (a * twoTo (-e).toNat, b * twoTo e.toNat)

/-- `a / b` to the nearest natural, a half to the even one. -/
def roundHalfEven (a b : Nat) : Nat :=
  let q := a / b
  let r := a % b
  if 2 * r < b then q else if b < 2 * r then q + 1 else q + q % 2

/-- The bits of the double nearest to `num / den`, or nothing if that is not finite. -/
def nearestBits (negative : Bool) (num den : Nat) : Option UInt64 :=
  let sign : Nat := if negative then twoTo 63 else 0
  if num = 0 then some (UInt64.ofNat sign)
  else
    let guess : Int := (Nat.log2 num : Int) - (Nat.log2 den : Int) - 53
    let (a, b) := scaleTwo num den guess
    let exponent := max (if twoTo 53 ≤ a / b then guess + 1 else guess) (-1074)
    let (a, b) := scaleTwo num den exponent
    let magnitude := (exponent + 1074).toNat * twoTo 52 + roundHalfEven a b
    if magnitude < 0x7FF * twoTo 52 then some (UInt64.ofNat (sign + magnitude)) else none

/-- The magnitude of a double as a quotient of naturals. -/
def Binary64.ratio (x : Binary64) : Nat × Nat :=
  (x.mantissa * twoTo x.exponent.toNat, twoTo (-x.exponent).toNat)

def powerOfTen (k : Nat) : Binary64 :=
  Binary64.ofBits ((nearestBits false (tenTo k) 1).getD 0)

/-- The double nearest to the magnitude of `x` times a power of ten, or divided by it. -/
def scaleBy (negative : Bool) (x : Binary64) (k : Nat) (up : Bool) : Option UInt64 :=
  let (num, den) := x.ratio
  let (a, b) := (powerOfTen k).ratio
  if up then nearestBits negative (num * a) (den * b) else nearestBits negative (num * b) (den * a)

/-- Scales a double by `10 ^ exponent`, at most 308 places at a time, with a rounding each time. -/
def scaleTen (negative : Bool) : Nat → Binary64 → Int → Option UInt64
  | steps, x, exponent =>
    if x.isZero then nearestBits negative 0 1
    else if 0 ≤ exponent then
      if exponent ≤ 308 then scaleBy negative x exponent.toNat true else none
    else if -308 ≤ exponent then scaleBy negative x (-exponent).toNat false
    else
      match steps with
      | 0 => nearestBits negative 0 1
      | steps + 1 =>
        (scaleBy false x 308 false).bind fun bits =>
          scaleTen negative steps (Binary64.ofBits bits) (exponent + 308)

/-- The bits of the double that `significand * 10 ^ exponent` is read as: the significand is rounded
to a double and then scaled, so the result need not be the nearest one. A significand of 64 bits is
zero after it is divided by `10 ^ 308` three times. -/
def scaledBits? (negative : Bool) (significand : Nat) (exponent : Int) : Option UInt64 :=
  (nearestBits false significand 1).bind fun bits =>
    scaleTen negative 3 (Binary64.ofBits bits) exponent

/-- A decimal numeral: `digits * 10 ^ exponent`. -/
structure Numeral where
  digits : Nat
  exponent : Int
deriving DecidableEq, Repr

/-- Compares `c * 10 ^ g` with `x * 2 ^ e`. -/
def compareTenTwo (c : Nat) (g : Int) (x : Nat) (e : Int) : Ordering :=
  compare (c * tenTo g.toNat * twoTo (-e).toNat) (x * twoTo e.toNat * tenTo (-g).toNat)

/-- Whether the decimal lies among the reals that round to the double; the ends of that interval
count iff the mantissa is even. -/
def readsBack (x : Binary64) (c : Nat) (g : Int) : Bool :=
  let below := if x.mantissa = twoTo 52 ∧ -1074 < x.exponent then 1 else 2
  let low := compareTenTwo c g (4 * x.mantissa - below) (x.exponent - 2)
  let high := compareTenTwo c g (4 * x.mantissa + 2) (x.exponent - 2)
  if x.mantissa % 2 = 0 then low ≠ .lt ∧ high ≠ .gt else low = .gt ∧ high = .lt

/-- The neighbour of the double on the grid of `10 ^ g` that reads back; of two the nearer, and the
larger if the double lies halfway between them. -/
def onGrid (x : Binary64) (g : Int) : Option Nat :=
  let num := x.mantissa * twoTo x.exponent.toNat * tenTo (-g).toNat
  let den := twoTo (-x.exponent).toNat * tenTo g.toNat
  let floor := num / den
  match readsBack x floor g && floor ≠ 0, readsBack x (floor + 1) g with
  | true, true => if 2 * (num % den) < den then some floor else some (floor + 1)
  | true, false => some floor
  | false, true => some (floor + 1)
  | false, false => none

/-- One more than the decimal exponent of `num / den`, searched upwards from `k`. -/
def decimalMagnitude (num den : Nat) : Nat → Int → Int
  | 0, k => k
  | fuel + 1, k =>
    if den * tenTo k.toNat ≤ num * tenTo (-k).toNat then decimalMagnitude num den fuel (k + 1) else k

/-- The numeral of fewest digits that reads back. -/
def shortest (x : Binary64) : Numeral :=
  if x.isZero then ⟨0, 0⟩
  else
    let num := x.mantissa * twoTo x.exponent.toNat
    let den := twoTo (-x.exponent).toNat
    let guess := ((Nat.log2 num : Int) - (Nat.log2 den : Int)) * 30103 / 100000 - 1
    let magnitude := decimalMagnitude num den 5 guess
    -- the first grid is too coarse for all but a power of ten
    let found := (List.range 18).findSome? fun (n : Nat) =>
      let g := magnitude - n
      (onGrid x g).map (⟨·, g⟩)
    found.getD ⟨num, 0⟩

/-- The numeral without exponent: `120`, `0.5`, `1.25`. -/
def Numeral.positional (x : Numeral) : String :=
  let digits := toString x.digits
  if 0 ≤ x.exponent then
    if x.digits = 0 then "0" else digits ++ String.ofList (List.replicate x.exponent.toNat '0')
  else
    let places := (-x.exponent).toNat
    let padded := List.replicate (places + 1 - digits.length) '0' ++ digits.toList
    let whole := padded.length - places
    String.ofList (padded.take whole) ++ "." ++ String.ofList (padded.drop whole)

/-- The positional text of a double, its sign before it and no point where none is needed. -/
def positional (bits : UInt64) : String :=
  let x := Binary64.ofBits bits
  (if x.negative then "-" else "") ++ (shortest x).positional

def pointed (bits : UInt64) : String :=
  let text := positional bits
  if text.contains '.' then text else text ++ ".0"

end ClusterKeeper.Decimal
