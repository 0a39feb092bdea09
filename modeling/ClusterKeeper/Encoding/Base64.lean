/-!
Base64 with the standard alphabet. Decoding asks for the padding, and for zeros in the bits that the
last symbol leaves over, so that a text has one spelling.
-/

namespace ClusterKeeper.Base64

/-- The 64 symbols, as bytes, in order of their value. -/
def alphabet : List UInt8 :=
  "ABCDEFGHIJKLMNOPQRSTUVWXYZabcdefghijklmnopqrstuvwxyz0123456789+/".toList.map
    fun c => UInt8.ofNat c.toNat

def pad : UInt8 := 61

def symbol (value : Nat) : UInt8 :=
  UInt8.ofNat <|
    if value < 26 then value + 65
    else if value < 52 then value + 71
    else if value < 62 then value - 4
    else if value = 62 then 43 else 47

def value? (byte : UInt8) : Option Nat :=
  let b := byte.toNat
  if 65 ≤ b ∧ b ≤ 90 then some (b - 65)
  else if 97 ≤ b ∧ b ≤ 122 then some (b - 71)
  else if 48 ≤ b ∧ b ≤ 57 then some (b + 4)
  else if b = 43 then some 62
  else if b = 47 then some 63
  else none

/-- The symbols of the bytes, padded to a multiple of four. -/
def encodeBytes : List UInt8 → List UInt8
  | [] => []
  | [a] =>
    let n := a.toNat * 16
    [symbol (n / 64), symbol (n % 64), pad, pad]
  | [a, b] =>
    let n := (a.toNat * 256 + b.toNat) * 4
    [symbol (n / 4096), symbol (n / 64 % 64), symbol (n % 64), pad]
  | a :: b :: c :: rest =>
    let n := a.toNat * 65536 + b.toNat * 256 + c.toNat
    symbol (n / 262144) :: symbol (n / 4096 % 64) :: symbol (n / 64 % 64) :: symbol (n % 64) ::
      encodeBytes rest

def encode (bytes : List UInt8) : String :=
  String.ofList ((encodeBytes bytes).map fun byte => Char.ofNat byte.toNat)

/-- Why a text is no base64; offsets and symbols are bytes. -/
inductive Fault where
  | symbol (byte : UInt8) (offset : Nat)
  | length (symbols : Nat)
  | lastSymbol (byte : UInt8) (offset : Nat)
  | padding
deriving DecidableEq, Repr

def Fault.message : Fault → String
  | .symbol byte offset =>
    "Invalid symbol " ++ toString byte ++ ", offset " ++ toString offset ++ "."
  | .length symbols => "Invalid input length: " ++ toString symbols
  | .lastSymbol byte offset =>
    "Invalid last symbol " ++ toString byte ++ ", offset " ++ toString offset ++ "."
  | .padding => "Invalid padding"

def valueAt (byte : UInt8) (offset : Nat) : Except Fault Nat :=
  match value? byte with
  | some value => .ok value
  | none => .error (.symbol byte offset)

/-- The values of the symbols before the padding of the last group, which starts at `start`.
`padAt` is the offset of the first padding byte, which the third symbol is the earliest to be. -/
def scanLast (start : Nat) : Nat → Option Nat → List UInt8 → Except Fault (List Nat)
  | _, _, [] => .ok []
  | i, padAt, byte :: rest =>
    if byte = pad then
      if i < 2 then .error (.symbol pad (start + i))
      else scanLast start (i + 1) (some (padAt.getD (start + i))) rest
    else
      match padAt with
      | some offset => .error (.symbol pad offset)
      | none => do
        let value ← valueAt byte (start + i)
        let values ← scanLast start (i + 1) none rest
        .ok (value :: values)

/-- Decodes the last group, of at most four bytes. -/
def decodeLast (start : Nat) (group : List UInt8) : Except Fault (List UInt8) := do
  if group = [] then return []
  let values ← scanLast start 0 none group
  if values.length < 2 then throw (.length (start + values.length))
  if group.length ≠ 4 then throw .padding
  match values with
  -- two symbols carry a byte and four bits more, three carry two bytes and two bits more
  | [a, b] =>
    if b % 16 ≠ 0 then throw (.lastSymbol (symbol b) (start + 1))
    return [UInt8.ofNat (a * 4 + b / 16)]
  | [a, b, c] =>
    if c % 4 ≠ 0 then throw (.lastSymbol (symbol c) (start + 2))
    return [UInt8.ofNat (a * 4 + b / 16), UInt8.ofNat (b % 16 * 16 + c / 4)]
  | [a, b, c, d] =>
    return [UInt8.ofNat (a * 4 + b / 16), UInt8.ofNat (b % 16 * 16 + c / 4),
      UInt8.ofNat (c % 4 * 64 + d)]
  | _ => throw .padding

/-- Decodes group after group; a group with something after it has four symbols. -/
def decodeGroups (start : Nat) : List UInt8 → Except Fault (List UInt8)
  | a :: b :: c :: d :: e :: rest => do
    let a ← valueAt a start
    let b ← valueAt b (start + 1)
    let c ← valueAt c (start + 2)
    let d ← valueAt d (start + 3)
    let bytes ← decodeGroups (start + 4) (e :: rest)
    return UInt8.ofNat (a * 4 + b / 16) :: UInt8.ofNat (b % 16 * 16 + c / 4) ::
      UInt8.ofNat (c % 4 * 64 + d) :: bytes
  | group => decodeLast start group

/-- The single byte that a whole number of groups leaves over, if it cannot start a group. -/
def strayByte? (text : List UInt8) : Option UInt8 :=
  if text.length % 4 = 1 then
    text.getLast?.filter fun byte => byte ≠ pad ∧ (value? byte).isNone
  else none

def decodeBytes (text : List UInt8) : Except Fault (List UInt8) :=
  match strayByte? text with
  | some byte => .error (.symbol byte (text.length - 1))
  | none => decodeGroups 0 text

def decode (text : String) : Except Fault (List UInt8) := decodeBytes text.toUTF8.toList

end ClusterKeeper.Base64
