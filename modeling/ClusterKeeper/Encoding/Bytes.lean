/-!
Bytes as texts of hexadecimal digits and of base58 digits, and numbers as bytes of seven bits.
-/

/-! ### Lowercase hexadecimal, two digits to a byte -/

namespace ClusterKeeper.Hex

def digits : List Char := "0123456789abcdef".toList

def digit (n : Nat) : Char := digits.getD n '0'

def encodeChars : List UInt8 → List Char
  | [] => []
  | byte :: rest => digit (byte.toNat / 16) :: digit (byte.toNat % 16) :: encodeChars rest

def encode (bytes : List UInt8) : String := String.ofList (encodeChars bytes)

def decodeChars : List Char → Option (List UInt8)
  | [] => some []
  | [_] => none
  | high :: low :: rest =>
    match digits.idxOf? high, digits.idxOf? low, decodeChars rest with
    | some h, some l, some bytes => some (UInt8.ofNat (h * 16 + l) :: bytes)
    | _, _, _ => none

/-- Refuses an odd number of characters and any character but the sixteen digits. -/
def decode? (text : String) : Option (List UInt8) := decodeChars text.toList

def isDigit (c : Char) : Bool := c.isDigit || ('a' ≤ c && c ≤ 'f')

@[simp] theorem length_encodeChars (bytes : List UInt8) :
    (encodeChars bytes).length = 2 * bytes.length := by
  induction bytes with
  | nil => rfl
  | cons byte rest ih => simp [encodeChars, ih]; omega

theorem isDigit_digit {n : Nat} (h : n < 16) : isDigit (digit n) = true := by
  have all : ∀ n ∈ List.range 16, isDigit (digit n) = true := by decide
  exact all n (List.mem_range.mpr h)

theorem isDigit_of_mem_encodeChars {bytes : List UInt8} {c : Char} (h : c ∈ encodeChars bytes) :
    isDigit c = true := by
  induction bytes with
  | nil => simp [encodeChars] at h
  | cons byte rest ih =>
    have hbyte : byte.toNat < 256 := byte.toNat_lt
    simp only [encodeChars, List.mem_cons] at h
    rcases h with rfl | rfl | h
    · exact isDigit_digit (by omega)
    · exact isDigit_digit (by omega)
    · exact ih h

end ClusterKeeper.Hex

/-! ### Base58 with the Bitcoin alphabet

The bytes are one big-endian number, with a `1` for each leading zero byte. -/

namespace ClusterKeeper.Base58

def alphabet : List Char :=
  "123456789ABCDEFGHJKLMNPQRSTUVWXYZabcdefghijkmnopqrstuvwxyz".toList

def symbol (value : Nat) : Char := alphabet.getD value '1'

/-- The number whose big-endian digits to base 256 are the bytes. -/
def ofBytes (bytes : List UInt8) : Nat := bytes.foldl (fun n byte => n * 256 + byte.toNat) 0

/-- The digits of a number, the most significant first; zero has none. -/
def digits (n : Nat) : List Nat :=
  if _h : n = 0 then [] else digits (n / 58) ++ [n % 58]
termination_by n
decreasing_by omega

def leadingZeros (bytes : List UInt8) : Nat := (bytes.takeWhile (· == 0)).length

def encodeChars (bytes : List UInt8) : List Char :=
  List.replicate (leadingZeros bytes) '1' ++ (digits (ofBytes bytes)).map symbol

def encode (bytes : List UInt8) : String := String.ofList (encodeChars bytes)

/-- The text with the letter in front by which other texts tell the base. -/
def multibase (bytes : List UInt8) : List Char := 'z' :: encodeChars bytes

/-- A text without that letter, if it is there. -/
def withoutCode : List Char → List Char
  | 'z' :: text => text
  | text => text

end ClusterKeeper.Base58

/-! ### Unsigned LEB128

Seven bits to a byte, the least significant first, the top bit set on all bytes but the last. A value
has at most 64 bits, so at most ten bytes, and the tenth is at most one. -/

namespace ClusterKeeper.Varint

/-- Decodes from byte `index`, which adds its seven bits at `shift`. -/
def decodeFrom (index : Nat) (shift value : UInt64) : List UInt8 → Option UInt64
  | [] => none
  | byte :: rest =>
    if index = 10 then none
    else if byte < 0x80 then
      if index = 9 ∧ 1 < byte then none else some (value ||| byte.toUInt64 <<< shift)
    else decodeFrom (index + 1) (shift + 7) (value ||| (byte &&& 0x7F).toUInt64 <<< shift) rest

/-- The value that the bytes start with; nothing if it does not end or has more than 64 bits. -/
def decode? (bytes : List UInt8) : Option UInt64 := decodeFrom 0 0 0 bytes

def littleEndian (bytes : List UInt8) : Nat :=
  bytes.foldr (fun byte n => byte.toNat + 256 * n) 0

/-- The seed that eight random bytes give: the value they start with, else all of them as one
little-endian number. -/
def seedOfBytes (bytes : List UInt8) : UInt64 :=
  (decode? bytes).getD (UInt64.ofNat (littleEndian bytes))

end ClusterKeeper.Varint
