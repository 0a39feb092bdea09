import Mathlib.Algebra.BigOperators.Group.Finset.Basic
import Mathlib.Algebra.BigOperators.Ring.Finset
import Mathlib.Tactic.NormNum
import Mathlib.Tactic.Ring
import ClusterKeeper.Encoding.Bytes

/-!
What a varint decodes to. The decoder builds a word from shifted parts, and the value is a sum without
bounds; the main statement is that the two agree whenever there is a word, and that there is one
whenever the sum fits.
-/

namespace ClusterKeeper.Varint

/-- The index of the byte that ends a varint: the first without the top bit. -/
def terminator? (bytes : List UInt8) : Option Nat := bytes.findIdx? (· < 0x80)

/-- The number that the low seven bits of the bytes up to the given index make. -/
def payload (bytes : List UInt8) (last : Nat) : Nat :=
  ∑ i ∈ Finset.range (last + 1), (bytes.getD i 0).toNat % 128 * 128 ^ i

@[simp] theorem payload_zero (byte : UInt8) (rest : List UInt8) :
    payload (byte :: rest) 0 = byte.toNat % 128 := by
  simp [payload]

theorem payload_succ (byte : UInt8) (rest : List UInt8) (last : Nat) :
    payload (byte :: rest) (last + 1) = byte.toNat % 128 + 128 * payload rest last := by
  have hshift (i : Nat) : ((byte :: rest).getD (i + 1) 0).toNat % 128 * 128 ^ (i + 1) =
      128 * ((rest.getD i 0).toNat % 128 * 128 ^ i) := by
    rw [List.getD_cons_succ, pow_succ]
    ring
  rw [payload, Finset.sum_range_succ', Finset.sum_congr rfl fun i _ => hshift i, ← Finset.mul_sum,
    payload]
  simp [Nat.add_comm]

theorem terminator?_of_lt {byte : UInt8} (h : byte < 0x80) (rest : List UInt8) :
    terminator? (byte :: rest) = some 0 := by
  simp [terminator?, List.findIdx?_cons, h]

theorem terminator?_of_not_lt {byte : UInt8} (h : ¬byte < 0x80) (rest : List UInt8) :
    terminator? (byte :: rest) = (terminator? rest).map (· + 1) := by
  simp [terminator?, List.findIdx?_cons, h]

/-! ### One byte -/

theorem toNat_low (byte : UInt8) : (byte &&& 0x7F).toNat = byte.toNat % 128 := by
  rw [UInt8.toNat_and]
  exact Nat.and_two_pow_sub_one_eq_mod byte.toNat 7

theorem toNat_or_shiftLeft {value shift : UInt64} {index : Nat} (part : UInt8) (hindex : index ≤ 9)
    (hshift : shift.toNat = 7 * index) (hvalue : value.toNat < 128 ^ index)
    (hfits : part.toNat * 128 ^ index < 2 ^ 64) :
    (value ||| part.toUInt64 <<< shift).toNat = value.toNat + 128 ^ index * part.toNat := by
  have hpower : 128 ^ index = 2 ^ (7 * index) := Eq.symm (Nat.pow_mul 2 7 index)
  have hwidth : 7 * index % 64 = 7 * index := Nat.mod_eq_of_lt (by omega)
  have hpart : (part.toUInt64 <<< shift).toNat = 2 ^ (7 * index) * part.toNat := by
    rw [UInt64.toNat_shiftLeft, UInt8.toNat_toUInt64, hshift, hwidth, Nat.shiftLeft_eq, ← hpower,
      Nat.mod_eq_of_lt hfits, Nat.mul_comm]
  rw [hpower] at hvalue ⊢
  rw [UInt64.toNat_or, hpart, Nat.or_comm, ← Nat.two_pow_add_eq_or_of_lt hvalue, Nat.add_comm]

/-- Seven bits fit in a word at every index but the last. -/
theorem low_fits {n index : Nat} (hn : n < 128) (hindex : index ≤ 8) : n * 128 ^ index < 2 ^ 64 := by
  calc n * 128 ^ index ≤ 127 * 128 ^ 8 :=
        Nat.mul_le_mul (by omega) (Nat.pow_le_pow_right (by decide) hindex)
    _ < 2 ^ 64 := by decide

/-- At the last index one bit is left. -/
theorem last_fits_iff {value n : Nat} (hvalue : value < 128 ^ 9) :
    value + 128 ^ 9 * n < 2 ^ 64 ↔ n ≤ 1 := by
  norm_num at hvalue ⊢
  omega

/-- What the loop has gathered when it comes to the byte of the index. -/
structure Gathered (index : Nat) (shift value : UInt64) : Prop where
  index_le : index ≤ 9
  shift_eq : shift.toNat = 7 * index
  value_lt : value.toNat < 128 ^ index

namespace Gathered

variable {index : Nat} {shift value : UInt64}

theorem start : Gathered 0 0 0 := ⟨by decide, rfl, by decide⟩

theorem shift_lt (h : Gathered index shift value) : shift < 64 := by
  have := h.index_le
  have := h.shift_eq
  rw [UInt64.lt_iff_toNat_lt]
  change shift.toNat < 64
  omega

/-- A byte that continues is added below the last index. -/
theorem toNat_or_low (h : Gathered index shift value) (hindex : index ≠ 9) (byte : UInt8) :
    (value ||| (byte &&& 0x7F).toUInt64 <<< shift).toNat =
      value.toNat + 128 ^ index * (byte.toNat % 128) := by
  have hle := h.index_le
  rw [toNat_or_shiftLeft _ h.index_le h.shift_eq h.value_lt, toNat_low]
  rw [toNat_low]
  exact low_fits (Nat.mod_lt _ (by decide)) (by omega)

theorem step (h : Gathered index shift value) (hindex : index ≠ 9) (byte : UInt8) :
    Gathered (index + 1) (shift + 7) (value ||| (byte &&& 0x7F).toUInt64 <<< shift) where
  index_le := by
    have := h.index_le
    omega
  shift_eq := by
    have := h.index_le
    have := h.shift_eq
    rw [UInt64.toNat_add]
    change (shift.toNat + 7) % 2 ^ 64 = _
    omega
  value_lt := by
    have hvalue := h.value_lt
    have hlow : 128 ^ index * (byte.toNat % 128) ≤ 128 ^ index * 127 :=
      Nat.mul_le_mul_left _ (by omega)
    rw [h.toNat_or_low hindex, pow_succ]
    omega

/-- The byte that ends the varint is added if the sum fits. -/
theorem toNat_or_last (h : Gathered index shift value) {byte : UInt8} (hbyte : byte < 0x80)
    (hlast : ¬(index = 9 ∧ 1 < byte)) :
    (value ||| byte.toUInt64 <<< shift).toNat = value.toNat + 128 ^ index * byte.toNat := by
  have hle := h.index_le
  refine toNat_or_shiftLeft byte h.index_le h.shift_eq h.value_lt ?_
  rw [UInt8.lt_iff_toNat_lt] at hbyte hlast
  by_cases hindex : index = 9
  · have hbit : byte.toNat ≤ 1 := by
      by_contra hbit
      exact hlast ⟨hindex, by simpa using hbit⟩
    subst hindex
    calc byte.toNat * 128 ^ 9 ≤ 1 * 128 ^ 9 := Nat.mul_le_mul_right _ hbit
      _ < 2 ^ 64 := by decide
  · exact low_fits hbyte (by omega)

/-- The sum with the last byte fits unless that byte is refused. -/
theorem fits_iff (h : Gathered index shift value) {byte : UInt8} (hbyte : byte < 0x80) :
    value.toNat + 128 ^ index * byte.toNat < 2 ^ 64 ↔ ¬(index = 9 ∧ 1 < byte) := by
  constructor
  · rintro hfits ⟨rfl, hbit⟩
    rw [last_fits_iff h.value_lt] at hfits
    rw [UInt8.lt_iff_toNat_lt] at hbit
    exact absurd hbit (by simpa using hfits)
  · intro hlast
    rw [← h.toNat_or_last hbyte hlast]
    exact UInt64.toNat_lt _

end Gathered

/-! ### The loop -/

theorem decodeFrom_ten (shift value : UInt64) (bytes : List UInt8) :
    decodeFrom 10 shift value bytes = none := by
  cases bytes <;> rfl

theorem decodeFrom_of_not_lt {index : Nat} (shift value : UInt64) {byte : UInt8} (rest : List UInt8)
    (hindex : index ≠ 10) (h : ¬byte < 0x80) :
    decodeFrom index shift value (byte :: rest) =
      decodeFrom (index + 1) (shift + 7) (value ||| (byte &&& 0x7F).toUInt64 <<< shift) rest := by
  simp [decodeFrom, hindex, h]

theorem decodeFrom_of_lt {index : Nat} (shift value : UInt64) {byte : UInt8} (rest : List UInt8)
    (hindex : index ≠ 10) (h : byte < 0x80) :
    decodeFrom index shift value (byte :: rest) =
      if index = 9 ∧ 1 < byte then none else some (value ||| byte.toUInt64 <<< shift) := by
  simp [decodeFrom, hindex, h]

/-- From what was gathered, the loop comes to the sum with the bytes that are left, if they end in
time and the sum fits. -/
theorem decodeFrom_eq_some_iff {index : Nat} {shift value : UInt64} (h : Gathered index shift value)
    (bytes : List UInt8) (v : UInt64) :
    decodeFrom index shift value bytes = some v ↔
      ∃ k, terminator? bytes = some k ∧ index + k ≤ 9 ∧
        v.toNat = value.toNat + 128 ^ index * payload bytes k := by
  induction bytes generalizing index shift value with
  | nil => simp [decodeFrom, terminator?]
  | cons byte rest ih =>
      have hle := h.index_le
      by_cases hbyte : byte < 0x80
      · have hlow : byte.toNat % 128 = byte.toNat := Nat.mod_eq_of_lt hbyte
        rw [decodeFrom_of_lt _ _ _ (by omega) hbyte, terminator?_of_lt hbyte]
        simp only [Option.some.injEq, exists_eq_left', payload_zero, hlow]
        split
        · next hlast =>
            -- the sum is no word, so no word equals it
            have hfits := mt (h.fits_iff hbyte).mp (not_not_intro hlast)
            simp only [false_iff, not_and, reduceCtorEq]
            intro _ hv
            exact hfits (hv ▸ UInt64.toNat_lt v)
        · next hlast =>
            rw [← h.toNat_or_last hbyte hlast, Option.some.injEq, ← UInt64.toNat_inj, eq_comm]
            simp [hle]
      · rw [decodeFrom_of_not_lt _ _ _ (by omega) hbyte, terminator?_of_not_lt hbyte]
        simp only [Option.map_eq_some_iff]
        by_cases hindex : index = 9
        · subst hindex
          rw [decodeFrom_ten]
          simp only [false_iff, not_exists, reduceCtorEq]
          rintro _ ⟨⟨k, -, rfl⟩, hk, -⟩
          omega
        · rw [ih (h.step hindex byte), h.toNat_or_low hindex]
          constructor
          · rintro ⟨k, hk, hle, hv⟩
            refine ⟨k + 1, ⟨k, hk, rfl⟩, by omega, ?_⟩
            rw [hv, payload_succ]
            ring
          · rintro ⟨_, ⟨k, hk, rfl⟩, hle, hv⟩
            refine ⟨k, hk, by omega, ?_⟩
            rw [hv, payload_succ]
            ring

theorem decode?_eq_some_iff (bytes : List UInt8) (v : UInt64) :
    decode? bytes = some v ↔
      ∃ k, terminator? bytes = some k ∧ k ≤ 9 ∧ v.toNat = payload bytes k := by
  rw [decode?]
  simpa using decodeFrom_eq_some_iff .start bytes v

theorem decode?_eq_none_iff (bytes : List UInt8) :
    decode? bytes = none ↔
      ∀ k, terminator? bytes = some k → k ≤ 9 → 2 ^ 64 ≤ payload bytes k := by
  constructor
  · intro hnone k hk hle
    by_contra hfits
    have hsome := (decode?_eq_some_iff bytes (.ofNat (payload bytes k))).mpr
      ⟨k, hk, hle, UInt64.toNat_ofNat_of_lt (by simpa using hfits)⟩
    exact Option.some_ne_none _ (hsome.symm.trans hnone)
  · intro hall
    cases hdecode : decode? bytes with
    | none => rfl
    | some v =>
        obtain ⟨k, hk, hle, hv⟩ := (decode?_eq_some_iff bytes v).mp hdecode
        exact absurd (hall k hk hle) (Nat.not_le.mpr (hv ▸ UInt64.toNat_lt v))

/-! ### Shifts -/

/-- A word shifted to the left by less than its width. -/
def shiftLeft? (word shift : UInt64) : Option UInt64 :=
  if shift < 64 then some (word <<< shift) else none

/-- The loop in an arithmetic without shifts by the width of a word or more, where a run that comes
to one has no result. -/
def decodeFromChecked (index : Nat) (shift value : UInt64) : List UInt8 → Option (Option UInt64)
  | [] => some none
  | byte :: rest =>
    if index = 10 then some none
    else if byte < 0x80 then
      if index = 9 ∧ 1 < byte then some none
      else (shiftLeft? byte.toUInt64 shift).map fun part => some (value ||| part)
    else
      (shiftLeft? (byte &&& 0x7F).toUInt64 shift).bind fun part =>
        decodeFromChecked (index + 1) (shift + 7) (value ||| part) rest

def decodeChecked (bytes : List UInt8) : Option (Option UInt64) := decodeFromChecked 0 0 0 bytes

/-- No run comes to such a shift. -/
theorem decodeFromChecked_eq {index : Nat} {shift value : UInt64} (h : Gathered index shift value)
    (bytes : List UInt8) :
    decodeFromChecked index shift value bytes = some (decodeFrom index shift value bytes) := by
  induction bytes generalizing index shift value with
  | nil => rfl
  | cons byte rest ih =>
      have hindex : index ≠ 10 := by
        have := h.index_le
        omega
      simp only [decodeFromChecked, decodeFrom, shiftLeft?, if_neg hindex, if_pos h.shift_lt,
        Option.map_some, Option.bind_some]
      split
      · split <;> rfl
      · by_cases hlast : index = 9
        · subst hlast
          rw [decodeFrom_ten]
          cases rest <;> rfl
        · exact ih (h.step hlast byte)

/-! ### Encoding -/

/-- The standard encoding of a number: seven bits to a byte, as few bytes as it takes. -/
def encode (n : Nat) : List UInt8 :=
  if n < 128 then [UInt8.ofNat n] else UInt8.ofNat (n % 128 + 128) :: encode (n / 128)

theorem encode_of_lt {n : Nat} (h : n < 128) : encode n = [UInt8.ofNat n] := by
  rw [encode, if_pos h]

theorem encode_of_not_lt {n : Nat} (h : ¬n < 128) :
    encode n = UInt8.ofNat (n % 128 + 128) :: encode (n / 128) := by
  rw [encode, if_neg h]

/-- One byte holds a number below 128. -/
theorem payload_ended {n : Nat} (hn : n < 128) (rest : List UInt8) :
    terminator? (UInt8.ofNat n :: rest) = some 0 ∧ payload (UInt8.ofNat n :: rest) 0 = n := by
  have hbyte : (UInt8.ofNat n).toNat = n := UInt8.toNat_ofNat_of_lt (show n < 256 by omega)
  constructor
  · refine terminator?_of_lt ?_ rest
    rw [UInt8.lt_iff_toNat_lt, hbyte]
    exact hn
  · rw [payload_zero, hbyte, Nat.mod_eq_of_lt hn]

/-- A byte that continues has seven bits below those of the varint after it. -/
theorem payload_continued (n : Nat) {rest : List UInt8} {k : Nat} (hk : terminator? rest = some k) :
    terminator? (UInt8.ofNat (n % 128 + 128) :: rest) = some (k + 1) ∧
      payload (UInt8.ofNat (n % 128 + 128) :: rest) (k + 1) = n % 128 + 128 * payload rest k := by
  have hbyte : (UInt8.ofNat (n % 128 + 128)).toNat = n % 128 + 128 :=
    UInt8.toNat_ofNat_of_lt (show n % 128 + 128 < 256 by omega)
  have hcontinues : ¬UInt8.ofNat (n % 128 + 128) < 0x80 := by
    rw [UInt8.lt_iff_toNat_lt, hbyte]
    change ¬n % 128 + 128 < 128
    omega
  constructor
  · rw [terminator?_of_not_lt hcontinues, hk]
    rfl
  · rw [payload_succ, hbyte, Nat.add_mod_right, Nat.mod_mod]

/-- The encoding ends at its last byte, which a number that is large enough brings about. -/
theorem exists_terminator_encode (n : Nat) (rest : List UInt8) :
    ∃ k, terminator? (encode n ++ rest) = some k ∧ payload (encode n ++ rest) k = n ∧
      (k = 0 ∨ 128 ^ k ≤ n) := by
  induction n using Nat.strongRecOn with
  | ind n ih =>
      by_cases hn : n < 128
      · obtain ⟨hend, hpayload⟩ := payload_ended hn rest
        rw [encode_of_lt hn, List.singleton_append]
        exact ⟨0, hend, hpayload, .inl rfl⟩
      · obtain ⟨k, hk, hpayload, hlarge⟩ := ih (n / 128) (by omega)
        obtain ⟨hend, hsum⟩ := payload_continued n hk
        rw [encode_of_not_lt hn, List.cons_append]
        refine ⟨k + 1, hend, ?_, .inr ?_⟩
        · rw [hsum, hpayload]
          omega
        · rcases hlarge with rfl | hlarge
          · omega
          · rw [pow_succ]
            omega

theorem decode?_encode (v : UInt64) (rest : List UInt8) :
    decode? (encode v.toNat ++ rest) = some v := by
  obtain ⟨k, hk, hpayload, hlarge⟩ := exists_terminator_encode v.toNat rest
  refine (decode?_eq_some_iff _ v).mpr ⟨k, hk, ?_, hpayload.symm⟩
  by_contra hle
  have hpower : 128 ^ 10 ≤ 128 ^ k := Nat.pow_le_pow_right (by decide) (by omega)
  have hv := UInt64.toNat_lt v
  rcases hlarge with rfl | hlarge
  · omega
  · norm_num at hpower hv
    omega

/-- Decoding is exact: a varint that ends by its tenth byte decodes to the sum of its parts if that
fits in 64 bits, and nothing else decodes; no run shifts a word by its width or more, and the standard
encoding of a word decodes to it, whatever follows. -/
theorem decode?_exact (bytes : List UInt8) :
    (∀ v, decode? bytes = some v ↔ ∃ k, terminator? bytes = some k ∧ k ≤ 9 ∧
        payload bytes k < 2 ^ 64 ∧ v.toNat = payload bytes k) ∧
      (decode? bytes = none ↔ ¬∃ k, terminator? bytes = some k ∧ k ≤ 9 ∧
        payload bytes k < 2 ^ 64) ∧
      decodeChecked bytes = some (decode? bytes) ∧
      ∀ v : UInt64, decode? (encode v.toNat ++ bytes) = some v := by
  refine ⟨fun v => ?_, ?_, decodeFromChecked_eq .start bytes, fun v => decode?_encode v bytes⟩
  · rw [decode?_eq_some_iff]
    refine exists_congr fun k => and_congr_right fun _ => and_congr_right fun _ => ?_
    exact ⟨fun hv => ⟨hv ▸ UInt64.toNat_lt v, hv⟩, And.right⟩
  · rw [decode?_eq_none_iff]
    simp only [not_exists, not_and, Nat.not_lt]

/-- The greatest word has ten bytes; with two bits in the tenth there is no word. -/
example : decode? (List.replicate 9 0xFF ++ [1]) = some 0xFFFFFFFFFFFFFFFF ∧
    decode? (List.replicate 9 0xFF ++ [2]) = none := by decide

end ClusterKeeper.Varint
