import Mathlib.Data.Nat.Digits.Lemmas
import Mathlib.Data.Set.Function
import Mathlib.Data.Vector.Basic
import ClusterKeeper.Proofs.Encoding.Varint

/-!
Which seeds eight random bytes can give. Bytes that hold a varint give its value, which has at most 56
bits, so that many of them give the same seed; all others give one seed each, and none of these is the
value of a varint.
-/

namespace ClusterKeeper.Varint

/-! ### Values of varints -/

theorem payload_lt (bytes : List UInt8) (last : Nat) : payload bytes last < 128 ^ (last + 1) := by
  induction last with
  | zero =>
      rw [payload, Finset.sum_range_one, pow_zero, mul_one]
      exact Nat.mod_lt _ (by decide)
  | succ last ih =>
      have hlow : (bytes.getD (last + 1) 0).toNat % 128 ≤ 127 := by omega
      have hpart := Nat.mul_le_mul_right (128 ^ (last + 1)) hlow
      rw [payload, Finset.sum_range_succ, ← payload, pow_succ 128 (last + 1)]
      omega

theorem lt_length_of_terminator? {bytes : List UInt8} {k : Nat} (h : terminator? bytes = some k) :
    k < bytes.length := by
  obtain ⟨hk, -⟩ := List.findIdx?_eq_some_iff_getElem.mp h
  exact hk

theorem terminator?_eq_none_iff {bytes : List UInt8} :
    terminator? bytes = none ↔ ∀ byte ∈ bytes, ¬byte < 0x80 := by
  simp [terminator?, List.findIdx?_eq_none_iff]

/-- A number in `k + 1` bytes, of which all but the last continue. -/
def encodeIn : Nat → Nat → List UInt8
  | 0, n => [UInt8.ofNat n]
  | k + 1, n => UInt8.ofNat (n % 128 + 128) :: encodeIn k (n / 128)

@[simp] theorem length_encodeIn (k n : Nat) : (encodeIn k n).length = k + 1 := by
  induction k generalizing n with
  | zero => rfl
  | succ k ih => rw [encodeIn, List.length_cons, ih]

/-- Any number that fits has such an encoding, with leading zeros if need be. -/
theorem payload_encodeIn {k n : Nat} (h : n < 128 ^ (k + 1)) :
    terminator? (encodeIn k n) = some k ∧ payload (encodeIn k n) k = n := by
  induction k generalizing n with
  | zero => exact payload_ended (by simpa using h) []
  | succ k ih =>
      rw [pow_succ] at h
      obtain ⟨hend, hpayload⟩ := ih (Nat.div_lt_of_lt_mul (by omega : n < 128 * 128 ^ (k + 1)))
      obtain ⟨hcontinued, hsum⟩ := payload_continued n hend
      refine ⟨hcontinued, ?_⟩
      rw [encodeIn, hsum, hpayload]
      omega

/-! ### Little-endian numbers -/

theorem littleEndian_eq_ofDigits (bytes : List UInt8) :
    littleEndian bytes = Nat.ofDigits 256 (bytes.map UInt8.toNat) := by
  induction bytes with
  | nil => rfl
  | cons byte rest ih =>
      rw [List.map_cons, Nat.ofDigits_cons, ← ih]
      rfl

theorem littleEndian_lt (bytes : List UInt8) : littleEndian bytes < 256 ^ bytes.length := by
  rw [littleEndian_eq_ofDigits]
  have h := Nat.ofDigits_lt_base_pow_length (b := 256) (l := bytes.map UInt8.toNat)
    (by decide) (by simpa using fun byte _ => UInt8.toNat_lt byte)
  simpa using h

theorem littleEndian_inj {a b : List UInt8} (hlength : a.length = b.length)
    (h : littleEndian a = littleEndian b) : a = b := by
  have hlt (bytes : List UInt8) : ∀ n ∈ bytes.map UInt8.toNat, n < 256 := by
    simpa using fun byte _ => UInt8.toNat_lt byte
  rw [littleEndian_eq_ofDigits, littleEndian_eq_ofDigits] at h
  have hnumbers := Nat.ofDigits_inj_of_len_eq (by decide) (by simpa using hlength) (hlt a) (hlt b) h
  exact List.map_injective_iff.mpr (fun _ _ => UInt8.toNat_inj.mp) hnumbers

/-- The last byte is the most significant one. -/
theorem le_littleEndian_append (bytes : List UInt8) (byte : UInt8) :
    byte.toNat * 256 ^ bytes.length ≤ littleEndian (bytes ++ [byte]) := by
  rw [littleEndian_eq_ofDigits, List.map_append, Nat.ofDigits_append, List.length_map,
    List.map_singleton, Nat.ofDigits_singleton, Nat.mul_comm]
  exact Nat.le_add_left _ _

/-! ### Seeds -/

abbrev SeedBytes := List.Vector UInt8 8

def SeedBytes.seed (bytes : SeedBytes) : UInt64 := seedOfBytes bytes.toList

/-- Whether no byte ends a varint. -/
def SeedBytes.IsEndless (bytes : SeedBytes) : Prop := ∀ byte ∈ bytes.toList, ¬byte < 0x80

namespace SeedBytes

variable {bytes : SeedBytes}

theorem isEndless_iff : bytes.IsEndless ↔ terminator? bytes.toList = none :=
  terminator?_eq_none_iff.symm

theorem seed_of_isEndless (h : bytes.IsEndless) : bytes.seed.toNat = littleEndian bytes.toList := by
  have hnone : decode? bytes.toList = none := by
    rw [decode?_eq_none_iff, isEndless_iff.mp h]
    exact nofun
  have hlt := littleEndian_lt bytes.toList
  rw [List.Vector.toList_length] at hlt
  rw [seed, seedOfBytes, hnone, Option.getD_none]
  exact UInt64.toNat_ofNat_of_lt hlt

theorem seed_of_terminator? {k : Nat} (h : terminator? bytes.toList = some k) :
    bytes.seed.toNat = payload bytes.toList k ∧ bytes.seed.toNat < 2 ^ 56 := by
  have hk := lt_length_of_terminator? h
  rw [List.Vector.toList_length] at hk
  have hlt : payload bytes.toList k < 2 ^ 56 := by
    calc payload bytes.toList k < 128 ^ (k + 1) := payload_lt _ _
      _ ≤ 128 ^ 8 := Nat.pow_le_pow_right (by decide) hk
      _ = 2 ^ 56 := by decide
  have hword : (UInt64.ofNat (payload bytes.toList k)).toNat = payload bytes.toList k :=
    UInt64.toNat_ofNat_of_lt (Nat.lt_trans hlt (by decide))
  have hsome : decode? bytes.toList = some (.ofNat (payload bytes.toList k)) :=
    (decode?_eq_some_iff _ _).mpr ⟨k, h, by omega, hword⟩
  have hseed : bytes.seed.toNat = payload bytes.toList k := by
    rw [seed, seedOfBytes, hsome, Option.getD_some, hword]
  exact ⟨hseed, hseed ▸ hlt⟩

theorem le_seed (h : bytes.IsEndless) : 2 ^ 63 ≤ bytes.seed.toNat := by
  obtain ⟨init, last, hsplit⟩ : ∃ init last, bytes.toList = init ++ [last] := by
    have hne : bytes.toList ≠ [] := by
      rw [← List.length_pos_iff, List.Vector.toList_length]
      decide
    exact ⟨_, _, (List.dropLast_concat_getLast hne).symm⟩
  have hlength : init.length = 7 := by
    have := congrArg List.length hsplit
    rw [List.Vector.toList_length, List.length_append, List.length_singleton] at this
    omega
  have hlast : 128 ≤ last.toNat := by
    have := h last (by simp [hsplit])
    rwa [UInt8.not_lt, UInt8.le_iff_toNat_le] at this
  rw [seed_of_isEndless h, hsplit]
  calc 2 ^ 63 = 128 * 256 ^ init.length := by rw [hlength]; decide
    _ ≤ last.toNat * 256 ^ init.length := Nat.mul_le_mul_right _ hlast
    _ ≤ littleEndian (init ++ [last]) := le_littleEndian_append init last

theorem eq_of_seed_eq {a b : SeedBytes} (ha : a.IsEndless) (hb : b.IsEndless)
    (h : a.seed = b.seed) : a = b := by
  have hnumbers : littleEndian a.toList = littleEndian b.toList := by
    rw [← seed_of_isEndless ha, ← seed_of_isEndless hb, h]
  exact List.Vector.eq _ _ (littleEndian_inj (by simp) hnumbers)

/-- Every number of 56 bits is the value of a varint in eight bytes. -/
theorem exists_seed_eq {seed : UInt64} (h : seed.toNat < 2 ^ 56) :
    ∃ bytes : SeedBytes, ¬bytes.IsEndless ∧ bytes.seed = seed := by
  obtain ⟨hend, hpayload⟩ := payload_encodeIn (k := 7) (n := seed.toNat) h
  let bytes : SeedBytes := ⟨encodeIn 7 seed.toNat, length_encodeIn 7 _⟩
  have hbytes : terminator? bytes.toList = some 7 := hend
  refine ⟨bytes, ?_, ?_⟩
  · rw [isEndless_iff, hbytes]
    exact nofun
  · rw [← UInt64.toNat_inj, (seed_of_terminator? hbytes).1]
    exact hpayload

theorem exists_terminator (h : ¬bytes.IsEndless) : ∃ k, terminator? bytes.toList = some k :=
  Option.ne_none_iff_exists'.mp (mt isEndless_iff.mpr h)

theorem seed_lt (h : ¬bytes.IsEndless) : bytes.seed.toNat < 2 ^ 56 := by
  obtain ⟨k, hk⟩ := exists_terminator h
  exact (seed_of_terminator? hk).2

/-- The two sorts of input have no seed in common. -/
theorem seed_ne {a b : SeedBytes} (ha : a.IsEndless) (hb : ¬b.IsEndless) : a.seed ≠ b.seed := by
  intro h
  have hle := le_seed ha
  have hlt := seed_lt hb
  rw [h] at hle
  omega

theorem seed_eq_iff (a b : SeedBytes) :
    a.seed = b.seed ↔ a = b ∨ ∃ i j, terminator? a.toList = some i ∧ terminator? b.toList = some j ∧
      payload a.toList i = payload b.toList j := by
  constructor
  · intro h
    by_cases ha : a.IsEndless
    · by_cases hb : b.IsEndless
      · exact .inl (eq_of_seed_eq ha hb h)
      · exact absurd h (seed_ne ha hb)
    · by_cases hb : b.IsEndless
      · exact absurd h.symm (seed_ne hb ha)
      · obtain ⟨i, hi⟩ := exists_terminator ha
        obtain ⟨j, hj⟩ := exists_terminator hb
        refine .inr ⟨i, j, hi, hj, ?_⟩
        rw [← (seed_of_terminator? hi).1, ← (seed_of_terminator? hj).1, h]
  · rintro (rfl | ⟨i, j, hi, hj, h⟩)
    · rfl
    · rw [← UInt64.toNat_inj, (seed_of_terminator? hi).1, (seed_of_terminator? hj).1, h]

/-- Two inputs give one seed just if they are the same or hold varints of the same value. The seeds of
endless inputs are told apart and have the top bit, those of all others are the numbers of 56 bits, and
no seed is of both sorts. -/
theorem seed_collisions :
    (∀ a b : SeedBytes, a.seed = b.seed ↔ a = b ∨
      ∃ i j, terminator? a.toList = some i ∧ terminator? b.toList = some j ∧
        payload a.toList i = payload b.toList j) ∧
      Set.InjOn seed {bytes | bytes.IsEndless} ∧
      Set.MapsTo seed {bytes | bytes.IsEndless} {seed | 2 ^ 63 ≤ seed.toNat} ∧
      seed '' {bytes | ¬bytes.IsEndless} = {seed | seed.toNat < 2 ^ 56} ∧
      seed '' {bytes | bytes.IsEndless} ∩ seed '' {bytes | ¬bytes.IsEndless} = ∅ := by
  refine ⟨seed_eq_iff, fun a ha b hb h => eq_of_seed_eq ha hb h, fun bytes h => le_seed h, ?_, ?_⟩
  · apply Set.Subset.antisymm
    · rintro _ ⟨bytes, hbytes, rfl⟩
      exact seed_lt hbytes
    · intro seed hseed
      exact exists_seed_eq hseed
  · rw [Set.eq_empty_iff_forall_notMem]
    rintro _ ⟨⟨a, ha, rfl⟩, b, hb, h⟩
    exact seed_ne ha hb h.symm

/-- Zero is the seed of eight zeros, and of seven times 0x80 before one. -/
example : seed ⟨List.replicate 8 0, rfl⟩ = 0 ∧ seed ⟨List.replicate 7 0x80 ++ [0], rfl⟩ = 0 := by
  decide

end SeedBytes

end ClusterKeeper.Varint
