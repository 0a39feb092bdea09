import Mathlib.Data.Nat.Digits.Lemmas
import ClusterKeeper.Encoding.Bytes

/-!
Base58 as a change of base: the digits of a number to base 256 become its digits to base 58. The main
statements are that decoding inverts encoding, leading zero bytes included, and that the digits in
front are those of the number without its low part.
-/

namespace ClusterKeeper.Base58

/-! ### Decoding -/

def value? (c : Char) : Option Nat := alphabet.idxOf? c

/-- The bytes of a number, the most significant first; zero has none. -/
def bytesOf (n : Nat) : List UInt8 := (Nat.digits 256 n).reverse.map UInt8.ofNat

/-- The bytes that a text stands for: a zero byte for each leading zero digit, then the number. -/
def decode? (text : String) : Option (List UInt8) :=
  (text.toList.mapM value?).map fun digits =>
    List.replicate (digits.takeWhile (· == 0)).length 0 ++ bytesOf (Nat.ofDigits 58 digits.reverse)

theorem value?_symbol {n : Nat} (h : n < 58) : value? (symbol n) = some n := by
  have hall : ∀ n < 58, value? (symbol n) = some n := by decide +kernel
  exact hall n h

theorem mapM_value?_map_symbol {digits : List Nat} (h : ∀ d ∈ digits, d < 58) :
    (digits.map symbol).mapM value? = some digits := by
  induction digits with
  | nil => rfl
  | cons d rest ih =>
      obtain ⟨hd, hrest⟩ := List.forall_mem_cons.mp h
      rw [List.map_cons, List.mapM_cons, value?_symbol hd, ih hrest]
      rfl

/-! ### Digits -/

theorem digits_eq_reverse (n : Nat) : digits n = (Nat.digits 58 n).reverse := by
  induction n using Nat.strongRecOn with
  | ind n ih =>
      rw [digits]
      split
      · next h => rw [h, Nat.digits_zero, List.reverse_nil]
      · next h =>
          rw [ih (n / 58) (by omega), Nat.digits_def' (by decide) (Nat.pos_of_ne_zero h),
            List.reverse_cons]

theorem lt_of_mem_digits {n d : Nat} (h : d ∈ digits n) : d < 58 := by
  rw [digits_eq_reverse, List.mem_reverse] at h
  exact Nat.digits_lt_base (by decide) h

/-- The first digit of a number is not zero. -/
theorem exists_digits_eq_cons {n : Nat} (h : n ≠ 0) :
    ∃ d rest, d ≠ 0 ∧ digits n = d :: rest := by
  induction n using Nat.strongRecOn with
  | ind n ih =>
      rw [digits, dif_neg h]
      by_cases hsmall : n < 58
      · rw [Nat.div_eq_of_lt hsmall, digits, dif_pos rfl, Nat.mod_eq_of_lt hsmall]
        exact ⟨n, [], h, rfl⟩
      · obtain ⟨d, rest, hd, hdigits⟩ := ih (n / 58) (by omega) (by omega)
        exact ⟨d, rest ++ [n % 58], hd, by rw [hdigits, List.cons_append]⟩

theorem takeWhile_zero_digits (n : Nat) : (digits n).takeWhile (· == 0) = [] := by
  by_cases h : n = 0
  · rw [digits, dif_pos h, List.takeWhile_nil]
  · obtain ⟨d, rest, hd, hdigits⟩ := exists_digits_eq_cons h
    rw [hdigits, List.takeWhile_cons_of_neg (by simpa using hd)]

/-- The low digits of a number can be cut off. -/
theorem exists_digits_eq_append {n k : Nat} (h : 58 ^ k ≤ n) :
    ∃ low, low.length = k ∧ digits n = digits (n / 58 ^ k) ++ low := by
  induction k generalizing n with
  | zero => exact ⟨[], rfl, by simp⟩
  | succ k ih =>
      rw [pow_succ] at h
      obtain ⟨low, hlength, hlow⟩ := ih (n := n / 58) ((Nat.le_div_iff_mul_le (by decide)).mpr h)
      have hn : n ≠ 0 := fun hzero => absurd (hzero ▸ h) (by simp)
      refine ⟨low ++ [n % 58], by simp [hlength], ?_⟩
      rw [digits, dif_neg hn, hlow, Nat.div_div_eq_div_mul, pow_succ', List.append_assoc]

/-! ### Bytes -/

theorem ofBytes_append (a b : List UInt8) :
    ofBytes (a ++ b) = ofBytes a * 256 ^ b.length + ofBytes b := by
  induction b using List.reverseRecOn with
  | nil => simp [ofBytes]
  | append_singleton b byte ih =>
      have hsnoc (bytes : List UInt8) : ofBytes (bytes ++ [byte]) = ofBytes bytes * 256 + byte.toNat := by
        simp [ofBytes]
      rw [← List.append_assoc, hsnoc, hsnoc, ih, List.length_append, List.length_singleton, pow_succ]
      ring

theorem ofBytes_eq_ofDigits (bytes : List UInt8) :
    ofBytes bytes = Nat.ofDigits 256 (bytes.reverse.map UInt8.toNat) := by
  induction bytes with
  | nil => rfl
  | cons byte rest ih =>
      rw [← List.singleton_append, ofBytes_append, ih, List.reverse_append, List.map_append,
        Nat.ofDigits_append]
      simp [ofBytes]
      ring

theorem ofBytes_lt (bytes : List UInt8) : ofBytes bytes < 256 ^ bytes.length := by
  rw [ofBytes_eq_ofDigits]
  have h := Nat.ofDigits_lt_base_pow_length (b := 256) (l := bytes.reverse.map UInt8.toNat)
    (by decide) (by simpa using fun byte _ => UInt8.toNat_lt byte)
  simpa using h

/-- Bytes that do not begin with a zero are those of their number. -/
theorem bytesOf_ofBytes_cons {byte : UInt8} (h : byte ≠ 0) (rest : List UInt8) :
    bytesOf (ofBytes (byte :: rest)) = byte :: rest := by
  have hdigits : Nat.digits 256 (ofBytes (byte :: rest)) =
      (byte :: rest).reverse.map UInt8.toNat := by
    rw [ofBytes_eq_ofDigits]
    refine Nat.digits_ofDigits 256 (by decide) _ ?_ ?_
    · intro n hn
      obtain ⟨b, -, rfl⟩ := List.mem_map.mp hn
      exact UInt8.toNat_lt b
    · intro hne
      simpa [List.getLast_map, ← UInt8.toNat_inj] using h
  have hid : UInt8.ofNat ∘ UInt8.toNat = id := funext fun b => UInt8.ofNat_toNat
  rw [bytesOf, hdigits, ← List.map_reverse, List.reverse_reverse, List.map_map, hid, List.map_id]

theorem bytesOf_ofBytes (bytes : List UInt8) :
    List.replicate (leadingZeros bytes) 0 ++ bytesOf (ofBytes bytes) = bytes := by
  induction bytes with
  | nil => rfl
  | cons byte rest ih =>
      by_cases h : byte = 0
      · have hzeros : leadingZeros (byte :: rest) = leadingZeros rest + 1 := by
          simp [leadingZeros, h]
        have hnumber : ofBytes (byte :: rest) = ofBytes rest := by
          simp [ofBytes, h]
        rw [hzeros, hnumber, List.replicate_succ, List.cons_append, ih, h]
      · have hzeros : leadingZeros (byte :: rest) = 0 := by
          simp [leadingZeros, h]
        rw [hzeros, bytesOf_ofBytes_cons h, List.replicate_zero, List.nil_append]

/-! ### Encoding -/

/-- The digits of the text: a zero for each leading zero byte, then those of the number. -/
theorem encodeChars_eq_map (bytes : List UInt8) :
    encodeChars bytes =
      (List.replicate (leadingZeros bytes) 0 ++ digits (ofBytes bytes)).map symbol := by
  rw [encodeChars, List.map_append, List.map_replicate]
  rfl

@[simp] theorem decode?_encode (bytes : List UInt8) : decode? (encode bytes) = some bytes := by
  have hvalues : ∀ d ∈ List.replicate (leadingZeros bytes) 0 ++ digits (ofBytes bytes), d < 58 := by
    intro d hd
    rcases List.mem_append.mp hd with hzero | hdigit
    · rw [List.eq_of_mem_replicate hzero]
      decide
    · exact lt_of_mem_digits hdigit
  have hzeros : (List.replicate (leadingZeros bytes) 0 ++ digits (ofBytes bytes)).takeWhile
      (· == 0) = List.replicate (leadingZeros bytes) 0 := by
    rw [List.takeWhile_append_of_pos (by simp), takeWhile_zero_digits, List.append_nil]
  have hnumber : Nat.ofDigits 58
      (List.replicate (leadingZeros bytes) 0 ++ digits (ofBytes bytes)).reverse = ofBytes bytes := by
    rw [List.reverse_append, List.reverse_replicate, digits_eq_reverse, List.reverse_reverse,
      Nat.ofDigits_append_replicate_zero, Nat.ofDigits_digits]
  rw [decode?, encode, String.toList_ofList, encodeChars_eq_map, mapM_value?_map_symbol hvalues,
    Option.map_some, hzeros, hnumber, List.length_replicate, bytesOf_ofBytes]

theorem encode_injective : Function.Injective encode := by
  intro a b h
  have hdecode := congrArg decode? h
  simpa using hdecode

/-- If the number without its low digits is known, so is the front of the text. -/
theorem encodeChars_eq_append {bytes : List UInt8} {k : Nat} (h : 58 ^ k ≤ ofBytes bytes) :
    ∃ low, low.length = k ∧ encodeChars bytes =
      List.replicate (leadingZeros bytes) '1' ++
        (digits (ofBytes bytes / 58 ^ k)).map symbol ++ low := by
  obtain ⟨low, hlength, hdigits⟩ := exists_digits_eq_append h
  refine ⟨low.map symbol, by rw [List.length_map, hlength], ?_⟩
  rw [encodeChars, hdigits, List.map_append, List.append_assoc]

end ClusterKeeper.Base58
