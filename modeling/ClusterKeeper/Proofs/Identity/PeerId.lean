import ClusterKeeper.Identity.Basic
import ClusterKeeper.Proofs.Encoding.Base58

/-!
Peer ids of Ed25519 keys. Six bytes that are the same for all keys stand before the key, and they fix
the length of the text and its first eight characters.
-/

namespace ClusterKeeper

namespace PeerId

variable {key : List UInt8}

/-- The bytes before a key: the identity multihash of 36 bytes, then the envelope. -/
def header : List UInt8 := [0x00, 0x24, 0x08, 0x01, 0x12, 0x20]

theorem multihash_eq (key : List UInt8) : multihash key = header ++ key := rfl

theorem wrap_envelope (h : key.length = 32) : wrap (keyHeader 0x20 ++ key) = .ok (multihash key) := by
  have hlength : (keyHeader 0x20 ++ key).length = 36 := by
    rw [List.length_append, h]
    rfl
  rw [wrap, hlength, if_pos (by decide)]
  rfl

/-- There is room for every key, and the peer id is the base58 text of the multihash. -/
theorem derive_eq_ok (h : key.length = 32) : derive key = .ok (ofPublicKey key) := by
  rw [derive, wrap_envelope h]
  rfl

theorem toList_text (key : List UInt8) :
    (ofPublicKey key).text.toList = Base58.encodeChars (header ++ key) := by
  rw [ofPublicKey, Base58.encode, String.toList_ofList, multihash_eq]

/-- The number of the multihash lies between two consecutive multiples of the 32 bytes of a key. -/
theorem ofBytes_header_append (h : key.length = 32) :
    0x2408011220 * 256 ^ 32 ≤ Base58.ofBytes (header ++ key) ∧
      Base58.ofBytes (header ++ key) < (0x2408011220 + 1) * 256 ^ 32 := by
  have hheader : Base58.ofBytes header = 0x2408011220 := rfl
  have hlt := Base58.ofBytes_lt key
  rw [Base58.ofBytes_append, h, hheader] at *
  rw [Nat.add_mul]
  omega

/-- So its first digits are the same for all keys: the two multiples agree but for 44 digits. -/
theorem ofBytes_div (h : key.length = 32) :
    58 ^ 44 ≤ Base58.ofBytes (header ++ key) ∧
      Base58.ofBytes (header ++ key) / 58 ^ 44 = 45971276209 := by
  obtain ⟨hle, hlt⟩ := ofBytes_header_append h
  refine ⟨Nat.le_trans (by decide) hle, Nat.div_eq_of_lt_le (Nat.le_trans (by decide) hle) ?_⟩
  exact Nat.lt_of_lt_of_le hlt (by decide)

theorem digits_front : Base58.digits 45971276209 = [1, 12, 2, 18, 46, 46, 29] := by
  rw [Base58.digits_eq_reverse]
  norm_num

/-- The text begins with the same eight characters for all keys, and 44 more follow. -/
theorem exists_text_eq_append (h : key.length = 32) :
    ∃ low, low.length = 44 ∧ (ofPublicKey key).text.toList = "12D3KooW".toList ++ low := by
  obtain ⟨hlarge, hfront⟩ := ofBytes_div h
  obtain ⟨low, hlength, htext⟩ := Base58.encodeChars_eq_append hlarge
  have hzeros : Base58.leadingZeros (header ++ key) = 1 := rfl
  rw [hfront, hzeros, digits_front] at htext
  change _ = "12D3KooW".toList ++ low at htext
  exact ⟨low, hlength, (toList_text key).trans htext⟩

/-- Peer ids of 32-byte keys have the Ed25519 form, and identify their keys: there always is one, it is
the base58 text of the header and the key, of 52 characters that begin with `12D3KooW`, it decodes to
these bytes, and no other key has it. -/
theorem ed25519_form (h : key.length = 32) :
    derive key = .ok (ofPublicKey key) ∧
      (ofPublicKey key).text =
        Base58.encode ([0x00, 0x24, 0x08, 0x01, 0x12, 0x20] ++ key) ∧
      (ofPublicKey key).text.length = 52 ∧
      "12D3KooW".toList <+: (ofPublicKey key).text.toList ∧
      Base58.decode? (ofPublicKey key).text =
        some ([0x00, 0x24, 0x08, 0x01, 0x12, 0x20] ++ key) ∧
      ∀ other : List UInt8, other.length = 32 → derive other = derive key → other = key := by
  obtain ⟨low, hlength, htext⟩ := exists_text_eq_append h
  refine ⟨derive_eq_ok h, rfl, ?_, ⟨low, htext.symm⟩, Base58.decode?_encode _, ?_⟩
  · rw [← String.length_toList, htext, List.length_append, hlength]
    decide
  · intro other hother hsame
    rw [derive_eq_ok h, derive_eq_ok hother] at hsame
    have hbytes := Base58.encode_injective (congrArg text (Except.ok.inj hsame))
    exact List.append_cancel_left hbytes

/-- The key of zeros and the key of ones have different peer ids of this form. -/
theorem ed25519_form_zeros :
    let zeros : List UInt8 := List.replicate 32 0
    zeros.length = 32 ∧ derive zeros = .ok (ofPublicKey zeros) ∧
      (ofPublicKey zeros).text.length = 52 ∧
      Base58.decode? (ofPublicKey zeros).text = some (header ++ zeros) ∧
      derive (List.replicate 32 1) ≠ derive zeros := by
  intro zeros
  have hzeros : zeros.length = 32 := rfl
  obtain ⟨hderive, -, hlength, -, hdecode, hunique⟩ := ed25519_form hzeros
  exact ⟨hzeros, hderive, hlength, hdecode, fun hsame =>
    absurd (hunique (List.replicate 32 1) rfl hsame) (by decide)⟩

end PeerId

end ClusterKeeper
