import ClusterKeeper.Identity.Source
import ClusterKeeper.Reconcile.Pass
import ClusterKeeper.Proofs.Encoding.Base64
import ClusterKeeper.Proofs.Json.Merge
import ClusterKeeper.Proofs.Text

/-!
Identities survive being written down: what a Secret keeps of a generated or reused identity reads
back as that identity.
-/

namespace ClusterKeeper

theorem eq_ok_of_mapError_eq_ok {ε ε' α : Type} {x : Except ε α} {f : ε → ε'} {a : α}
    (h : x.mapError f = .ok a) : x = .ok a := by
  cases x with
  | error e => cases h
  | ok b => exact congrArg Except.ok (Except.ok.inj h)

theorem Base64.trim_encode (bytes : List UInt8) :
    Text.trim (Base64.encode bytes) = Base64.encode bytes := by
  have hblank : ∀ byte ∈ Base64.encodeBytes bytes,
      (!Text.isBlank (Char.ofNat byte.toNat)) = true :=
    Base64.forall_mem_encodeBytes (p := fun byte => !Text.isBlank (Char.ofNat byte.toNat))
      (by decide) (by decide +kernel) bytes
  rw [Text.trim, Base64.encode, String.toList_ofList, Text.trimChars_eq_self]
  intro c hc
  obtain ⟨byte, hbyte, rfl⟩ := List.mem_map.mp hc
  simpa using hblank byte hbyte

namespace Hex

theorem isDigit_iff_mem_digits {c : Char} : isDigit c = true ↔ c ∈ digits := by
  have ascii : ∀ n ∈ List.range 128, isDigit (Char.ofNat n) = true →
      Char.ofNat n ∈ digits := by decide +kernel
  have hlength : digits.length = 16 := rfl
  constructor
  · intro h
    have hlt : c.toNat < 128 := by
      simp only [isDigit, Char.isDigit, Bool.or_eq_true, Bool.and_eq_true, decide_eq_true_eq,
        ge_iff_le, UInt32.le_iff_toNat_le, Char.le_def] at h
      rcases h with ⟨-, h⟩ | ⟨-, h⟩
      · exact Nat.lt_of_le_of_lt h (by decide)
      · exact Nat.lt_of_le_of_lt h (by decide)
    have hchar := ascii c.toNat (List.mem_range.mpr hlt)
    rw [Char.ofNat_toNat] at hchar
    exact hchar h
  · intro h
    obtain ⟨n, hn, rfl⟩ := List.mem_iff_getElem.mp h
    have hdigit : digit n = digits[n] := by simp [digit, hn]
    rw [← hdigit]
    exact isDigit_digit (hlength ▸ hn)

end Hex

namespace Identity

/-- The identity of a key seed and of a cluster secret that can be read back. -/
def IsUsable (identity : Identity) : Prop :=
  ∃ seed clusterSecret, seed.length = 32 ∧ isClusterSecret clusterSecret = true ∧
    identity = ofSeed seed clusterSecret

/-- An identity made of 32 bytes for the key and 32 bytes for the cluster secret. -/
def IsGenerated (identity : Identity) : Prop :=
  ∃ seed secretBytes : List UInt8, seed.length = 32 ∧ secretBytes.length = 32 ∧
    identity = ofSeed seed (Hex.encode secretBytes)

theorem isClusterSecret_encode {bytes : List UInt8} (h : bytes.length = 32) :
    isClusterSecret (Hex.encode bytes) = true := by
  rw [isClusterSecret, Hex.encode, String.toList_ofList, Hex.length_encodeChars, h,
    Bool.and_eq_true, List.all_eq_true]
  exact ⟨rfl, fun c hc => Hex.isDigit_of_mem_encodeChars hc⟩

theorem isClusterSecret_iff {text : String} :
    isClusterSecret text = true ↔
      text.toList.length = 64 ∧ ∀ c ∈ text.toList, c ∈ Hex.digits := by
  simp only [isClusterSecret, Bool.and_eq_true, decide_eq_true_eq, List.all_eq_true,
    Hex.isDigit_iff_mem_digits]

def constant (byte : UInt8) : Identity :=
  ofSeed (List.replicate 32 byte) (Hex.encode (List.replicate 32 byte))

theorem isGenerated_constant (byte : UInt8) : (constant byte).IsGenerated :=
  ⟨_, _, List.length_replicate, List.length_replicate, rfl⟩

theorem IsGenerated.isUsable {identity : Identity} (h : identity.IsGenerated) :
    identity.IsUsable := by
  obtain ⟨seed, bytes, hseed, hbytes, rfl⟩ := h
  exact ⟨seed, _, hseed, isClusterSecret_encode hbytes, rfl⟩

theorem decodePrivateKey_encodePrivateKey {seed : List UInt8} (h : seed.length = 32) :
    decodePrivateKey (encodePrivateKey seed) = .ok seed := by
  have hlength : (keyHeader 0x40).length = 4 := rfl
  have htake : (encodePrivateKey seed).take 4 = keyHeader 0x40 := by
    rw [encodePrivateKey, List.append_assoc, ← hlength, List.take_left]
  have hdrop : (encodePrivateKey seed).drop 4 = seed ++ Ed25519.publicKey seed := by
    rw [encodePrivateKey, List.append_assoc, ← hlength, List.drop_left]
  have hseed : (seed ++ Ed25519.publicKey seed).take 32 = seed := by rw [← h, List.take_left]
  have hkey : (seed ++ Ed25519.publicKey seed).drop 32 = Ed25519.publicKey seed := by
    rw [← h, List.drop_left]
  rw [decodePrivateKey, if_neg (not_not_intro htake)]
  simp only [hdrop, hseed, hkey]
  rw [if_neg (by simp [h]), if_neg (not_not_intro rfl)]

/-- Only its own envelope is read as a seed. -/
theorem decodePrivateKey_eq_ok_iff {bytes seed : List UInt8} :
    decodePrivateKey bytes = .ok seed ↔ seed.length = 32 ∧ bytes = encodePrivateKey seed := by
  constructor
  · intro h
    rw [decodePrivateKey] at h
    split at h
    · cases h
    · next hheader =>
        simp only at h
        split at h
        · cases h
        · next hlength =>
            split at h
            · cases h
            · next hpublic =>
                cases h
                rw [encodePrivateKey, Decidable.not_not.mp hpublic,
                  ← Decidable.not_not.mp hheader, List.append_assoc, List.take_append_drop,
                  List.take_append_drop, List.length_take]
                exact ⟨by omega, rfl⟩
  · rintro ⟨hseed, rfl⟩
    exact decodePrivateKey_encodePrivateKey hseed

/-- The two texts that are read as an identity: its own, blanks around the key or not. -/
theorem ofEncoded_eq_ok_iff {privateKey clusterSecret : String} {identity : Identity} :
    ofEncoded privateKey clusterSecret = .ok identity ↔
      ∃ seed, seed.length = 32 ∧ Text.trim privateKey = Base64.encode (encodePrivateKey seed) ∧
        isClusterSecret clusterSecret = true ∧ identity = ofSeed seed clusterSecret := by
  constructor
  · intro h
    obtain ⟨bytes, hbytes, hrest⟩ := exists_of_bind_eq_ok h
    obtain ⟨seed, hseed, hread⟩ := exists_of_bind_eq_ok hrest
    have htext := Base64.decode_eq_ok_iff.mp (eq_ok_of_mapError_eq_ok hbytes)
    obtain ⟨hlength, rfl⟩ := decodePrivateKey_eq_ok_iff.mp (eq_ok_of_mapError_eq_ok hseed)
    split at hread
    · next hsecret =>
        cases hread
        exact ⟨seed, hlength, htext, hsecret, rfl⟩
    · cases hread
  · rintro ⟨seed, hseed, htext, hsecret, rfl⟩
    rw [ofEncoded, htext, Base64.decode_encode]
    simp only [Except.mapError, bind, Except.bind, decodePrivateKey_encodePrivateKey hseed]
    exact if_pos hsecret

/-- The two texts of a usable identity read back as it. -/
theorem ofEncoded_privateKeyBase64 {identity : Identity} (h : identity.IsUsable) :
    ofEncoded identity.privateKeyBase64 identity.clusterSecret = .ok identity := by
  obtain ⟨seed, clusterSecret, hseed, hsecret, rfl⟩ := h
  exact ofEncoded_eq_ok_iff.mpr ⟨seed, hseed, Base64.trim_encode _, hsecret, rfl⟩

theorem isUsable_of_ofEncoded {privateKey clusterSecret : String} {identity : Identity}
    (h : ofEncoded privateKey clusterSecret = .ok identity) : identity.IsUsable := by
  obtain ⟨seed, hseed, -, hsecret, rfl⟩ := ofEncoded_eq_ok_iff.mp h
  exact ⟨seed, clusterSecret, hseed, hsecret, rfl⟩

end Identity

namespace ChaCha

theorem size_quarterRound (s : Block) (a b c d : Nat) : (quarterRound s a b c d).size = s.size := by
  simp [quarterRound]

theorem size_doubleRound (s : Block) : (doubleRound s).size = s.size := by
  simp [doubleRound, size_quarterRound]

theorem length_block (key : List UInt32) (counter : UInt64) :
    (block key counter).length = 4 * (key.length + 8) := by
  have hmixed (rounds : List Nat) (s : Block) :
      (rounds.foldl (fun s _ => doubleRound s) s).size = s.size := by
    induction rounds generalizing s with
    | nil => rfl
    | cons _ rest ih => rw [List.foldl_cons, ih, size_doubleRound]
  have hwords (words : List UInt32) : (words.flatMap bytesOfWord).length = 4 * words.length := by
    induction words with
    | nil => rfl
    | cons word rest ih =>
        rw [List.flatMap_cons, List.length_append, ih, List.length_cons]
        simp only [bytesOfWord, List.length_cons, List.length_nil]
        omega
  have hstart : (initial key counter).size = key.length + 8 := by
    simp [initial, constants]
  rw [block, hwords, List.length_zipWith, Array.length_toList, Array.length_toList, hmixed, hstart,
    Nat.min_self]

theorem Stream.le_length_pending_refill (blocks : Nat) (s : Stream) :
    s.pending.length + 32 * blocks ≤ (refill blocks s).pending.length := by
  induction blocks generalizing s with
  | zero => exact Nat.le_refl _
  | succ blocks ih =>
      have := ih { s with counter := s.counter + 1, pending := s.pending ++ block s.key s.counter }
      rw [List.length_append, length_block] at this
      rw [refill]
      omega

end ChaCha

/-- A source that gives 32 bytes when it is asked for them. -/
def RandomSource.IsExact {σ : Type} (source : RandomSource σ) : Prop :=
  ∀ state bytes, (source 32 state).1 = .ok bytes → bytes.length = 32

theorem RandomSource.isExact_tape : RandomSource.tape.IsExact := by
  intro state bytes h
  rw [tape] at h
  split at h
  · cases h
    rw [List.length_take]
    omega
  · cases h

theorem RandomSource.isExact_stream : RandomSource.stream.IsExact := by
  intro s bytes h
  cases h
  have := ChaCha.Stream.le_length_pending_refill ((32 - s.pending.length + 63) / 64) s
  rw [List.length_take]
  omega

namespace Identity

/-- What is generated from exact sources is made of 32 bytes each. -/
theorem isGenerated_of_generate {σ τ : Type} {keys : RandomSource σ} {secrets : RandomSource τ}
    (hkeys : keys.IsExact) (hsecrets : secrets.IsExact) {keyState : σ} {secretState : τ}
    {identity : Identity} (h : (generate keys secrets keyState secretState).1 = .ok identity) :
    identity.IsGenerated := by
  rw [generate, generateSeed] at h
  cases hseed : (keys 32 keyState).1 with
  | error reason =>
      simp only [hseed, Except.mapError] at h
      cases h
  | ok seed =>
      simp only [hseed, Except.mapError, generateClusterSecret] at h
      cases hsecret : (secrets 32 secretState).1 with
      | error reason =>
          simp only [hsecret, Except.map] at h
          cases h
      | ok bytes =>
          simp only [hsecret, Except.map] at h
          cases h
          exact ⟨seed, bytes, hkeys _ _ hseed, hsecrets _ _ hsecret, rfl⟩

end Identity

theorem IdentitySource.isGenerated_of_next {source : IdentitySource} {identity : Identity}
    (h : source.next.1 = .ok identity) : identity.IsGenerated := by
  cases source with
  | failing => cases h
  | seeded keys =>
      exact Identity.isGenerated_of_generate RandomSource.isExact_stream
        RandomSource.isExact_stream h

theorem ProcessSource.isGenerated_of_generate {source : ProcessSource} {entropy : List UInt8}
    {identity : Identity} (h : (source.generate entropy).1 = .ok identity) :
    identity.IsGenerated := by
  obtain ⟨_ | secrets⟩ := source
  · cases h
  · exact Identity.isGenerated_of_generate RandomSource.isExact_tape RandomSource.isExact_stream h

namespace Reconcile

@[simp] theorem textOfBytes?_toUTF8 (text : String) :
    textOfBytes? text.toUTF8.toList = some text := by
  have hbytes : (⟨text.toUTF8.toList.toArray⟩ : ByteArray) = text.toByteArray := by
    rw [toList_eq_toList_data]
    rfl
  rw [textOfBytes?, hbytes, String.fromUTF8?, dif_pos text.isValidUTF8]
  rfl

/-- The bytes that a Secret keeps once its data has what a patch gives it. -/
theorem secretData?_of_satisfies {r : Resource} {data changes : Json} {key : String}
    {bytes : List UInt8} (hdata : r.body.get? "data" = some data)
    (h : data.satisfies changes = true)
    (hkey : changes.get? key = some (.str (Base64.encode bytes))) :
    secretData? r key = some bytes := by
  rw [secretData?, hdata, Option.bind_some, Json.get?_of_satisfies_str h hkey]
  simp [Json.text?, Except.toOption]

/-- A Secret that has what is wanted of it for an identity keeps that identity. -/
theorem persistedIdentity_of_satisfies {cluster : Cluster} {identity : Identity} {r : Resource}
    (husable : identity.IsUsable)
    (h : r.body.satisfies (cluster.secret identity).resource.body = true) :
    persistedIdentity r = some (.ok identity) := by
  have hwanted : (cluster.secret identity).resource.body.get? "data" =
      some (Json.textMap ((cluster.secret identity).data.map fun entry =>
        (entry.1, Base64.encode entry.2))) := rfl
  obtain ⟨data, hdata, hsatisfied⟩ := Json.get?_of_satisfies h hwanted nofun
  have hkey : secretData? r DataKey.bootstrapPeerPrivateKey =
      some identity.privateKeyBase64.toUTF8.toList :=
    secretData?_of_satisfies hdata hsatisfied rfl
  have hsecret : secretData? r DataKey.clusterSecret = some identity.clusterSecret.toUTF8.toList :=
    secretData?_of_satisfies hdata hsatisfied rfl
  rw [persistedIdentity, hkey, hsecret]
  simp only [textOfBytes?_toUTF8, Identity.ofEncoded_privateKeyBase64 husable]

theorem isUsable_of_persistedIdentity {r : Resource} {identity : Identity}
    (h : persistedIdentity r = some (.ok identity)) : identity.IsUsable := by
  rw [persistedIdentity] at h
  split at h
  · split at h
    · exact Identity.isUsable_of_ofEncoded (Option.some.inj h)
    · cases h
  · cases h

end Reconcile

end ClusterKeeper
