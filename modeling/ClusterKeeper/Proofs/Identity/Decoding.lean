import ClusterKeeper.Proofs.Identity.Persistence
import ClusterKeeper.Proofs.Manifest.Written

/-!
A persisted identity is decoded exactly: two texts are read as an identity if and only if they are
the texts of one, and the Secret that is built for a generated identity reads back as it.
-/

namespace ClusterKeeper

namespace Cluster

theorem read_secret (cluster : Cluster) (identity : Identity) :
    Resource.read .secret (cluster.secret identity).resource.body =
      .ok (cluster.secret identity).resource :=
  congrArg (Except.map (Resource.mk .secret)) (cluster.secret identity).isWritten

theorem secretData?_secret {cluster : Cluster} {identity : Identity} {key : String}
    {bytes : List UInt8} (h : (Json.textMap ((cluster.secret identity).data.map fun entry =>
      (entry.1, Base64.encode entry.2))).get? key = some (.str (Base64.encode bytes))) :
    Reconcile.secretData? (cluster.secret identity).resource key = some bytes := by
  have hdata : (cluster.secret identity).resource.body.get? "data" =
      some (Json.textMap ((cluster.secret identity).data.map fun entry =>
        (entry.1, Base64.encode entry.2))) := rfl
  rw [Reconcile.secretData?, hdata, Option.bind_some, h]
  simp [Json.text?, Except.toOption]

/-- What is built for an identity that can be read back keeps that identity. -/
theorem persistedIdentity_secret (cluster : Cluster) {identity : Identity}
    (h : identity.IsUsable) :
    Reconcile.persistedIdentity (cluster.secret identity).resource = some (.ok identity) := by
  have hkey : Reconcile.secretData? (cluster.secret identity).resource
      DataKey.bootstrapPeerPrivateKey = some identity.privateKeyBase64.toUTF8.toList :=
    secretData?_secret rfl
  have hsecret : Reconcile.secretData? (cluster.secret identity).resource DataKey.clusterSecret =
      some identity.clusterSecret.toUTF8.toList :=
    secretData?_secret rfl
  rw [Reconcile.persistedIdentity, hkey, hsecret]
  simp only [Reconcile.textOfBytes?_toUTF8, Identity.ofEncoded_privateKeyBase64 h]

end Cluster

namespace Identity

/-- What is read is written back as it stood, without the blanks. -/
theorem texts_of_ofEncoded {privateKey clusterSecret : String} {identity : Identity}
    (h : ofEncoded privateKey clusterSecret = .ok identity) :
    identity.privateKeyBase64 = Text.trim privateKey ∧ identity.clusterSecret = clusterSecret := by
  obtain ⟨seed, -, htext, -, rfl⟩ := ofEncoded_eq_ok_iff.mp h
  exact ⟨htext.symm, rfl⟩

variable {σ τ : Type} {keys : RandomSource σ} {secrets : RandomSource τ}

/-- Two texts are read as an identity if and only if the first, blanks around it or not, is the
base64 text of a private key and the second is a cluster secret; the identity has these two texts.
A Secret that is built for a generated identity reads back as that identity. -/
theorem decoded_exactly (hkeys : keys.IsExact) (hsecrets : secrets.IsExact) :
    (∀ (privateKey clusterSecret : String) (identity : Identity),
      ofEncoded privateKey clusterSecret = .ok identity ↔
        ∃ seed : List UInt8, seed.length = 32 ∧
          Text.trim privateKey =
            Base64.encode ([0x08, 0x01, 0x12, 0x40] ++ seed ++ Ed25519.publicKey seed) ∧
          clusterSecret.toList.length = 64 ∧ (∀ c ∈ clusterSecret.toList, c ∈ Hex.digits) ∧
          identity = ofSeed seed clusterSecret) ∧
      (∀ (privateKey clusterSecret : String) (identity : Identity),
        ofEncoded privateKey clusterSecret = .ok identity →
          identity.privateKeyBase64 = Text.trim privateKey ∧
            identity.clusterSecret = clusterSecret) ∧
      ∀ (keyState : σ) (secretState : τ) (identity : Identity),
        (generate keys secrets keyState secretState).1 = .ok identity →
          ∀ cluster : Cluster, ∃ r : Resource,
            Resource.read .secret (cluster.secret identity).resource.body = .ok r ∧
              Reconcile.persistedIdentity r = some (.ok identity) := by
  refine ⟨fun privateKey clusterSecret identity => ?_,
    fun privateKey clusterSecret identity h => texts_of_ofEncoded h, ?_⟩
  · simp only [ofEncoded_eq_ok_iff, isClusterSecret_iff, and_assoc, encodePrivateKey, keyHeader]
  · intro keyState secretState identity h cluster
    have husable := (isGenerated_of_generate hkeys hsecrets h).isUsable
    exact ⟨_, cluster.read_secret identity, cluster.persistedIdentity_secret husable⟩

/-- Tapes of zeros give an identity whose texts are read, and whose Secret is, for a cluster that
sets nothing. -/
theorem decoded_exactly_zeros :
    (generate RandomSource.tape RandomSource.tape (List.replicate 32 0)
        (List.replicate 32 0)).1 = .ok (constant 0) ∧
      ofEncoded (constant 0).privateKeyBase64 (Hex.encode (List.replicate 32 0)) =
        .ok (constant 0) ∧
      Text.trim (constant 0).privateKeyBase64 = (constant 0).privateKeyBase64 ∧
      ∃ r : Resource,
        Resource.read .secret ((⟨"ipfs", none, "", .default⟩ : Cluster).secret
          (constant 0)).resource.body = .ok r ∧
        Reconcile.persistedIdentity r = some (.ok (constant 0)) := by
  obtain ⟨hiff, htexts, hsecret⟩ :=
    decoded_exactly RandomSource.isExact_tape RandomSource.isExact_tape
  have hgenerated : (generate RandomSource.tape RandomSource.tape (List.replicate 32 0)
      (List.replicate 32 0)).1 = .ok (constant 0) := rfl
  have hread : ofEncoded (constant 0).privateKeyBase64 (Hex.encode (List.replicate 32 0)) =
      .ok (constant 0) := by
    obtain ⟨hlength, hdigits⟩ := isClusterSecret_iff.mp
      (isClusterSecret_encode (List.length_replicate : (List.replicate 32 (0 : UInt8)).length = 32))
    exact (hiff _ _ _).mpr
      ⟨List.replicate 32 0, rfl, Base64.trim_encode _, hlength, hdigits, rfl⟩
  exact ⟨hgenerated, hread, (htexts _ _ _ hread).1.symm, hsecret _ _ _ hgenerated _⟩

end Identity

end ClusterKeeper
