import ClusterKeeper.Proofs.Identity.Persistence
import ClusterKeeper.Proofs.Reconcile.Replacement

/-!
What a store keeps of a cluster's identity: the Secret keeps all of it, the config map publishes the
peer id.
-/

namespace ClusterKeeper

open Memory Reconcile

/-- The identity that a stored Secret keeps, if the Secret can be read and the identity used. -/
def Json.identity? (raw : Json) : Option Identity :=
  match readAs .secret raw with
  | .error _ => none
  | .ok secret => (persistedIdentity secret).bind Except.toOption

def Memory.identity? (m : Memory) (key : ObjectKey) : Option Identity :=
  (m.get? key).bind Json.identity?

def Json.publishedPeerId? (raw : Json) : Option String :=
  ((raw.get "data").get DataKey.bootstrapPeerId).text?

section

variable {raw : Json} {secret : Resource} {identity : Identity} {cluster : Cluster}
  {key other : ObjectKey} {m m' : Memory}

theorem Json.identity?_eq_some_iff (h : readAs .secret raw = .ok secret) :
    raw.identity? = some identity ↔ persistedIdentity secret = some (.ok identity) := by
  simp only [identity?, h]
  rcases persistedIdentity secret with _ | _ | found <;> simp [Except.toOption]

theorem Json.isUsable_of_identity? (h : raw.identity? = some identity) : identity.IsUsable := by
  cases hread : readAs .secret raw with
  | error e => simp [identity?, hread] at h
  | ok secret => exact isUsable_of_persistedIdentity ((identity?_eq_some_iff hread).mp h)

theorem Json.identity?_of_satisfies (hr : (cluster.secret identity).resource.IsDesired key)
    (husable : identity.IsUsable) (hread : readAs key.kind raw = .ok secret)
    (h : raw.satisfies (cluster.secret identity).resource.body = true) :
    raw.identity? = some identity := by
  have hwritten := hr.satisfies_of_readAs hread h
  rw [← hr.kind_eq] at hread
  exact (identity?_eq_some_iff hread).mpr (persistedIdentity_of_satisfies husable hwritten)

theorem Json.publishedPeerId?_of_satisfies {peerId : PeerId}
    (h : raw.satisfies (cluster.configConfigMap peerId).resource.body = true) :
    raw.publishedPeerId? = some peerId.text := by
  have hwanted : (cluster.configConfigMap peerId).resource.body.get? "data" =
      some (Json.textMap [(DataKey.bootstrapPeerId, peerId.text)]) := rfl
  obtain ⟨data, hdata, hsatisfied⟩ := Json.get?_of_satisfies h hwanted nofun
  have hpublished : data.get? DataKey.bootstrapPeerId = some (.str peerId.text) :=
    Json.get?_of_satisfies_str hsatisfied rfl
  rw [publishedPeerId?, Json.get_of_get? hdata, Json.get_of_get? hpublished]
  rfl

namespace Memory

theorem identity?_of_get? (h : m.get? key = some raw) : m.identity? key = raw.identity? := by
  rw [identity?, h]
  rfl

theorem identity?_congr (h : m'.get? key = m.get? key) : m'.identity? key = m.identity? key := by
  rw [identity?, h, identity?]

theorem exists_of_identity? (h : m.identity? key = some identity) :
    ∃ raw, m.get? key = some raw ∧ raw.identity? = some identity := by
  rw [identity?] at h
  exact Option.bind_eq_some_iff.mp h

end Memory

end

end ClusterKeeper
