import ClusterKeeper.Proofs.Store.Versions

/-!
What a stored document says about the object read from it: its key, its version and whether it is
marked for deletion.
-/

namespace ClusterKeeper

open Memory

namespace Resource

variable {kind : Kind} {raw : Json} {r : Resource} {key : ObjectKey}

theorem metadata_get_text_of_readAs (h : readAs kind raw = .ok r) {field : String}
    (hfield : field ∈ Schema.metadataTexts) : r.metadata.get field = raw.metadataField field :=
  kind.metadata_get_text (readAs_eq_ok_iff.mp h).2 hfield

theorem name?_of_named (h : readAs kind raw = .ok r) (hnamed : raw.IsNamed key) :
    r.name? = some key.name := by
  rw [name?, metadata_get_text_of_readAs h (by decide), hnamed.1]
  rfl

theorem namespace?_of_named (h : readAs kind raw = .ok r) (hnamed : raw.IsNamed key) :
    r.namespace? = some key.ns := by
  rw [namespace?, metadata_get_text_of_readAs h (by decide), hnamed.2]
  rfl

theorem key_of_named (h : readAs key.kind raw = .ok r) (hnamed : raw.IsNamed key) :
    r.key = .ok key := by
  rw [Resource.key, key?, name?_of_named h hnamed, namespace?_of_named h hnamed,
    (readAs_eq_ok_iff.mp h).1]
  rfl

theorem metadata_setMetadata (r : Resource) (field : String) (value : Json) :
    (r.setMetadata field value).metadata = r.metadata.set field value :=
  Json.get_of_get? (Json.get?_set_self _ _ _)

/-- The key is in the metadata. -/
theorem key_congr {r other : Resource} (hkind : other.kind = r.kind)
    (hmetadata : other.metadata = r.metadata) : other.key = r.key := by
  rw [Resource.key, Resource.key, key?, key?, name?, name?, namespace?, namespace?, hmetadata, hkind]

theorem key_setMetadata {field : String} (hname : field ≠ "name") (hns : field ≠ "namespace")
    (r : Resource) (value : Json) : (r.setMetadata field value).key = r.key := by
  rw [Resource.key, key?, name?, namespace?, metadata_setMetadata, Json.get, Json.get,
    Json.get?_set_of_ne hname.symm, Json.get?_set_of_ne hns.symm]
  rfl

theorem resourceVersion?_of_hasVersion {n : Nat} (h : readAs kind raw = .ok r)
    (hversion : raw.HasVersion n) : r.resourceVersion? = some (toString n) := by
  rw [resourceVersion?, metadata_get_text_of_readAs h (by decide), hversion]
  rfl

theorem isTerminating_eq_false_iff (h : readAs kind raw = .ok r) :
    r.isTerminating = false ↔ raw.IsUnmarked := by
  rw [isTerminating, Resource.metadata, Json.IsUnmarked, Option.isSome_eq_false_iff,
    Option.isNone_iff_eq_none]
  exact kind.metadata_get?_eq_none_iff (readAs_eq_ok_iff.mp h).2 Schema.field?_metadata_mark

theorem named_of_key (h : r.key = .ok key) :
    r.kind = key.kind ∧ r.metadata.get "name" = .str key.name ∧
      r.metadata.get "namespace" = .str key.ns := by
  rw [Resource.key, key?] at h
  cases hname : r.name? with
  | none =>
      simp only [hname] at h
      cases h
  | some name =>
      cases hns : r.namespace? with
      | none =>
          simp only [hname, hns] at h
          cases h
      | some ns =>
          simp only [hname, hns] at h
          cases h
          exact ⟨rfl, Json.text?_eq_some_iff.mp hname, Json.text?_eq_some_iff.mp hns⟩

end Resource

end ClusterKeeper
