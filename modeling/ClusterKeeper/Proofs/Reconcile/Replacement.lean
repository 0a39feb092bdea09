import ClusterKeeper.Proofs.Reconcile.Documents

/-!
The Secret that takes the place of one that keeps no identity: it has all that is wanted for the new
identity, and what the operator does not see to stays as it was read.
-/

namespace ClusterKeeper

open Memory

namespace Reconcile

section Replacement

variable {m : Memory} {cluster : Cluster} {identity : Identity} {key : ObjectKey} {ns name : String}
  {raw : Json} {live : Resource}

theorem replacementSecret_body (live desired : Resource) :
    (replacementSecret live desired).body =
      ((((live.body.set "data" (desired.body.get "data")).drop "stringData").set "type"
        (desired.body.get "type")).setMetadataField "labels"
          (desired.metadata.get "labels")).setMetadataField "ownerReferences"
            (desired.metadata.get "ownerReferences") := rfl

theorem replacementSecret_get? {live desired : Resource} {name : String} (hdata : name ≠ "data")
    (hstring : name ≠ "stringData") (htype : name ≠ "type") (hmetadata : name ≠ "metadata") :
    (replacementSecret live desired).body.get? name = live.body.get? name := by
  rw [replacementSecret_body, Json.get?_setMetadataField_of_ne hmetadata,
    Json.get?_setMetadataField_of_ne hmetadata, Json.get?_set_of_ne htype,
    Json.get?_drop_of_ne hstring, Json.get?_set_of_ne hdata]

theorem replacementSecret_metadata (live desired : Resource) :
    (replacementSecret live desired).metadata =
      (live.metadata.set "labels" (desired.metadata.get "labels")).set "ownerReferences"
        (desired.metadata.get "ownerReferences") := by
  have hlive : (((live.body.set "data" (desired.body.get "data")).drop "stringData").set "type"
      (desired.body.get "type")).get "metadata" = live.metadata := by
    rw [Json.get, Json.get?_set_of_ne (by decide), Json.get?_drop_of_ne (by decide),
      Json.get?_set_of_ne (by decide)]
    rfl
  rw [Resource.metadata, replacementSecret_body, Json.get_metadata_setMetadataField,
    Json.get_metadata_setMetadataField, hlive]

theorem replacementSecret_get?_metadata (live desired : Resource) :
    (replacementSecret live desired).body.get? "metadata" =
      some (replacementSecret live desired).metadata := by
  have hfound : (replacementSecret live desired).body.get? "metadata" = some _ :=
    Json.get?_set_self _ _ _
  rw [Resource.metadata, Json.get_of_get? hfound, hfound]

theorem replacementSecret_metadata_get {live desired : Resource} {name : String}
    (hlabels : name ≠ "labels") (howners : name ≠ "ownerReferences") :
    (replacementSecret live desired).metadata.get name = live.metadata.get name := by
  rw [replacementSecret_metadata, Json.get, Json.get?_set_of_ne howners,
    Json.get?_set_of_ne hlabels]
  rfl

theorem replacementSecret_key {live desired : Resource} :
    (replacementSecret live desired).key = live.key := by
  have hname : (replacementSecret live desired).name? = live.name? := by
    rw [Resource.name?, replacementSecret_metadata_get (by decide) (by decide)]
    rfl
  have hns : (replacementSecret live desired).namespace? = live.namespace? := by
    rw [Resource.namespace?, replacementSecret_metadata_get (by decide) (by decide)]
    rfl
  rw [Resource.key, Resource.key?, hname, hns]
  rfl

theorem replacementSecret_resourceVersion? {live desired : Resource} :
    (replacementSecret live desired).resourceVersion? = live.resourceVersion? := by
  rw [Resource.resourceVersion?, replacementSecret_metadata_get (by decide) (by decide)]
  rfl

/-- The replacement of what is stored is not stale. -/
theorem isStale_replacementSecret {desired : Resource} (hread : readAs .secret raw = .ok live) :
    isStale raw (replacementSecret live desired) = false := by
  rw [isStale, replacementSecret_resourceVersion?, Resource.resourceVersion?,
    Resource.metadata_get_text_of_readAs hread (by decide)]
  simp

theorem secret_body (cluster : Cluster) (identity : Identity) :
    (cluster.secret identity).resource.body = .obj
      [("apiVersion", .str "v1"),
       ("data", (cluster.secret identity).resource.body.get "data"),
       ("kind", .str "Secret"),
       ("metadata", (cluster.secret identity).resource.metadata),
       ("type", (cluster.secret identity).resource.body.get "type")] := rfl

theorem secret_constants (h : readAs .secret raw = .ok live) :
    live.body.get? "apiVersion" = some (.str "v1") ∧
      live.body.get? "kind" = some (.str "Secret") := by
  have hread := (readAs_eq_ok_iff.mp h).2
  have hversion := Schema.outcome_of_read Kind.secret.isRecord_schema
    (show Schema.secret.field? "apiVersion" = some (.constant "apiVersion" "v1") from rfl) hread
  have hkind := Schema.outcome_of_read Kind.secret.isRecord_schema
    (show Schema.secret.field? "kind" = some (.constant "kind" "Secret") from rfl) hread
  exact ⟨((Field.outcome_constant rfl _ _).mp hversion).1,
    ((Field.outcome_constant rfl _ _).mp hkind).1⟩

theorem satisfies_replacementSecret_metadata (identity : Identity)
    (hdeclared : cluster.IsDeclared ns name)
    (hread : readAs .secret raw = .ok live) (hnamed : raw.IsNamed (Child.secret.key ns name)) :
    (replacementSecret live (cluster.secret identity).resource).metadata.satisfies
      (cluster.secret identity).resource.metadata = true := by
  have hr := Cluster.isDesired_secret hdeclared identity
  have hmetadata : (cluster.secret identity).resource.body.get? "metadata" =
      some (cluster.secret identity).resource.metadata := rfl
  have hmembers : (cluster.secret identity).metadata.toJson = .obj _ :=
    Manifest.Metadata.toJson_of_ns hdeclared.ns
  change (cluster.secret identity).resource.metadata = .obj _ at hmembers
  have hself : (cluster.secret identity).resource.metadata.satisfies
      (cluster.secret identity).resource.metadata = true := by
    obtain ⟨found, hfound, hsatisfied⟩ := Json.get?_of_satisfies
      (Json.satisfies_self hr.isPlain hr.canonical) hmetadata (hmembers ▸ nofun)
    cases hfound
    exact hsatisfied
  have hlive {field text : String} (hfield : field ∈ Schema.metadataTexts)
      (h : raw.metadataField field = .str text) : live.metadata.get? field = some (.str text) := by
    rw [← Json.get_eq_str_iff, Resource.metadata_get_text_of_readAs hread hfield, h]
  have hname := hlive (by decide) hnamed.1
  have hns := hlive (by decide) hnamed.2
  obtain ⟨_, rfl, -⟩ := hdeclared
  rw [hmembers] at hself ⊢
  refine Json.satisfies_of_agrees hself ⟨_, by rw [replacementSecret_metadata]; rfl⟩ ?_
  rw [replacementSecret_metadata, hmembers]
  simp only [List.forall_mem_cons, List.not_mem_nil, false_imp_iff, implies_true, and_true]
  refine ⟨?_, ?_, ?_, ?_⟩
  · rw [Json.get?_set_of_ne (by decide), Json.get?_set_self]
    rfl
  · rw [Json.get?_set_of_ne (by decide), Json.get?_set_of_ne (by decide), hname]
    rfl
  · rw [Json.get?_set_of_ne (by decide), Json.get?_set_of_ne (by decide), hns]
    rfl
  · rw [Json.get?_set_self]
    rfl

theorem satisfies_replacementSecret (identity : Identity) (hdeclared : cluster.IsDeclared ns name)
    (hread : readAs .secret raw = .ok live) (hnamed : raw.IsNamed (Child.secret.key ns name)) :
    (replacementSecret live (cluster.secret identity).resource).body.satisfies
      (cluster.secret identity).resource.body = true := by
  have hr := Cluster.isDesired_secret hdeclared identity
  have hself := Json.satisfies_self hr.isPlain hr.canonical
  have hmetadata := satisfies_replacementSecret_metadata identity hdeclared hread hnamed
  obtain ⟨hversion, hkind⟩ := secret_constants hread
  rw [secret_body, Json.satisfies_obj_iff] at hself
  rw [secret_body, Json.satisfies_obj_iff]
  obtain ⟨-, hself⟩ := hself
  refine ⟨⟨_, rfl⟩, ?_⟩
  simp only [List.forall_mem_cons, List.not_mem_nil, false_imp_iff, implies_true, and_true]
    at hself ⊢
  obtain ⟨hselfversion, hselfdata, hselfkind, -, hselftype⟩ := hself
  refine ⟨?_, ?_, ?_, ?_, ?_⟩
  · rw [replacementSecret_get? (by decide) (by decide) (by decide) (by decide), hversion]
    exact hselfversion
  · rw [replacementSecret_body, Json.get?_setMetadataField_of_ne (by decide),
      Json.get?_setMetadataField_of_ne (by decide), Json.get?_set_of_ne (by decide),
      Json.get?_drop_of_ne (by decide), Json.get?_set_self]
    exact hselfdata
  · rw [replacementSecret_get? (by decide) (by decide) (by decide) (by decide), hkind]
    exact hselfkind
  · exact ⟨_, replacementSecret_get?_metadata _ _, hmetadata⟩
  · rw [replacementSecret_body, Json.get?_setMetadataField_of_ne (by decide),
      Json.get?_setMetadataField_of_ne (by decide), Json.get?_set_self]
    exact hselftype

theorem isCanonical_replacementSecret {desired : Resource} (hlive : live.body.isCanonical = true)
    (hdesired : desired.body.isCanonical = true) :
    (replacementSecret live desired).body.isCanonical = true := by
  have hmember (name : String) : (desired.metadata.get name).isCanonical = true :=
    Json.isCanonical_get _ (Json.isCanonical_get _ hdesired)
  rw [replacementSecret_body]
  refine Json.isCanonical_setMetadataField _ (Json.isCanonical_setMetadataField _ ?_ (hmember _))
    (hmember _)
  refine Json.isCanonical_set _ (Json.isCanonical_drop _ ?_) (Json.isCanonical_get _ hdesired)
  exact Json.isCanonical_set _ hlive (Json.isCanonical_get _ hdesired)

theorem readable_replacementSecret (identity : Identity) (hdeclared : cluster.IsDeclared ns name)
    (hread : readAs .secret raw = .ok live) :
    Schema.secret.Readable (replacementSecret live (cluster.secret identity).resource).body := by
  have hr := Cluster.isDesired_secret hdeclared identity
  have hlive : Schema.secret.Readable live.body :=
    ⟨live.body, Schema.read_written (Kind.isStable_schema .secret) (readAs_eq_ok_iff.mp hread).2⟩
  have hmember (name : String) {field : Field Schema} {value : Json}
      (hfield : Schema.secret.field? name = some field)
      (hvalue : (cluster.secret identity).resource.body.get? name = some value) :
      ∃ found, field.outcome (some value) = .ok found :=
    hvalue ▸ ⟨_, Schema.outcome_of_read Kind.secret.isRecord_schema hfield hr.written⟩
  have hmetadata (name : String) {field : Field Schema} {value : Json}
      (hfield : Schema.metadata.field? name = some field)
      (hvalue : (cluster.secret identity).resource.metadata.get? name = some value) :
      ∃ found, field.outcome (some value) = .ok found := by
    obtain ⟨source, md, -, hsource, hmembers⟩ := Kind.secret.read_metadata hr.written
    have hget : source.get? name = some value := by
      rw [Json.get?, hmembers]
      exact hvalue
    exact hget ▸ ⟨_, Schema.outcome_of_read Schema.isRecord_metadata hfield hsource⟩
  have hmembers : (cluster.secret identity).metadata.toJson = .obj _ :=
    Manifest.Metadata.toJson_of_ns hdeclared.ns
  change (cluster.secret identity).resource.metadata = .obj _ at hmembers
  rw [hmembers] at hmetadata
  rw [replacementSecret_body, hmembers]
  refine Kind.secret.readable_setMetadataField ?_ rfl (hmetadata "ownerReferences" rfl rfl)
  refine Kind.secret.readable_setMetadataField ?_ rfl (hmetadata "labels" rfl rfl)
  refine Schema.readable_set Kind.secret.isRecord_schema rfl (hmember "type" rfl rfl) ?_
  refine Schema.readable_drop Kind.secret.isRecord_schema rfl rfl ?_
  exact Schema.readable_set Kind.secret.isRecord_schema rfl (hmember "data" rfl rfl) hlive

end Replacement

end Reconcile

namespace Memory

variable {object : Resource} {key : ObjectKey} {raw : Json}

theorem replacedDocument_of_unmarked (m : Memory) (object : Resource) (hraw : raw.IsUnmarked) :
    m.replacedDocument raw object =
      let body := object.body.setMetadataField "uid" (raw.metadataField "uid")
      m.stamped (body.set "metadata" ((body.get "metadata").drop "deletionTimestamp")) := by
  rw [replacedDocument, updatedDocument, hraw]
  rfl

theorem isUnmarked_replacedDocument (m : Memory) (object : Resource) (hraw : raw.IsUnmarked) :
    (m.replacedDocument raw object).IsUnmarked :=
  (mark_replacedDocument m raw object).trans hraw

/-- An update keeps the key of the object that is sent. -/
theorem isNamed_replacedDocument (m : Memory) (hkey : object.key = .ok key) :
    (m.replacedDocument raw object).IsNamed key := by
  obtain ⟨-, hname, hns⟩ := Resource.named_of_key hkey
  constructor
  · rw [metadataField_replacedDocument (by decide) (by decide) (by decide), hname]
  · rw [metadataField_replacedDocument (by decide) (by decide) (by decide), hns]

theorem isCanonical_replacedDocument (m : Memory) (hraw : raw.IsUnmarked)
    (hcanonical : raw.isCanonical = true) (h : object.body.isCanonical = true) :
    (m.replacedDocument raw object).isCanonical = true := by
  have huid : (object.body.setMetadataField "uid" (raw.metadataField "uid")).isCanonical = true :=
    Json.isCanonical_setMetadataField _ h (Json.isCanonical_get _ (Json.isCanonical_get _ hcanonical))
  rw [replacedDocument_of_unmarked m object hraw]
  refine Json.isCanonical_setMetadataField _ (Json.isCanonical_set _ huid ?_) rfl
  exact Json.isCanonical_drop _ (Json.isCanonical_get _ huid)

end Memory

namespace Resource.IsDesired

variable {r object : Resource} {key : ObjectKey} {raw : Json}

theorem carries_replacedDocument (hr : r.IsDesired key) (m : Memory) (hraw : raw.IsUnmarked)
    (h : object.body.satisfies r.body = true) : (m.replacedDocument raw object).Carries r := by
  obtain ⟨md, hmd, hlookup⟩ :=
    hr.lookup_metadata (show "deletionTimestamp" ∉ patchedMetadata by decide)
  constructor
  · rw [replacedDocument_of_unmarked m object hraw]
    have huid := hr.satisfies_setMetadataField h (show "uid" ∉ patchedMetadata by decide)
      (raw.metadataField "uid")
    refine hr.satisfies_stamped (Json.satisfies_set_metadata hmd (Json.sorted_members hr.canonical)
      ?_ huid)
    exact Json.satisfies_drop (Json.satisfies_metadata hmd huid) hlookup
  · exact isUnmarked_replacedDocument m object hraw

end Resource.IsDesired

end ClusterKeeper
