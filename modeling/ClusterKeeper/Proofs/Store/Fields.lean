import ClusterKeeper.Proofs.Store.Calls

/-!
The metadata of a stored document, field by field: the version and the uid are the store's to give,
the deletion mark is kept by an update, and all else is as it was sent.
-/

namespace ClusterKeeper

theorem Json.isNull_iff {json : Json} : json.isNull = true ↔ json = .null := by
  cases json <;> simp [Json.isNull]

/-- The document without the uid and the version in its metadata. -/
def Json.unstamped (raw : Json) : Json :=
  raw.set "metadata"
    (.obj (Keyed.erase "resourceVersion" (Keyed.erase "uid" (raw.get "metadata").members)))

theorem Json.unstamped_setMetadataField {field : String}
    (h : field = "uid" ∨ field = "resourceVersion") (raw value : Json) :
    (raw.setMetadataField field value).unstamped = raw.unstamped := by
  have hmembers : Keyed.erase "resourceVersion" (Keyed.erase "uid"
        ((raw.get "metadata").set field value).members) =
      Keyed.erase "resourceVersion" (Keyed.erase "uid" (raw.get "metadata").members) := by
    change Keyed.erase _ (Keyed.erase _ (Keyed.insert field value _)) = _
    rcases h with rfl | rfl
    · rw [Keyed.erase_insert_self]
    · rw [Keyed.erase_comm, Keyed.erase_insert_self, Keyed.erase_comm]
  rw [unstamped, get_metadata_setMetadataField, hmembers, setMetadataField, set_set, unstamped]

namespace Json

variable {raw patch : Json} {patched md : Members}

def unstampedMetadata (raw : Json) : Members :=
  Keyed.erase "resourceVersion" (Keyed.erase "uid" (raw.get "metadata").members)

theorem get?_unstamped (raw : Json) (field : String) :
    raw.unstamped.get? field =
      if field = "metadata" then some (.obj raw.unstampedMetadata) else raw.get? field := by
  split
  · next h =>
      rw [h]
      exact get?_set_self _ _ _
  · next h => exact get?_set_of_ne h _ _

theorem lookup_unstampedMetadata (raw : Json) (field : String) :
    raw.unstampedMetadata.lookup field =
      if field = "uid" ∨ field = "resourceVersion" then none
      else (raw.get "metadata").get? field := by
  rw [unstampedMetadata]
  by_cases hversion : field = "resourceVersion"
  · simp [hversion]
  · by_cases huid : field = "uid"
    · simp [huid, Keyed.lookup_erase_of_ne]
    · simp [huid, hversion, Keyed.lookup_erase_of_ne, get?]

theorem metadataField_unstamped {field : String} (huid : field ≠ "uid")
    (hversion : field ≠ "resourceVersion") (raw : Json) :
    raw.unstamped.metadataField field = raw.metadataField field := by
  have hmetadata : raw.unstamped.get "metadata" = .obj raw.unstampedMetadata :=
    get_of_get? (by rw [get?_unstamped, if_pos rfl])
  have hlookup := raw.lookup_unstampedMetadata field
  rw [if_neg (by simp [huid, hversion])] at hlookup
  rw [metadataField, hmetadata, get, get?, members, hlookup]
  rfl

theorem isCanonical_unstampedMetadata (h : raw.isCanonical = true) :
    (obj raw.unstampedMetadata).isCanonical = true := by
  have hmetadata : (obj (raw.get "metadata").members).isCanonical = true := by
    have hget := isCanonical_get "metadata" h
    cases hfound : raw.get "metadata" with
    | obj members => exact hfound ▸ hget
    | _ => simp [members]
  exact isCanonical_drop "resourceVersion" (isCanonical_drop "uid" hmetadata)

theorem isCanonical_unstamped (h : raw.isCanonical = true) : raw.unstamped.isCanonical = true :=
  isCanonical_set _ h (isCanonical_unstampedMetadata h)

theorem unstampedMetadata_merge (hraw : raw.isCanonical = true)
    (hpatch : (obj patched).isCanonical = true)
    (hmd : patched.lookup "metadata" = some (.obj md)) (huid : md.lookup "uid" = none)
    (hversion : md.lookup "resourceVersion" = none) :
    obj (raw.merge (.obj patched)).unstampedMetadata = (obj raw.unstampedMetadata).merge (.obj md) := by
  have hsorted : Keyed.Sorted patched := sorted_members hpatch
  have hmdcanonical : (obj md).isCanonical = true := isCanonical_of_lookup hpatch hmd
  have hmdsorted : Keyed.Sorted md := sorted_members hmdcanonical
  have hleft := isCanonical_unstampedMetadata (isCanonical_merge _ hraw hpatch)
  have hright := isCanonical_merge _ (isCanonical_unstampedMetadata hraw) hmdcanonical
  have hmetadata : (raw.merge (.obj patched)).get "metadata" = (raw.get "metadata").merge (.obj md) := by
    rw [get, get?_merge_obj _ _ hsorted, hmd]
    rfl
  refine obj_ext (sorted_members hleft) (sorted_members hright) fun field => ?_
  change _ = (mergeMembers raw.unstampedMetadata md).lookup field
  rw [lookup_mergeMembers _ _ hmdsorted, lookup_unstampedMetadata, lookup_unstampedMetadata]
  split
  · next h => rcases h with rfl | rfl <;> simp only [huid, hversion, mergeMember]
  · next h => rw [hmetadata, get?_merge_obj _ _ hmdsorted]

/-- The stamps may be taken off before a patch that does not mention them, or after it. -/
theorem unstamped_merge (hraw : raw.isCanonical = true) (hpatch : (obj patched).isCanonical = true)
    (hmd : patched.lookup "metadata" = some (.obj md)) (huid : md.lookup "uid" = none)
    (hversion : md.lookup "resourceVersion" = none) :
    (raw.merge (.obj patched)).unstamped = raw.unstamped.merge (.obj patched) := by
  have hsorted : Keyed.Sorted patched := sorted_members hpatch
  have hleft := isCanonical_unstamped (isCanonical_merge _ hraw hpatch)
  have hright := isCanonical_merge _ (isCanonical_unstamped hraw) hpatch
  refine obj_ext (sorted_members hleft) (sorted_members hright) fun field => ?_
  change (raw.merge (.obj patched)).unstamped.get? field =
    (raw.unstamped.merge (.obj patched)).get? field
  rw [get?_merge_obj _ _ hsorted, get?_unstamped, get?_unstamped]
  split
  · next h =>
      rw [h, hmd, unstampedMetadata_merge hraw hpatch hmd huid hversion]
      rfl
  · next h => rw [get?_merge_obj _ _ hsorted]

end Json

namespace Memory

variable {m : Memory} {object : Resource} {live patch raw : Json} {field : String}

theorem unstamped_stamped (m : Memory) (raw : Json) : (m.stamped raw).unstamped = raw.unstamped :=
  Json.unstamped_setMetadataField (.inr rfl) _ _

theorem unstamped_createdDocument (m : Memory) (object : Resource) :
    (m.createdDocument object).unstamped = object.body.unstamped := by
  rw [createdDocument, unstamped_stamped, Json.unstamped_setMetadataField (.inl rfl)]

theorem unstamped_patchedDocument (m : Memory) (live patch : Json) :
    (m.patchedDocument live patch).unstamped = (live.merge patch).unstamped := by
  rw [patchedDocument, unstamped_stamped, Json.unstamped_setMetadataField (.inl rfl)]

theorem metadataField_stamped (hversion : field ≠ "resourceVersion") :
    (m.stamped raw).metadataField field = raw.metadataField field :=
  Json.metadataField_setMetadataField_of_ne hversion _ _

/-! ### Created documents -/

theorem uid_createdDocument (m : Memory) (object : Resource) :
    (m.createdDocument object).metadataField "uid" = .str ("uid-" ++ toString (m.uids + 1)) := by
  rw [createdDocument, metadataField_stamped (by decide), Json.metadataField_setMetadataField]

theorem metadataField_createdDocument (huid : field ≠ "uid") (hversion : field ≠ "resourceVersion") :
    (m.createdDocument object).metadataField field = object.body.metadataField field := by
  rw [createdDocument, metadataField_stamped hversion, Json.metadataField_setMetadataField_of_ne huid]

theorem readable_createdDocument {kind : Kind} (m : Memory)
    (h : kind.schema.Readable object.body) : kind.schema.Readable (m.createdDocument object) := by
  have huid : kind.schema.Readable
      (object.body.setMetadataField "uid" (.str ("uid-" ++ toString (m.uids + 1)))) :=
    Kind.readable_setMetadataField_text h (by decide) (.inr ⟨_, rfl⟩)
  exact Kind.readable_setMetadataField_text huid (by decide) (.inr ⟨_, rfl⟩)

theorem isWritten_createdDocument {kind : Kind} (m : Memory)
    (h : kind.schema.read object.body = .ok object.body) :
    kind.schema.read (m.createdDocument object) = .ok (m.createdDocument object) := by
  have hstamp (name text : String) :
      (Field.optional name .text).outcome (some (.str text)) = .ok (some (.str text)) := rfl
  have huid := kind.read_setMetadataField h (Schema.field?_metadata_text (by decide))
    (hstamp "uid" ("uid-" ++ toString (m.uids + 1)))
  exact kind.read_setMetadataField huid (Schema.field?_metadata_text (by decide))
    (hstamp "resourceVersion" (toString (m.versions + 1)))

theorem isCanonical_createdDocument (m : Memory) (h : object.body.isCanonical = true) :
    (m.createdDocument object).isCanonical = true :=
  Json.isCanonical_setMetadataField _ (Json.isCanonical_setMetadataField _ h rfl) rfl

/-! ### Patched documents -/

theorem uid_patchedDocument (m : Memory) (live patch : Json) :
    (m.patchedDocument live patch).metadataField "uid" = live.metadataField "uid" := by
  rw [patchedDocument, metadataField_stamped (by decide), Json.metadataField_setMetadataField]

theorem metadataField_patchedDocument (huid : field ≠ "uid") (hversion : field ≠ "resourceVersion") :
    (m.patchedDocument live patch).metadataField field = (live.merge patch).metadataField field := by
  rw [patchedDocument, metadataField_stamped hversion, Json.metadataField_setMetadataField_of_ne huid]

theorem readable_patchedDocument {kind : Kind} (m : Memory) (hlive : kind.schema.Readable live)
    (h : kind.schema.Readable (live.merge patch)) :
    kind.schema.Readable (m.patchedDocument live patch) := by
  have huid : kind.schema.Readable
      ((live.merge patch).setMetadataField "uid" (live.metadataField "uid")) :=
    Kind.readable_setMetadataField_text h (by decide) (Kind.metadataField_text hlive (by decide))
  exact Kind.readable_setMetadataField_text huid (by decide) (.inr ⟨_, rfl⟩)

/-! ### Replaced documents -/

/-- The metadata that an update stores: those sent, with the uid and the deletion mark of the stored
document. -/
theorem get_metadata_updatedDocument (live : Json) (object : Resource) :
    (updatedDocument live object).get "metadata" =
      if (live.metadataField "deletionTimestamp").isNull then
        (object.metadata.set "uid" (live.metadataField "uid")).drop "deletionTimestamp"
      else (object.metadata.set "uid" (live.metadataField "uid")).set "deletionTimestamp"
        (live.metadataField "deletionTimestamp") := by
  have huid : (object.body.setMetadataField "uid" (live.metadataField "uid")).get "metadata" =
      object.metadata.set "uid" (live.metadataField "uid") := Json.get_metadata_setMetadataField _ _ _
  rw [updatedDocument]
  split
  · rw [Json.get_of_get? (Json.get?_set_self _ _ _), huid]
  · rw [Json.get_metadata_setMetadataField, huid]

theorem metadataField_updatedDocument (huid : field ≠ "uid") (hmark : field ≠ "deletionTimestamp") :
    (updatedDocument live object).metadataField field = object.metadata.get field := by
  rw [Json.metadataField, get_metadata_updatedDocument]
  split
  · rw [Json.get, Json.get?_drop_of_ne hmark, Json.get?_set_of_ne huid]
    rfl
  · rw [Json.get, Json.get?_set_of_ne hmark, Json.get?_set_of_ne huid]
    rfl

theorem metadataField_replacedDocument (huid : field ≠ "uid") (hmark : field ≠ "deletionTimestamp")
    (hversion : field ≠ "resourceVersion") :
    (m.replacedDocument live object).metadataField field = object.metadata.get field := by
  rw [replacedDocument, metadataField_stamped hversion, metadataField_updatedDocument huid hmark]

theorem uid_replacedDocument (m : Memory) (live : Json) (object : Resource) :
    (m.replacedDocument live object).metadataField "uid" = live.metadataField "uid" := by
  rw [replacedDocument, metadataField_stamped (by decide), Json.metadataField,
    get_metadata_updatedDocument]
  split
  · rw [Json.get, Json.get?_drop_of_ne (by decide), Json.get?_set_self]
    rfl
  · rw [Json.get, Json.get?_set_of_ne (by decide), Json.get?_set_self]
    rfl

theorem readable_replacedDocument {kind : Kind} (m : Memory) (hlive : kind.schema.Readable live)
    (h : kind.schema.Readable object.body) :
    kind.schema.Readable (m.replacedDocument live object) := by
  have huid : kind.schema.Readable
      (object.body.setMetadataField "uid" (live.metadataField "uid")) :=
    Kind.readable_setMetadataField_text h (by decide) (Kind.metadataField_text hlive (by decide))
  refine Kind.readable_setMetadataField_text ?_ (by decide) (.inr ⟨_, rfl⟩)
  rw [updatedDocument]
  split
  · exact Kind.readable_drop_metadata huid Schema.field?_metadata_mark rfl
      (Json.get_metadata_setMetadataField _ _ _)
  · obtain ⟨written, hwritten⟩ := hlive
    exact Kind.readable_setMetadataField huid Schema.field?_metadata_mark
      ⟨_, Kind.outcome_metadata_optional hwritten Schema.field?_metadata_mark⟩

/-- An update neither requests deletion nor takes the request back. -/
theorem mark_replacedDocument (m : Memory) (live : Json) (object : Resource) :
    (m.replacedDocument live object).metadataField "deletionTimestamp" =
      live.metadataField "deletionTimestamp" := by
  rw [replacedDocument, metadataField_stamped (by decide), Json.metadataField,
    get_metadata_updatedDocument]
  split
  · next hnull =>
      rw [Json.isNull_iff.mp hnull]
      simp [Json.get, Json.get?, Json.drop, Json.set, Json.members]
  · rw [Json.get, Json.get?_set_self]
    rfl

end Memory

end ClusterKeeper
