import ClusterKeeper.Proofs.Identity.Persistence
import ClusterKeeper.Proofs.Reconcile.Declaration
import ClusterKeeper.Proofs.Store.Fields

/-!
The documents that a pass stores when it creates or patches a child: they have all that is wanted of
the child, carry the child's key and are not marked for deletion.
-/

namespace ClusterKeeper

open Memory

namespace Resource.IsDesired

variable {m : Memory} {r : Resource} {key : ObjectKey} {raw live : Json}

theorem kind_eq (hr : r.IsDesired key) : r.kind = key.kind := (named_of_key hr.key).1

/-- Server fields of the metadata are not wanted of a child. -/
theorem lookup_metadata (hr : r.IsDesired key) {field : String} (hfield : field ∉ patchedMetadata) :
    ∃ md, r.body.get? "metadata" = some (.obj md) ∧ md.lookup field = none := by
  obtain ⟨md, hmd, hpatched⟩ := hr.metadata
  refine ⟨md, hmd, ?_⟩
  cases hfound : md.lookup field with
  | none => rfl
  | some value => exact absurd (hpatched _ (Keyed.mem_of_lookup hfound)) hfield

theorem metadataField_eq_null (hr : r.IsDesired key) {field : String}
    (hfield : field ∉ patchedMetadata) : r.body.metadataField field = .null := by
  obtain ⟨md, hmd, hlookup⟩ := hr.lookup_metadata hfield
  rw [Json.metadataField, Json.get_of_get? hmd, Json.get, Json.get?, Json.members, hlookup]
  rfl

theorem isPlain (hr : r.IsDesired key) : r.body.isPlain = true :=
  Schema.isPlain_of_isStable r.kind.isStable_schema hr.written

theorem isNamed (hr : r.IsDesired key) (h : raw.satisfies r.body = true) : raw.IsNamed key := by
  obtain ⟨-, hname, hns⟩ := named_of_key hr.key
  obtain ⟨md, hmd, -⟩ := hr.metadata
  obtain ⟨value, hvalue, hsatisfied⟩ := Json.get?_of_satisfies h hmd nofun
  have field {name text : String} (hfield : r.metadata.get name = .str text) :
      raw.metadataField name = .str text := by
    rw [Resource.metadata, Json.get_of_get? hmd, Json.get_eq_str_iff] at hfield
    rw [Json.metadataField, Json.get_of_get? hvalue]
    exact Json.get_of_get? (Json.get?_of_satisfies_str hsatisfied hfield)
  exact ⟨field hname, field hns⟩

theorem satisfies_setMetadataField (hr : r.IsDesired key) (h : raw.satisfies r.body = true)
    {field : String} (hfield : field ∉ patchedMetadata) (value : Json) :
    (raw.setMetadataField field value).satisfies r.body = true := by
  obtain ⟨md, hmd, hlookup⟩ := hr.lookup_metadata hfield
  exact Json.satisfies_setMetadataField value hmd hlookup (Json.sorted_members hr.canonical) h

theorem satisfies_stamped (hr : r.IsDesired key) (h : raw.satisfies r.body = true) :
    (m.stamped raw).satisfies r.body = true :=
  hr.satisfies_setMetadataField h (by decide) _

/-- What is wanted of a child is in its written form as well. -/
theorem satisfies_of_readAs (hr : r.IsDesired key) {written : Resource}
    (hread : readAs key.kind raw = .ok written) (h : raw.satisfies r.body = true) :
    written.body.satisfies r.body = true := by
  have hwritten := (readAs_eq_ok_iff.mp hread).2
  rw [← hr.kind_eq] at hwritten
  exact Schema.satisfies_of_read (Kind.isRegular_schema hr.kind) hwritten hr.written h

end Resource.IsDesired

structure Json.Carries (raw : Json) (r : Resource) : Prop where
  satisfies : raw.satisfies r.body = true
  unmarked : raw.IsUnmarked

theorem Json.isUnmarked_setMetadataField {raw : Json} {field : String} (value : Json)
    (hfield : field ≠ "deletionTimestamp") (h : raw.IsUnmarked) :
    (raw.setMetadataField field value).IsUnmarked := by
  rw [IsUnmarked, metadataField_setMetadataField_of_ne hfield.symm]
  exact h

namespace Resource.IsDesired

variable {m : Memory} {r : Resource} {key : ObjectKey} {raw live : Json}

theorem carries_createdDocument (hr : r.IsDesired key) (m : Memory) :
    (m.createdDocument r).Carries r := by
  constructor
  · refine hr.satisfies_stamped (hr.satisfies_setMetadataField ?_ (by decide) _)
    exact Json.satisfies_self hr.isPlain hr.canonical
  · refine Json.isUnmarked_setMetadataField _ (by decide) ?_
    refine Json.isUnmarked_setMetadataField _ (by decide) ?_
    exact hr.metadataField_eq_null (by decide)

theorem satisfies_patchedDocument (hr : r.IsDesired key) (m : Memory) (live : Json) :
    (m.patchedDocument live r.mergePatch).satisfies r.body = true := by
  rw [hr.mergePatch]
  refine hr.satisfies_stamped (hr.satisfies_setMetadataField ?_ (by decide) _)
  exact Json.satisfies_merge live hr.canonical

/-- What is wanted of a child does not say whether it is to be deleted. -/
theorem mark_patchedDocument (hr : r.IsDesired key) (m : Memory) (live : Json) :
    (m.patchedDocument live r.mergePatch).metadataField "deletionTimestamp" =
      live.metadataField "deletionTimestamp" := by
  obtain ⟨md, hmd, hlookup⟩ := hr.lookup_metadata (show "deletionTimestamp" ∉ patchedMetadata by decide)
  rw [metadataField_patchedDocument (by decide) (by decide), hr.mergePatch]
  exact Json.metadataField_merge live hr.canonical hmd hlookup

/-- What is wanted of a child does not mention the stamps. -/
theorem unstamped_merge (hr : r.IsDesired key) (hraw : raw.isCanonical = true) :
    (raw.merge r.body).unstamped = raw.unstamped.merge r.body := by
  obtain ⟨md, hmd, huid⟩ := hr.lookup_metadata (show "uid" ∉ patchedMetadata by decide)
  obtain ⟨_, hother, hversion⟩ :=
    hr.lookup_metadata (show "resourceVersion" ∉ patchedMetadata by decide)
  cases hmd.symm.trans hother
  have hcanonical := hr.canonical
  cases hbody : r.body with
  | obj members =>
      rw [hbody] at hmd hcanonical
      exact Json.unstamped_merge hraw hcanonical hmd huid hversion
  | _ =>
      rw [hbody] at hmd
      cases hmd

theorem carries_patchedDocument (hr : r.IsDesired key) (m : Memory) (hlive : live.IsUnmarked) :
    (m.patchedDocument live r.mergePatch).Carries r :=
  ⟨hr.satisfies_patchedDocument m live, (hr.mark_patchedDocument m live).trans hlive⟩

theorem readable_createdDocument (hr : r.IsDesired key) (m : Memory) :
    key.kind.schema.Readable (m.createdDocument r) :=
  Memory.readable_createdDocument m (hr.kind_eq ▸ ⟨r.body, hr.written⟩)

theorem readable_patchedDocument (hr : r.IsDesired key) (m : Memory)
    (hcanonical : live.isCanonical = true) (hlive : key.kind.schema.Readable live) :
    key.kind.schema.Readable (m.patchedDocument live r.mergePatch) := by
  have hregular : key.kind.schema.isRegular = true := Kind.isRegular_schema (hr.kind_eq ▸ hr.kind)
  have hwritten : key.kind.schema.IsWritten r.body := hr.kind_eq ▸ hr.written
  refine Memory.readable_patchedDocument m hlive ?_
  rw [hr.mergePatch]
  exact Schema.readable_merge hregular hcanonical hr.canonical hlive hwritten

theorem isCanonical_createdDocument (hr : r.IsDesired key) (m : Memory) :
    (m.createdDocument r).isCanonical = true :=
  Memory.isCanonical_createdDocument m hr.canonical

theorem isCanonical_patchedDocument (hr : r.IsDesired key) (m : Memory)
    (hcanonical : live.isCanonical = true) :
    (m.patchedDocument live r.mergePatch).isCanonical = true := by
  rw [hr.mergePatch]
  refine Json.isCanonical_setMetadataField _ (Json.isCanonical_setMetadataField _
    (Json.isCanonical_merge _ hcanonical hr.canonical) ?_) rfl
  exact Json.isCanonical_get _ (Json.isCanonical_get _ hcanonical)

end Resource.IsDesired

end ClusterKeeper
