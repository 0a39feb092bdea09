import ClusterKeeper.Proofs.Reconcile.Ownership
import ClusterKeeper.Proofs.Store.History

/-!
What users do to the store besides the passes: they create declarations, edit what these declare, and
delete anything. They put no owner references on a declaration and leave its finalizers alone.
-/

namespace ClusterKeeper

open Memory Reconcile

namespace Json

def specPatch (spec : Json) : Json := .obj [("spec", spec)]

/-- The document is the other one, changed by a user: it keeps its key, its uid, its owners, the token
and a mark for deletion. -/
structure Revises (raw live : Json) : Prop where
  name : raw.metadataField "name" = live.metadataField "name"
  ns : raw.metadataField "namespace" = live.metadataField "namespace"
  uid : raw.metadataField "uid" = live.metadataField "uid"
  unowned : live.HasNoOwners → raw.HasNoOwners
  owner : ∀ uid, raw.isOwnedBy uid = true → live.isOwnedBy uid = true
  token : live.HasToken → raw.HasToken
  mark : ¬ live.IsUnmarked → ¬ raw.IsUnmarked

variable {raw live : Json}

theorem Revises.inherits (h : raw.Revises live) (hunowned : live.HasNoOwners) : raw.Inherits live :=
  ⟨h.unowned hunowned, h.uid, Or.imp h.token h.mark⟩

/-- All metadata may stay, but for the version, and the mark, which may be set. -/
theorem revises_of_metadataField (h : ∀ field, field ≠ "resourceVersion" →
      field ≠ "deletionTimestamp" → raw.metadataField field = live.metadataField field)
    (hmark : ¬ live.IsUnmarked → ¬ raw.IsUnmarked) : raw.Revises live := by
  have howners := h "ownerReferences" (by decide) (by decide)
  constructor
  · exact h "name" (by decide) (by decide)
  · exact h "namespace" (by decide) (by decide)
  · exact h "uid" (by decide) (by decide)
  · rw [HasNoOwners, HasNoOwners, howners]
    exact id
  · intro uid
    rw [isOwnedBy, isOwnedBy, howners]
    exact id
  · rw [HasToken, HasToken, h "finalizers" (by decide) (by decide)]
    exact id
  · exact hmark

theorem metadataField_merge_specPatch (live spec : Json) (field : String) :
    (live.merge (specPatch spec)).metadataField field = live.metadataField field := by
  have hmetadata : (live.merge (specPatch spec)).get "metadata" = live.get "metadata" := by
    rw [specPatch, get, get?_merge_obj live _ (by simp +decide [Keyed.sorted_cons_iff])]
    rfl
  rw [metadataField, hmetadata, metadataField]

end Json

namespace Memory

variable {m m' : Memory} {key other : ObjectKey} {raw live : Json} {ipfs : Resource}

/-- What a user may do at any time. The store may also begin or stop to fail. -/
inductive UserEdit (m : Memory) : Memory → Prop where
  | create {object : Resource} (hkind : object.kind = .ipfs) (hunowned : object.body.HasNoOwners) :
    UserEdit m (m.create object).2
  | patch {key : ObjectKey} (hkind : key.kind = .ipfs) (spec : Json) :
    UserEdit m (m.patch key (Json.specPatch spec)).2
  /-- An update of what is stored right then: a stale one is refused. -/
  | update {key : ObjectKey} {raw : Json} {ipfs : Resource} (hkind : key.kind = .ipfs)
      (hget : m.get? key = some raw) (hread : readAs .ipfs raw = .ok ipfs) (spec : Json) :
    UserEdit m (m.update ⟨.ipfs, ipfs.body.set "spec" spec⟩).2
  /-- A change that the store does not check. -/
  | tamper {key : ObjectKey} {m' : Memory} (hkind : key.kind = .ipfs) {spec : Json}
      (h : m.tamper key (Json.specPatch spec) = some m') : UserEdit m m'
  | delete (key : ObjectKey) : UserEdit m (m.delete key)
  | remove {key : ObjectKey} (hkind : key.kind ≠ .ipfs) : UserEdit m (m.remove key)
  | fail (failures : List Failure) : UserEdit m { m with failures }

/-- What an edit does to the objects: nothing, or an unowned one is new, or one is revised and goes if
it is let go then, or one that is no declaration is lost. -/
inductive Edited (m : Memory) : Memory → Prop where
  | same {m' : Memory} (h : m'.objects = m.objects) : Edited m m'
  | new {key : ObjectKey} {raw : Json} {m' : Memory} (h : Stores m key raw m')
      (hget : m.get? key = none) (hnamed : raw.IsNamed key) (hunowned : raw.HasNoOwners) : Edited m m'
  | revised {key : ObjectKey} {raw live : Json} {m₁ m' : Memory} (h : Stores m key raw m₁)
      (hget : m.get? key = some live) (hraw : raw.Revises live)
      (hleft : m' = m₁ ∨ m' = m₁.settle key) : Edited m m'
  | lost {key : ObjectKey} (hkind : key.kind ≠ .ipfs) : Edited m (m.remove key)

theorem revises_patchedDocument (m : Memory) (live spec : Json) :
    (m.patchedDocument live (Json.specPatch spec)).Revises live := by
  have hsame (field : String) (hversion : field ≠ "resourceVersion") :
      (m.patchedDocument live (Json.specPatch spec)).metadataField field = live.metadataField field := by
    by_cases huid : field = "uid"
    · rw [huid, uid_patchedDocument]
    · rw [metadataField_patchedDocument huid hversion, Json.metadataField_merge_specPatch]
  refine Json.revises_of_metadataField (fun field hversion _ => hsame field hversion) ?_
  rw [Json.IsUnmarked, Json.IsUnmarked, hsame _ (by decide)]
  exact id

theorem revises_stamped_merge (m : Memory) (live spec : Json) :
    (m.stamped (live.merge (Json.specPatch spec))).Revises live := by
  have hsame (field : String) (hversion : field ≠ "resourceVersion") :
      (m.stamped (live.merge (Json.specPatch spec))).metadataField field =
        live.metadataField field := by
    rw [metadataField_stamped hversion, Json.metadataField_merge_specPatch]
  refine Json.revises_of_metadataField (fun field hversion _ => hsame field hversion) ?_
  rw [Json.IsUnmarked, Json.IsUnmarked, hsame _ (by decide)]
  exact id

theorem revises_markedDocument (m : Memory) (live : Json) : (m.markedDocument live).Revises live := by
  refine Json.revises_of_metadataField (fun field hversion hmark => ?_) fun _ hunmarked => ?_
  · rw [markedDocument, metadataField_stamped hversion,
      Json.metadataField_setMetadataField_of_ne hmark]
  · rw [Json.IsUnmarked, markedDocument, metadataField_stamped (by decide),
      Json.metadataField_setMetadataField] at hunmarked
    cases hunmarked

theorem revises_replacedDocument (m : Memory) (hunowned : raw.HasNoOwners)
    (hread : readAs .ipfs raw = .ok ipfs) {object : Resource}
    (hmetadata : object.metadata = ipfs.metadata) : (m.replacedDocument raw object).Revises raw := by
  have hfield {field : String} (huid : field ≠ "uid") (hmark : field ≠ "deletionTimestamp")
      (hversion : field ≠ "resourceVersion") :
      (m.replacedDocument raw object).metadataField field = ipfs.body.metadataField field := by
    rw [metadataField_replacedDocument huid hmark hversion, hmetadata]
    rfl
  have hsame : (m.replacedDocument raw object).HasNoOwners := by
    rw [Json.HasNoOwners, hfield (by decide) (by decide) (by decide)]
    exact hunowned.of_readAs hread
  constructor
  · rw [hfield (by decide) (by decide) (by decide)]
    exact Resource.metadata_get_text_of_readAs hread (by decide)
  · rw [hfield (by decide) (by decide) (by decide)]
    exact Resource.metadata_get_text_of_readAs hread (by decide)
  · exact uid_replacedDocument m raw object
  · exact fun _ => hsame
  · intro uid howned
    rw [hsame.isOwnedBy uid] at howned
    cases howned
  · -- an object in its written form has the token if its document has
    obtain ⟨hkind, hbody⟩ := readAs_eq_ok_iff.mp hread
    have hwritten : readAs .ipfs ipfs.body = .ok ipfs :=
      readAs_eq_ok_iff.mpr ⟨hkind, Schema.read_written (Kind.isStable_schema .ipfs) hbody⟩
    rw [Json.hasToken_iff hread, ← Json.hasToken_iff hwritten, Json.HasToken, Json.HasToken,
      hfield (by decide) (by decide) (by decide)]
    exact id
  · rw [Json.IsUnmarked, Json.IsUnmarked, mark_replacedDocument]
    exact id

/-- What a user may do comes to one of the four. -/
theorem UserEdit.edited (h : UserEdit m m') (hnamed : m.Named) (hm : m.OwnersHeld) : Edited m m' := by
  cases h with
  | @create object hkind hunowned =>
      rcases m.create_cases object with ⟨-, -, h⟩ | ⟨key, -, hkey, hget, -, -, h⟩
      · exact .same h.objects
      · refine .new h hget (isNamed_createdDocument m hkey) ?_
        rw [Json.HasNoOwners, metadataField_createdDocument (by decide) (by decide)]
        exact hunowned
  | @patch key hkind spec =>
      rcases m.patch_cases key (Json.specPatch spec) with
        ⟨-, -, h⟩ | ⟨live, -, m₁, hget, -, -, h, hsettle⟩
      · exact .same h.objects
      · exact .revised h hget (revises_patchedDocument m live spec) (.inr hsettle)
  | @update key raw ipfs hkind hget hread spec =>
      have hmetadata : Resource.metadata ⟨.ipfs, ipfs.body.set "spec" spec⟩ = ipfs.metadata := by
        rw [Resource.metadata, Json.get, Json.get?_set_of_ne (by decide)]
        rfl
      rcases m.update_cases ⟨.ipfs, ipfs.body.set "spec" spec⟩ with
        ⟨-, -, h⟩ | ⟨found, live, -, m₁, hkey, hlive, -, -, -, h, hsettle⟩
      · exact .same h.objects
      · have hsame : ipfs.key = .ok key :=
          Resource.key_of_named (hkind ▸ hread) (hnamed key raw hget)
        rw [Resource.key_congr (readAs_eq_ok_iff.mp hread).1.symm hmetadata, hsame] at hkey
        cases hkey
        cases hget.symm.trans hlive
        have hunowned := hm.unowned _ raw (Keyed.mem_of_lookup hget) hkind
        exact .revised h hget (revises_replacedDocument m hunowned hread hmetadata) (.inr hsettle)
  | @tamper key _ hkind spec h =>
      obtain ⟨live, hget, h⟩ := exists_of_tamper h
      exact .revised h hget (revises_stamped_merge m live spec) (.inl rfl)
  | delete key =>
      rcases m.delete_cases key with ⟨-, hsame⟩ | ⟨live, m₁, hget, h, hsettle⟩
      · exact .same (congrArg Memory.objects hsame)
      · exact .revised h hget (revises_markedDocument m live) (.inr hsettle)
  | remove hkind => exact .lost hkind
  | fail failures => exact .same rfl

theorem UserEdit.edit (h : UserEdit m m') : Edit m m' := by
  cases h with
  | create => exact .call (.create _)
  | patch => exact .call (.patch _ _)
  | update => exact .call (.update _)
  | tamper hkind h => exact .tamper h
  | delete key => exact .delete key
  | remove hkind => exact .remove _
  | fail failures => exact .fail failures

theorem UserEdit.lineage (h : UserEdit m m') : Lineage m m' := by
  cases h with
  | create => exact lineage_perform m (.create _)
  | patch => exact lineage_perform m (.patch _ _)
  | update => exact lineage_perform m (.update _)
  | @tamper key _ hkind spec h =>
      have hproper : (Operation.tamper key (Json.specPatch spec)).IsProper m := fun live _ =>
        (metadataField_stamped (by decide)).symm.trans (revises_stamped_merge m live spec).uid
      have hlineage := (Operation.effect _ m hproper).lineage
      rwa [Operation.apply, h] at hlineage
  | delete key => exact ((Operation.delete key).effect m trivial).lineage
  | remove => exact .of_removal (Nat.le_refl _) lookup_erase_imp
  | fail => exact .of_removal (Nat.le_refl _) id

theorem Edited.named (h : Edited m m') (hm : m.Named) : m'.Named := by
  cases h with
  | same h =>
      intro key raw hraw
      rw [Memory.get?, h] at hraw
      exact hm key raw hraw
  | new h hget hnamed => exact hm.of_stores hnamed h
  | @revised key raw live m₁ _ h hget hraw hleft =>
      obtain ⟨hname, hns⟩ := hm key live hget
      have hstored := hm.of_stores ⟨hraw.name.trans hname, hraw.ns.trans hns⟩ h
      rcases hleft with rfl | rfl
      · exact hstored
      · exact hstored.settle key
  | lost => exact fun key raw hraw => hm key raw (lookup_erase_imp hraw)

theorem OwnersHeld.admits_revised (hm : m.OwnersHeld) (hget : m.get? key = some live)
    (hraw : raw.Revises live) : m.Admits key raw := by
  have hmem := Keyed.mem_of_lookup hget
  by_cases hkind : key.kind = .ipfs
  · have hunowned := hm.unowned key live hmem hkind
    refine .declaration (hraw.unowned hunowned) fun found hfound => ?_
    cases hget.symm.trans hfound
    exact hraw.inherits hunowned
  · exact .dependent hkind fun uid howned => hm.owner key live uid hmem (hraw.owner uid howned)

theorem Edited.ownersHeld (h : Edited m m') (hm : m.OwnersHeld) : m'.OwnersHeld := by
  cases h with
  | same h => exact hm.of_objects h
  | new h hget hnamed hunowned =>
      refine hm.of_stores h (.declaration hunowned fun live hlive => ?_)
      rw [hget] at hlive
      cases hlive
  | @revised key raw live m₁ _ h hget hraw hleft =>
      have hstored := hm.of_stores h (hm.admits_revised hget hraw)
      rcases hleft with rfl | rfl
      · exact hstored
      · exact hstored.settle key
  | @lost key hkind =>
      constructor
      · exact fun other found hmem => hm.unowned other found (Keyed.mem_erase hmem).1
      · intro other found uid hmem howned
        obtain ⟨ns, name, owner, hget, howner⟩ :=
          hm.owner other found uid (Keyed.mem_erase hmem).1 howned
        have hne : ⟨.ipfs, ns, name⟩ ≠ key := by
          rintro rfl
          exact hkind rfl
        exact ⟨ns, name, owner, (Keyed.lookup_erase_of_ne hne _).trans hget, howner⟩

theorem Edited.keepsToken (h : Edited m m') (hm : m.OwnersHeld) (hkind : other.kind = .ipfs) :
    KeepsToken m m' other := by
  cases h with
  | same h => exact .of_eq (by rw [Memory.get?, h, Memory.get?])
  | @new key raw _ h hget =>
      intro live hlive htoken
      have hne : other ≠ key := by
        rintro rfl
        rw [hget] at hlive
        cases hlive
      exact KeepsToken.of_eq (h.get?_of_ne hne) live hlive htoken
  | @revised key raw live m₁ _ h hget hraw hleft =>
      by_cases heq : other = key
      · subst heq
        intro found hfound htoken
        cases hget.symm.trans hfound
        have hkept := hraw.token htoken
        refine ⟨raw, ?_, hraw.uid, hkept⟩
        rcases hleft with rfl | rfl
        · exact h.get?_self
        · rw [settle_of_not_released h.get?_self hkept.isReleased]
          exact h.get?_self
      · rcases hleft with rfl | rfl
        · exact .of_eq (h.get?_of_ne heq)
        · exact .of_eq (hm.write_get? h (hm.admits_revised hget hraw) hkind heq)
  | @lost key hlost =>
      have hne : other ≠ key := by
        rintro rfl
        exact hlost hkind
      exact .of_eq (Keyed.lookup_erase_of_ne hne _)

end Memory

end ClusterKeeper
