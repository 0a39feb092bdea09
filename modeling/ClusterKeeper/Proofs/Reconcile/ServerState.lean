import ClusterKeeper.Reconcile.Object
import ClusterKeeper.Proofs.Json.Extension
import ClusterKeeper.Proofs.Manifest.Written
import ClusterKeeper.Proofs.Schema.Rereading

/-!
The patch of a typed object and what the server manages. The patch has no nulls, no status and only
such metadata as the operator sets, so a merge leaves status and the rest of the metadata as they
are, drops nothing, and does not depend on what the object itself carries of them.
-/

namespace ClusterKeeper

namespace Resource

variable {desired other : Resource}

/-- A typed object of any kind, with any metadata. -/
structure IsTyped (r : Resource) : Prop where
  written : r.kind.schema.IsWritten r.body
  canonical : r.body.isCanonical = true

def sentMetadata (r : Resource) : Json.Members :=
  r.metadata.members.filter fun member => patchedMetadata.contains member.1

theorem lookup_sentMetadata (r : Resource) (name : String) :
    r.sentMetadata.lookup name = if name ∈ patchedMetadata then r.metadata.get? name else none := by
  rw [sentMetadata, Keyed.lookup_filter]
  simp only [List.contains_iff_mem, Json.get?]

theorem mergePatch_eq (r : Resource) :
    r.mergePatch = .obj (Keyed.erase "status"
      (Keyed.insert "metadata" (.obj r.sentMetadata) r.body.members)) := rfl

theorem get?_status_mergePatch (r : Resource) : r.mergePatch.get? "status" = none :=
  Keyed.lookup_erase_self _ _

theorem get?_metadata_mergePatch (r : Resource) :
    r.mergePatch.get? "metadata" = some (.obj r.sentMetadata) := by
  rw [mergePatch_eq, Json.get?, Json.members, Keyed.lookup_erase_of_ne (by decide),
    Keyed.lookup_insert_self]

theorem get?_mergePatch_of_ne (r : Resource) {name : String} (hmetadata : name ≠ "metadata")
    (hstatus : name ≠ "status") : r.mergePatch.get? name = r.body.get? name := by
  rw [mergePatch_eq, Json.get?, Json.members, Keyed.lookup_erase_of_ne hstatus,
    Keyed.lookup_insert_of_ne hmetadata]
  rfl

namespace IsTyped

theorem isCanonical_metadata (h : desired.IsTyped) : desired.metadata.isCanonical = true :=
  Json.isCanonical_get "metadata" h.canonical

theorem isCanonical_sentMetadata (h : desired.IsTyped) :
    (Json.obj desired.sentMetadata).isCanonical = true := by
  refine (Json.isCanonical_obj _).mpr ⟨?_, fun member hmember => ?_⟩
  · exact (Json.sorted_members h.isCanonical_metadata).filter _
  · exact Json.isCanonical_of_mem_members h.isCanonical_metadata _ (List.mem_of_mem_filter hmember)

theorem isCanonical_mergePatch (h : desired.IsTyped) : desired.mergePatch.isCanonical = true :=
  Json.isCanonical_drop _ (Json.isCanonical_set _ h.canonical h.isCanonical_sentMetadata)

theorem isPlain_body (h : desired.IsTyped) : desired.body.isPlain = true :=
  Schema.isPlain_of_isStable desired.kind.isStable_schema h.written

theorem isPlain_mergePatch (h : desired.IsTyped) : desired.mergePatch.isPlain = true := by
  have hbody := Json.isPlain_of_mem_members h.isPlain_body
  have hmetadata : ∀ member ∈ desired.metadata.members, member.2.isPlain = true := by
    rw [metadata, Json.get]
    cases hfound : desired.body.get? "metadata" with
    | none => exact fun _ hmember => absurd hmember List.not_mem_nil
    | some md => exact Json.isPlain_of_mem_members (hbody _ (Keyed.mem_of_lookup hfound))
  rw [mergePatch_eq, Json.isPlain_obj]
  intro member hmember
  rcases Keyed.mem_insert (Keyed.mem_erase hmember).1 with rfl | hmember
  · exact (Json.isPlain_obj _).mpr fun sent hsent => hmetadata sent (List.mem_of_mem_filter hsent)
  · exact hbody member hmember

/-- Objects that differ in nothing but their status and what the server manages of their metadata
have one patch. -/
theorem mergePatch_congr (h : desired.IsTyped) (hother : other.IsTyped)
    (hbody : ∀ name, name ≠ "metadata" → name ≠ "status" →
      other.body.get? name = desired.body.get? name)
    (hmetadata : ∀ name ∈ patchedMetadata, other.metadata.get? name = desired.metadata.get? name) :
    other.mergePatch = desired.mergePatch := by
  have hsent : other.sentMetadata = desired.sentMetadata := by
    refine Keyed.ext_of_sorted ((Json.isCanonical_obj _).mp hother.isCanonical_sentMetadata).1
      ((Json.isCanonical_obj _).mp h.isCanonical_sentMetadata).1 fun name => ?_
    rw [lookup_sentMetadata, lookup_sentMetadata]
    split
    · next hname => exact hmetadata name hname
    · rfl
  have hsorted := Json.sorted_members h.isCanonical_mergePatch
  have hsorted' := Json.sorted_members hother.isCanonical_mergePatch
  rw [mergePatch_eq] at hsorted hsorted' ⊢
  rw [mergePatch_eq]
  refine Json.obj_ext hsorted' hsorted fun name => ?_
  change other.mergePatch.get? name = desired.mergePatch.get? name
  by_cases hstatus : name = "status"
  · rw [hstatus, get?_status_mergePatch, get?_status_mergePatch]
  · by_cases hname : name = "metadata"
    · rw [hname, get?_metadata_mergePatch, get?_metadata_mergePatch, hsent]
    · rw [get?_mergePatch_of_ne _ hname hstatus, get?_mergePatch_of_ne _ hname hstatus]
      exact hbody name hname hstatus

end IsTyped

section Merged

variable {live md : Json.Members}

theorem get?_merge_mergePatch (h : desired.IsTyped) (live : Json) (name : String) :
    (live.merge desired.mergePatch).get? name =
      Json.mergeMember (live.get? name) (desired.mergePatch.get? name) := by
  have hsorted := Json.sorted_members h.isCanonical_mergePatch
  rw [mergePatch_eq] at hsorted ⊢
  exact Json.get?_merge_obj live name hsorted

/-- The metadata after the patch are those of before with what is sent of them. -/
theorem get?_metadata_merge (h : desired.IsTyped) (hmd : live.lookup "metadata" = some (.obj md)) :
    ((Json.obj live).merge desired.mergePatch).get? "metadata" =
      some (.obj (Json.mergeMembers md desired.sentMetadata)) := by
  rw [get?_merge_mergePatch h, get?_metadata_mergePatch,
    show (Json.obj live).get? "metadata" = some (.obj md) from hmd]
  rfl

theorem lookup_metadata_merge (h : desired.IsTyped) {name : String} (hname : name ∉ patchedMetadata) :
    (Json.mergeMembers md desired.sentMetadata).lookup name = md.lookup name := by
  rw [Json.lookup_mergeMembers md name ((Json.isCanonical_obj _).mp h.isCanonical_sentMetadata).1,
    lookup_sentMetadata, if_neg hname]
  rfl

/-- A merge of the patch of a typed object into a live one with metadata: nothing in the patch is
null, the status and the metadata that are not the operator's stay as they are, nothing is dropped
where both are objects, and the patch is that of any object that differs in these only. -/
theorem mergePatch_spares_server (h : desired.IsTyped)
    (hmd : live.lookup "metadata" = some (.obj md)) :
    desired.mergePatch.isPlain = true ∧
      ((Json.obj live).merge desired.mergePatch).get? "status" = live.lookup "status" ∧
      (∃ after, ((Json.obj live).merge desired.mergePatch).get? "metadata" = some (.obj after) ∧
        ∀ name, name ∉ patchedMetadata → after.lookup name = md.lookup name) ∧
      (∀ path members changes, (Json.obj live).at? path = some (.obj members) →
        desired.mergePatch.at? path = some (.obj changes) →
          ∃ kept, ((Json.obj live).merge desired.mergePatch).at? path = some (.obj kept) ∧
            ∀ name, members.lookup name ≠ none → kept.lookup name ≠ none) ∧
      ∀ other : Resource, other.IsTyped →
        (∀ name, name ≠ "metadata" → name ≠ "status" →
          other.body.get? name = desired.body.get? name) →
        (∀ name ∈ patchedMetadata, other.metadata.get? name = desired.metadata.get? name) →
          other.mergePatch = desired.mergePatch := by
  refine ⟨h.isPlain_mergePatch, ?_, ⟨_, get?_metadata_merge h hmd, ?_⟩, ?_, ?_⟩
  · rw [get?_merge_mergePatch h, get?_status_mergePatch]
    rfl
  · exact fun name => lookup_metadata_merge h
  · intro path members changes hlive hpath
    exact Json.exists_kept_merge h.isCanonical_mergePatch h.isPlain_mergePatch hlive hpath
  · intro other hother
    exact h.mergePatch_congr hother

def sampleService : Resource :=
  ⟨.service, .obj [
    ("apiVersion", .str "v1"),
    ("kind", .str "Service"),
    ("metadata", .obj [
      ("finalizers", .texts ["stale"]),
      ("labels", .textMap [("app", "ipfs")]),
      ("name", .str "ipfs"),
      ("namespace", .str "default"),
      ("resourceVersion", .str "3"),
      ("uid", .str "uid-9")]),
    ("spec", .obj [("clusterIP", .str "None")]),
    ("status", .obj [])]⟩

/-- The service as it is stored, with a status and metadata of its own. -/
def sampleLive : Json.Members :=
  [("metadata", .obj [
    ("deletionTimestamp", .str "2025-01-01T00:00:00Z"),
    ("finalizers", .texts ["protection"]),
    ("name", .str "ipfs"),
    ("namespace", .str "default"),
    ("uid", .str "uid-1")]),
   ("spec", .obj [("externalName", .null), ("type", .str "ClusterIP")]),
   ("status", .obj [("loadBalancer", .obj [])])]

/-- The stored service keeps its status, its finalizers and uid, and a null that it has in its spec;
the version that the other one came with does not matter. -/
theorem mergePatch_spares_sampleLive :
    sampleService.mergePatch.get? "status" = none ∧
      ((Json.obj sampleLive).merge sampleService.mergePatch).get? "status" =
        some (.obj [("loadBalancer", .obj [])]) ∧
      (∃ after, ((Json.obj sampleLive).merge sampleService.mergePatch).get? "metadata" =
        some (.obj after) ∧ after.lookup "finalizers" = some (.texts ["protection"]) ∧
          after.lookup "uid" = some (.str "uid-1")) ∧
      (∃ kept, ((Json.obj sampleLive).merge sampleService.mergePatch).at? ["spec"] =
        some (.obj kept) ∧ kept.lookup "externalName" ≠ none) ∧
      (sampleService.setMetadata "resourceVersion" (.str "4")).mergePatch =
        sampleService.mergePatch := by
  obtain ⟨-, hstatus, ⟨after, hafter, hmetadata⟩, hkept, hcongr⟩ :=
    mergePatch_spares_server (⟨rfl, by decide⟩ : sampleService.IsTyped)
      (show sampleLive.lookup "metadata" = some _ from rfl)
  refine ⟨rfl, hstatus, ⟨after, hafter, ?_, ?_⟩, ?_, ?_⟩
  · rw [hmetadata "finalizers" (by decide)]
    rfl
  · rw [hmetadata "uid" (by decide)]
    rfl
  · obtain ⟨kept, hspec, hnames⟩ := hkept ["spec"] _ _ rfl rfl
    exact ⟨kept, hspec, hnames "externalName" (by decide)⟩
  · refine hcongr _ ⟨rfl, by decide⟩ (fun name hname _ => Json.get?_set_of_ne hname _ _) ?_
    decide

end Merged

end Resource

end ClusterKeeper
