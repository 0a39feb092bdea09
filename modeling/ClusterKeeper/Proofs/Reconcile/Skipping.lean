import ClusterKeeper.Proofs.Reconcile.Unmentioned

/-!
When a patch is skipped. Whether it is needed is decided on the object as it was read, while the store
merges it into the document as it is stored. Reading commutes with merging, so a patch that is skipped
would have changed nothing of the object but its version, and after one that is sent none is needed.
-/

namespace ClusterKeeper

open Memory Reconcile Contention

namespace Resource.IsDesired

variable {key : ObjectKey} {r live found : Resource} {raw : Json}

/-- The patch may be merged into the stored document or into what is read of it. -/
theorem readAs_merge (hr : r.IsDesired key) (hcanonical : raw.isCanonical = true)
    (hread : readAs key.kind raw = .ok live) :
    readAs key.kind (raw.merge r.mergePatch) = .ok ⟨key.kind, live.body.merge r.mergePatch⟩ := by
  have hregular : key.kind.schema.isRegular = true := Kind.isRegular_schema (hr.kind_eq ▸ hr.kind)
  have hwritten : key.kind.schema.IsWritten r.body := hr.kind_eq ▸ hr.written
  rw [hr.mergePatch]
  exact readAs_eq_ok_iff.mpr ⟨rfl,
    Schema.read_merge hregular hcanonical hr.canonical (readAs_eq_ok_iff.mp hread).2 hwritten⟩

/-- If the object does not need the patch, the document with the patch reads as it does without. -/
theorem readAs_merge_of_unchanged (hr : r.IsDesired key) (hcanonical : raw.isCanonical = true)
    (hread : readAs key.kind raw = .ok live)
    (hchanges : live.body.patchChanges r.mergePatch = false) :
    readAs key.kind (raw.merge r.mergePatch) = .ok live := by
  obtain ⟨hkind, hbody⟩ := readAs_eq_ok_iff.mp hread
  have hlive := Schema.isCanonical_of_read (Kind.isRegular_schema (hr.kind_eq ▸ hr.kind)) hcanonical
    hbody
  have hmerge : live.body.merge r.mergePatch = live.body := by
    rw [hr.mergePatch] at hchanges ⊢
    exact Json.merge_of_satisfies hlive hr.canonical hr.isPlain
      (Json.satisfies_of_patchChanges_eq_false hr.canonical hchanges)
  rw [hr.readAs_merge hcanonical hread, hmerge, ← hkind]

/-- The store would answer such a patch with the object under the next version. -/
theorem readAs_patchedDocument_of_unchanged (hr : r.IsDesired key) (m : Memory)
    (hcanonical : raw.isCanonical = true) (hread : readAs key.kind raw = .ok live)
    (hchanges : live.body.patchChanges r.mergePatch = false) :
    readAs key.kind (m.patchedDocument raw r.mergePatch) =
      .ok (live.setMetadata "resourceVersion" (.str (toString (m.versions + 1)))) := by
  obtain ⟨hkind, hbody⟩ := readAs_eq_ok_iff.mp hread
  have hmerged := (readAs_eq_ok_iff.mp
    (hr.readAs_merge_of_unchanged hcanonical hread hchanges)).2
  -- the uid that is put back is the one that was read
  have huid := Kind.read_setMetadataField_same hmerged
    (Schema.field?_metadata_text (show "uid" ∈ Schema.metadataTexts by decide))
    (Kind.outcome_metadata_optional hbody (Schema.field?_metadata_text (by decide)))
  exact readAs_eq_ok_iff.mpr ⟨hkind, Kind.read_setMetadataField huid
    (Schema.field?_metadata_text (show "resourceVersion" ∈ Schema.metadataTexts by decide)) rfl⟩

/-- After the patch was stored no further one is needed. -/
theorem patchChanges_patchedDocument (hr : r.IsDesired key) (m : Memory)
    (hcanonical : raw.isCanonical = true)
    (hread : readAs key.kind (m.patchedDocument raw r.mergePatch) = .ok found) :
    found.body.patchChanges r.mergePatch = false := by
  have hfound := Schema.isCanonical_of_read (Kind.isRegular_schema (hr.kind_eq ▸ hr.kind))
    (hr.isCanonical_patchedDocument m hcanonical) (readAs_eq_ok_iff.mp hread).2
  rw [hr.mergePatch] at hread ⊢
  refine Json.patchChanges_eq_false_of_satisfies hfound hr.canonical ?_
  rw [← hr.mergePatch] at hread
  exact hr.satisfies_of_readAs hread (hr.satisfies_patchedDocument m raw)

end Resource.IsDesired

namespace Reconcile

variable {key : ObjectKey} {r live : Resource} {raw : Json} {m : Memory} {t : Trace}
  {answers : Except IdentityError Identity → Prop}

/-- What the decision of an application rests on: a patch was skipped because the object as it was
read does not need it, or was sent and is not needed any more. -/
structure PatchDecided (key : ObjectKey) (r live : Resource) (m : Memory)
    (result : Except StoreError ApplyOutcome) (m' : Memory) : Prop where
  skipped : result = .ok .unchanged →
    live.body.patchChanges r.mergePatch = false ∧ m'.objects = m.objects
  sent : result = .ok .patched → ∃ found, m'.clearFailures.get key = .ok (some found) ∧
    found.body.patchChanges r.mergePatch = false

theorem PatchDecided.error (key : ObjectKey) (r live : Resource) (m m' : Memory) (e : StoreError) :
    PatchDecided key r live m (.error e) m' :=
  ⟨nofun, nofun⟩

theorem decided_sendPatch (hr : r.IsDesired key) (hget : m.get? key = some raw)
    (hlive : raw.IsLive key.kind) (before : Memory) :
    (sendPatch key r).Meets (isolated (fun _ => True) answers)
      (fun result _ m' => PatchDecided key r live before result m') t m := by
  refine Program.meets_patch fun m₁ hrely reply m₂ hpatch => ?_
  have hget₁ := (get?_of_objects (isolated_rely hrely).1 key).trans hget
  have hcases := m₁.patch_cases key r.mergePatch
  rw [hpatch] at hcases
  rcases hcases with ⟨e, rfl, -⟩ | ⟨stored, patched, m₃, hstored, hread, rfl, hstores, hsettle⟩
  · exact .error _ _ _ _ _ e
  · cases hget₁.symm.trans hstored
    have hunmarked := (hr.carries_patchedDocument m₁ hlive.unmarked).unmarked
    rw [settle_of_unmarked hstores.get?_self hunmarked] at hsettle
    cases hsettle
    refine ⟨nofun, fun _ => ⟨patched, get_of_present rfl hstores.get?_self hread, ?_⟩⟩
    exact hr.patchChanges_patchedDocument m₁ hlive.canonical hread

/-- An application to an object that is there decides by the object as it is read, whatever calls
fail. -/
theorem decided_createOrPatch (hr : r.IsDesired key) (hget : m.get? key = some raw)
    (hlive : raw.IsLive key.kind) (hread : readAs key.kind raw = .ok live) :
    (createOrPatch r).Meets (isolated (fun _ => True) answers)
      (fun result _ m' => PatchDecided key r live m result m') t m := by
  rw [createOrPatch_of_key hr.key]
  refine Program.meets_create fun m₁ hrely₁ reply m₂ hcreate => ?_
  have hsame₁ := (isolated_rely hrely₁).1
  have hcases := m₁.create_cases r
  rw [hcreate] at hcases
  rcases hcases with ⟨e, rfl, hrefused⟩ | ⟨other, created, hkey, hnone, -⟩
  · have hsame₂ := hrefused.objects.trans hsame₁
    cases e with
    | alreadyExists object =>
        refine Program.meets_get fun m₃ hrely₃ => ?_
        have hsame₃ := (isolated_rely hrely₃).1.trans hsame₂
        have hget₃ := (get?_of_objects hsame₃ key).trans hget
        rcases m₃.get_cases key with ⟨e, herror⟩ | ⟨-, hnone⟩ | ⟨stored, found, hstored, hfound, hsome⟩
        · rw [herror]
          exact .error _ _ _ _ _ e
        · rw [hnone]
          exact .error _ _ _ _ _ _
        · cases hget₃.symm.trans hstored
          cases hread.symm.trans hfound
          rw [hsome]
          cases hchanges : live.body.patchChanges r.mergePatch with
          | false =>
              simp only [hchanges]
              exact ⟨fun _ => ⟨hchanges, hsame₃⟩, nofun⟩
          | true =>
              simp only [hchanges, if_true]
              exact decided_sendPatch hr hget₃ hlive m
    | _ => exact .error _ _ _ _ _ _
  · cases hr.key.symm.trans hkey
    cases ((get?_of_objects hsame₁ key).trans hget).symm.trans hnone

/-- Skipping a patch that is not needed comes to the same as sending it. If a child is reported
unchanged, its document with the patch merged into it reads as the object does, and the store would
have answered the patch with the object under the next version; if it is reported patched, it needs no
further patch when it is read again. -/
theorem skipped_patch_idle {rawIpfs : Json} {ipfs : Resource} (identity : Identity)
    (defaults : WorkloadDefaults) (child : Child) (hipfs : readAs .ipfs rawIpfs = .ok ipfs)
    (hkey : (((Cluster.ofResource ipfs).children identity defaults).resource child).key = .ok key)
    (hget : m.get? key = some raw) (hcanonical : raw.isCanonical = true)
    (hread : readAs key.kind raw = .ok live) (hunmarked : raw.IsUnmarked)
    (source : Trace → Except IdentityError Identity) (faults : Trace → List Failure) :
    let desired := ((Cluster.ofResource ipfs).children identity defaults).resource child
    let ended := (createOrPatch desired).run (Session.handler source faults) ⟨m, []⟩
    (ended.1 = .ok .unchanged → ended.2.memory.objects = m.objects ∧
      readAs key.kind (raw.merge desired.mergePatch) = .ok live ∧
      (ended.2.memory.clearFailures.patch key desired.mergePatch).1 =
        .ok (live.setMetadata "resourceVersion" (.str (toString (ended.2.memory.versions + 1))))) ∧
    (ended.1 = .ok .patched → ∃ found,
      ended.2.memory.clearFailures.get key = .ok (some found) ∧
        found.body.patchChanges desired.mergePatch = false) := by
  intro desired ended
  have hr : desired.IsDesired key := Cluster.isDesired_of_key identity defaults child hipfs hkey
  have hmeets : (createOrPatch desired).Meets (isolated (fun _ => True) fun _ => True)
      (fun result _ m' => PatchDecided key desired live m result m') [] m :=
    decided_createOrPatch hr hget ⟨hcanonical, ⟨live, hread⟩, hunmarked⟩ hread
  have hdecided : PatchDecided key desired live m ended.1 ended.2.memory :=
    hmeets.run source faults ⟨m, []⟩ (fun t _ => ⟨faults t, trivial, rfl⟩) fun _ => trivial
  refine ⟨fun hunchanged => ?_, hdecided.sent⟩
  obtain ⟨hchanges, hsame⟩ := hdecided.skipped hunchanged
  refine ⟨hsame, hr.readAs_merge_of_unchanged hcanonical hread hchanges, ?_⟩
  have hstored : ended.2.memory.clearFailures.get? key = some raw :=
    (get?_of_objects hsame key).trans hget
  exact patch_of_present rfl hstored
    (hr.readAs_patchedDocument_of_unchanged _ hcanonical hread hchanges)

/-- The service as it may be stored although it reads as the declared one: no API version, an explicit
null and a member that is not known. -/
def looseService : Json :=
  ((declaredService.body.drop "apiVersion").set "status" .null).set "unknown" (.int 1)

/-- The loose service is left alone, and with the patch it reads as before; one with node ports is
patched, and needs no further patch. -/
theorem skipped_patch_idle_service :
    let key := Child.service.key "default" "ipfs"
    let handler := Session.handler (fun _ => .ok (.constant 0)) fun _ => []
    let ended (stored : Json) := (createOrPatch declaredService).run handler
      ⟨{ Memory.declared with objects := [(key, stored)] }, []⟩
    (ended looseService).1 = .ok .unchanged ∧
      readAs .service (looseService.merge declaredService.mergePatch) =
        .ok ⟨.service, declaredService.body⟩ ∧
      (ended completedService).1 = .ok .patched ∧
      ∃ found, (ended completedService).2.memory.clearFailures.get key = .ok (some found) ∧
        found.body.patchChanges declaredService.mergePatch = false := by
  intro key handler ended
  have hkey : declaredService.key = .ok key := rfl
  have hr : declaredService.IsDesired key :=
    Cluster.isDesired_of_key (.constant 0) .standard .service readAs_declared hkey
  have hloose : readAs .service looseService = .ok ⟨.service, declaredService.body⟩ := by rfl
  have hcompleted : readAs .service completedService = .ok ⟨.service, completedService⟩ := by rfl
  have hcanonical : completedService.isCanonical = true := by rfl
  have hunmarked : completedService.IsUnmarked := rfl
  have hunchanged : (ended looseService).1 = .ok .unchanged :=
    (run_createOrPatch_unchanged hr rfl hloose (by rfl) _).1
  have hpatched : (ended completedService).1 = .ok .patched :=
    (run_createOrPatch_patched hr rfl hcanonical hunmarked hcompleted (by rfl) _).1
  obtain ⟨hskipped, -⟩ := skipped_patch_idle (.constant 0) .standard .service readAs_declared hkey
    (m := { Memory.declared with objects := [(key, looseService)] }) rfl (by rfl) hloose rfl
    (fun _ => .ok (.constant 0)) fun _ => []
  obtain ⟨-, hsent⟩ := skipped_patch_idle (.constant 0) .standard .service readAs_declared hkey
    (m := { Memory.declared with objects := [(key, completedService)] }) rfl hcanonical hcompleted
    hunmarked (fun _ => .ok (.constant 0)) fun _ => []
  exact ⟨hunchanged, (hskipped hunchanged).2.1, hpatched, hsent hpatched⟩

end Reconcile

end ClusterKeeper
