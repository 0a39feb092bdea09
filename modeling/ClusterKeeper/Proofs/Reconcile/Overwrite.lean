import ClusterKeeper.Proofs.Reconcile.Reads
import ClusterKeeper.Proofs.Reconcile.Turns

/-!
What a pass can do to an identity that a Secret keeps when the pass writes it. Creations and updates
leave it alone, even if the Secret was lost or changed in the meantime; the patch of a pass that read
another identity before puts that one back.
-/

namespace ClusterKeeper

open Memory Reconcile

namespace Reconcile

variable {ns name : String} {t : Trace} {m : Memory} {c : StoreCall} {key : ObjectKey}
  {desired secret : Resource} {identity kept : Identity} {raw : Json}

/-- An accepted patch with what is wanted for an identity leaves that identity. -/
theorem identity?_of_patch {cluster : Cluster} {reply : Resource}
    (hr : (cluster.secret identity).resource.IsDesired key) (husable : identity.IsUsable)
    (hreply : (m.patch key (cluster.secret identity).resource.mergePatch).1 = .ok reply)
    (hraw : (m.patch key (cluster.secret identity).resource.mergePatch).2.get? key = some raw) :
    raw.identity? = some identity := by
  rcases m.patch_cases key (cluster.secret identity).resource.mergePatch with
    ⟨e, herror, -⟩ | ⟨live, read, m', -, hread, -, hstores, hsettle⟩
  · rw [hreply] at herror
    cases herror
  · rw [hsettle] at hraw
    have hfound := settle_get?_imp hraw
    rw [hstores.get?_self] at hfound
    cases hfound
    exact Json.identity?_of_satisfies hr husable hread (hr.satisfies_patchedDocument m live)

/-- The patch by which a pass brings back the identity that it read in the Secret before. -/
def PutsBack (ns name : String) (t : Trace) (key : ObjectKey) (patch : Json)
    (identity : Identity) : Prop :=
  ∃ ipfs secret, ReadDeclaration ns name t ipfs .managed ∧ ReadSecret ns name t (some secret) ∧
    persistedIdentity secret = some (.ok identity) ∧
    ((Cluster.ofResource ipfs).secret identity).resource.key = .ok key ∧
    patch = ((Cluster.ofResource ipfs).secret identity).resource.mergePatch

theorem identity?_of_putsBack {patch : Json} {reply : Resource}
    (hreads : ∀ act ∈ t, Reads ns name act m) (h : PutsBack ns name t key patch identity)
    (hreply : (m.patch key patch).1 = .ok reply)
    (hraw : (m.patch key patch).2.get? key = some raw) : raw.identity? = some identity := by
  obtain ⟨ipfs, secret, hipfs, -, hkept, hkey, rfl⟩ := h
  obtain ⟨_, hread⟩ := (hreads _ hipfs.1).declaration ipfs rfl
  have hr := Cluster.isDesired_of_key identity .standard .secret hread hkey
  exact identity?_of_patch hr (isUsable_of_persistedIdentity hkept) hreply hraw

theorem refuses_create {object : Resource} (hkey : object.key = .ok key)
    (hget : m.get? key = some raw) : Refuses m (m.create object).2 := by
  rcases m.create_cases object with ⟨-, -, hrefused⟩ | ⟨found, -, hfound, hnone, -, -, -⟩
  · exact hrefused
  · cases hkey.symm.trans hfound
    rw [hget] at hnone
    cases hnone

/-- What a pass read as unusable is not replaced once it is an identity. -/
theorem refuses_update {live : Resource} {other : ObjectKey} (hread : ReadBefore key live m)
    (hunusable : ∀ identity, persistedIdentity live ≠ some (.ok identity))
    (hkey : (replacementSecret live desired).key = .ok other)
    (hget : m.get? other = some raw) (hkept : raw.identity? = some kept) :
    Refuses m (m.update (replacementSecret live desired)).2 := by
  rcases m.update_cases (replacementSecret live desired) with
    ⟨-, -, hrefused⟩ | ⟨found, stored, -, -, hfound, hstored, hstale, -, -, -, -⟩
  · exact hrefused
  · cases hkey.symm.trans hfound
    cases hget.symm.trans hstored
    obtain ⟨-, hreadas⟩ := hread.of_not_stale hget hstale
    exact absurd ((Json.identity?_eq_some_iff hreadas).mp hkept) (hunusable kept)

/-- A call that loses the identity of a Secret is an accepted patch of an identity read before: it
puts back another one, or it completes the deletion of the Secret. -/
theorem exists_putsBack_of_loses (hreads : ∀ act ∈ t, Reads ns name act m)
    (hmakes : Makes ns name t c) (hwrites : c.Writes key) (hkind : key.kind = .secret)
    (hkept : m.identity? key = some kept) (hlost : (perform c m).2.identity? key ≠ some kept) :
    ∃ identity patch reply, c = .patch key patch ∧ PutsBack ns name t key patch identity ∧
      (m.patch key patch).1 = .ok reply ∧
      (identity ≠ kept ∨ (m.patch key patch).2.get? key = none) := by
  obtain ⟨stored, hstored, hidentity⟩ := exists_of_identity? hkept
  have haccepted : ¬ Refuses m (perform c m).2 := fun h =>
    hlost ((identity?_congr (h.get? key)).trans hkept)
  obtain ⟨ipfs, resolved, hipfs, hresolved, hstores⟩ := hmakes.storesSecret hwrites hkind hreads
  cases hstores with
  | fresh =>
      cases hwrites with
      | create hkey => exact absurd (refuses_create hkey hstored) haccepted
  | replacing =>
      cases hwrites with
      | update hkey =>
          cases hresolved with
          | replacing hread hunusable =>
              have hbefore := (hreads _ hread).secret _ rfl
              exact absurd (refuses_update hbefore hunusable hkey hstored hidentity) haccepted
  | @persisted identity _ happlies =>
      cases happlies with
      | create =>
          cases hwrites with
          | create hkey => exact absurd (refuses_create hkey hstored) haccepted
      | get => nomatch hwrites
      | patch hkey =>
          cases hwrites
          cases hresolved with
          | @persisted secret _ hread hpersisted =>
              have hputs : PutsBack ns name t key _ identity :=
                ⟨ipfs, secret, hipfs, hread, hpersisted, hkey, rfl⟩
              rcases m.patch_cases key ((Cluster.ofResource ipfs).secret identity).resource.mergePatch
                with ⟨-, -, hrefused⟩ | ⟨-, reply, -, -, -, hreply, -, -⟩
              · exact absurd hrefused haccepted
              · refine ⟨identity, _, reply, rfl, hputs, hreply, ?_⟩
                refine (Classical.em _).symm.imp_left fun hpresent heq => ?_
                obtain ⟨raw, hraw⟩ := Option.ne_none_iff_exists'.mp hpresent
                subst heq
                have hputback := identity?_of_putsBack hreads hputs hreply hraw
                exact hlost ((identity?_of_get? hraw).trans hputback)

/-- Of all calls that write a Secret with an identity, just such patches lose it. -/
theorem loses_iff (hreads : ∀ act ∈ t, Reads ns name act m) (hmakes : Makes ns name t c)
    (hwrites : c.Writes key) (hkind : key.kind = .secret) (hkept : m.identity? key = some kept) :
    (perform c m).2.identity? key ≠ some kept ↔
      ∃ identity patch reply, c = .patch key patch ∧ PutsBack ns name t key patch identity ∧
        (m.patch key patch).1 = .ok reply ∧
        (identity ≠ kept ∨ (m.patch key patch).2.get? key = none) := by
  refine ⟨exists_putsBack_of_loses hreads hmakes hwrites hkind hkept, ?_⟩
  rintro ⟨identity, patch, reply, rfl, hputs, hreply, hother⟩ hsame
  obtain ⟨raw, hraw, hraw'⟩ := exists_of_identity? hsame
  have hputback := identity?_of_putsBack hreads hputs hreply hraw
  rcases hother with hne | hgone
  · exact hne (Option.some.inj (hputback.symm.trans hraw'))
  · cases hgone.symm.trans hraw

/-- Anything may happen to the store, and an identity source may answer with anything. -/
def disturbed : Surroundings := ⟨Edit, fun _ => True⟩

def unguarded (ns name : String) : Protocol ns name disturbed where
  inv := Versioned
  keeps := Since
  tells := Reads ns name
  refl := .refl
  trans := .trans
  stable := fun hsince h => h.since hsince
  call := fun hversioned _ _ =>
    ⟨⟨hversioned.perform _, since_perform _ _⟩, reads_called hversioned ns name _⟩
  drew := fun _ _ => ⟨nofun, nofun⟩
  reported := fun _ _ => ⟨nofun, nofun⟩
  edit := fun hedit hversioned => hedit.versioned_since hversioned

/-- However passes interleave and whatever happens to the store between their calls: a pass that
writes a Secret with an identity loses the identity just if the write is an accepted patch of an
identity that the pass read before, and that is another one or the Secret goes with it. -/
theorem identity_lost_iff {w : World} {thread : Thread} {next : c.Reply → Program _}
    (hrun : Relation.ReflTransGen (World.Step ns name disturbed) ⟨.empty, []⟩ w)
    (hthread : thread ∈ w.threads) (hcall : thread.rest = .call c next) (hwrites : c.Writes key)
    (hkind : key.kind = .secret) (hkept : w.memory.identity? key = some kept) :
    (perform c w.memory).2.identity? key ≠ some kept ↔
      ∃ identity patch reply, c = .patch key patch ∧
        PutsBack ns name thread.trace key patch identity ∧
        (w.memory.patch key patch).1 = .ok reply ∧
        (identity ≠ kept ∨ (w.memory.patch key patch).2.get? key = none) := by
  have hstart : (unguarded ns name).WorldInvariant ⟨.empty, []⟩ := ⟨versioned_empty, nofun⟩
  obtain ⟨hfollows, htells⟩ := (hstart.run hrun).1.threads thread hthread
  rw [hcall] at hfollows
  exact loses_iff htells hfollows.1 hwrites hkind hkept

section Overtaken

def patch? : Task (Except ReconcileError Outcome) → Option (ObjectKey × Json)
  | .waiting (.patch key patch) _ => some (key, patch)
  | _ => none

theorem exists_of_patch? {task : Task (Except ReconcileError Outcome)} {patch : Json}
    (h : patch? task = some (key, patch)) : ∃ next, task.rest = .call (.patch key patch) next := by
  rcases task with _ | ⟨_ | _ | _ | _, next⟩ | _
  · cases h
  · cases h
  · cases h
  · cases h
    exact ⟨next, rfl⟩
  · cases h
  · cases h

/-- Passes that take turns by a schedule and, after an object was lost and created again, by
another. -/
theorem exists_run_recreated {schedule later : List Nat} {e : Engine} {object : Resource}
    {first second : List (Task (Except ReconcileError Outcome)) × Engine}
    (hfirst : Task.turns Engine.handler schedule
      [.ready (reconcile .standard ns name)] e = first)
    (hsecond : Task.turns Engine.handler later first.1
      { first.2 with memory := ((first.2.memory.remove key).create object).2 } = second) :
    ∃ w, Relation.ReflTransGen (World.Step ns name disturbed) ⟨e.memory, []⟩ w ∧
      w.memory = second.2.memory ∧ w.threads.map Thread.rest = second.1.map Task.rest := by
  have hanswers (source : IdentitySource) : disturbed.answers source.next.1 := trivial
  have hrecreated : Relation.ReflTransGen disturbed.rely first.2.memory
      ((first.2.memory.remove key).create object).2 :=
    .tail (.single (.remove key)) (.call (.create object))
  obtain ⟨_, w, hrun, hrun', -, hw, hrest⟩ :=
    Task.exists_run_schedules ns name hanswers [.standard] schedule e hfirst hrecreated hsecond
  exact ⟨w, hrun.trans hrun', hw, hrest⟩

def sampleSecret (byte : UInt8) : Resource :=
  ((Cluster.ofResource ⟨.ipfs, .declared⟩).secret (.constant byte)).resource

/-- A pass that has just read the Secret of one identity. -/
def overtakenRead : List (Task (Except ReconcileError Outcome)) × Engine :=
  Task.turns Engine.handler [0, 0, 0] [.ready (reconcile .standard "default" "ipfs")]
    { Engine.start .failing .standard with memory := (declared.create (sampleSecret 0)).2 }

/-- The Secret was lost and created again for another identity, and the pass is about to patch it. -/
def overtakenPatch : List (Task (Except ReconcileError Outcome)) × Engine :=
  Task.turns Engine.handler [0, 0] overtakenRead.1
    { overtakenRead.2 with
      memory := ((overtakenRead.2.memory.remove (Child.secret.key "default" "ipfs")).create
        (sampleSecret 1)).2 }

theorem overtakenPatch_spec : overtakenPatch.1.map patch? =
      [some (Child.secret.key "default" "ipfs", (sampleSecret 0).mergePatch)] ∧
    overtakenPatch.2.memory.identity? (Child.secret.key "default" "ipfs") = some (.constant 1) ∧
    (perform (.patch (Child.secret.key "default" "ipfs") (sampleSecret 0).mergePatch)
      overtakenPatch.2.memory).2.identity? (Child.secret.key "default" "ipfs") =
        some (.constant 0) := by
  decide +kernel

/-- The pass puts back the identity that it read, over the one that was stored since. -/
theorem identity_lost_overtaken : ∃ w : World, ∃ thread ∈ w.threads, ∃ patch next identity,
    Relation.ReflTransGen (World.Step "default" "ipfs" disturbed) ⟨.empty, []⟩ w ∧
    thread.rest = .call (.patch (Child.secret.key "default" "ipfs") patch) next ∧
    w.memory.identity? (Child.secret.key "default" "ipfs") = some (.constant 1) ∧
    (perform (.patch (Child.secret.key "default" "ipfs") patch) w.memory).2.identity?
      (Child.secret.key "default" "ipfs") ≠ some (.constant 1) ∧
    PutsBack "default" "ipfs" thread.trace (Child.secret.key "default" "ipfs") patch identity ∧
    identity ≠ .constant 1 := by
  have hcreated : Relation.ReflTransGen (World.Step "default" "ipfs" disturbed) ⟨.empty, []⟩
      ⟨(declared.create (sampleSecret 0)).2, []⟩ :=
    .tail (.single (.outside (.call (.create ⟨.ipfs, .declared⟩))))
      (.outside (.call (.create (sampleSecret 0))))
  obtain ⟨w, hread, hw, hrest⟩ :=
    exists_run_recreated (show _ = overtakenRead from rfl) (show _ = overtakenPatch from rfl)
  obtain ⟨hpending, hkept, hafter⟩ := overtakenPatch_spec
  rw [← hw] at hkept hafter
  obtain ⟨task, htasks, hpatch⟩ := List.map_eq_singleton_iff.mp hpending
  rw [htasks] at hrest
  obtain ⟨thread, hthreads, hthread⟩ := List.map_eq_singleton_iff.mp hrest
  obtain ⟨next, hnext⟩ := exists_of_patch? hpatch
  have hmem : thread ∈ w.threads := hthreads ▸ List.mem_singleton_self thread
  have hrun := hcreated.trans hread
  have hlost : (perform (.patch (Child.secret.key "default" "ipfs") (sampleSecret 0).mergePatch)
      w.memory).2.identity? (Child.secret.key "default" "ipfs") ≠ some (.constant 1) := by
    rw [hafter]
    exact fun h => absurd (congrArg Identity.clusterSecret (Option.some.inj h)) (by decide)
  obtain ⟨identity, patch, reply, hcall, hputs, -, hother⟩ :=
    (identity_lost_iff hrun hmem (hthread.trans hnext) .patch rfl hkept).mp hlost
  cases hcall
  refine ⟨w, thread, hmem, _, next, identity, hrun, hthread.trans hnext, hkept, hlost, hputs, ?_⟩
  refine hother.resolve_right fun hgone => ?_
  rw [perform, identity?, hgone] at hafter
  cases hafter

end Overtaken

end Reconcile

end ClusterKeeper
