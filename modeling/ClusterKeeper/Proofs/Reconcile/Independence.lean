import Mathlib.Order.CompletePartialOrder
import Mathlib.Data.Set.Lattice
import ClusterKeeper.Proofs.Reconcile.Writes
import ClusterKeeper.Proofs.Store.Collection

/-!
Clusters do not get in each other's way. Their keys are different, and a pass over one of them leaves
all other objects as they are, but for those that belonged to an object of the cluster whose deletion
the pass completes.
-/

namespace ClusterKeeper

open Memory Reconcile

/-- The keys of a cluster: that of its declaration, and those of its six children. -/
def ObjectKey.ofMember (ns name : String) : Option Child → ObjectKey
  | none => ⟨.ipfs, ns, name⟩
  | some child => child.key ns name

/-- Deletion of the object had been requested in the state before, and is complete in the one after. -/
def Memory.Completes (m m' : Memory) (key : ObjectKey) : Prop :=
  (∃ raw, m.get? key = some raw ∧ ¬ raw.IsUnmarked) ∧ m'.get? key = none

/-- The run of a program comes to that call in that state. -/
inductive Program.Reaches {α σ : Type} (h : Handler σ) : Program α → σ → StoreCall → σ → Prop where
  | here {c : StoreCall} {next : c.Reply → Program α} {s : σ} : Reaches h (.call c next) s c s
  | call {c c' : StoreCall} {next : c.Reply → Program α} {s s' : σ}
      (hrest : Reaches h (next (h.perform c s).1) (h.perform c s).2 c' s') :
    Reaches h (.call c next) s c' s'
  | generate {c' : StoreCall} {next : Except IdentityError Identity → Program α} {s s' : σ}
      (hrest : Reaches h (next (h.generate s).1) (h.generate s).2 c' s') :
    Reaches h (.generate next) s c' s'
  | emit {c' : StoreCall} {event : Event} {next : Program α} {s s' : σ}
      (hrest : Reaches h next (h.emit event s) c' s') : Reaches h (.emit event next) s c' s'

/-- The program completes, by one of its writes, the deletion of an object of the cluster, to which the
object of the other key belonged at some remove. -/
def Program.Releases {α : Type} (ns name : String) (h : Handler Session) (p : Program α) (s : Session)
    (other : ObjectKey) : Prop :=
  ∃ c s' member, p.Reaches h s c s' ∧ c.Writes (.ofMember ns name member) ∧
    s'.memory.Completes (h.perform c s').2.memory (.ofMember ns name member) ∧
    Relation.TransGen (Owns s'.memory.objects) (.ofMember ns name member) other

namespace ObjectKey

variable {ns name ns' name' : String} {member member' : Option Child} {key : ObjectKey}

@[simp] theorem ofMember_ns : (ofMember ns name member).ns = ns := by
  rcases member with _ | _ | _ | _ | _ | _ | _ <;> rfl

theorem IsFamily.exists_member (h : key.IsFamily ns name) :
    ∃ member, key = ofMember ns name member := by
  cases h with
  | declaration => exact ⟨none, rfl⟩
  | child child => exact ⟨some child, rfl⟩

/-- A key tells the cluster and the member. -/
theorem eq_of_ofMember_eq (h : ofMember ns name member = ofMember ns' name' member') :
    ns = ns' ∧ name = name' ∧ member = member' := by
  have hcancel (stem : String) : stem ++ name = stem ++ name' ↔ name = name' :=
    String.append_right_inj stem
  have hkinds := Child.scripts_ne_config name name'
  have hkinds' := (Child.scripts_ne_config name' name).symm
  rcases member with _ | _ | _ | _ | _ | _ | _ <;> rcases member' with _ | _ | _ | _ | _ | _ | _ <;>
    simp_all [ofMember, Child.key, ChildNames.ofCluster]

end ObjectKey

namespace Reconcile

variable {ns name : String} {t : Trace} {m : Memory} {c : StoreCall} {key other : ObjectKey}
  {object : Resource}

/-- The call leaves the object of the other key alone, or completes a deletion that it goes with. -/
def Spares (c : StoreCall) (m m' : Memory) (other : ObjectKey) : Prop :=
  m'.get? other = m.get? other ∨ m'.get? other = none ∧ ∃ key, c.Writes key ∧ m.Completes m' key ∧
    Relation.TransGen (Owns m.objects) key other

/-- A document that is stored in the place of another, with its uid and its deletion mark. -/
theorem Spares.of_stores {m₁ : Memory} {raw live : Json} (hwrites : c.Writes key)
    (h : Stores m key raw m₁) (hlive : m.get? key = some live)
    (huid : raw.metadataField "uid" = live.metadataField "uid")
    (hmark : raw.metadataField "deletionTimestamp" = live.metadataField "deletionTimestamp")
    (hne : other ≠ key) : Spares c m (m₁.settle key) other := by
  refine (h.settle_get?_of_ne hlive huid hne).imp_right fun ⟨hother, hgone, howns⟩ => ?_
  refine ⟨hother, key, hwrites, ⟨⟨live, hlive, fun hunmarked => ?_⟩, hgone⟩, howns⟩
  rw [settle_of_unmarked h.get?_self (hmark.trans hunmarked), h.get?_self] at hgone
  cases hgone

theorem Spares.of_refuses {m' : Memory} (h : Refuses m m') : Spares c m m' other :=
  .inl (h.get? other)

theorem spares_update (hne : ∀ key, object.key = .ok key → other ≠ key) :
    Spares (.update object) m (m.update object).2 other := by
  rcases m.update_cases object with ⟨-, -, h⟩ | ⟨key, live, -, m₁, hkey, hget, -, -, -, h, hsettle⟩
  · exact .of_refuses h
  · rw [hsettle]
    exact .of_stores (.update hkey) h hget (uid_replacedDocument m live object)
      (mark_replacedDocument m live object) (hne key hkey)

theorem spares_create (hne : ∀ key, object.key = .ok key → other ≠ key) :
    Spares (.create object) m (m.create object).2 other := by
  rcases m.create_cases object with ⟨-, -, h⟩ | ⟨key, -, hkey, -, -, -, h⟩
  · exact .of_refuses h
  · exact .inl (h.get?_of_ne (hne key hkey))

theorem spares_patch (hr : object.IsDesired key) (hne : other ≠ key) :
    Spares (.patch key object.mergePatch) m (m.patch key object.mergePatch).2 other := by
  rcases m.patch_cases key object.mergePatch with ⟨-, -, h⟩ | ⟨live, -, m₁, hget, -, -, h, hsettle⟩
  · exact .of_refuses h
  · rw [hsettle]
    exact .of_stores .patch h hget (uid_patchedDocument m live _) (hr.mark_patchedDocument m live) hne

theorem Sends.spares (hshows : ∀ act ∈ t, act.Shows) (h : Sends ns name t c)
    (hother : ¬ c.Writes other) : Spares c m (perform c m).2 other := by
  have hne {key : ObjectKey} (hwrites : c.Writes key) : other ≠ key := by
    rintro rfl
    exact hother hwrites
  cases h with
  | read => exact .inl rfl
  | adopt | release | replace => exact spares_update fun key hkey => hne (.update hkey)
  | create => exact spares_create fun key hkey => hne (.create hkey)
  | patch identity defaults child hipfs =>
      exact spares_patch (hipfs.isDesired hshows identity defaults child) (hne .patch)

/-- A program that makes the calls of a pass leaves an object that is not of the cluster alone, or
releases it. -/
theorem get?_of_follows {α : Type} {p : Program α} {post : α → Trace → Prop}
    (source : Trace → Except IdentityError Identity) (faults : Trace → List Failure) {s : Session}
    (h : p.Follows (Makes ns name) post s.trace) (hnamed : s.memory.Named)
    (hshows : ∀ act ∈ s.trace, act.Shows) (hother : ¬ other.IsFamily ns name) :
    (p.run (Session.handler source faults) s).2.memory.get? other = s.memory.get? other ∨
      (p.run (Session.handler source faults) s).2.memory.get? other = none ∧
        p.Releases ns name (Session.handler source faults) s other := by
  induction p generalizing s with
  | done value => exact .inl rfl
  | call c next ih =>
      obtain ⟨hmakes, hrest⟩ := h
      have hsends := hmakes.sends hshows
      have hnamed' : ({ s.memory with failures := faults s.trace } : Memory).Named := hnamed
      have hlater := ih _ (s := ((Session.handler source faults).perform c s).2) (hrest _)
        (hsends.named hshows hnamed')
        (List.forall_mem_cons.mpr ⟨shows_called hnamed' c, hshows⟩)
      -- a later call may release the object, or else this one, or none does
      rcases hlater with hkept | ⟨hgone, c', s', member, hreaches, hreleases⟩
      · have hwrites : ¬ c.Writes other := fun hwrites => hother (hsends.isFamily hshows hwrites)
        rcases hsends.spares (m := { s.memory with failures := faults s.trace }) hshows hwrites with
          hspared | ⟨hgone, key, hwrites, hcompletes, howns⟩
        · exact .inl (hkept.trans hspared)
        · obtain ⟨member, rfl⟩ := (hsends.isFamily hshows hwrites).exists_member
          exact .inr ⟨hkept.trans hgone, c, s, member, .here, hwrites, hcompletes, howns⟩
      · exact .inr ⟨hgone, c', s', member, .call hreaches, hreleases⟩
  | generate next ih =>
      have hshows' : ∀ act ∈ Act.drew (source s.trace) :: s.trace, act.Shows :=
        List.forall_mem_cons.mpr ⟨fun _ _ => Act.noConfusion, hshows⟩
      have hlater := ih _ (s := ((Session.handler source faults).generate s).2) (h _) hnamed hshows'
      refine hlater.imp_right ?_
      rintro ⟨hgone, c', s', member, hreaches, hreleases⟩
      exact ⟨hgone, c', s', member, .generate hreaches, hreleases⟩
  | emit event next ih =>
      have hshows' : ∀ act ∈ Act.reported event :: s.trace, act.Shows :=
        List.forall_mem_cons.mpr ⟨fun _ _ => Act.noConfusion, hshows⟩
      have hlater := ih (s := (Session.handler source faults).emit event s) h hnamed hshows'
      refine hlater.imp_right ?_
      rintro ⟨hgone, c', s', member, hreaches, hreleases⟩
      exact ⟨hgone, c', s', member, .emit hreaches, hreleases⟩

/-- Clusters share no keys, and a pass over one of them leaves all other objects as they are, but for
those that go with an object of the cluster. -/
theorem clusters_independent :
    (∀ ns name, Function.Injective (ObjectKey.ofMember ns name)) ∧
    (∀ ns name ns' name', (ns, name) ≠ (ns', name') →
      Disjoint (Set.range (ObjectKey.ofMember ns name)) (Set.range (ObjectKey.ofMember ns' name'))) ∧
    ∀ (defaults : WorkloadDefaults) (ns name : String)
      (source : Trace → Except IdentityError Identity) (faults : Trace → List Failure) (m : Memory)
      (other : ObjectKey), m.Named → other ∉ Set.range (ObjectKey.ofMember ns name) →
      let handler := Session.handler source faults
      let ended := ((reconcile defaults ns name).run handler ⟨m, []⟩).2.memory
      ended.get? other = m.get? other ∨
        ended.get? other = none ∧
          (reconcile defaults ns name).Releases ns name handler ⟨m, []⟩ other := by
  refine ⟨fun ns name member member' h => ?_, fun ns name ns' name' hne => ?_, ?_⟩
  · exact (ObjectKey.eq_of_ofMember_eq h).2.2
  · refine Set.disjoint_left.mpr ?_
    rintro _ ⟨member, rfl⟩ ⟨member', heq⟩
    obtain ⟨rfl, rfl, -⟩ := ObjectKey.eq_of_ofMember_eq heq
    exact hne rfl
  · intro defaults ns name source faults m other hnamed hother
    refine get?_of_follows source faults (follows_reconcile defaults ns name) hnamed
      (fun _ hact => absurd hact List.not_mem_nil) fun h => ?_
    obtain ⟨member, rfl⟩ := h.exists_member
    exact hother ⟨member, rfl⟩

def leaving : Resource :=
  ⟨.ipfs, Json.declared.setMetadataField "deletionTimestamp" (.str "2025-01-01T00:00:00Z")⟩

def strayKey : ObjectKey := ⟨.configMap, "elsewhere", "stray"⟩

def stray : Json :=
  .obj [("metadata", .obj [("name", .str "stray"), ("namespace", .str "elsewhere"),
    ("ownerReferences", .arr [.obj [("uid", .str "uid-1")]])])]

/-- A store with just these two. -/
def departing : Memory :=
  ⟨[(strayKey, stray), (⟨.ipfs, "default", "ipfs"⟩, leaving.body)], 2, 1, [], []⟩

theorem named_departing : departing.Named := by
  intro key raw hraw
  have hentry : (key, raw) ∈ departing.objects := Keyed.mem_of_lookup hraw
  rcases List.mem_cons.mp hentry with heq | hlast
  · cases heq
    exact ⟨rfl, rfl⟩
  · cases List.mem_singleton.mp hlast
    exact ⟨rfl, rfl⟩

/-- The declaration is let go, and what it owned goes with it. -/
theorem get?_strayKey_of_release :
    (departing.update (leaving.withoutFinalizer finalizerToken)).2.get? strayKey = none := by
  have hkey : (leaving.withoutFinalizer finalizerToken).key = .ok ⟨.ipfs, "default", "ipfs"⟩ := rfl
  have hreply : (departing.update (leaving.withoutFinalizer finalizerToken)).1.isOk = true := rfl
  rcases departing.update_cases (leaving.withoutFinalizer finalizerToken) with
    ⟨e, herror, -⟩ | ⟨key, live, reply, m', hkey', hget, -, -, -, h, hsettle⟩
  · rw [herror] at hreply
    cases hreply
  · cases hkey.symm.trans hkey'
    obtain rfl : leaving.body = live := Option.some.inj hget
    have hstray : strayKey ∈ dependents (Keyed.erase ⟨.ipfs, "default", "ipfs"⟩ m'.objects)
        (departing.replacedDocument leaving.body (leaving.withoutFinalizer finalizerToken)) := by
      rw [h.objects]
      exact mem_dependents.mpr ⟨stray, "uid-1", rfl, by decide, rfl⟩
    rw [hsettle, Memory.get?, settle_of_released h.get?_self rfl, collect_cons_of_some h.get?_self]
    exact lookup_collect_of_mem (List.mem_append_left _ hstray)

/-- With the declaration that a pass lets go, what it owned goes as well. -/
theorem clusters_independent_departing :
    departing.Named ∧ strayKey ∉ Set.range (ObjectKey.ofMember "default" "ipfs") ∧
    departing.get? strayKey = some stray ∧
    (reconcile .standard "default" "ipfs").Releases "default" "ipfs"
      (Session.handler (fun _ => .ok (.constant 0)) fun _ => []) ⟨departing, []⟩ strayKey := by
  have hother : strayKey ∉ Set.range (ObjectKey.ofMember "default" "ipfs") := by
    rintro ⟨member, h⟩
    have hns := congrArg ObjectKey.ns h
    rw [ObjectKey.ofMember_ns] at hns
    exact absurd hns (by decide)
  have hgone : ((reconcile .standard "default" "ipfs").run
      (Session.handler (fun _ => .ok (.constant 0)) fun _ => []) ⟨departing, []⟩).2.memory.get?
        strayKey = none := get?_strayKey_of_release
  refine ⟨named_departing, hother, rfl, ?_⟩
  rcases clusters_independent.2.2 .standard "default" "ipfs" (fun _ => .ok (.constant 0))
    (fun _ => []) departing _ named_departing hother with hkept | ⟨-, hreleases⟩
  · cases hkept.symm.trans hgone
  · exact hreleases

end Reconcile

end ClusterKeeper
