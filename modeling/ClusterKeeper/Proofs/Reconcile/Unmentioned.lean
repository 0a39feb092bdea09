import ClusterKeeper.Proofs.Json.Extension
import ClusterKeeper.Proofs.Program.Replay
import ClusterKeeper.Proofs.Reconcile.Idempotence

/-!
Fields of a child that its desired form does not mention, such as defaults that a server fills in.
Outside lists they are left alone. An item of a list that has more than what is wanted of it makes the
whole list be sent again, and the field is lost.
-/

namespace ClusterKeeper

open Memory Reconcile Contention

namespace Reconcile

variable {key : ObjectKey} {desired live : Resource} {raw : Json} {m : Memory} {t : Trace}
  {answers : Except IdentityError Identity → Prop}

/-- The document after a patch for the child. All its lists are the wanted ones; what the child does
not mention is as before, but for the items of lists and the stamps of the store. -/
structure Overlaid (desired : Resource) (before after : Json) : Prop where
  lists : after.KeepsLists desired.body
  kept : ∀ path members name below, desired.body.at? path = some (.obj members) →
    members.lookup name = none →
      after.unstamped.at? (path ++ name :: below) = before.unstamped.at? (path ++ name :: below)

theorem Overlaid.of_unstamped {after : Json} (hr : desired.IsDesired key)
    (hcanonical : raw.isCanonical = true) (hsatisfied : after.satisfies desired.body = true)
    (hsame : after.unstamped = (raw.merge desired.mergePatch).unstamped) :
    Overlaid desired raw after := by
  constructor
  · exact Json.keepsLists_of_satisfies hr.isPlain hsatisfied
  · intro path members name below hpath hname
    rw [hsame, hr.mergePatch, hr.unstamped_merge hcanonical]
    exact Json.at?_merge raw.unstamped below hr.canonical hpath hname

/-- A patch that is sent to an object which is there lays what is wanted over it. -/
theorem meets_sendPatch_of_present (hr : desired.IsDesired key) (hget : m.get? key = some raw)
    (hlive : raw.IsLive key.kind)
    (hchanges : desired.applied (some raw) = (raw.merge desired.mergePatch).unstamped) :
    (sendPatch key desired).Meets (isolated (· = []) answers)
      (fun result t' m' => result = .ok .patched ∧
        t'.writes = .patch key desired.mergePatch :: t.writes ∧
        ∃ after, m'.get? key = some after ∧ Overlaid desired raw after) t m := by
  refine Program.meets_patch fun m₁ hrely reply m₂ hpatch => ?_
  obtain rfl := eq_clearFailures hrely
  have hsofar : StartOrSettled key desired (some raw) (m.clearFailures.get? key) := by
    rw [show m.clearFailures.get? key = some raw from hget]
    exact .untouched
  obtain ⟨patched, after, hreply, hafter, hsettled, -⟩ :=
    patch_startOrSettled hr (failure?_of_nil rfl · _) hlive hchanges hsofar
  rw [hpatch] at hreply hafter
  obtain rfl : reply = .ok patched := hreply
  refine ⟨rfl, rfl, after, hafter, ?_⟩
  exact .of_unstamped hr hlive.canonical hsettled.satisfied (hsettled.same.trans hchanges)

theorem run_createOrPatch_unchanged (hr : desired.IsDesired key) (hget : m.get? key = some raw)
    (hread : readAs key.kind raw = .ok live)
    (hchanges : live.body.patchChanges desired.mergePatch = false)
    (source : Trace → Except IdentityError Identity) :
    let ended := (createOrPatch desired).run (Session.handler source fun _ => []) ⟨m, []⟩
    ended.1 = .ok .unchanged ∧ ended.2.trace.writes = [.create desired] ∧
      ended.2.memory = m.clearFailures := by
  have hmeets : (createOrPatch desired).Meets (isolated (· = []) fun _ => True)
      (fun result t' m' => result = .ok .unchanged ∧ t'.writes = [.create desired] ∧
        m' = m.clearFailures) [] m := by
    refine meets_createOrPatch_of_present hr hget hread ?_
    rw [hchanges]
    exact ⟨rfl, rfl, rfl⟩
  exact hmeets.run source (fun _ => []) ⟨m, []⟩ (fun _ _ => ⟨[], rfl, rfl⟩) fun _ => trivial

/-- An object that the patch would change is patched, which lays what is wanted over it. -/
theorem run_createOrPatch_patched (hr : desired.IsDesired key) (hget : m.get? key = some raw)
    (hcanonical : raw.isCanonical = true) (hunmarked : raw.IsUnmarked)
    (hread : readAs key.kind raw = .ok live)
    (hchanges : live.body.patchChanges desired.mergePatch = true)
    (source : Trace → Except IdentityError Identity) :
    let ended := (createOrPatch desired).run (Session.handler source fun _ => []) ⟨m, []⟩
    ended.1 = .ok .patched ∧
      ended.2.trace.writes = [.patch key desired.mergePatch, .create desired] ∧
      ∃ after, ended.2.memory.get? key = some after ∧ Overlaid desired raw after := by
  have hlive : raw.IsLive key.kind := ⟨hcanonical, ⟨live, hread⟩, hunmarked⟩
  have happlied : desired.applied (some raw) = (raw.merge desired.mergePatch).unstamped := by
    simp only [Resource.applied, hr.kind_eq, hread, hchanges, if_true]
  have hmeets : (createOrPatch desired).Meets (isolated (· = []) fun _ => True)
      (fun result t' m' => result = .ok .patched ∧
        t'.writes = [.patch key desired.mergePatch, .create desired] ∧
        ∃ after, m'.get? key = some after ∧ Overlaid desired raw after) [] m := by
    refine meets_createOrPatch_of_present hr hget hread ?_
    rw [hchanges, if_pos rfl]
    exact (meets_sendPatch_of_present hr hget hlive happlied).mono fun _ _ _ h => h
  exact hmeets.run source (fun _ => []) ⟨m, []⟩ (fun _ _ => ⟨[], rfl, rfl⟩) fun _ => trivial

/-- Of a child whose live form is the wanted one but for fields that are not mentioned, these fields
survive and no patch is sent just if none of them is in an item of a list. Otherwise the lists are
replaced by the wanted ones, and the fields outside of them survive the patch. -/
theorem unmentioned_kept_iff {rawIpfs : Json} {ipfs : Resource} (identity : Identity)
    (defaults : WorkloadDefaults) (child : Child) (hipfs : readAs .ipfs rawIpfs = .ok ipfs)
    (hkey : (((Cluster.ofResource ipfs).children identity defaults).resource child).key = .ok key) :
    let desired := ((Cluster.ofResource ipfs).children identity defaults).resource child
    (∀ live : Json, live.isCanonical = true → live.covers desired.body = true →
      (live.patchChanges desired.mergePatch = false ↔ live.KeepsLists desired.body)) ∧
    ∀ (source : Trace → Except IdentityError Identity) (m : Memory) (raw : Json) (live : Resource),
      m.get? key = some raw → raw.isCanonical = true → readAs key.kind raw = .ok live →
      live.body.covers desired.body = true →
      let ended := (createOrPatch desired).run (Session.handler source fun _ => []) ⟨m, []⟩
      (live.body.KeepsLists desired.body → ended.1 = .ok .unchanged ∧
        ended.2.trace.writes = [.create desired] ∧ ended.2.memory = m.clearFailures) ∧
      (¬ live.body.KeepsLists desired.body → raw.IsUnmarked → ended.1 = .ok .patched ∧
        ended.2.trace.writes = [.patch key desired.mergePatch, .create desired] ∧
        ∃ after, ended.2.memory.get? key = some after ∧ Overlaid desired raw after) := by
  intro desired
  have hr : desired.IsDesired key := Cluster.isDesired_of_key identity defaults child hipfs hkey
  have hneeded (live : Json) (hlive : live.isCanonical = true)
      (hcovers : live.covers desired.body = true) :
      live.patchChanges desired.mergePatch = false ↔ live.KeepsLists desired.body := by
    rw [hr.mergePatch]
    exact Json.patchChanges_eq_false_iff hlive hr.canonical hr.isPlain hcovers
  refine ⟨hneeded, fun source m raw live hget hcanonical hread hcovers => ?_⟩
  intro ended
  have hread' := Schema.isCanonical_of_read (Kind.isRegular_schema (hr.kind_eq ▸ hr.kind)) hcanonical
    (readAs_eq_ok_iff.mp hread).2
  have hchanges := hneeded live.body hread' hcovers
  constructor
  · intro hlists
    exact run_createOrPatch_unchanged hr hget hread (hchanges.mpr hlists) source
  · intro hlists hunmarked
    rw [← hchanges, Bool.not_eq_false] at hlists
    exact run_createOrPatch_patched hr hget hcanonical hunmarked hread hlists source

def declaredService : Resource :=
  ((Cluster.ofResource ⟨.ipfs, .declared⟩).children (.constant 0) .standard).resource .service

/-- The service as a server completes it that gives each of its ports a node port. -/
def completedService : Json :=
  let ports := ((declaredService.body.get "spec").get "ports").items?.getD []
  declaredService.body.merge (.mk [("spec", .mk [
    ("ports", .arr (ports.map fun port => port.set "nodePort" (.int 30000)))])])

/-- A service with node ports is patched, and its ports are then the wanted ones. -/
theorem unmentioned_kept_service :
    let m : Memory :=
      { Memory.declared with objects := [(Child.service.key "default" "ipfs", completedService)] }
    let ended := (createOrPatch declaredService).run
      (Session.handler (fun _ => .ok (.constant 0)) fun _ => []) ⟨m, []⟩
    ended.1 = .ok .patched ∧ ∃ after,
      ended.2.memory.get? (Child.service.key "default" "ipfs") = some after ∧
        Overlaid declaredService completedService after := by
  intro m
  obtain ⟨hneeded, happlied⟩ := unmentioned_kept_iff (.constant 0) .standard .service
    readAs_declared (show declaredService.key = .ok (Child.service.key "default" "ipfs") from rfl)
  have hcanonical : completedService.isCanonical = true := by rfl
  have hcovers : completedService.covers declaredService.body = true := by rfl
  have hlists : ¬ completedService.KeepsLists declaredService.body := by
    intro hlists
    have hchanges : completedService.patchChanges declaredService.mergePatch = true := by rfl
    have hunchanged : completedService.patchChanges declaredService.mergePatch = false :=
      (hneeded completedService hcanonical hcovers).mpr hlists
    cases hchanges.symm.trans hunchanged
  obtain ⟨-, hpatched⟩ := happlied (fun _ => .ok (.constant 0)) m completedService
    ⟨.service, completedService⟩ rfl hcanonical rfl hcovers
  obtain ⟨hresult, -, hafter⟩ := hpatched hlists rfl
  exact ⟨hresult, hafter⟩

end Reconcile

end ClusterKeeper
