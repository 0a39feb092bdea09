import ClusterKeeper.Reconcile.Pass
import ClusterKeeper.Proofs.Manifest.Desired
import ClusterKeeper.Proofs.Metrics.Totals
import ClusterKeeper.Proofs.Program.Trace

/-!
What a pass records. It is counted once, whichever way it takes, and so is whatever makes it fail, ask
to be run again or apply a child.
-/

namespace ClusterKeeper

open Reconcile

namespace Metrics

variable (metrics : Metrics)

/-- What a pass recorded that has an identity, tried to apply so many children and failed at some;
`lost` counts those of them that are Secrets. -/
structure Applying (tried failed lost : Nat) : Prop where
  applies : metrics.total .childApplies [] = tried
  failures : metrics.total .childApplies [("outcome", "failed")] = failed
  secrets : metrics.total .childApplies [("kind", "Secret"), ("outcome", "failed")] = lost
  errors : metrics.total .errors [("operation", "apply")] = failed
  noOther : ∀ operation ≠ "apply", metrics.total .errors [("operation", operation)] = 0
  identity : metrics.total .identities [("source", "generated")] +
    metrics.total .identities [("source", "persisted")] = 1
  noPass : ∀ given, metrics.total .passes given = 0
  noRequeue : ∀ given, metrics.total .requeues given = 0

namespace Applying

variable {metrics : Metrics} {tried failed lost : Nat}

theorem start {source : String} (h : source = "generated" ∨ source = "persisted") :
    (empty.add (.identity source)).Applying 0 0 0 := by
  rcases h with rfl | rfl <;> constructor <;> simp

theorem applied (h : metrics.Applying tried failed lost) (kind : Kind) (outcome : ApplyOutcome) :
    (metrics.add (.childApply kind.name outcome.text)).Applying (tried + 1) failed lost := by
  have houtcome : outcome.text ≠ "failed" := by cases outcome <;> decide
  constructor <;> simp [h.applies, h.failures, h.secrets, h.errors, h.identity, h.noPass,
    h.noRequeue, houtcome.symm]
  exact h.noOther

theorem notApplied (h : metrics.Applying tried failed lost) (kind : Kind) (label : String) :
    ((metrics.add (.childApply kind.name "failed")).add (.failure "apply" label)).Applying (tried + 1)
      (failed + 1) (lost + (kind = .secret : Bool).toNat) := by
  have hkind : "Secret" = kind.name ↔ kind = .secret := by cases kind <;> decide
  constructor <;> simp [h.applies, h.failures, h.secrets, h.errors, h.identity, h.noPass, h.noRequeue,
    hkind]
  · by_cases hsecret : kind = .secret <;> simp [hsecret]
  · intro operation hoperation
    simp [h.noOther operation hoperation, hoperation]

theorem conserved_success (h : metrics.Applying tried 0 lost) (hall : tried + lost = 6)
    (duration : Duration) : (metrics.add (.pass .success duration)).Conserved 1 := by
  constructor <;> simp [h.applies, h.failures, h.secrets, h.errors, h.noOther, h.identity, h.noPass,
    h.noRequeue, length_durations, PassStatus.label, hall]

theorem conserved_requeue (h : metrics.Applying tried failed lost) (hall : tried + lost = 6)
    (hfailed : 0 < failed) (duration : Duration) :
    (metrics.add (.pass (.requeue "child") duration)).Conserved 1 := by
  constructor <;> simp [h.applies, h.failures, h.secrets, h.errors, h.noOther, h.identity, h.noPass,
    h.noRequeue, length_durations, PassStatus.label, hall]
  exact hfailed

end Applying

end Metrics

def Trace.metrics (t : Trace) : Metrics :=
  ⟨t.reports.filterMap fun
    | .recorded record => some record
    | .warned _ => none⟩

namespace Reconcile

section Passes

variable {α β : Type} {t : Trace}

/-- Whatever the program is answered, it ends in `post`, with what was recorded by then. -/
abbrev Records (p : Program α) (post : α → Metrics → Prop) (t : Trace) : Prop :=
  p.Follows (fun _ _ => True) (fun value t' => post value t'.metrics) t

theorem Records.mono {p : Program α} {post post' : α → Metrics → Prop} (h : Records p post t)
    (hpost : ∀ value metrics, post value metrics → post' value metrics) : Records p post' t :=
  Program.Follows.mono h fun value t' _ => hpost value t'.metrics

theorem Records.bind {p : Program α} {f : α → Program β} {post : α → Metrics → Prop}
    {post' : β → Metrics → Prop} (hp : Records p post t)
    (hf : ∀ value t', post value t'.metrics → Records (f value) post' t') :
    Records (p >>= f) post' t :=
  Program.Follows.bind hp fun value t' _ h => hf value t' h

/-- Applying an object records nothing of its own. -/
theorem records_createOrPatch (desired : Resource) :
    Records (createOrPatch desired) (fun _ metrics => metrics = t.metrics) t := by
  rw [createOrPatch]
  cases desired.key with
  | error e => rfl
  | ok key =>
      refine ⟨trivial, fun created => ?_⟩
      rcases created with e | reply
      · cases e with
        | alreadyExists object =>
            refine ⟨trivial, fun found => ?_⟩
            rcases found with e | _ | live
            · rfl
            · rfl
            · cases hchanges : live.body.patchChanges desired.mergePatch with
              | false =>
                  simp only [Program.bind, hchanges, Bool.false_eq_true, if_false]
                  rfl
              | true =>
                  simp only [Program.bind, hchanges, if_true]
                  refine ⟨trivial, fun patched => ?_⟩
                  rcases patched with e | reply <;> rfl
        | _ => rfl
      · rfl

theorem records_storeSecret (desired : Resource) (resolved : ResolvedIdentity) :
    Records (storeSecret desired resolved) (fun _ metrics => metrics = t.metrics) t := by
  cases resolved with
  | persisted identity => exact records_createOrPatch desired
  | fresh identity => exact ⟨trivial, fun created => rfl⟩
  | replacing identity live => exact ⟨trivial, fun updated => rfl⟩

theorem records_finalizer_add (ipfs : Resource) (token : String) :
    Records (Finalizer.add ipfs token) (fun _ metrics => metrics = t.metrics) t := by
  rw [Finalizer.add]
  split
  · rfl
  · exact ⟨trivial, fun _ => rfl⟩

theorem records_finalizer_remove (ipfs : Resource) (token : String) :
    Records (Finalizer.remove ipfs token) (fun _ metrics => metrics = t.metrics) t := by
  rw [Finalizer.remove]
  split
  · exact ⟨trivial, fun _ => rfl⟩
  · rfl

/-- An identity is counted by where it is from; a failure to find one counts nothing. -/
def Identified (before : Metrics) : Except ReconcileError α → Metrics → Prop
  | .ok _, metrics => ∃ source, (source = "generated" ∨ source = "persisted") ∧
    metrics = before.add (.identity source)
  | .error _, metrics => metrics = before

theorem records_generateIdentity {before : Metrics} (h : t.metrics = before) :
    Records generateIdentity (Identified before) t := by
  subst h
  intro answer
  cases answer with
  | error e => rfl
  | ok identity => exact ⟨_, .inl rfl, rfl⟩

theorem records_newIdentity {before : Metrics} (h : t.metrics = before)
    (resolve : Identity → ResolvedIdentity) :
    Records (do
      let generated ← generateIdentity
      pure (generated.map resolve) : Program (Except ReconcileError ResolvedIdentity))
      (Identified before) t :=
  (records_generateIdentity h).bind fun generated _ h => by cases generated <;> exact h

theorem records_resolveIdentity (ns secretName : String) :
    Records (resolveIdentity ns secretName) (Identified t.metrics) t := by
  refine ⟨trivial, fun found => ?_⟩
  rcases found with e | _ | secret
  · rfl
  · refine records_newIdentity ?_ .fresh
    rfl
  · cases hkept : persistedIdentity secret with
    | none =>
        simp only [Program.bind, hkept]
        refine records_newIdentity ?_ (.replacing · secret)
        rfl
    | some kept =>
        cases kept with
        | error e =>
            simp only [Program.bind, hkept]
            refine records_newIdentity ?_ (.replacing · secret)
            rfl
        | ok identity =>
            simp only [Program.bind, hkept]
            exact ⟨_, .inr rfl, rfl⟩

variable {tried failed lost : Nat}

theorem records_recordApply (kind : Kind) (what : String) (result : Except StoreError ApplyOutcome)
    (h : t.metrics.Applying tried failed lost) :
    Records (recordApply kind what result) (fun worked metrics =>
      metrics.Applying (tried + 1) (failed + (!worked).toNat)
        (lost + (!worked && (kind = .secret : Bool)).toNat)) t := by
  cases result with
  | ok outcome => exact h.applied kind outcome
  | error e => exact h.notApplied kind e.label

theorem records_applyChild {desired : Resource} (what : String) (hkind : desired.kind ≠ .secret)
    (h : t.metrics.Applying tried failed lost) :
    Records (applyChild desired what) (fun worked metrics =>
      metrics.Applying (tried + 1) (failed + (!worked).toNat) lost) t := by
  refine (records_createOrPatch desired).bind fun result t' ht' => ?_
  rw [← ht'] at h
  exact (records_recordApply desired.kind what result h).mono fun worked metrics hmetrics => by
    simpa [hkind] using hmetrics

theorem records_applySecret (resolved : ResolvedIdentity) (desired : Resource)
    (h : t.metrics.Applying 0 0 0) :
    Records (applySecret resolved desired) (fun worked metrics =>
      metrics.Applying 1 (!worked).toNat (!worked).toNat) t := by
  refine (records_storeSecret desired resolved).bind fun result t' ht' => ?_
  rw [← ht'] at h
  exact (records_recordApply .secret _ result h).mono fun worked metrics hmetrics => by
    simpa using hmetrics

/-- The config map is tried if the Secret is stored. -/
theorem records_applyConfig {desired : Resource} (stored : Bool) (hkind : desired.kind ≠ .secret)
    (h : t.metrics.Applying tried failed lost) :
    Records (applyConfig stored desired) (fun worked metrics =>
      metrics.Applying (tried + stored.toNat) (failed + (!worked).toNat) lost) t := by
  cases stored with
  | true => exact records_applyChild _ hkind h
  | false => exact h

def Ending.status : Ending → PassStatus
  | .done => .success
  | .requeue reason => .requeue reason.text

/-- Counted under that status, the pass is complete. -/
def Closes (status : PassStatus) (metrics : Metrics) : Prop :=
  (metrics.add (.pass status .zero)).Conserved 1

/-! The passes that apply no child. -/

section Childless

variable {metrics : Metrics}

theorem closes_done (h : metrics = .empty) : Closes .success metrics := by
  subst h
  constructor <;> simp [Metrics.length_durations, PassStatus.label]

theorem closes_unread (h : metrics = .empty) (label : String) :
    Closes .error (metrics.add (.failure "get" label)) := by
  subst h
  constructor <;> simp [Metrics.length_durations, PassStatus.label]

theorem closes_unidentified (h : metrics = .empty) (label : String) :
    Closes (.requeue "identity") (metrics.add (.failure "identity" label)) := by
  subst h
  constructor <;> simp [Metrics.length_durations, PassStatus.label]

theorem closes_adopted (h : metrics = .empty) : Closes (.requeue "finalizer") metrics := by
  subst h
  constructor <;> simp [Metrics.length_durations, PassStatus.label]

theorem closes_unwritten (h : metrics = .empty) (label : String) :
    Closes (.requeue "finalizer") (metrics.add (.failure "finalizer" label)) := by
  subst h
  constructor <;> simp [Metrics.length_durations, PassStatus.label]

end Childless

theorem records_applyChildren {cluster : Cluster} {identity : Identity} {defaults : WorkloadDefaults}
    (resolved : ResolvedIdentity) (h : t.metrics.Applying 0 0 0) :
    Records (applyChildren resolved (cluster.children identity defaults))
      (fun ending => Closes ending.status) t := by
  have hkind (child : Child) (hsecret : child ≠ .secret) :
      ((cluster.children identity defaults).resource child).kind ≠ .secret :=
    Cluster.kind_of_other hsecret
  rw [applyChildren]
  refine (records_applySecret resolved _ h).bind fun secret t₁ h₁ => ?_
  refine (records_applyConfig secret (hkind .config nofun) h₁).bind fun config t₂ h₂ => ?_
  refine (records_applyChild _ (hkind .serviceAccount nofun) h₂).bind fun serviceAccount t₃ h₃ => ?_
  refine (records_applyChild _ (hkind .service nofun) h₃).bind fun service t₄ h₄ => ?_
  refine (records_applyChild _ (hkind .scripts nofun) h₄).bind fun scripts t₅ h₅ => ?_
  refine (records_applyChild _ (hkind .statefulSet nofun) h₅).bind fun statefulSet t₆ h₆ => ?_
  have hall : 1 + secret.toNat + 1 + 1 + 1 + 1 + (!secret).toNat = 6 := by cases secret <;> rfl
  split
  · next hworked =>
      simp only [Bool.and_eq_true] at hworked
      obtain ⟨⟨⟨⟨⟨rfl, rfl⟩, rfl⟩, rfl⟩, rfl⟩, rfl⟩ := hworked
      exact h₆.conserved_success hall .zero
  · next hworked =>
      refine h₆.conserved_requeue hall (Nat.pos_of_ne_zero fun hnone => hworked ?_) .zero
      simpa [Bool.toNat_eq_zero, and_assoc] using hnone

/-- Without an identity, no child is tried. -/
theorem records_converge (defaults : WorkloadDefaults) (ns name : String) (ipfs : Resource)
    (h : t.metrics = .empty) :
    Records (converge defaults ns name ipfs) (fun ending => Closes ending.status) t := by
  refine (records_resolveIdentity ns _).bind fun result t' ht' => ?_
  rw [h] at ht'
  cases result with
  | error e => exact closes_unidentified ht' (identityFailureLabel e)
  | ok resolved =>
      obtain ⟨source, hsource, hmetrics⟩ := ht'
      exact records_applyChildren resolved (hmetrics ▸ .start hsource)

theorem records_adopt (ns name : String) (ipfs : Resource) (h : t.metrics = .empty) :
    Records (adopt ns name ipfs) (fun ending => Closes ending.status) t := by
  refine (records_finalizer_add ipfs finalizerToken).bind fun result t' ht' => ?_
  rw [h] at ht'
  cases result with
  | ok _ => exact closes_adopted ht'
  | error e => exact closes_unwritten ht' e.label

theorem records_release (ns name : String) (ipfs : Resource) (h : t.metrics = .empty) :
    Records (release ns name ipfs) (fun ending => Closes ending.status) t := by
  refine (records_finalizer_remove ipfs finalizerToken).bind fun result t' ht' => ?_
  rw [h] at ht'
  cases result with
  | ok _ => exact closes_done ht'
  | error e => exact closes_unwritten ht' e.label

def status : Except ReconcileError Ending → PassStatus
  | .ok ending => ending.status
  | .error _ => .error

theorem records_pass (defaults : WorkloadDefaults) (ns name : String) :
    Records (pass defaults ns name) (fun result => Closes (status result)) [] := by
  refine ⟨trivial, fun found => ?_⟩
  rcases found with e | _ | ipfs
  · exact closes_unread rfl e.label
  · exact closes_done rfl
  · have hlift {p : Program Ending} {t : Trace}
        (h : Records p (fun ending => Closes ending.status) t) :
        Records (do return .ok (← p)) (fun result => Closes (status result)) t :=
      h.bind fun _ _ hclosed => hclosed
    cases hstate : FinalizerState.observe ipfs finalizerToken <;> simp only [Program.bind, hstate]
    case unmanaged => exact hlift (records_adopt ns name ipfs rfl)
    case managed => exact hlift (records_converge defaults ns name ipfs rfl)
    case terminating => exact hlift (records_release ns name ipfs rfl)
    case released => exact closes_done rfl

/-- What a pass records is that of one complete pass. -/
theorem records_reconcile (defaults : WorkloadDefaults) (ns name : String) :
    Records (reconcile defaults ns name) (fun _ metrics => metrics.Conserved 1) [] := by
  refine (records_pass defaults ns name).bind fun result t hclosed => ?_
  rcases result with e | _ | reason
  · exact hclosed
  · exact hclosed
  · exact hclosed

end Passes

end Reconcile

end ClusterKeeper
