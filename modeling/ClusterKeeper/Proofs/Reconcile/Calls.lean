import ClusterKeeper.Reconcile.Pass
import ClusterKeeper.Proofs.Manifest.Desired
import ClusterKeeper.Proofs.Program.Trace

/-!
The calls that a pass makes, as they follow from what it did before. Every write of a child is there
because the pass read the declaration and found or drew an identity, and the config map is touched
only once the Secret is stored.
-/

namespace ClusterKeeper.Reconcile

open Program

def ReadDeclaration (ns name : String) (t : Trace) (ipfs : Resource) (state : FinalizerState) : Prop :=
  .called (.get ⟨.ipfs, ns, name⟩) (Except.ok (some ipfs)) ∈ t ∧
    FinalizerState.observe ipfs finalizerToken = state

def ReadSecret (ns name : String) (t : Trace) (found : Option Resource) : Prop :=
  .called (.get (Child.secret.key ns name)) (Except.ok found) ∈ t

inductive Resolved (ns name : String) (t : Trace) : ResolvedIdentity → Prop where
  | persisted {secret : Resource} {identity : Identity} (hread : ReadSecret ns name t (some secret))
      (h : persistedIdentity secret = some (.ok identity)) : Resolved ns name t (.persisted identity)
  | fresh {identity : Identity} (hread : ReadSecret ns name t none)
      (h : .drew (.ok identity) ∈ t) : Resolved ns name t (.fresh identity)
  | replacing {secret : Resource} {identity : Identity}
      (hread : ReadSecret ns name t (some secret))
      (hunusable : ∀ kept, persistedIdentity secret ≠ some (.ok kept))
      (h : .drew (.ok identity) ∈ t) : Resolved ns name t (.replacing identity secret)

inductive Applies (desired : Resource) : StoreCall → Prop where
  | create : Applies desired (.create desired)
  | get {key : ObjectKey} (hkey : desired.key = .ok key) : Applies desired (.get key)
  | patch {key : ObjectKey} (hkey : desired.key = .ok key) :
    Applies desired (.patch key desired.mergePatch)

inductive StoresSecret (desired : Resource) : ResolvedIdentity → StoreCall → Prop where
  | persisted {identity : Identity} {c : StoreCall} (h : Applies desired c) :
    StoresSecret desired (.persisted identity) c
  | fresh {identity : Identity} : StoresSecret desired (.fresh identity) (.create desired)
  | replacing {identity : Identity} {live : Resource} :
    StoresSecret desired (.replacing identity live) (.update (replacementSecret live desired))

/-- The object was created or patched, or found to have all that is wanted. -/
inductive Applied (t : Trace) (desired : Resource) : Prop where
  | created {reply : Resource} (h : .called (.create desired) (Except.ok reply) ∈ t)
  | patched {key : ObjectKey} {reply : Resource} (hkey : desired.key = .ok key)
      (h : .called (.patch key desired.mergePatch) (Except.ok reply) ∈ t)
  | unchanged {key : ObjectKey} {live : Resource} (hkey : desired.key = .ok key)
      (h : .called (.get key) (Except.ok (some live)) ∈ t)
      (hlive : live.body.patchChanges desired.mergePatch = false)

inductive Stored (t : Trace) (desired : Resource) : ResolvedIdentity → Prop where
  | persisted {identity : Identity} (h : Applied t desired) : Stored t desired (.persisted identity)
  | fresh {identity : Identity} {reply : Resource}
      (h : .called (.create desired) (Except.ok reply) ∈ t) : Stored t desired (.fresh identity)
  | replacing {identity : Identity} {live reply : Resource}
      (h : .called (.update (replacementSecret live desired)) (Except.ok reply) ∈ t) :
    Stored t desired (.replacing identity live)

/-- What a pass over the declaration of that namespace and name may call after what it did. The
declaration is read once, before all else. -/
inductive Makes (ns name : String) (t : Trace) : StoreCall → Prop where
  | readDeclaration (hfirst : t = []) : Makes ns name t (.get ⟨.ipfs, ns, name⟩)
  | adopt {ipfs : Resource} (hipfs : ReadDeclaration ns name t ipfs .unmanaged) :
    Makes ns name t (.update (ipfs.withFinalizer finalizerToken))
  | release {ipfs : Resource} (hipfs : ReadDeclaration ns name t ipfs .terminating) :
    Makes ns name t (.update (ipfs.withoutFinalizer finalizerToken))
  | readSecret : Makes ns name t (.get (Child.secret.key ns name))
  | secret {ipfs : Resource} {resolved : ResolvedIdentity} {c : StoreCall}
      (hipfs : ReadDeclaration ns name t ipfs .managed) (hresolved : Resolved ns name t resolved)
      (h : StoresSecret ((Cluster.ofResource ipfs).secret resolved.identity).resource resolved c) :
    Makes ns name t c
  | config {ipfs : Resource} {resolved : ResolvedIdentity} {c : StoreCall}
      (hipfs : ReadDeclaration ns name t ipfs .managed) (hresolved : Resolved ns name t resolved)
      (hstored : Stored t ((Cluster.ofResource ipfs).secret resolved.identity).resource resolved)
      (h : Applies ((Cluster.ofResource ipfs).configConfigMap resolved.identity.peerId).resource c) :
    Makes ns name t c
  | other {ipfs : Resource} {resolved : ResolvedIdentity} {defaults : WorkloadDefaults}
      {child : Child} {c : StoreCall} (hipfs : ReadDeclaration ns name t ipfs .managed)
      (hresolved : Resolved ns name t resolved) (hsecret : child ≠ .secret)
      (hconfig : child ≠ .config)
      (h : Applies (((Cluster.ofResource ipfs).children resolved.identity defaults).resource child)
        c) :
    Makes ns name t c

section Monotone

variable {ns name : String} {t t' : Trace}

theorem ReadDeclaration.mono {ipfs : Resource} {state : FinalizerState}
    (h : ReadDeclaration ns name t ipfs state) (hsub : t ⊆ t') :
    ReadDeclaration ns name t' ipfs state :=
  ⟨hsub h.1, h.2⟩

theorem Resolved.mono {resolved : ResolvedIdentity} (h : Resolved ns name t resolved)
    (hsub : t ⊆ t') : Resolved ns name t' resolved := by
  cases h with
  | persisted hread h => exact .persisted (hsub hread) h
  | fresh hread h => exact .fresh (hsub hread) (hsub h)
  | replacing hread hunusable h => exact .replacing (hsub hread) hunusable (hsub h)

theorem Applied.mono {desired : Resource} (h : Applied t desired) (hsub : t ⊆ t') :
    Applied t' desired := by
  cases h with
  | created h => exact .created (hsub h)
  | patched hkey h => exact .patched hkey (hsub h)
  | unchanged hkey h hlive => exact .unchanged hkey (hsub h) hlive

theorem Stored.mono {desired : Resource} {resolved : ResolvedIdentity}
    (h : Stored t desired resolved) (hsub : t ⊆ t') : Stored t' desired resolved := by
  cases h with
  | persisted h => exact .persisted (h.mono hsub)
  | fresh h => exact .fresh (hsub h)
  | replacing h => exact .replacing (hsub h)

end Monotone

section Follows

variable {ns name : String} {t : Trace} {rule : Trace → StoreCall → Prop} {desired : Resource}

theorem follows_createOrPatch (hrule : ∀ t' c, t ⊆ t' → Applies desired c → rule t' c) :
    (createOrPatch desired).Follows rule
      (fun result t' => ∀ outcome, result = .ok outcome → Applied t' desired) t := by
  rw [createOrPatch]
  cases hkey : desired.key with
  | error e => rintro _ ⟨⟩
  | ok key =>
      refine ⟨hrule t _ (List.Subset.refl t) .create, fun created => ?_⟩
      rcases created with e | reply
      · cases e with
        | alreadyExists object =>
            refine ⟨hrule _ _ (List.subset_cons_self _ _) (.get hkey), fun found => ?_⟩
            rcases found with e | _ | live
            · rintro _ ⟨⟩
            · rintro _ ⟨⟩
            · cases hchanges : live.body.patchChanges desired.mergePatch with
              | false =>
                  simp only [Program.bind, hchanges, Bool.false_eq_true, if_false]
                  exact fun _ _ => .unchanged hkey List.mem_cons_self hchanges
              | true =>
                  simp only [Program.bind, hchanges, if_true]
                  refine ⟨hrule _ _ ?_ (.patch hkey), fun patched => ?_⟩
                  · exact List.subset_cons_of_subset _ (List.subset_cons_self _ t)
                  · rcases patched with e | reply
                    · rintro _ ⟨⟩
                    · exact fun _ _ => .patched hkey List.mem_cons_self
        | _ => rintro _ ⟨⟩
      · exact fun _ _ => .created List.mem_cons_self

theorem follows_recordApply (kind : Kind) (what : String)
    {result : Except StoreError ApplyOutcome} {done : Prop}
    (hresult : ∀ outcome, result = .ok outcome → done) :
    (recordApply kind what result).Follows rule (fun worked _ => worked = true → done) t := by
  cases result with
  | error e => exact nofun
  | ok outcome => exact fun _ => hresult outcome rfl

theorem follows_applyChild (what : String)
    (hrule : ∀ t' c, t ⊆ t' → Applies desired c → rule t' c) :
    (applyChild desired what).Follows rule (fun _ _ => True) t := by
  refine (follows_createOrPatch hrule).bind fun result t' _ _ => ?_
  exact (follows_recordApply _ _ fun _ _ => trivial).mono fun _ _ _ _ => trivial

/-- If the Secret is reported as stored, it was. -/
theorem follows_applySecret {resolved : ResolvedIdentity}
    (hrule : ∀ t' c, t ⊆ t' → StoresSecret desired resolved c → rule t' c) :
    (applySecret resolved desired).Follows rule
      (fun worked t' => worked = true → Stored t' desired resolved) t := by
  have hstored : (storeSecret desired resolved).Follows rule
      (fun result t' => ∀ outcome, result = .ok outcome → Stored t' desired resolved) t := by
    cases resolved with
    | persisted identity =>
        refine (follows_createOrPatch fun t' c hsub hc => hrule t' c hsub (.persisted hc)).mono ?_
        exact fun _ _ _ happlied outcome hresult => .persisted (happlied outcome hresult)
    | fresh identity =>
        refine ⟨hrule t _ (List.Subset.refl t) .fresh, fun created => ?_⟩
        rcases created with e | reply
        · exact nofun
        · exact fun _ _ => .fresh List.mem_cons_self
    | replacing identity live =>
        refine ⟨hrule t _ (List.Subset.refl t) .replacing, fun updated => ?_⟩
        rcases updated with e | reply
        · exact nofun
        · exact fun _ _ => .replacing List.mem_cons_self
  refine hstored.bind fun result t' _ hresult => ?_
  refine (follows_recordApply _ _ hresult).mono fun worked t'' hsub hdone hworked => ?_
  exact (hdone hworked).mono hsub

theorem follows_generateIdentity :
    generateIdentity.Follows rule
      (fun result t' => ∀ identity, result = .ok identity → .drew (.ok identity) ∈ t') t := by
  intro answer
  cases answer with
  | error e => exact nofun
  | ok identity =>
      rintro _ ⟨⟩
      exact List.mem_cons_of_mem _ List.mem_cons_self

/-- A new identity is gone on with as what the pass read before allows. -/
theorem follows_newIdentity_resolved {resolve : Identity → ResolvedIdentity}
    (hresolve : ∀ t' identity, t ⊆ t' → .drew (.ok identity) ∈ t' →
      Resolved ns name t' (resolve identity)) :
    (do
      let generated ← generateIdentity
      pure (generated.map resolve) : Program (Except ReconcileError ResolvedIdentity)).Follows rule
      (fun result t' => ∀ resolved, result = .ok resolved → Resolved ns name t' resolved) t := by
  refine follows_generateIdentity.bind fun result t' hsub hdrew => ?_
  cases result with
  | error e => rintro _ ⟨⟩
  | ok identity =>
      rintro _ ⟨⟩
      exact hresolve t' identity hsub (hdrew identity rfl)

theorem follows_resolveIdentity
    (hrule : ∀ t', t ⊆ t' → rule t' (.get (Child.secret.key ns name))) :
    (resolveIdentity ns (ChildNames.ofCluster name).secret).Follows rule
      (fun result t' => ∀ resolved, result = .ok resolved → Resolved ns name t' resolved) t := by
  have hreplacing {t : Trace} {secret : Resource} (hread : ReadSecret ns name t (some secret))
      (hunusable : ∀ kept, persistedIdentity secret ≠ some (.ok kept)) :
      (replacingIdentity secret).Follows rule
        (fun result t' => ∀ resolved, result = .ok resolved → Resolved ns name t' resolved) t :=
    follows_newIdentity_resolved fun _ _ hsub hdrew => .replacing (hsub hread) hunusable hdrew
  refine ⟨hrule t (List.Subset.refl t), fun found => ?_⟩
  rcases found with e | _ | secret
  · rintro _ ⟨⟩
  · exact follows_newIdentity_resolved fun _ _ hsub hdrew => .fresh (hsub List.mem_cons_self) hdrew
  · cases hkept : persistedIdentity secret with
    | none =>
        simp only [Program.bind, hkept]
        refine hreplacing (List.mem_cons_of_mem _ List.mem_cons_self) fun kept h => ?_
        cases hkept.symm.trans h
    | some kept =>
        cases kept with
        | error e =>
            simp only [Program.bind, hkept]
            refine hreplacing (List.mem_cons_of_mem _ List.mem_cons_self) fun kept h => ?_
            cases hkept.symm.trans h
        | ok identity =>
            simp only [Program.bind, hkept]
            rintro _ ⟨⟩
            exact .persisted (List.mem_cons_of_mem _ List.mem_cons_self) hkept

theorem follows_applyChildren {ipfs : Resource} {resolved : ResolvedIdentity}
    (defaults : WorkloadDefaults) (hipfs : ReadDeclaration ns name t ipfs .managed)
    (hresolved : Resolved ns name t resolved) :
    (applyChildren resolved ((Cluster.ofResource ipfs).children resolved.identity defaults)).Follows
      (Makes ns name) (fun _ _ => True) t := by
  have hother {t' : Trace} (hsub : t ⊆ t') (child : Child) (hsecret : child ≠ .secret)
      (hconfig : child ≠ .config) (what : String) :
      (applyChild (((Cluster.ofResource ipfs).children resolved.identity defaults).resource child)
        what).Follows (Makes ns name) (fun _ _ => True) t' :=
    follows_applyChild what fun t'' c hsub' hc => .other (hipfs.mono (List.Subset.trans hsub hsub'))
      (hresolved.mono (List.Subset.trans hsub hsub')) hsecret hconfig hc
  rw [applyChildren]
  refine (follows_applySecret fun t' c hsub hc =>
    .secret (hipfs.mono hsub) (hresolved.mono hsub) hc).bind fun secret t₁ h₁ hstored => ?_
  have hconfig : (applyConfig secret
      ((Cluster.ofResource ipfs).configConfigMap resolved.identity.peerId).resource).Follows
        (Makes ns name) (fun _ _ => True) t₁ := by
    cases secret with
    | false => exact trivial
    | true =>
        refine follows_applyChild _ fun t₂ c h₂ hc => ?_
        exact .config (hipfs.mono (List.Subset.trans h₁ h₂))
          (hresolved.mono (List.Subset.trans h₁ h₂)) ((hstored rfl).mono h₂) hc
  refine hconfig.bind fun config t₂ h₂ _ => ?_
  replace h₂ := List.Subset.trans h₁ h₂
  refine (hother h₂ .serviceAccount nofun nofun _).bind fun _ t₃ h₃ _ => ?_
  replace h₃ := List.Subset.trans h₂ h₃
  refine (hother h₃ .service nofun nofun _).bind fun _ t₄ h₄ _ => ?_
  replace h₄ := List.Subset.trans h₃ h₄
  refine (hother h₄ .scripts nofun nofun _).bind fun _ t₅ h₅ _ => ?_
  replace h₅ := List.Subset.trans h₄ h₅
  refine (hother h₅ .statefulSet nofun nofun _).bind fun _ t₆ _ _ => ?_
  split
  · exact trivial
  · exact trivial

theorem follows_converge {ipfs : Resource} (defaults : WorkloadDefaults)
    (hipfs : ReadDeclaration ns name t ipfs .managed) :
    (converge defaults ns name ipfs).Follows (Makes ns name) (fun _ _ => True) t := by
  refine (follows_resolveIdentity fun _ _ => .readSecret).bind fun result t' hsub hresolved => ?_
  cases result with
  | error e => exact trivial
  | ok resolved =>
      exact follows_applyChildren defaults (hipfs.mono hsub) (hresolved resolved rfl)

theorem follows_adopt {ipfs : Resource} (hipfs : ReadDeclaration ns name t ipfs .unmanaged) :
    (adopt ns name ipfs).Follows (Makes ns name) (fun _ _ => True) t := by
  have hadd : (Finalizer.add ipfs finalizerToken).Follows (Makes ns name) (fun _ _ => True) t := by
    rw [Finalizer.add]
    split
    · exact trivial
    · exact ⟨.adopt hipfs, fun _ => trivial⟩
  refine hadd.bind fun result t' _ _ => ?_
  cases result <;> exact trivial

theorem follows_release {ipfs : Resource} (hipfs : ReadDeclaration ns name t ipfs .terminating) :
    (release ns name ipfs).Follows (Makes ns name) (fun _ _ => True) t := by
  have hremove : (Finalizer.remove ipfs finalizerToken).Follows (Makes ns name)
      (fun _ _ => True) t := by
    rw [Finalizer.remove]
    split
    · exact ⟨.release hipfs, fun _ => trivial⟩
    · exact trivial
  refine hremove.bind fun result t' _ _ => ?_
  cases result <;> exact trivial

theorem follows_pass (defaults : WorkloadDefaults) (ns name : String) :
    (pass defaults ns name).Follows (Makes ns name) (fun _ _ => True) [] := by
  refine ⟨.readDeclaration rfl, fun found => ?_⟩
  rcases found with e | _ | ipfs
  · exact trivial
  · exact trivial
  · have hread {state : FinalizerState} (h : FinalizerState.observe ipfs finalizerToken = state) :
        ReadDeclaration ns name [.called (.get ⟨.ipfs, ns, name⟩) (Except.ok (some ipfs))] ipfs
          state := ⟨List.mem_singleton_self _, h⟩
    cases hstate : FinalizerState.observe ipfs finalizerToken <;> simp only [Program.bind, hstate]
    case unmanaged => exact (follows_adopt (hread hstate)).bind fun _ _ _ _ => trivial
    case managed => exact (follows_converge defaults (hread hstate)).bind fun _ _ _ _ => trivial
    case terminating => exact (follows_release (hread hstate)).bind fun _ _ _ _ => trivial
    case released => exact trivial

/-- A pass makes only the calls that are its to make. -/
theorem follows_reconcile (defaults : WorkloadDefaults) (ns name : String) :
    (reconcile defaults ns name).Follows (Makes ns name) (fun _ _ => True) [] := by
  refine (follows_pass defaults ns name).bind fun result t _ _ => ?_
  rcases result with e | _ | reason
  · exact trivial
  · exact trivial
  · exact trivial

end Follows

end ClusterKeeper.Reconcile
