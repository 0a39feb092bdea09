import ClusterKeeper.Proofs.Reconcile.Stages

/-!
One pass on a well-formed store brings every child to what is wanted of it, whatever the children
drifted to before, and keeps an identity that can still be used.
-/

namespace ClusterKeeper

open Memory Reconcile

variable {ns name : String} {m m' : Memory} {cluster : Cluster} {identity : Identity} {t : Trace}

/-- A Secret with all that is wanted of it for an identity keeps the identity. -/
theorem Memory.Holds.identity?
    (h : m.Holds (Child.secret.key ns name) (cluster.secret identity).resource)
    (husable : identity.IsUsable) : m.identity? (Child.secret.key ns name) = some identity := by
  obtain ⟨raw, live, hget, hread, hsatisfied⟩ := h
  rw [identity?_of_get? hget, Json.identity?_eq_some_iff hread]
  exact persistedIdentity_of_satisfies husable hsatisfied

namespace Reconcile

variable {allowed : List Failure → Prop} {answers : Except IdentityError Identity → Prop}
  {resolved : ResolvedIdentity} {children : Children} {start : Memory}

theorem ResolvedAt.isUsable (h : ResolvedAt ns name answers m resolved)
    (hanswers : ∀ identity, answers (.ok identity) → identity.IsGenerated) :
    resolved.identity.IsUsable := by
  cases h with
  | persisted h =>
      obtain ⟨raw, -, hidentity⟩ := exists_of_identity? h
      exact Json.isUsable_of_identity? hidentity
  | fresh hanswer => exact (hanswers _ hanswer).isUsable
  | replacing hanswer => exact (hanswers _ hanswer).isUsable

structure Finished (ns name : String) (children : Children) (allowed : List Failure → Prop)
    (start : Memory) (ending : Ending) (m : Memory) : Prop where
  wellFormed : m.WellFormed ns name
  declaration : m.get? ⟨.ipfs, ns, name⟩ = start.get? ⟨.ipfs, ns, name⟩
  holds : ending = .done → ∀ child, m.Holds (child.key ns name) (children.resource child)
  works : Reliable allowed → ending = .done

theorem Progress.finished {made : Child → Json} {before : Trace} {tried : List (Child × Bool)}
    {ending : Ending} (h : Progress ns name children allowed made start before tried t m)
    (hcomplete : Complete tried ending) : Finished ns name children allowed start ending m := by
  refine ⟨h.wellFormed, h.declaration, fun hdone child => h.holds child ?_, fun hreliable => ?_⟩
  · have hworked := hcomplete.worked hdone
    exact (hcomplete.covers child fun _ => hworked .secret).resolve_right (hworked child)
  · refine hcomplete.done fun child hfailed => h.blamed child hfailed fun op => ?_
    exact hreliable.exempts op _

/-- A store with all that is wanted of the children for the identity that the Secret keeps. -/
structure Converged (ns name : String) (defaults : WorkloadDefaults) (ipfs : Resource)
    (identity : Identity) (m : Memory) : Prop where
  wellFormed : m.WellFormed ns name
  manages : m.Manages ns name ipfs
  usable : identity.IsUsable
  holds : ∀ child, m.Holds (child.key ns name)
    (((Cluster.ofResource ipfs).children identity defaults).resource child)

variable {defaults : WorkloadDefaults} {ipfs : Resource}

theorem Converged.of_objects (h : Converged ns name defaults ipfs identity m)
    (hsame : m'.objects = m.objects) : Converged ns name defaults ipfs identity m' :=
  ⟨h.wellFormed.of_objects hsame, h.manages.of_objects hsame, h.usable,
    fun child => (h.holds child).congr (get?_of_objects hsame _)⟩

theorem Converged.identity? (h : Converged ns name defaults ipfs identity m) :
    m.identity? (Child.secret.key ns name) = some identity :=
  (h.holds .secret).identity? h.usable

structure Passed (ns name : String) (defaults : WorkloadDefaults) (ipfs : Resource)
    (reliable : Prop) (m : Memory) (isDone : Prop) (m' : Memory) : Prop where
  converged : isDone → ∃ identity, Converged ns name defaults ipfs identity m' ∧
    ∀ kept, m.identity? (Child.secret.key ns name) = some kept → identity = kept
  works : reliable → isDone

theorem meets_converge (hm : m.WellFormed ns name) (hmanages : m.Manages ns name ipfs)
    (hanswers : ∀ identity, answers (.ok identity) → identity.IsGenerated) :
    (converge defaults ns name ipfs).Meets (isolated allowed answers)
      (fun ending _ m' => Passed ns name defaults ipfs (Reliable allowed ∧ Dependable answers) m
        (ending = .done) m') t m := by
  have hdeclared := hmanages.isDeclared hm
  refine (meets_resolveIdentity hm).bind fun result t₁ m₁ h => ?_
  cases result with
  | error e =>
      refine ⟨nofun, fun hreliable => ?_⟩
      obtain ⟨resolved, hresolved⟩ := h.works (hreliable.1.exempts _ _) fun _ => hreliable.2
      cases hresolved
  | ok resolved =>
      have hresolved := h.resolved resolved rfl
      have hm₁ := hm.of_objects h.same
      refine (meets_applyChildren hm₁ hdeclared defaults hresolved).mono fun ending t₂ m₂ h₂ => ?_
      obtain ⟨tried, hcomplete, hprogress⟩ := h₂
      have hfinished := hprogress.finished hcomplete
      refine ⟨fun hdone => ?_, fun hreliable => hfinished.works hreliable.1⟩
      obtain ⟨raw, hget, hread, hstate⟩ := hmanages
      have hget₂ := hfinished.declaration.trans ((get?_of_objects h.same _).trans hget)
      refine ⟨resolved.identity, ⟨hfinished.wellFormed, ⟨raw, hget₂, hread, hstate⟩,
        hresolved.isUsable hanswers, hfinished.holds hdone⟩, fun kept hkept => ?_⟩
      have hkept₁ := (identity?_congr (get?_of_objects h.same _)).trans hkept
      exact congrArg ResolvedIdentity.identity (hresolved.eq_of_identity? hkept₁)

/-- A pass over a managed declaration is done only if the store converged, and is done if nothing
fails. -/
theorem meets_reconcile (hm : m.WellFormed ns name) (hmanages : m.Manages ns name ipfs)
    (hanswers : ∀ identity, answers (.ok identity) → identity.IsGenerated) :
    (reconcile defaults ns name).Meets (isolated allowed answers)
      (fun result _ m' => Passed ns name defaults ipfs (Reliable allowed ∧ Dependable answers) m
        (result = .ok .done) m') t m := by
  refine meets_reconcile_of_managed hmanages
    (fun _ _ _ hunread => ⟨nofun, fun hreliable => absurd (hreliable.1.exempts _ _) hunread⟩)
    fun m₁ hrely => ?_
  obtain ⟨hsame, -⟩ := isolated_rely hrely
  refine (meets_converge (hm.of_objects hsame) (hmanages.of_objects hsame) hanswers).mono
    fun ending t₂ m₂ hpassed record => ⟨fun hdone => ?_, fun hreliable => ?_⟩
  · obtain ⟨identity, hconverged, hsameidentity⟩ :=
      hpassed.converged (Ending.outcome_eq_done_iff.mp (Except.ok.inj hdone))
    refine ⟨identity, hconverged, fun kept hkept => hsameidentity kept ?_⟩
    exact (identity?_congr (get?_of_objects hsame _)).trans hkept
  · rw [hpassed.works hreliable]
    rfl

/-- A pass that has the store to itself. It is sure to be done if there are no failures. -/
theorem passed_run {source : Trace → Except IdentityError Identity} (faults : Trace → List Failure)
    (defaults : WorkloadDefaults) (hm : m.WellFormed ns name) (hmanages : m.Manages ns name ipfs)
    (hsource : ∀ t identity, source t = .ok identity → identity.IsGenerated) :
    let ended := (reconcile defaults ns name).run (Session.handler source faults) ⟨m, []⟩
    Passed ns name defaults ipfs ((∀ t, faults t = []) ∧ ∀ t e, source t ≠ .error e) m
      (ended.1 = .ok .done) ended.2.memory := by
  intro ended
  have hgenerated (identity : Identity) (h : ∃ t, source t = .ok identity) : identity.IsGenerated := by
    obtain ⟨t, h⟩ := h
    exact hsource t identity h
  have hmeets : (reconcile defaults ns name).Meets (isolated (fun failures => ∃ t, faults t = failures)
      fun answer => ∃ t, source t = answer) _ [] m := meets_reconcile hm hmanages hgenerated
  have hpassed := hmeets.run source faults ⟨m, []⟩ (fun t _ => ⟨_, ⟨t, rfl⟩, rfl⟩) fun t => ⟨t, rfl⟩
  refine ⟨hpassed.converged, fun hworks => hpassed.works ⟨?_, ?_⟩⟩
  · rintro _ ⟨t, rfl⟩
    exact hworks.1 t
  · rintro e ⟨t, h⟩
    exact hworks.2 t e h

/-- From any well-formed store, one pass over a managed declaration without failures is done, keeps a
usable identity, and leaves all six children such that their patches change nothing. -/
theorem reconcile_converges {source : Trace → Except IdentityError Identity}
    (defaults : WorkloadDefaults) (hm : m.WellFormed ns name) (hmanages : m.Manages ns name ipfs)
    (hsource : ∀ t, ∃ identity, source t = .ok identity ∧ identity.IsGenerated) :
    let ended := (reconcile defaults ns name).run (Session.handler source fun _ => []) ⟨m, []⟩
    ended.1 = .ok .done ∧
      ∃ identity, ended.2.memory.identity? (Child.secret.key ns name) = some identity ∧
        (∀ kept, m.identity? (Child.secret.key ns name) = some kept → identity = kept) ∧
        ∀ child, ∃ raw live, ended.2.memory.get? (child.key ns name) = some raw ∧
          readAs (child.key ns name).kind raw = .ok live ∧
          live.body.merge (((Cluster.ofResource ipfs).children identity defaults).resource
            child).mergePatch = live.body := by
  intro ended
  have hgenerated (t : Trace) (identity : Identity) (h : source t = .ok identity) :
      identity.IsGenerated := by
    obtain ⟨other, hother, hgenerated⟩ := hsource t
    cases h.symm.trans hother
    exact hgenerated
  have hanswers (t : Trace) (e : IdentityError) : source t ≠ .error e := by
    obtain ⟨identity, hidentity, -⟩ := hsource t
    rw [hidentity]
    nofun
  have hpassed := passed_run (fun _ => []) defaults hm hmanages hgenerated
  have hdone := hpassed.works ⟨fun _ => rfl, hanswers⟩
  obtain ⟨identity, hconverged, hsame⟩ := hpassed.converged hdone
  refine ⟨hdone, identity, hconverged.identity?, hsame, fun child => ?_⟩
  obtain ⟨raw, live, hget, hread, hsatisfied⟩ := hconverged.holds child
  have hdeclared := hconverged.manages.isDeclared hconverged.wellFormed
  have hr := Cluster.isDesired_children hdeclared identity defaults child
  refine ⟨raw, live, hget, hread, ?_⟩
  rw [hr.mergePatch]
  exact (Json.merge_eq_self_iff (hr.isCanonical_of_readAs (hconverged.wellFormed.sound _ raw hget)
    hread) (isPlain_of_readAs hread) hr.canonical hr.isPlain).mpr hsatisfied

def widerCluster : Cluster :=
  let cluster := Cluster.ofResource ⟨.ipfs, .declared⟩
  { cluster with spec := { cluster.spec with replicas := 3 } }

/-- The sample declaration with a Secret that can be used, and the set of the wider one. -/
def drifted : Memory :=
  ((Memory.declared.create (widerCluster.secret (.constant 1)).resource).2.create
    (widerCluster.statefulSet .standard).resource).2

theorem drifted_spec : drifted.WellFormed "default" "ipfs" ∧
    drifted.Manages "default" "ipfs" ⟨.ipfs, .declared⟩ ∧
    drifted.identity? (Child.secret.key "default" "ipfs") = some (.constant 1) ∧
    drifted.Holds (Child.statefulSet.key "default" "ipfs")
      (widerCluster.statefulSet .standard).resource := by
  have hdeclared : widerCluster.IsDeclared "default" "ipfs" := ⟨rfl, rfl, rfl⟩
  have hsecret := Cluster.isDesired_secret hdeclared (.constant 1)
  have hset : (widerCluster.statefulSet .standard).resource.IsDesired _ :=
    Cluster.isDesired_children hdeclared (.constant 1) .standard .statefulSet
  obtain ⟨hfirst, hfailures⟩ := wellFormed_declared.establishes_create hsecret rfl rfl
  have habsent := hfirst.frame (Child.statefulSet.key "default" "ipfs") (by decide)
  obtain ⟨hsecond, -⟩ := hfirst.wellFormed.establishes_create hset hfailures habsent
  have hipfs := (hsecond.frame ⟨.ipfs, "default", "ipfs"⟩ (by decide)).trans
    (hfirst.frame ⟨.ipfs, "default", "ipfs"⟩ (by decide))
  have hkept := hsecond.frame (Child.secret.key "default" "ipfs") (by decide)
  rw [drifted]
  exact ⟨hsecond.wellFormed, ⟨_, hipfs, readAs_declared, by decide⟩,
    (hfirst.holds.congr hkept).identity? (Identity.isGenerated_constant 1).isUsable, hsecond.holds⟩

def AsksFor (m : Memory) (replicas : Int) : Prop :=
  ∃ raw live, m.get? (Child.statefulSet.key "default" "ipfs") = some raw ∧
    readAs .statefulSet raw = .ok live ∧
    (live.body.get "spec").get "replicas" = .int replicas

theorem asksFor_of_holds {cluster : Cluster}
    (h : m.Holds (Child.statefulSet.key "default" "ipfs") (cluster.statefulSet defaults).resource) :
    AsksFor m cluster.spec.effectiveReplicas := by
  obtain ⟨raw, live, hget, hread, hsatisfied⟩ := h
  obtain ⟨spec, hspec, hsatisfied⟩ := Json.get?_of_satisfies hsatisfied
    (show (cluster.statefulSet defaults).resource.body.get? "spec" = some _ from rfl) nofun
  obtain ⟨replicas, hreplicas, hsame⟩ := Json.get?_of_satisfies hsatisfied
    (show Json.get? _ "replicas" = some (.int cluster.spec.effectiveReplicas) from rfl) nofun
  refine ⟨raw, live, hget, hread, ?_⟩
  rw [Json.get_of_get? hspec, Json.get_of_get? hreplicas, Json.eq_of_same rfl hsame]

/-- The drifted set is brought back to the one pod that is declared, and the identity stays, although
the pass could have generated another one. -/
theorem reconcile_converges_drifted :
    let ended := (reconcile .standard "default" "ipfs").run
      (Session.handler (fun _ => .ok (.constant 0)) fun _ => []) ⟨drifted, []⟩
    AsksFor drifted 3 ∧ ended.1 = .ok .done ∧
      ended.2.memory.identity? (Child.secret.key "default" "ipfs") = some (.constant 1) ∧
      AsksFor ended.2.memory 1 := by
  obtain ⟨hm, hmanages, hkept, hwider⟩ := drifted_spec
  obtain ⟨hdone, identity, hidentity, hsame, hchildren⟩ := reconcile_converges .standard hm
    hmanages fun _ => ⟨_, rfl, Identity.isGenerated_constant 0⟩
  obtain ⟨raw, live, hget, hread, hmerged⟩ := hchildren .statefulSet
  have hr := Cluster.isDesired_children (hmanages.isDeclared hm) identity .standard .statefulSet
  rw [hr.mergePatch] at hmerged
  have hsatisfied := hmerged ▸ Json.satisfies_merge live.body hr.canonical
  exact ⟨asksFor_of_holds hwider, hdone, hsame _ hkept ▸ hidentity,
    asksFor_of_holds ⟨raw, live, hget, hread, hsatisfied⟩⟩

end Reconcile

end ClusterKeeper
