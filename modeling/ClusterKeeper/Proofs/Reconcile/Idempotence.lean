import ClusterKeeper.Proofs.Reconcile.Contention
import ClusterKeeper.Proofs.Reconcile.Convergence

/-!
A store that converged is left alone: passes over it find nothing to write and need no new identity.
-/

namespace ClusterKeeper

open Memory Reconcile Contention

/-- The act neither wrote to the store nor asked for an identity. -/
def Act.IsIdle : Act → Prop
  | .called (.get _) _ => True
  | .called (.create _) reply => ∃ e, reply = Except.error e
  | .called (.patch _ _) reply => ∃ e, reply = Except.error e
  | .called (.update _) reply => ∃ e, reply = Except.error e
  | .drew _ => False
  | .reported _ => True

namespace Reconcile

variable {ns name : String} {m : Memory} {key : ObjectKey} {r : Resource} {t : Trace}
  {answers : Except IdentityError Identity → Prop} {defaults : WorkloadDefaults} {ipfs : Resource}
  {identity : Identity}

/-- A pass did nothing to the store so far, which has no failures in force. -/
structure IdleSoFar (m : Memory) (t : Trace) (m' : Memory) : Prop where
  idle : ∀ act ∈ t, act.IsIdle
  memory : m' = m.clearFailures

theorem isIdle_get (key : ObjectKey) (reply : (StoreCall.get key).Reply) :
    (Act.called (.get key) reply).IsIdle := trivial

theorem isIdle_reported (event : Event) : (Act.reported event).IsIdle := trivial

theorem IdleSoFar.cons {m' : Memory} {act : Act} (h : IdleSoFar m t m') (hact : act.IsIdle) :
    IdleSoFar m (act :: t) m' :=
  ⟨List.forall_mem_cons.mpr ⟨hact, h.idle⟩, h.memory⟩

theorem eq_clearFailures {m' : Memory} (h : (isolated (· = []) answers).rely m m') :
    m' = m.clearFailures := by
  obtain ⟨_, rfl, rfl⟩ := h
  rfl

/-- An object that is there is read, and patched if that changes it. -/
theorem meets_createOrPatch_of_present {raw : Json} {live : Resource}
    {post : Except StoreError ApplyOutcome → Trace → Memory → Prop}
    (hr : r.IsDesired key) (hget : m.get? key = some raw) (hread : readAs key.kind raw = .ok live)
    (h : (if live.body.patchChanges r.mergePatch then sendPatch key r
      else pure (.ok .unchanged)).Meets (isolated (· = []) answers) post
        (.called (.get key) (Except.ok (some live)) ::
          .called (.create r) (Except.error (.alreadyExists key.ref)) :: t) m.clearFailures) :
    (createOrPatch r).Meets (isolated (· = []) answers) post t m := by
  rw [createOrPatch_of_key hr.key]
  refine Program.meets_create fun m₁ hrely₁ reply m₂ hcreate => ?_
  obtain rfl := eq_clearFailures hrely₁
  have hpresent : m.clearFailures.create r = (.error (.alreadyExists key.ref), m.clearFailures) :=
    create_of_present rfl hr.key hget
  cases hpresent.symm.trans hcreate
  refine Program.meets_get fun m₃ hrely₃ => ?_
  have hm₃ := eq_clearFailures hrely₃
  obtain rfl : m₃ = m.clearFailures := hm₃
  have hfound : m.clearFailures.get key = .ok (some live) := get_of_present rfl hget hread
  rw [hfound]
  exact h

theorem idleSoFar_createOrPatch (hm : m.WellFormed ns name) (hr : r.IsDesired key)
    (hholds : m.Holds key r) (hidle : ∀ act ∈ t, act.IsIdle) :
    (createOrPatch r).Meets (isolated (· = []) answers)
      (fun result t' m' => result = .ok .unchanged ∧ IdleSoFar m t' m') t m := by
  obtain ⟨raw, live, hget, hread, hsatisfied⟩ := hholds
  have hchanges : live.body.patchChanges r.mergePatch = false := by
    rw [hr.mergePatch]
    exact Json.patchChanges_eq_false_of_satisfies
      (hr.isCanonical_of_readAs (hm.sound key raw hget) hread) hr.canonical hsatisfied
  refine meets_createOrPatch_of_present hr hget hread ?_
  rw [hchanges]
  refine ⟨rfl, (IdleSoFar.cons ⟨hidle, rfl⟩ ?_).cons (isIdle_get _ _)⟩
  exact ⟨_, rfl⟩

theorem idleSoFar_applyChild (hm : m.WellFormed ns name) (hr : r.IsDesired key)
    (hholds : m.Holds key r) (hidle : ∀ act ∈ t, act.IsIdle) (what : String) :
    (applyChild r what).Meets (isolated (· = []) answers)
      (fun worked t' m' => worked = true ∧ IdleSoFar m t' m') t m := by
  refine (idleSoFar_createOrPatch hm hr hholds hidle).bind fun result t' m' h => ?_
  obtain ⟨rfl, hsofar⟩ := h
  exact ⟨rfl, hsofar.cons (isIdle_reported _)⟩

theorem idleSoFar_applyChildren (h : Converged ns name defaults ipfs identity m)
    (hidle : ∀ act ∈ t, act.IsIdle) :
    (applyChildren (.persisted identity)
      ((Cluster.ofResource ipfs).children identity defaults)).Meets (isolated (· = []) answers)
      (fun ending t' m' => ending = .done ∧ IdleSoFar m t' m') t m := by
  have hr := Cluster.isDesired_children (h.manages.isDeclared h.wellFormed) identity defaults
  have hstage {t' : Trace} {m' : Memory} (child : Child) (what : String) (hsofar : IdleSoFar m t' m') :
      (applyChild (((Cluster.ofResource ipfs).children identity defaults).resource child) what).Meets
        (isolated (· = []) answers) (fun worked t' m' => worked = true ∧ IdleSoFar m t' m') t' m' := by
    obtain ⟨hidle', rfl⟩ := hsofar
    have h' : Converged ns name defaults ipfs identity m.clearFailures := h.of_objects rfl
    refine (idleSoFar_applyChild h'.wellFormed (hr child) (h'.holds child) hidle' what).mono
      fun worked t₁ m₁ h₁ => ?_
    exact ⟨h₁.1, h₁.2.idle, h₁.2.memory⟩
  have hsecret : (applySecret (.persisted identity)
      ((Cluster.ofResource ipfs).secret identity).resource).Meets (isolated (· = []) answers)
        (fun worked t' m' => worked = true ∧ IdleSoFar m t' m') t m := by
    refine (idleSoFar_createOrPatch h.wellFormed (hr .secret) (h.holds .secret) hidle).bind
      fun result t' m' hunchanged => ?_
    obtain ⟨rfl, hsofar⟩ := hunchanged
    exact ⟨rfl, hsofar.cons (isIdle_reported _)⟩
  refine hsecret.bind fun _ t₁ m₁ h₁ => ?_
  obtain ⟨rfl, h₁⟩ := h₁
  refine (hstage .config _ h₁).bind fun _ t₂ m₂ h₂ => ?_
  obtain ⟨rfl, h₂⟩ := h₂
  refine (hstage .serviceAccount _ h₂).bind fun _ t₃ m₃ h₃ => ?_
  obtain ⟨rfl, h₃⟩ := h₃
  refine (hstage .service _ h₃).bind fun _ t₄ m₄ h₄ => ?_
  obtain ⟨rfl, h₄⟩ := h₄
  refine (hstage .scripts _ h₄).bind fun _ t₅ m₅ h₅ => ?_
  obtain ⟨rfl, h₅⟩ := h₅
  refine (hstage .statefulSet _ h₅).bind fun _ t₆ m₆ h₆ => ?_
  obtain ⟨rfl, h₆⟩ := h₆
  exact ⟨rfl, h₆⟩

theorem idleSoFar_resolveIdentity (h : Converged ns name defaults ipfs identity m)
    (hidle : ∀ act ∈ t, act.IsIdle) :
    (resolveIdentity ns (ChildNames.ofCluster name).secret).Meets (isolated (· = []) answers)
      (fun result t' m' => result = .ok (.persisted identity) ∧ IdleSoFar m t' m') t m := by
  obtain ⟨raw, hget, hidentity⟩ := exists_of_identity? h.identity?
  obtain ⟨live, hread⟩ := (h.wellFormed.sound _ raw hget).exists_read
  have hkept := (Json.identity?_eq_some_iff hread).mp hidentity
  refine Program.meets_get fun m₁ hrely => ?_
  obtain rfl := eq_clearFailures hrely
  have hfound : m.clearFailures.get ⟨.secret, ns, (ChildNames.ofCluster name).secret⟩ =
      .ok (some live) := get_of_present rfl hget hread
  simp only [hfound, hkept]
  exact ⟨rfl, (IdleSoFar.cons ⟨hidle, rfl⟩ (isIdle_get _ _)).cons (isIdle_reported _)⟩

theorem idleSoFar_converge (h : Converged ns name defaults ipfs identity m)
    (hidle : ∀ act ∈ t, act.IsIdle) :
    (converge defaults ns name ipfs).Meets (isolated (· = []) answers)
      (fun ending t' m' => ending = .done ∧ IdleSoFar m t' m') t m := by
  refine (idleSoFar_resolveIdentity h hidle).bind fun result t₁ m₁ h₁ => ?_
  obtain ⟨rfl, hidle₁, rfl⟩ := h₁
  have h' : Converged ns name defaults ipfs identity m.clearFailures := h.of_objects rfl
  refine (idleSoFar_applyChildren h' hidle₁).mono fun ending t₂ m₂ h₂ => ?_
  exact ⟨h₂.1, h₂.2.idle, h₂.2.memory⟩

/-- A pass over a converged store is done and leaves it alone. -/
theorem idleSoFar_reconcile (h : Converged ns name defaults ipfs identity m)
    (hidle : ∀ act ∈ t, act.IsIdle) :
    (reconcile defaults ns name).Meets (isolated (· = []) answers)
      (fun result t' m' => result = .ok .done ∧ IdleSoFar m t' m') t m := by
  have hreliable : Reliable (· = []) := fun _ hnone => hnone
  refine meets_reconcile_of_managed h.manages
    (fun _ _ _ hunread => absurd (hreliable.exempts _ _) hunread) fun m₁ hrely => ?_
  obtain rfl := eq_clearFailures hrely
  have h' : Converged ns name defaults ipfs identity m.clearFailures := h.of_objects rfl
  refine (idleSoFar_converge h' (List.forall_mem_cons.mpr ⟨isIdle_get _ _, hidle⟩)).mono
    fun ending t₂ m₂ h₂ record => ?_
  obtain ⟨rfl, hsofar⟩ := h₂
  have hsofar' : IdleSoFar m t₂ m₂ := ⟨hsofar.idle, hsofar.memory⟩
  exact ⟨rfl, hsofar'.cons (isIdle_reported _)⟩

/-- Passes one after the other, without failures and each with an identity source of its own: what
each came to and did, and the store after them. -/
def passes (defaults : WorkloadDefaults) (ns name : String) :
    List (Trace → Except IdentityError Identity) → Memory →
      List (Except ReconcileError Outcome × Trace) × Memory
  | [], m => ([], m)
  | source :: rest, m =>
    let ended := (reconcile defaults ns name).run (Session.handler source fun _ => []) ⟨m, []⟩
    let later := passes defaults ns name rest ended.2.memory
    ((ended.1, ended.2.trace) :: later.1, later.2)

theorem passes_converged (h : Converged ns name defaults ipfs identity m)
    (sources : List (Trace → Except IdentityError Identity)) :
    (∀ ended ∈ (passes defaults ns name sources m).1,
      ended.1 = .ok .done ∧ ∀ act ∈ ended.2, act.IsIdle) ∧
      (passes defaults ns name sources m).2.clearFailures = m.clearFailures := by
  induction sources generalizing m with
  | nil => exact ⟨fun _ hended => absurd hended List.not_mem_nil, rfl⟩
  | cons source rest ih =>
      have hmeets : (reconcile defaults ns name).Meets
          (isolated (· = []) fun _ : Except IdentityError Identity => True)
          (fun result t' m' => result = .ok .done ∧ IdleSoFar m t' m') [] m :=
        idleSoFar_reconcile h fun _ hact => absurd hact List.not_mem_nil
      obtain ⟨hdone, hidle, hmemory⟩ :=
        hmeets.run source (fun _ => []) ⟨m, []⟩ (fun _ _ => ⟨[], rfl, rfl⟩) fun _ => trivial
      have hsofar : Converged ns name defaults ipfs identity m.clearFailures := h.of_objects rfl
      rw [← hmemory] at hsofar
      obtain ⟨hlater, hkept⟩ := ih hsofar
      refine ⟨List.forall_mem_cons.mpr ⟨⟨hdone, hidle⟩, hlater⟩, hkept.trans ?_⟩
      rw [hmemory]
      rfl

/-- Once a pass was done on a well-formed store, whatever failed on the way, all later passes over
the declaration that meet no failure are done, neither write nor ask for an identity, and leave the
store as it is. -/
theorem reconcile_idempotent {source : Trace → Except IdentityError Identity}
    {faults : Trace → List Failure} (hm : m.WellFormed ns name) (hmanages : m.Manages ns name ipfs)
    (hsource : ∀ t identity, source t = .ok identity → identity.IsGenerated)
    (hdone : ((reconcile defaults ns name).run (Session.handler source faults) ⟨m, []⟩).1 = .ok .done)
    (sources : List (Trace → Except IdentityError Identity)) :
    let settled := ((reconcile defaults ns name).run (Session.handler source faults)
      ⟨m, []⟩).2.memory
    (∀ ended ∈ (passes defaults ns name sources settled).1,
      ended.1 = .ok .done ∧ ∀ act ∈ ended.2, act.IsIdle) ∧
      (passes defaults ns name sources settled).2.clearFailures = settled.clearFailures := by
  intro settled
  obtain ⟨identity, hconverged, -⟩ :=
    (passed_run faults defaults hm hmanages hsource).converged hdone
  exact passes_converged hconverged sources

/-- After a pass without failures, passes are done even if their identity source always fails. -/
theorem reconcile_idempotent_declared :
    let settled := ((reconcile .standard "default" "ipfs").run
      (Session.handler (fun _ => .ok (.constant 0)) fun _ => []) ⟨.declared, []⟩).2.memory
    ∀ ended ∈ (passes .standard "default" "ipfs"
      [fun _ => .error .unseeded, fun _ => .error .unseeded] settled).1, ended.1 = .ok .done := by
  have hsource (_ : Trace) (identity : Identity)
      (h : (.ok (.constant 0) : Except IdentityError Identity) = .ok identity) : identity.IsGenerated :=
    Except.ok.inj h ▸ Identity.isGenerated_constant 0
  have hpassed := passed_run (fun _ => []) .standard wellFormed_declared manages_declared hsource
  have hdone := hpassed.works ⟨fun _ => rfl, nofun⟩
  intro settled ended hended
  exact ((reconcile_idempotent wellFormed_declared manages_declared hsource hdone _).1 ended hended).1

end Reconcile

end ClusterKeeper
