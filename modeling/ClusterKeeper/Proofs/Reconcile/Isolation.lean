import ClusterKeeper.Proofs.Reconcile.Stages

/-!
Failures of one child do not reach the others. A pass on a store with failures leaves each child that
could not be stored as it was, and makes of each other one what it would make of it without failures;
only the config map waits for the Secret.
-/

namespace ClusterKeeper

open Memory

namespace Reconcile

variable {ns name : String} {m m' : Memory} {ipfs : Resource} {t t' : Trace}
  {allowed : List Failure → Prop} {answers : Except IdentityError Identity → Prop}
  {defaults : WorkloadDefaults}

/-- What became of the children in a pass that reported which of them failed. -/
structure Contained (ns name : String) (allowed : List Failure → Prop) (made : Child → Json)
    (start : Memory) (t : Trace) (m : Memory) : Prop where
  stored : ∀ child, ¬ Failed child t → (child = .config → ¬ Failed .secret t) →
    (m.get? (child.key ns name)).map Json.unstamped = some (made child)
  untouched : ∀ child, Failed child t →
    m.get? (child.key ns name) = start.get? (child.key ns name)
  waits : Failed .secret t →
    m.get? (Child.config.key ns name) = start.get? (Child.config.key ns name)
  blamed : ∀ child, Failed child t → ¬ ∀ op, Exempts allowed op (child.key ns name).kind

def DoneUnlessFailed (done requeue : Prop) (t : Trace) : Prop :=
  done ∧ (∀ child, ¬ Failed child t) ∨ requeue ∧ ∃ child, Failed child t

theorem Contained.congr {made : Child → Json} {start : Memory}
    (h : Contained ns name allowed made start t m)
    (htold : ∀ child, Failed child t' ↔ Failed child t) :
    Contained ns name allowed made start t' m where
  stored child hworked hsecret := h.stored child ((htold child).not.mp hworked) fun hconfig =>
    (htold _).not.mp (hsecret hconfig)
  untouched child hfailed := h.untouched child ((htold child).mp hfailed)
  waits hfailed := h.waits ((htold _).mp hfailed)
  blamed child hfailed := h.blamed child ((htold child).mp hfailed)

theorem Contained.of_objects {made : Child → Json} {start before : Memory}
    (h : Contained ns name allowed made before t m) (hsame : before.objects = start.objects) :
    Contained ns name allowed made start t m where
  stored := h.stored
  untouched child hfailed := (h.untouched child hfailed).trans (get?_of_objects hsame _)
  waits hfailed := (h.waits hfailed).trans (get?_of_objects hsame _)
  blamed := h.blamed

theorem DoneUnlessFailed.congr {done requeue done' requeue' : Prop}
    (h : DoneUnlessFailed done requeue t)
    (htold : ∀ child, Failed child t' ↔ Failed child t) (hdone : done → done')
    (hrequeue : requeue → requeue') : DoneUnlessFailed done' requeue' t' := by
  simpa only [DoneUnlessFailed, htold] using h.imp (And.imp_left hdone) (And.imp_left hrequeue)

/-- The children became what a pass over the declaration makes of them, with an identity that the
store and the source allow. -/
def ResolvedAndContained (ns name : String) (ipfs : Resource) (defaults : WorkloadDefaults)
    (allowed : List Failure → Prop) (answers : Except IdentityError Identity → Prop)
    (start : Memory) (t : Trace) (m : Memory) : Prop :=
  ∃ resolved, ResolvedAt ns name answers start resolved ∧
    Contained ns name allowed (expected ns name resolved
      ((Cluster.ofResource ipfs).children resolved.identity defaults) start) start t m

theorem ResolvedAndContained.congr {start : Memory}
    (h : ResolvedAndContained ns name ipfs defaults allowed answers start t m)
    (htold : ∀ child, Failed child t' ↔ Failed child t) :
    ResolvedAndContained ns name ipfs defaults allowed answers start t' m :=
  h.imp fun _ => And.imp_right fun hcontained => hcontained.congr htold

theorem ResolvedAndContained.of_objects {start before : Memory}
    (h : ResolvedAndContained ns name ipfs defaults allowed answers before t m)
    (hsame : before.objects = start.objects) :
    ResolvedAndContained ns name ipfs defaults allowed answers start t m := by
  obtain ⟨resolved, hresolved, hcontained⟩ := h
  rw [expected_congr hsame] at hcontained
  exact ⟨resolved, hresolved.of_objects hsame.symm, hcontained.of_objects hsame⟩

section Children

variable {children : Children} {made : Child → Json} {start : Memory} {before : Trace}
  {tried : List (Child × Bool)} {ending : Ending}

theorem Progress.contained (h : Progress ns name children allowed made start before tried t m)
    (hnofail : ∀ child, ¬ Failed child before) (hcomplete : Complete tried ending) :
    Contained ns name allowed made start t m ∧
      DoneUnlessFailed (ending = .done) (ending = .requeue .child) t := by
  have hfailed (child : Child) : Failed child t ↔ (child, false) ∈ tried :=
    (h.told child).trans (or_iff_right (hnofail child))
  refine ⟨⟨fun child hworked hsecret => ?_, fun child hchild => ?_, fun hsecret => ?_,
    fun child hchild => h.blamed child ((hfailed child).mp hchild)⟩, ?_⟩
  · refine h.stored child ((hcomplete.covers child fun hconfig => ?_).resolve_right ?_)
    · exact (hfailed _).not.mp (hsecret hconfig)
    · exact (hfailed child).not.mp hworked
  · refine h.untouched child fun hworked => ?_
    exact hcomplete.once child ((hfailed child).mp hchild) hworked
  · exact h.untouched .config (hcomplete.waits ((hfailed _).mp hsecret) true)
  · by_cases hall : ∀ child, (child, false) ∉ tried
    · exact .inl ⟨hcomplete.done hall, fun child => (hfailed child).not.mpr (hall child)⟩
    · obtain ⟨child, hchild⟩ := not_forall_not.mp hall
      exact .inr ⟨hcomplete.requeue hchild, child, (hfailed child).mpr hchild⟩

end Children

/-- A managed declaration whose identity is found has all its children tried. -/
theorem contained_converge (hm : m.WellFormed ns name) (hmanages : m.Manages ns name ipfs)
    (hsecret : Exempts allowed .get .secret)
    (hresolves : m.identity? (Child.secret.key ns name) = none → Dependable answers)
    (hnofail : ∀ child, ¬ Failed child t) :
    (converge defaults ns name ipfs).Meets (isolated allowed answers)
      (fun ending t' m' => ResolvedAndContained ns name ipfs defaults allowed answers m t' m' ∧
        DoneUnlessFailed (ending = .done) (ending = .requeue .child) t') t m := by
  refine (meets_resolveIdentity hm).bind fun result t₁ m₁ h => ?_
  obtain ⟨resolved, rfl⟩ := h.works hsecret hresolves
  have hresolved := h.resolved resolved rfl
  refine (meets_applyChildren (hm.of_objects h.same) (hmanages.isDeclared hm) defaults
    hresolved).mono fun ending t₂ m₂ h₂ => ?_
  obtain ⟨tried, hcomplete, hprogress⟩ := h₂
  have hnofail₁ (child : Child) : ¬ Failed child t₁ := (h.told child).not.mpr (hnofail child)
  obtain ⟨hcontained, hended⟩ := hprogress.contained hnofail₁ hcomplete
  exact ⟨.of_objects ⟨resolved, hresolved, hcontained⟩ h.same, hended⟩

theorem contained_reconcile (hm : m.WellFormed ns name) (hmanages : m.Manages ns name ipfs)
    (hdeclaration : Exempts allowed .get .ipfs) (hsecret : Exempts allowed .get .secret)
    (hresolves : m.identity? (Child.secret.key ns name) = none → Dependable answers) :
    (reconcile defaults ns name).Meets (isolated allowed answers)
      (fun result t' m' => ResolvedAndContained ns name ipfs defaults allowed answers m t' m' ∧
        DoneUnlessFailed (result = .ok .done) (result = .ok .requeue) t') [] m := by
  refine meets_reconcile_of_managed hmanages (fun _ _ _ hunread => absurd hdeclaration hunread)
    fun m₁ hrely => ?_
  obtain ⟨hsame, -⟩ := isolated_rely hrely
  have hresolves₁ (hlost : m₁.identity? (Child.secret.key ns name) = none) : Dependable answers :=
    hresolves ((identity?_congr (get?_of_objects hsame _)).symm.trans hlost)
  refine (contained_converge (hm.of_objects hsame) (hmanages.of_objects hsame) hsecret hresolves₁
    fun child => (failed_called _ _).not.mpr (not_failed_nil child)).mono
      fun ending t₂ m₂ h₂ record => ?_
  obtain ⟨hresult, hended⟩ := h₂
  refine ⟨(hresult.of_objects hsame).congr fun _ => failed_recorded record, ?_⟩
  refine hended.congr (fun _ => failed_recorded record) ?_ ?_
  · rintro rfl
    rfl
  · rintro rfl
    rfl

/-- A pass that has the store to itself, with failures in force and an identity source that would give
that answer, both from beginning to end. -/
def attempt (defaults : WorkloadDefaults) (ns name : String)
    (answer : Except IdentityError Identity) (failures : List Failure) (m : Memory) :
    Except ReconcileError Outcome × Session :=
  (reconcile defaults ns name).run (Session.handler (fun _ => answer) fun _ => failures) ⟨m, []⟩

section Attempt

variable {answer : Except IdentityError Identity}

theorem contained_attempt (defaults : WorkloadDefaults) (failures : List Failure)
    (hm : m.WellFormed ns name) (hmanages : m.Manages ns name ipfs)
    (hresolves : m.identity? (Child.secret.key ns name) = none → ∃ identity, answer = .ok identity)
    (hdeclaration : ∀ f ∈ failures, f.kind ≠ .ipfs)
    (hsecret : ∀ f ∈ failures, f.kind = .secret → f.op ≠ .get) :
    let ended := attempt defaults ns name answer failures m
    ResolvedAndContained ns name ipfs defaults (· = failures) (· = answer) m ended.2.trace
        ended.2.memory ∧
      DoneUnlessFailed (ended.1 = .ok .done) (ended.1 = .ok .requeue) ended.2.trace := by
  have hdeclaration' : Exempts (· = failures) .get .ipfs := by
    rintro _ rfl f hf hkind
    exact absurd hkind (hdeclaration f hf)
  have hsecret' : Exempts (· = failures) .get .secret := by
    rintro _ rfl
    exact hsecret
  have hresolves' (hlost : m.identity? (Child.secret.key ns name) = none) :
      Dependable (· = answer) := by
    rintro e rfl
    obtain ⟨identity, hidentity⟩ := hresolves hlost
    cases hidentity
  exact (contained_reconcile hm hmanages hdeclaration' hsecret' hresolves').run _ _ ⟨m, []⟩
    (fun _ _ => ⟨_, rfl, rfl⟩) fun _ => rfl

/-- A child whose kind no failure is for does not fail. -/
theorem Contained.not_failed {failures : List Failure} {made : Child → Json} {start : Memory}
    {child : Child} (h : Contained ns name (· = failures) made start t m)
    (hspared : ∀ f ∈ failures, f.kind ≠ (child.key ns name).kind) : ¬ Failed child t := by
  refine fun hfailed => h.blamed child hfailed fun op => ?_
  rintro _ rfl f hf hkind
  exact absurd hkind (hspared f hf)

/-- Whatever fails in a pass over a well-formed store, but for the reads of the declaration and of the
Secret: a child whose kind no failure is for does not fail; a child that does not fail ends as in a
pass without failures up to uid and version, but that the config map is left alone if the Secret is
not stored; a child that fails is left alone; and the pass is done just if no child failed. -/
theorem failures_isolated (defaults : WorkloadDefaults) (failures : List Failure)
    (hm : m.WellFormed ns name) (hmanages : m.Manages ns name ipfs)
    (hresolves : m.identity? (Child.secret.key ns name) = none → ∃ identity, answer = .ok identity)
    (hdeclaration : ∀ f ∈ failures, f.kind ≠ .ipfs)
    (hsecret : ∀ f ∈ failures, f.kind = .secret → f.op ≠ .get) :
    let troubled := attempt defaults ns name answer failures m
    let untroubled := attempt defaults ns name answer [] m
    (∀ child, (∀ f ∈ failures, f.kind ≠ (child.key ns name).kind) →
      ¬ Failed child troubled.2.trace) ∧
      (∀ child, ¬ Failed child troubled.2.trace →
        (child = .config → ¬ Failed .secret troubled.2.trace) →
          (troubled.2.memory.get? (child.key ns name)).map Json.unstamped =
            (untroubled.2.memory.get? (child.key ns name)).map Json.unstamped) ∧
      (Failed .secret troubled.2.trace → troubled.2.memory.get? (Child.config.key ns name) =
        m.get? (Child.config.key ns name)) ∧
      (∀ child, Failed child troubled.2.trace →
        troubled.2.memory.get? (child.key ns name) = m.get? (child.key ns name)) ∧
      (troubled.1 = .ok .done ∧ (∀ child, ¬ Failed child troubled.2.trace) ∨
        troubled.1 = .ok .requeue ∧ ∃ child, Failed child troubled.2.trace) := by
  intro troubled untroubled
  obtain ⟨⟨resolved, hresolved, hcontained⟩, hended⟩ :=
    contained_attempt defaults failures hm hmanages hresolves hdeclaration hsecret
  obtain ⟨⟨resolved', hresolved', huntroubled⟩, -⟩ :=
    contained_attempt defaults [] hm hmanages hresolves (fun _ hf => absurd hf List.not_mem_nil)
      fun _ hf => absurd hf List.not_mem_nil
  -- both passes go on with the same identity, so they want the same children
  cases hresolved.unique hresolved'
  refine ⟨fun child hspared => hcontained.not_failed hspared, fun child hworked hconfig => ?_,
    hcontained.waits, hcontained.untouched, hended⟩
  have hall (child : Child) : ¬ Failed child untroubled.2.trace :=
    huntroubled.not_failed fun _ hf => absurd hf List.not_mem_nil
  rw [hcontained.stored child hworked hconfig]
  exact (huntroubled.stored child (hall child) fun _ => hall .secret).symm

def sampleAttempt (failures : List Failure) : Except ReconcileError Outcome × Session :=
  attempt .standard "default" "ipfs" (.ok (.constant 0)) failures .declared

/-- If Services cannot be created, the StatefulSet of the sample declaration, which comes after the
Service, ends as it would otherwise. -/
theorem failures_isolated_service :
    ¬ Failed .statefulSet (sampleAttempt [⟨.create, .service, .transport "down"⟩]).2.trace ∧
      ((sampleAttempt [⟨.create, .service, .transport "down"⟩]).2.memory.get?
        (Child.statefulSet.key "default" "ipfs")).map Json.unstamped =
          ((sampleAttempt []).2.memory.get?
            (Child.statefulSet.key "default" "ipfs")).map Json.unstamped := by
  have hresolves (_ : Memory.declared.identity? (Child.secret.key "default" "ipfs") = none) :
      ∃ identity, (.ok (.constant 0) : Except IdentityError Identity) = .ok identity := ⟨_, rfl⟩
  obtain ⟨hspared, hsame, -⟩ := failures_isolated .standard [⟨.create, .service, .transport "down"⟩]
    wellFormed_declared manages_declared hresolves (List.forall_mem_singleton.mpr Kind.noConfusion)
    (List.forall_mem_singleton.mpr Kind.noConfusion)
  have hworked := hspared .statefulSet (List.forall_mem_singleton.mpr Kind.noConfusion)
  exact ⟨hworked, hsame .statefulSet hworked nofun⟩

end Attempt

end Reconcile

end ClusterKeeper
