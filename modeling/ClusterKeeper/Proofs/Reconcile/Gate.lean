import ClusterKeeper.Proofs.Program.Replay
import ClusterKeeper.Proofs.Reconcile.Finalizers

/-!
The gate before the children: a pass writes none of them unless it read a managed declaration, could
read the Secret, and has an identity. All other ways through a pass leave the store as it was, but for
an update of the declaration itself.
-/

namespace ClusterKeeper

open Memory

namespace Reconcile

/-- The identity that a Secret, as read, keeps, if it can be used. -/
def usableIdentity? (found : Option Resource) : Option Identity :=
  (found.bind persistedIdentity).bind Except.toOption

/-! ### What asks for no identity -/

theorem neverDraws_createOrPatch (desired : Resource) : (createOrPatch desired).NeverDraws := by
  rw [createOrPatch]
  cases desired.key with
  | error e => trivial
  | ok key =>
      -- the patch comes only after the answer that the object exists
      intro created
      rcases created with e | reply
      · cases e with
        | alreadyExists object =>
            intro found
            rcases found with e | _ | live
            · trivial
            · trivial
            · cases hchanges : live.body.patchChanges desired.mergePatch with
              | false =>
                  simp only [Program.bind, hchanges, Bool.false_eq_true, if_false]
                  trivial
              | true =>
                  simp only [Program.bind, hchanges, if_true]
                  intro patched
                  rcases patched with e | reply <;> trivial
        | _ => trivial
      · trivial

theorem neverDraws_recordApply (kind : Kind) (what : String)
    (result : Except StoreError ApplyOutcome) : (recordApply kind what result).NeverDraws := by
  cases result <;> trivial

theorem neverDraws_applyChild (desired : Resource) (what : String) :
    (applyChild desired what).NeverDraws :=
  (neverDraws_createOrPatch desired).bind (neverDraws_recordApply _ _)

theorem neverDraws_applySecret (resolved : ResolvedIdentity) (desired : Resource) :
    (applySecret resolved desired).NeverDraws := by
  refine Program.NeverDraws.bind ?_ (neverDraws_recordApply _ _)
  cases resolved with
  | persisted identity => exact neverDraws_createOrPatch desired
  | fresh identity => exact fun _ => trivial
  | replacing identity live => exact fun _ => trivial

theorem neverDraws_applyChildren (resolved : ResolvedIdentity) (children : Children) :
    (applyChildren resolved children).NeverDraws := by
  have hconfig (stored : Bool) :
      (applyConfig stored children.configConfigMap.resource).NeverDraws := by
    cases stored with
    | false => trivial
    | true => exact neverDraws_applyChild _ _
  refine (neverDraws_applySecret _ _).bind fun secret => (hconfig secret).bind fun config => ?_
  refine (neverDraws_applyChild _ _).bind fun account => ?_
  refine (neverDraws_applyChild _ _).bind fun service => ?_
  refine (neverDraws_applyChild _ _).bind fun scripts => ?_
  refine (neverDraws_applyChild _ _).bind fun statefulSet => ?_
  split <;> trivial

/-! ### The ways through a pass -/

variable {ns name : String}

def readDeclaration (ns name : String) (reply : Except StoreError (Option Resource)) : Trace :=
  [.called (.get ⟨.ipfs, ns, name⟩) reply]

@[simp] theorem writes_readDeclaration (reply : Except StoreError (Option Resource)) :
    (readDeclaration ns name reply).writes = [] := rfl

@[simp] theorem draws_readDeclaration (reply : Except StoreError (Option Resource)) :
    (readDeclaration ns name reply).draws = [] := rfl

/-- How the search for an identity ended, begun after `t`. -/
inductive SearchPath (ns name : String) (t : Trace) :
    Except ReconcileError ResolvedIdentity → Trace → Prop where
  | unreadable {e : StoreError} {error : ReconcileError} :
    SearchPath ns name t (.error error)
      (.called (.get (Child.secret.key ns name)) (Except.error e) :: t)
  | kept {found : Option Resource} {identity : Identity} {resolved : ResolvedIdentity}
      (told : List Event) (h : usableIdentity? found = some identity) :
    SearchPath ns name t (.ok resolved)
      (told.map .reported ++ .called (.get (Child.secret.key ns name)) (Except.ok found) :: t)
  | drew {found : Option Resource} {identity : Identity} {resolved : ResolvedIdentity}
      {warned : List Event} (told : List Event) (h : usableIdentity? found = none) :
    SearchPath ns name t (.ok resolved) ((told.map .reported ++ .drew (.ok identity) ::
      warned.map .reported) ++ .called (.get (Child.secret.key ns name)) (Except.ok found) :: t)
  | failed {found : Option Resource} {e : IdentityError} {error : ReconcileError}
      {warned : List Event} (h : usableIdentity? found = none) :
    SearchPath ns name t (.error error) ((.drew (.error e) :: warned.map .reported) ++
      .called (.get (Child.secret.key ns name)) (Except.ok found) :: t)

/-- Asking for an identity after the Secret was read as absent or unusable. -/
theorem follows_newIdentity {t : Trace} {found : Option Resource} (warned : List Event)
    (h : usableIdentity? found = none) (resolve : Identity → ResolvedIdentity) :
    (do
      let generated ← generateIdentity
      pure (generated.map resolve) : Program (Except ReconcileError ResolvedIdentity)).Follows
      (fun _ _ => True) (fun result t' => SearchPath ns name t result t')
      (warned.map .reported ++
        .called (.get (Child.secret.key ns name)) (Except.ok found) :: t) := by
  intro answer
  cases answer with
  | error e => exact .failed h
  | ok identity => exact .drew [.recorded (.identity "generated")] h

theorem follows_resolveIdentity_path (t : Trace) :
    (resolveIdentity ns (ChildNames.ofCluster name).secret).Follows (fun _ _ => True)
      (fun result t' => SearchPath ns name t result t') t := by
  refine ⟨trivial, fun found => ?_⟩
  rcases found with e | _ | secret
  · exact .unreadable
  · exact follows_newIdentity [] rfl _
  · rcases hkept : persistedIdentity secret with _ | e | identity
    · simp only [Program.bind, hkept]
      have hunusable : usableIdentity? (some secret) = none := by simp [usableIdentity?, hkept]
      exact follows_newIdentity [.warned _] hunusable _
    · simp only [Program.bind, hkept]
      have hunusable : usableIdentity? (some secret) = none := by
        simp [usableIdentity?, hkept, Except.toOption]
      exact follows_newIdentity [.warned _] hunusable _
    · simp only [Program.bind, hkept]
      have husable : usableIdentity? (some secret) = some identity := by
        simp [usableIdentity?, hkept, Except.toOption]
      exact .kept [.recorded (.identity "persisted")] husable

/-- The ways through a pass, by what it read and drew. What it did after it had an identity is left
open, but that it drew no other. -/
inductive PassPath (ns name : String) : Except ReconcileError Outcome → Trace → Prop where
  | unreadable {e : StoreError} (told : List Event) :
    PassPath ns name (.error (.fetch ns name e))
      (told.map .reported ++ readDeclaration ns name (.error e))
  | absent (told : List Event) :
    PassPath ns name (.ok .done) (told.map .reported ++ readDeclaration ns name (.ok none))
  | released {ipfs : Resource} (told : List Event)
      (hstate : FinalizerState.observe ipfs finalizerToken = .released) :
    PassPath ns name (.ok .done) (told.map .reported ++ readDeclaration ns name (.ok (some ipfs)))
  | unmanaged {ipfs : Resource} {reply : Except StoreError Resource} (told : List Event)
      (hstate : FinalizerState.observe ipfs finalizerToken = .unmanaged) :
    PassPath ns name (.ok .requeue) (told.map .reported ++
      .called (.update (ipfs.withFinalizer finalizerToken)) reply ::
        readDeclaration ns name (.ok (some ipfs)))
  | terminating {ipfs : Resource} {reply : Except StoreError Resource} {outcome : Outcome}
      (told : List Event) (hstate : FinalizerState.observe ipfs finalizerToken = .terminating) :
    PassPath ns name (.ok outcome) (told.map .reported ++
      .called (.update (ipfs.withoutFinalizer finalizerToken)) reply ::
        readDeclaration ns name (.ok (some ipfs)))
  | lookupFailed {ipfs : Resource} {e : StoreError} (told : List Event)
      (hstate : FinalizerState.observe ipfs finalizerToken = .managed) :
    PassPath ns name (.ok .requeue) (told.map .reported ++
      .called (.get (Child.secret.key ns name)) (Except.error e) ::
        readDeclaration ns name (.ok (some ipfs)))
  | drawFailed {ipfs : Resource} {found : Option Resource} {e : IdentityError}
      {warned : List Event} (told : List Event)
      (hstate : FinalizerState.observe ipfs finalizerToken = .managed)
      (hunusable : usableIdentity? found = none) :
    PassPath ns name (.ok .requeue)
      ((told.map .reported ++ .drew (.error e) :: warned.map .reported) ++
        .called (.get (Child.secret.key ns name)) (Except.ok found) ::
          readDeclaration ns name (.ok (some ipfs)))
  | kept {ipfs : Resource} {found : Option Resource} {identity : Identity} {outcome : Outcome}
      (later : Trace) (hstate : FinalizerState.observe ipfs finalizerToken = .managed)
      (husable : usableIdentity? found = some identity) (hlater : later.draws = []) :
    PassPath ns name (.ok outcome)
      (later ++ .called (.get (Child.secret.key ns name)) (Except.ok found) ::
        readDeclaration ns name (.ok (some ipfs)))
  | drew {ipfs : Resource} {found : Option Resource} {identity : Identity} {outcome : Outcome}
      {warned : List Event} (later : Trace)
      (hstate : FinalizerState.observe ipfs finalizerToken = .managed)
      (hunusable : usableIdentity? found = none) (hlater : later.draws = []) :
    PassPath ns name (.ok outcome) ((later ++ .drew (.ok identity) :: warned.map .reported) ++
      .called (.get (Child.secret.key ns name)) (Except.ok found) ::
        readDeclaration ns name (.ok (some ipfs)))

theorem PassPath.report {result : Except ReconcileError Outcome} {t : Trace}
    (h : PassPath ns name result t) (event : Event) :
    PassPath ns name result (.reported event :: t) := by
  cases h with
  | @unreadable e told => exact .unreadable (event :: told)
  | @absent told => exact .absent (event :: told)
  | @released ipfs told hstate => exact .released (event :: told) hstate
  | @unmanaged ipfs reply told hstate => exact .unmanaged (event :: told) hstate
  | @terminating ipfs reply outcome told hstate =>
      exact .terminating (event :: told) hstate
  | @lookupFailed ipfs e told hstate => exact .lookupFailed (event :: told) hstate
  | @drawFailed ipfs found e warned told hstate hunusable =>
      exact .drawFailed (event :: told) hstate hunusable
  | @kept ipfs found identity outcome later hstate husable hlater =>
      exact .kept (.reported event :: later) hstate husable hlater
  | @drew ipfs found identity outcome warned later hstate hunusable hlater =>
      exact .drew (.reported event :: later) hstate hunusable hlater

theorem add_of_unmanaged {ipfs : Resource}
    (h : FinalizerState.observe ipfs finalizerToken = .unmanaged) :
    Finalizer.add ipfs finalizerToken = Program.update (ipfs.withFinalizer finalizerToken) := by
  refine if_neg fun hhas => ?_
  rw [FinalizerState.observe, hhas] at h
  cases hterminating : ipfs.isTerminating <;> simp [hterminating] at h

theorem remove_of_terminating {ipfs : Resource}
    (h : FinalizerState.observe ipfs finalizerToken = .terminating) :
    Finalizer.remove ipfs finalizerToken =
      Program.update (ipfs.withoutFinalizer finalizerToken) := by
  refine if_pos ?_
  rw [FinalizerState.observe] at h
  cases hhas : ipfs.hasFinalizer finalizerToken with
  | true => rfl
  | false => cases hterminating : ipfs.isTerminating <;> simp [hterminating, hhas] at h

theorem follows_adopt_path {ipfs : Resource}
    (hstate : FinalizerState.observe ipfs finalizerToken = .unmanaged) :
    (adopt ns name ipfs).Follows (fun _ _ => True)
      (fun ending t => PassPath ns name (.ok ending.outcome) t)
      (readDeclaration ns name (.ok (some ipfs))) := by
  rw [adopt, add_of_unmanaged hstate]
  refine ⟨trivial, fun reply => ?_⟩
  rcases reply with e | updated
  · exact .unmanaged [_, _] hstate
  · exact .unmanaged [] hstate

theorem follows_release_path {ipfs : Resource}
    (hstate : FinalizerState.observe ipfs finalizerToken = .terminating) :
    (release ns name ipfs).Follows (fun _ _ => True)
      (fun ending t => PassPath ns name (.ok ending.outcome) t)
      (readDeclaration ns name (.ok (some ipfs))) := by
  rw [release, remove_of_terminating hstate]
  refine ⟨trivial, fun reply => ?_⟩
  rcases reply with e | updated
  · exact .terminating [_, _] hstate
  · exact .terminating [] hstate

theorem follows_converge_path (defaults : WorkloadDefaults) {ipfs : Resource}
    (hstate : FinalizerState.observe ipfs finalizerToken = .managed) :
    (converge defaults ns name ipfs).Follows (fun _ _ => True)
      (fun ending t => PassPath ns name (.ok ending.outcome) t)
      (readDeclaration ns name (.ok (some ipfs))) := by
  refine (follows_resolveIdentity_path _).bind fun result t _ hsearch => ?_
  cases hsearch with
  | unreadable => exact .lookupFailed [_, _] hstate
  | failed hunusable => exact .drawFailed [_, _] hstate hunusable
  | @kept found identity resolved told husable =>
      refine (neverDraws_applyChildren _ _).follows.mono fun ending t' _ hlater => ?_
      obtain ⟨later, rfl, hdraws⟩ := hlater
      -- what the search reported counts as done later
      rw [← List.append_assoc]
      exact .kept (later ++ told.map .reported) hstate husable (by simp [hdraws])
  | @drew found identity resolved warned told hunusable =>
      refine (neverDraws_applyChildren _ _).follows.mono fun ending t' _ hlater => ?_
      obtain ⟨later, rfl, hdraws⟩ := hlater
      rw [← List.append_assoc, ← List.append_assoc]
      exact .drew (later ++ told.map .reported) hstate hunusable (by simp [hdraws])

theorem follows_pass_path (defaults : WorkloadDefaults) (ns name : String) :
    (pass defaults ns name).Follows (fun _ _ => True)
      (fun result t => PassPath ns name (result.map Ending.outcome) t) [] := by
  refine ⟨trivial, fun found => ?_⟩
  rcases found with e | _ | ipfs
  · exact .unreadable [_]
  · exact .absent []
  · cases hstate : FinalizerState.observe ipfs finalizerToken <;>
      simp only [Program.bind, hstate]
    case unmanaged => exact (follows_adopt_path hstate).bind fun _ _ _ h => h
    case managed => exact (follows_converge_path defaults hstate).bind fun _ _ _ h => h
    case terminating => exact (follows_release_path hstate).bind fun _ _ _ h => h
    case released => exact .released [] hstate

/-- Whatever a pass is answered, it goes one of these ways. -/
theorem follows_reconcile_path (defaults : WorkloadDefaults) (ns name : String) :
    (reconcile defaults ns name).Follows (fun _ _ => True) (PassPath ns name) [] := by
  refine (follows_pass_path defaults ns name).bind fun result t _ hpath => ?_
  rcases result with e | _ | reason
  · exact hpath.report _
  · exact hpath.report _
  · exact hpath.report _

/-! ### A pass alone on a store -/

/-- The pass asked for no change, and the store is as it was but for the failures in force. -/
def Untouched (m : Memory) (s : Session) : Prop :=
  s.trace.writes = [] ∧ s.memory.clearFailures = m.clearFailures

/-- The pass asked for one change, an update with the object, and the store is as that left it. -/
def OnlyUpdates (m : Memory) (s : Session) (object : Resource) : Prop :=
  s.trace.writes = [.update object] ∧
    ∃ failures, s.memory.clearFailures =
      (({ m with failures } : Memory).update object).2.clearFailures

section

variable (faults : Trace → List Failure) (ns name : String) (m : Memory)

def declarationRead : Except StoreError (Option Resource) :=
  Session.read faults ⟨m, []⟩ ⟨.ipfs, ns, name⟩

def secretRead (ipfs : Resource) : Except StoreError (Option Resource) :=
  Session.read faults ⟨m, readDeclaration ns name (.ok (some ipfs))⟩ (Child.secret.key ns name)

/-- How a pass ends, by what it read and what the source answered, and what it did to the store if it
ended before the children. -/
def Decided (source : Trace → Except IdentityError Identity)
    (result : Except ReconcileError Outcome) (s : Session) : Prop :=
  match declarationRead faults ns name m with
  | .error e => result = .error (.fetch ns name e) ∧ Untouched m s
  | .ok none => result = .ok .done ∧ Untouched m s
  | .ok (some ipfs) =>
    match FinalizerState.observe ipfs finalizerToken with
    | .released => result = .ok .done ∧ Untouched m s
    | .unmanaged => result = .ok .requeue ∧ OnlyUpdates m s (ipfs.withFinalizer finalizerToken)
    | .terminating =>
      (∃ outcome, result = .ok outcome) ∧ OnlyUpdates m s (ipfs.withoutFinalizer finalizerToken)
    | .managed =>
      match secretRead faults ns name m ipfs with
      | .error _ => result = .ok .requeue ∧ Untouched m s
      | .ok found =>
        match usableIdentity? found with
        | some _ => s.trace.draws = []
        | none => ∃ t, s.trace.draws = [source t] ∧
          ∀ e, source t = .error e → result = .ok .requeue ∧ Untouched m s

/-- The declaration was read as managed, the Secret could be read, and there is an identity: the
Secret keeps one that can be used, or else one was drawn. -/
def Opened (t : Trace) : Prop :=
  ∃ ipfs found, declarationRead faults ns name m = .ok (some ipfs) ∧
    FinalizerState.observe ipfs finalizerToken = .managed ∧
    secretRead faults ns name m ipfs = .ok found ∧
    ((usableIdentity? found).isSome ∨ usableIdentity? found = none ∧
      ∃ identity, t.draws = [.ok identity])

/-- The identity source was not asked, or it was asked once, when all that the pass had done was to
read the declaration, and then the Secret as absent or unusable. -/
def AskedAfterRead (t : Trace) : Prop :=
  t.draws = [] ∨ ∃ (later : Trace) (warned : List Event) (answer : Except IdentityError Identity)
      (found : Option Resource) (ipfs : Resource),
    t = (later ++ .drew answer :: warned.map .reported) ++
      .called (.get (Child.secret.key ns name)) (Except.ok found) ::
        readDeclaration ns name (.ok (some ipfs)) ∧
    later.draws = [] ∧ usableIdentity? found = none

end

section

variable {source : Trace → Except IdentityError Identity} {faults : Trace → List Failure}
  {m m' : Memory} {front : Trace} {reply found : Except StoreError (Option Resource)}

theorem declarationRead_of_leads
    (h : (front ++ readDeclaration ns name reply).Leads source faults m m') :
    declarationRead faults ns name m = reply ∧
      (front.writes = [] → m'.clearFailures = m.clearFailures) := by
  obtain ⟨before, ⟨start, rfl, hperform⟩, hsame⟩ := h.exists_of_append
  obtain ⟨hreply, rfl⟩ := Prod.mk.inj hperform
  exact ⟨hreply, hsame⟩

theorem secretRead_of_leads {ipfs : Resource}
    (h : (front ++ .called (.get (Child.secret.key ns name)) found ::
      readDeclaration ns name (.ok (some ipfs))).Leads source faults m m') :
    declarationRead faults ns name m = .ok (some ipfs) ∧
      secretRead faults ns name m ipfs = found ∧
      (front.writes = [] → m'.clearFailures = m.clearFailures) := by
  obtain ⟨before, ⟨between, hleads, hperform⟩, hsame⟩ := h.exists_of_append
  obtain ⟨start, rfl, hfirst⟩ := hleads
  obtain ⟨hreply, rfl⟩ := Prod.mk.inj hfirst
  obtain ⟨hfound, rfl⟩ := Prod.mk.inj hperform
  exact ⟨hreply, hfound, hsame⟩

theorem onlyUpdates_of_leads {ipfs object : Resource} {updated : Except StoreError Resource}
    {told : List Event}
    (h : Trace.Leads source faults m (told.map .reported ++ .called (.update object) updated ::
      readDeclaration ns name (.ok (some ipfs))) m') :
    declarationRead faults ns name m = .ok (some ipfs) ∧
      ∃ failures, m'.clearFailures = (({ m with failures } : Memory).update object).2.clearFailures := by
  obtain ⟨before, ⟨between, hleads, hperform⟩, hsame⟩ := h.exists_of_append
  obtain ⟨start, rfl, hfirst⟩ := hleads
  obtain ⟨hreply, rfl⟩ := Prod.mk.inj hfirst
  obtain ⟨-, rfl⟩ := Prod.mk.inj hperform
  exact ⟨hreply, _, hsame (Trace.writes_reported told)⟩

theorem PassPath.decided {result : Except ReconcileError Outcome} {s : Session}
    (h : PassPath ns name result s.trace) (hleads : s.trace.Leads source faults m s.memory) :
    Decided faults ns name m source result s := by
  -- the way names the replies, and the replay shows that these are what the store answers
  obtain ⟨memory, t⟩ := s
  rw [Decided]
  cases h with
  | unreadable =>
      obtain ⟨hdeclaration, hsame⟩ := declarationRead_of_leads hleads
      simp only [hdeclaration]
      exact ⟨trivial, by simp, hsame (by simp)⟩
  | absent =>
      obtain ⟨hdeclaration, hsame⟩ := declarationRead_of_leads hleads
      simp only [hdeclaration]
      exact ⟨trivial, by simp, hsame (by simp)⟩
  | released _ hstate =>
      obtain ⟨hdeclaration, hsame⟩ := declarationRead_of_leads hleads
      simp only [hdeclaration, hstate]
      exact ⟨trivial, by simp, hsame (by simp)⟩
  | unmanaged _ hstate =>
      obtain ⟨hdeclaration, hupdated⟩ := onlyUpdates_of_leads hleads
      simp only [hdeclaration, hstate]
      exact ⟨trivial, by simp, hupdated⟩
  | terminating _ hstate =>
      obtain ⟨hdeclaration, hupdated⟩ := onlyUpdates_of_leads hleads
      simp only [hdeclaration, hstate]
      exact ⟨⟨_, rfl⟩, by simp, hupdated⟩
  | lookupFailed _ hstate =>
      obtain ⟨hdeclaration, hsecret, hsame⟩ := secretRead_of_leads hleads
      simp only [hdeclaration, hstate, hsecret]
      exact ⟨trivial, by simp, hsame (by simp)⟩
  | @drawFailed ipfs found e warned told hstate hunusable =>
      obtain ⟨hdeclaration, hsecret, hsame⟩ := secretRead_of_leads hleads
      obtain ⟨t, hanswer⟩ := hleads.exists_answer
      simp only [hdeclaration, hstate, hsecret, hunusable]
      exact ⟨t, by simp [← hanswer], fun _ _ => ⟨trivial, by simp, hsame (by simp)⟩⟩
  | kept _ hstate husable hlater =>
      obtain ⟨hdeclaration, hsecret, -⟩ := secretRead_of_leads hleads
      simp only [hdeclaration, hstate, hsecret, husable]
      simp [hlater]
  | @drew ipfs found identity outcome warned later hstate hunusable hlater =>
      obtain ⟨hdeclaration, hsecret, -⟩ := secretRead_of_leads hleads
      obtain ⟨t, hanswer⟩ := hleads.exists_answer
      simp only [hdeclaration, hstate, hsecret, hunusable]
      exact ⟨t, by simp [hlater, ← hanswer], fun e he => nomatch hanswer.trans he⟩

theorem PassPath.askedAfterRead {result : Except ReconcileError Outcome} {t : Trace}
    (h : PassPath ns name result t) : AskedAfterRead ns name t := by
  cases h with
  | drawFailed _ hstate hunusable =>
      exact .inr ⟨_, _, _, _, _, rfl, by simp, hunusable⟩
  | drew _ hstate hunusable hlater =>
      exact .inr ⟨_, _, _, _, _, rfl, hlater, hunusable⟩
  | kept _ hstate husable hlater => exact .inl (by simp [hlater])
  | _ => exact .inl (by simp)

theorem AskedAfterRead.length_draws_le {t : Trace} (h : AskedAfterRead ns name t) :
    t.draws.length ≤ 1 := by
  rcases h with hnone | ⟨later, warned, answer, found, ipfs, rfl, hlater, -⟩
  · simp [hnone]
  · simp [hlater]

/-- A child is written only through the gate. -/
theorem PassPath.opened {result : Except ReconcileError Outcome} {s : Session}
    (h : PassPath ns name result s.trace) (hleads : s.trace.Leads source faults m s.memory)
    {call : StoreCall} (hcall : call ∈ s.trace.writes) (hkind : call.kind ≠ .ipfs) :
    Opened faults ns name m s.trace := by
  have hdeclared {ipfs : Resource} (hread : declarationRead faults ns name m = .ok (some ipfs)) :
      ipfs.kind = .ipfs := by
    obtain ⟨raw, -, hreadas⟩ := exists_of_get hread
    exact (readAs_eq_ok_iff.mp hreadas).1
  obtain ⟨memory, t⟩ := s
  cases h with
  | unmanaged _ hstate =>
      obtain ⟨hdeclaration, -⟩ := onlyUpdates_of_leads hleads
      obtain rfl : call = _ := by simpa using hcall
      exact absurd (hdeclared hdeclaration) hkind
  | terminating _ hstate =>
      obtain ⟨hdeclaration, -⟩ := onlyUpdates_of_leads hleads
      obtain rfl : call = _ := by simpa using hcall
      exact absurd (hdeclared hdeclaration) hkind
  | kept _ hstate husable hlater =>
      obtain ⟨hdeclaration, hsecret, -⟩ := secretRead_of_leads hleads
      exact ⟨_, _, hdeclaration, hstate, hsecret, .inl (by simp [husable])⟩
  | @drew ipfs found identity outcome warned later hstate hunusable hlater =>
      obtain ⟨hdeclaration, hsecret, -⟩ := secretRead_of_leads hleads
      exact ⟨ipfs, found, hdeclaration, hstate, hsecret,
        .inr ⟨hunusable, identity, by simp [hlater]⟩⟩
  | _ => exact absurd hcall (by simp) -- the other ways ask for no change

/-- On a store whose versions are its own, the update of the declaration finds nothing but the
declaration. -/
theorem OnlyUpdates.get?_cases {ipfs : Resource} {finalizers : List String} {s : Session}
    (h : OnlyUpdates m s (ipfs.setMetadata "finalizers" (.texts finalizers)))
    (hm : m.Versioned) (hread : declarationRead faults ns name m = .ok (some ipfs))
    {other : ObjectKey} (hother : other ≠ ⟨.ipfs, ns, name⟩) :
    s.memory.get? other = m.get? other ∨ s.memory.get? other = none := by
  obtain ⟨-, failures, hupdated⟩ := h
  have hversioned : Versioned { m with failures } := hm.of_removal (Nat.le_refl _) fun h => h
  obtain ⟨raw, hraw, hreadas⟩ := exists_of_get hread
  have hsaw : SeenAs .ipfs ⟨.ipfs, ns, name⟩ ipfs { m with failures } :=
    ⟨_, raw, hversioned, .refl _, hraw, hreadas⟩
  have hobjects : s.memory.objects = (({ m with failures } : Memory).update
      (ipfs.setMetadata "finalizers" (.texts finalizers))).2.objects := by
    have hcleared := congrArg Memory.objects hupdated
    exact hcleared
  rw [get?_of_objects hobjects]
  rcases update_setFinalizers_cases hsaw finalizers with
    ⟨-, -, hrefused⟩ | ⟨found, m', -, -, -, hstores, hsettle⟩
  · exact .inl (hrefused.get? other)
  · rw [hsettle]
    cases hgone : (m'.settle ⟨.ipfs, ns, name⟩).get? other with
    -- the update removed the last finalizer, and what the declaration owned went with it
    | none => exact .inr rfl
    | some kept => exact .inl ((settle_get?_imp hgone).symm.trans (hstores.get?_of_ne hother))

theorem Untouched.get? {s : Session} (h : Untouched m s) (other : ObjectKey) :
    s.memory.get? other = m.get? other :=
  get?_of_objects (congrArg Memory.objects h.2) other

end

/-- A pass writes no child unless it read a managed declaration, could read the Secret, and has an
identity. How it ends otherwise is decided by what it read and drew: it leaves the store as it was, or
updates the declaration, and that alone. It asks for an identity at most once, and only after it read
the Secret as absent or unusable. -/
theorem reconcile_gated (source : Trace → Except IdentityError Identity)
    (faults : Trace → List Failure) (defaults : WorkloadDefaults) (ns name : String) (m : Memory) :
    let ended := (reconcile defaults ns name).run (Session.handler source faults) ⟨m, []⟩
    (∀ call ∈ ended.2.trace.writes, call.kind ≠ .ipfs → Opened faults ns name m ended.2.trace) ∧
      Decided faults ns name m source ended.1 ended.2 ∧
      (m.Versioned → ∀ ipfs, declarationRead faults ns name m = .ok (some ipfs) →
        FinalizerState.observe ipfs finalizerToken ≠ .managed →
        ∀ other, other ≠ ⟨.ipfs, ns, name⟩ →
          ended.2.memory.get? other = m.get? other ∨ ended.2.memory.get? other = none) ∧
      ended.2.trace.draws.length ≤ 1 ∧ AskedAfterRead ns name ended.2.trace := by
  intro ended
  have hpath : PassPath ns name ended.1 ended.2.trace :=
    Program.Follows.run (s := ⟨m, []⟩) (follows_reconcile_path defaults ns name)
  have hleads : ended.2.trace.Leads source faults m ended.2.memory :=
    Program.leads_run (reconcile defaults ns name) ⟨m, []⟩ rfl
  have hdecided := hpath.decided hleads
  refine ⟨fun call hcall hkind => hpath.opened hleads hcall hkind, hdecided, ?_,
    hpath.askedAfterRead.length_draws_le, hpath.askedAfterRead⟩
  intro hm ipfs hread hstate other hother
  simp only [Decided, hread] at hdecided
  cases hobserved : FinalizerState.observe ipfs finalizerToken with
  | unmanaged =>
      simp only [hobserved] at hdecided
      exact hdecided.2.get?_cases hm hread hother
  | managed => exact absurd hobserved hstate
  | terminating =>
      simp only [hobserved] at hdecided
      exact hdecided.2.get?_cases hm hread hother
  | released =>
      simp only [hobserved] at hdecided
      exact .inl (hdecided.2.get? other)

/-- The sample declaration is managed and has no Secret; with a source that fails, the pass over it
asks once and leaves the store alone. -/
theorem reconcile_gated_declared :
    let ended := (reconcile .standard "default" "ipfs").run
      (Session.handler (fun _ => .error .unseeded) fun _ => []) ⟨.declared, []⟩
    ended.1 = .ok .requeue ∧ ended.2.trace.draws = [.error .unseeded] ∧
      Untouched .declared ended.2 := by
  intro ended
  have hread : declarationRead (fun _ => []) "default" "ipfs" .declared =
      .ok (some ⟨.ipfs, .declared⟩) := rfl
  have hstate : FinalizerState.observe ⟨.ipfs, .declared⟩ finalizerToken = .managed := rfl
  have hsecret : secretRead (fun _ => []) "default" "ipfs" .declared ⟨.ipfs, .declared⟩ =
      .ok none := rfl
  have hunusable : usableIdentity? none = none := rfl
  have hdecided := (reconcile_gated (fun _ => .error .unseeded) (fun _ => []) .standard "default"
    "ipfs" .declared).2.1
  simp only [Decided, hread, hstate, hsecret, hunusable] at hdecided
  obtain ⟨t, hdraws, hfailed⟩ := hdecided
  exact ⟨(hfailed _ rfl).1, hdraws, (hfailed _ rfl).2⟩

end Reconcile

end ClusterKeeper
