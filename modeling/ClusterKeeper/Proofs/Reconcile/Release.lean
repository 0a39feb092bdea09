import ClusterKeeper.Proofs.Reconcile.Finalizers
import ClusterKeeper.Proofs.Reconcile.Independence

/-!
What a pass over a declaration does whose deletion was requested. It takes the token out; if other
finalizers are left the declaration stays and nothing else happens, and if none is left the declaration
goes with all that it owns, directly or through others, and with nothing else.
-/

namespace ClusterKeeper

open Memory Reconcile

/-- An object has the version of the document that it was read from. -/
theorem Resource.resourceVersion?_of_readAs {kind : Kind} {raw : Json} {r : Resource}
    (h : readAs kind raw = .ok r) :
    r.resourceVersion? = (raw.metadataField "resourceVersion").text? := by
  rw [resourceVersion?, metadata_get_text_of_readAs h (by decide)]

namespace Memory

variable {m m' : Memory} {ns name : String} {raw : Json} {ipfs : Resource} {finalizers : List String}
  {other : ObjectKey}

theorem isStale_setFinalizers (hread : readAs .ipfs raw = .ok ipfs) (finalizers : List String) :
    isStale raw (ipfs.setMetadata "finalizers" (.texts finalizers)) = false := by
  have hversion : (ipfs.setMetadata "finalizers" (.texts finalizers)).resourceVersion? =
      (raw.metadataField "resourceVersion").text? := by
    rw [Resource.resourceVersion?, Resource.metadata_setMetadata, Json.get,
      Json.get?_set_of_ne (by decide), ← Resource.resourceVersion?_of_readAs hread]
    rfl
  rw [isStale, hversion]
  simp

theorem update_setFinalizers_of_present (hfailure : m.failure? .update .ipfs = none)
    (hget : m.get? ⟨.ipfs, ns, name⟩ = some raw) (hread : readAs .ipfs raw = .ok ipfs)
    (hnamed : raw.IsNamed ⟨.ipfs, ns, name⟩) (finalizers : List String) :
    ∃ reply m', m.update (ipfs.setMetadata "finalizers" (.texts finalizers)) =
        (.ok reply, m'.settle ⟨.ipfs, ns, name⟩) ∧
      Stores m ⟨.ipfs, ns, name⟩
        (m.replacedDocument raw (ipfs.setMetadata "finalizers" (.texts finalizers))) m' := by
  have hkey : (ipfs.setMetadata "finalizers" (.texts finalizers)).key = .ok ⟨.ipfs, ns, name⟩ := by
    rw [Resource.key_setMetadata (by decide) (by decide)]
    exact Resource.key_of_named hread hnamed
  have hkind : (ipfs.setMetadata "finalizers" (.texts finalizers)).kind = .ipfs :=
    (readAs_eq_ok_iff.mp hread).1
  have hstored := readAs_replacedDocument m hread
    (show Schema.metadata.field? "finalizers" = some (.optional "finalizers" (.list .text)) from rfl)
    (Schema.outcome_optional_texts "finalizers" finalizers) (by decide) (by decide)
  have hreply := update_of_present (hkind ▸ hfailure) hkey hget
    (isStale_setFinalizers hread finalizers) hstored
  rcases m.update_cases (ipfs.setMetadata "finalizers" (.texts finalizers)) with
    ⟨e, herror, -⟩ | ⟨key, live, reply, m', hwritten, hlive, -, -, hanswer, hstores, hsettle⟩
  · cases hreply.symm.trans herror
  · cases hkey.symm.trans hwritten
    cases hget.symm.trans hlive
    exact ⟨reply, m', Prod.ext hanswer hsettle, hstores⟩

/-- With other finalizers left nothing but the declaration changes, and of it only the finalizers and
the version. -/
theorem settle_of_finalizers (hread : readAs .ipfs raw = .ok ipfs) (hothers : finalizers ≠ [])
    (h : Stores m ⟨.ipfs, ns, name⟩
      (m.replacedDocument raw (ipfs.setMetadata "finalizers" (.texts finalizers))) m') :
    (∃ after, (m'.settle ⟨.ipfs, ns, name⟩).get? ⟨.ipfs, ns, name⟩ = some after ∧
      readAs .ipfs after = .ok ((ipfs.setMetadata "finalizers" (.texts finalizers)).setMetadata
        "resourceVersion" (.str (toString (m.versions + 1))))) ∧
      ∀ other, other ≠ ⟨.ipfs, ns, name⟩ → (m'.settle ⟨.ipfs, ns, name⟩).get? other = m.get? other := by
  have hkept : (m.replacedDocument raw
      (ipfs.setMetadata "finalizers" (.texts finalizers))).isReleased = false := by
    rw [isReleased_setFinalizers m hread, List.isEmpty_eq_false_iff.mpr hothers, Bool.and_false]
  rw [settle_of_not_released h.get?_self hkept]
  refine ⟨⟨_, h.get?_self, ?_⟩, fun other hne => h.get?_of_ne hne⟩
  exact readAs_replacedDocument m hread rfl (Schema.outcome_optional_texts _ _) (by decide) (by decide)

/-- With none left a declaration that is to be deleted goes, with just what belongs to it at some
remove. -/
theorem settle_of_no_finalizers (hsorted : Keyed.Sorted m.objects)
    (hget : m.get? ⟨.ipfs, ns, name⟩ = some raw) (hread : readAs .ipfs raw = .ok ipfs)
    (hmarked : ipfs.isTerminating = true)
    (h : Stores m ⟨.ipfs, ns, name⟩
      (m.replacedDocument raw (ipfs.setMetadata "finalizers" (.texts []))) m') :
    (Relation.ReflTransGen (Owns m.objects) ⟨.ipfs, ns, name⟩ other →
      (m'.settle ⟨.ipfs, ns, name⟩).get? other = none) ∧
    (¬ Relation.ReflTransGen (Owns m.objects) ⟨.ipfs, ns, name⟩ other →
      (m'.settle ⟨.ipfs, ns, name⟩).get? other = m.get? other) := by
  have hreleased : (m.replacedDocument raw
      (ipfs.setMetadata "finalizers" (.texts []))).isReleased = true := by
    rw [isReleased_setFinalizers m hread, hmarked]
    rfl
  have huid := uid_replacedDocument m raw (ipfs.setMetadata "finalizers" (.texts []))
  rw [Memory.get?, settle_of_released h.get?_self hreleased]
  constructor
  · exact h.lookup_collect_of_owns hsorted hget huid
  · intro hunowned
    have hne : other ≠ ⟨.ipfs, ns, name⟩ := fun heq => hunowned (heq ▸ .refl)
    by_contra hgone
    exact hunowned (h.owns_of_collect hget huid hne hgone).to_reflTransGen

end Memory

namespace Reconcile

variable {ns name : String} {m : Memory} {raw : Json} {ipfs : Resource} {t : Trace}
  {defaults : WorkloadDefaults} {allowed : List Failure → Prop}
  {answers : Except IdentityError Identity → Prop}

/-- The store after an update took the token out of the declaration, whatever calls were to fail. -/
def TokenTaken (m : Memory) (key : ObjectKey) (raw : Json) (ipfs : Resource) (m' : Memory) : Prop :=
  ∃ failures m₁,
    Stores { m with failures } key
      ({ m with failures }.replacedDocument raw (ipfs.withoutFinalizer finalizerToken)) m₁ ∧
    m' = m₁.settle key

theorem meets_pass_of_terminating (hget : m.get? ⟨.ipfs, ns, name⟩ = some raw)
    (hread : readAs .ipfs raw = .ok ipfs) (hnamed : raw.IsNamed ⟨.ipfs, ns, name⟩)
    (hterminating : FinalizerState.observe ipfs finalizerToken = .terminating)
    (hexempts : ∀ op, Exempts allowed op .ipfs) :
    (pass defaults ns name).Meets (isolated allowed answers)
      (fun result _ m' => result = .ok .done ∧ TokenTaken m ⟨.ipfs, ns, name⟩ raw ipfs m') t m := by
  refine Program.meets_get fun m₁ hrely₁ => ?_
  have hfailures₁ := (isolated_rely hrely₁).2 .get .ipfs (hexempts .get)
  have hget₁ := (get?_of_objects (isolated_rely hrely₁).1 ⟨.ipfs, ns, name⟩).trans hget
  have hfound : m₁.get ⟨.ipfs, ns, name⟩ = .ok (some ipfs) := get_of_present hfailures₁ hget₁ hread
  obtain ⟨failures₁, -, rfl⟩ := hrely₁
  rw [hfound]
  have htoken : ipfs.hasFinalizer finalizerToken = true :=
    List.contains_iff_mem.mpr (FinalizerState.observe_eq_terminating_iff.mp hterminating).2
  simp only [hterminating, release, Finalizer.remove, htoken, if_true]
  refine Program.meets_update fun m₂ hrely₂ reply m₃ hupdate => ?_
  have hfailures₂ := (isolated_rely hrely₂).2 .update .ipfs (hexempts .update)
  have hget₂ := (get?_of_objects (isolated_rely hrely₂).1 ⟨.ipfs, ns, name⟩).trans hget₁
  obtain ⟨stored, m₄, hstored, hstores⟩ := update_setFinalizers_of_present hfailures₂ hget₂ hread
    hnamed (ipfs.finalizers.filter (· ≠ finalizerToken))
  obtain ⟨failures₂, -, rfl⟩ := hrely₂
  cases hstored.symm.trans hupdate
  exact ⟨rfl, failures₂, m₄, hstores, rfl⟩

/-- A pass over a declaration that is to be deleted and has the token: it is done, having taken the
token out, and stored nothing else. -/
theorem meets_reconcile_of_terminating (hget : m.get? ⟨.ipfs, ns, name⟩ = some raw)
    (hread : readAs .ipfs raw = .ok ipfs) (hnamed : raw.IsNamed ⟨.ipfs, ns, name⟩)
    (hterminating : FinalizerState.observe ipfs finalizerToken = .terminating)
    (hexempts : ∀ op, Exempts allowed op .ipfs) :
    (reconcile defaults ns name).Meets (isolated allowed answers)
      (fun result _ m' => result = .ok .done ∧ TokenTaken m ⟨.ipfs, ns, name⟩ raw ipfs m') t m := by
  refine (meets_pass_of_terminating hget hread hnamed hterminating hexempts).bind
    fun result t₁ m₁ h => ?_
  obtain ⟨rfl, htaken⟩ := h
  exact ⟨rfl, htaken⟩

/-- A pass over a declaration that is to be deleted, with no failure of calls on declarations, is done.
If the declaration has other finalizers than the token, only its finalizers and its version change; if
it has none, just those objects go that belong to it, itself and at some remove, by whatever chains of
owner references, and all others stay as they are. -/
theorem owned_subtree_released (defaults : WorkloadDefaults)
    (source : Trace → Except IdentityError Identity) (faults : Trace → List Failure)
    (hsorted : Keyed.Sorted m.objects) (hget : m.get? ⟨.ipfs, ns, name⟩ = some raw)
    (hread : readAs .ipfs raw = .ok ipfs) (hnamed : raw.IsNamed ⟨.ipfs, ns, name⟩)
    (hterminating : FinalizerState.observe ipfs finalizerToken = .terminating)
    (hfaults : ∀ t, ∀ f ∈ faults t, f.kind ≠ .ipfs) :
    let others := ipfs.finalizers.filter (· ≠ finalizerToken)
    let ended := (reconcile defaults ns name).run (Session.handler source faults) ⟨m, []⟩
    ended.1 = .ok .done ∧
      (others ≠ [] →
        (∃ after, ended.2.memory.get? ⟨.ipfs, ns, name⟩ = some after ∧ readAs .ipfs after =
          .ok ((ipfs.setMetadata "finalizers" (.texts others)).setMetadata "resourceVersion"
            (.str (toString (m.versions + 1))))) ∧
        ∀ other, other ≠ ⟨.ipfs, ns, name⟩ → ended.2.memory.get? other = m.get? other) ∧
      (others = [] → ∀ other,
        (Relation.ReflTransGen (Owns m.objects) ⟨.ipfs, ns, name⟩ other →
          ended.2.memory.get? other = none) ∧
        (¬ Relation.ReflTransGen (Owns m.objects) ⟨.ipfs, ns, name⟩ other →
          ended.2.memory.get? other = m.get? other)) := by
  intro others ended
  have hexempts (op : Op) : Exempts (fun failures => ∃ t, faults t = failures) op .ipfs := by
    rintro _ ⟨t, rfl⟩ f hf hkind
    exact absurd hkind (hfaults t f hf)
  have hmeets : (reconcile defaults ns name).Meets
      (isolated (fun failures => ∃ t, faults t = failures) fun _ => True) _ [] m :=
    meets_reconcile_of_terminating hget hread hnamed hterminating hexempts
  obtain ⟨hdone, failures, m₁, hstores, hsettle⟩ := hmeets.run source faults ⟨m, []⟩
    (fun t _ => ⟨_, ⟨t, rfl⟩, rfl⟩) fun _ => trivial
  have hended : ended.2.memory = m₁.settle ⟨.ipfs, ns, name⟩ := hsettle
  rw [hended]
  refine ⟨hdone, fun hothers => ?_, fun hnone other => ?_⟩
  · exact settle_of_finalizers (m := { m with failures }) hread hothers hstores
  · have hwithout : ipfs.withoutFinalizer finalizerToken =
        ipfs.setMetadata "finalizers" (.texts []) := congrArg _ (congrArg _ hnone)
    rw [hwithout] at hstores
    exact settle_of_no_finalizers (m := { m with failures }) hsorted hget hread
      (FinalizerState.observe_eq_terminating_iff.mp hterminating).1 hstores

section Tangled

def ownedBy (uid : String) (owners : List String) : Json :=
  .obj [("metadata", .obj [
    ("ownerReferences", .arr (owners.map fun owner => .obj [("uid", .str owner)])),
    ("uid", .str uid)])]

/-- A store in which the declaration owns the config map, this the secret and the service, and the
service the config map; the service account belongs to something that is not there. -/
def tangled : Memory :=
  ⟨[(⟨.configMap, "default", "a"⟩, ownedBy "uid-2" ["uid-1", "uid-4"]),
    (⟨.ipfs, "default", "ipfs"⟩, leaving.body),
    (⟨.secret, "default", "b"⟩, ownedBy "uid-3" ["uid-2"]),
    (⟨.service, "default", "c"⟩, ownedBy "uid-4" ["uid-8", "uid-3"]),
    (⟨.serviceAccount, "default", "d"⟩, ownedBy "uid-5" ["uid-9"])], 2, 5, [], []⟩

theorem owns_tangled {owner dependent : ObjectKey} {raw child : Json} (uid : String)
    (howner : tangled.get? owner = some raw) (huid : raw.metadataField "uid" = .str uid)
    (hchild : tangled.get? dependent = some child) (howned : child.isOwnedBy uid = true) :
    Owns tangled.objects owner dependent :=
  ⟨raw, child, uid, Keyed.mem_of_lookup howner, huid, Keyed.mem_of_lookup hchild, howned⟩

/-- The pass takes the declaration and, along the cycle, all that belongs to it; the service account
stays. A declaration that somebody else holds stays with their finalizer. -/
theorem owned_subtree_released_tangled :
    let ended (m : Memory) := (reconcile .standard "default" "ipfs").run
      (Session.handler (fun _ => .ok (.constant 0)) fun _ => []) ⟨m, []⟩
    (ended tangled).1 = .ok .done ∧
      (ended tangled).2.memory.get? ⟨.ipfs, "default", "ipfs"⟩ = none ∧
      (ended tangled).2.memory.get? ⟨.service, "default", "c"⟩ = none ∧
      (ended tangled).2.memory.get? ⟨.serviceAccount, "default", "d"⟩ =
        some (ownedBy "uid-5" ["uid-9"]) ∧
      ∃ after kept, (ended shared).2.memory.get? ⟨.ipfs, "default", "ipfs"⟩ = some after ∧
        readAs .ipfs after = .ok kept ∧ kept.finalizers = ["keep"] := by
  intro ended
  have hread : readAs .ipfs leaving.body = .ok leaving := rfl
  have hsorted : Keyed.Sorted tangled.objects := by
    unfold Keyed.Sorted
    decide
  obtain ⟨hdone, -, hremoved⟩ := owned_subtree_released .standard (fun _ => .ok (.constant 0))
    (fun _ => []) hsorted (show tangled.get? ⟨.ipfs, "default", "ipfs"⟩ = some leaving.body from rfl)
    hread ⟨rfl, rfl⟩ rfl (fun _ _ hf => absurd hf List.not_mem_nil)
  obtain ⟨-, hkept, -⟩ := owned_subtree_released .standard (fun _ => .ok (.constant 0))
    (fun _ => []) reachable_shared.sorted
    (show shared.get? ⟨.ipfs, "default", "ipfs"⟩ = some shown.body from rfl)
    (show readAs .ipfs shown.body = .ok shown from rfl) ⟨rfl, rfl⟩ rfl
    (fun _ _ hf => absurd hf List.not_mem_nil)
  obtain ⟨⟨after, hafter, hreadafter⟩, -⟩ := hkept (by decide)
  refine ⟨hdone, (hremoved rfl _).1 .refl, (hremoved rfl _).1 ?_, (hremoved rfl _).2 ?_,
    after, _, hafter, hreadafter, rfl⟩
  · have hconfig : Owns tangled.objects ⟨.ipfs, "default", "ipfs"⟩ ⟨.configMap, "default", "a"⟩ :=
      owns_tangled "uid-1" rfl rfl rfl rfl
    have hsecret : Owns tangled.objects ⟨.configMap, "default", "a"⟩ ⟨.secret, "default", "b"⟩ :=
      owns_tangled "uid-2" rfl rfl rfl rfl
    have hservice : Owns tangled.objects ⟨.secret, "default", "b"⟩ ⟨.service, "default", "c"⟩ :=
      owns_tangled "uid-3" rfl rfl rfl rfl
    exact ((Relation.ReflTransGen.single hconfig).tail hsecret).tail hservice
  · -- nothing that is stored has the uid that the service account names
    intro howns
    rcases howns.cases_tail with heq | ⟨owner, -, raw, child, uid, hraw, huid, hchild, howned⟩
    · cases heq
    · have hnames : ∀ a ∈ tangled.objects, ∀ b ∈ tangled.objects,
          b.1 = ⟨.serviceAccount, "default", "d"⟩ →
            ∀ uid ∈ (a.2.metadataField "uid").text?, b.2.isOwnedBy uid = false := by decide
      have hunowned := hnames _ hraw _ hchild rfl uid (by rw [huid]; rfl)
      cases hunowned.symm.trans howned

end Tangled

end Reconcile

end ClusterKeeper
