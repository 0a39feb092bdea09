import ClusterKeeper.Proofs.Reconcile.Idempotence
import ClusterKeeper.Proofs.Reconcile.Overwrite
import ClusterKeeper.Proofs.Store.Collection

/-!
What a pass does to a declaration that anybody else may change at any time. Its writes lose no update:
each leaves the object as it was just before, but for the version and the finalizers, and of the
finalizers it sees to its own token alone.
-/

namespace ClusterKeeper

open Memory Reconcile

namespace Memory

variable {kind : Kind} {raw : Json} {r : Resource} {field : Field Schema} {name : String} {value : Json}

/-- An object that is sent back as it was read, but for a metadata field, is stored as it was read but
for that field and the version. -/
theorem readAs_replacedDocument (m : Memory) (hread : readAs kind raw = .ok r)
    (hfield : Schema.metadata.field? name = some field)
    (hvalue : field.outcome (some value) = .ok (some value)) (huid : name ≠ "uid")
    (hmark : name ≠ "deletionTimestamp") :
    readAs kind (m.replacedDocument raw (r.setMetadata name value)) =
      .ok ((r.setMetadata name value).setMetadata "resourceVersion"
        (.str (toString (m.versions + 1)))) := by
  obtain ⟨hkind, hraw⟩ := readAs_eq_ok_iff.mp hread
  have hbody : kind.schema.read (r.setMetadata name value).body =
      .ok (r.setMetadata name value).body :=
    Kind.read_setMetadataField (Schema.read_written kind.isStable_schema hraw) hfield hvalue
  -- the uid and the mark of the stored document are those that the object was read with
  have hkept {other : String} {schema : Schema} (hne : other ≠ name)
      (hother : Schema.metadata.field? other = some (Field.optional other schema)) :
      (Field.optional other schema).outcome (some (raw.metadataField other)) =
        .ok (((r.setMetadata name value).body.get "metadata").get? other) := by
    have hsame : ((r.setMetadata name value).body.get "metadata").get? other =
        (r.body.get "metadata").get? other := by
      rw [show (r.setMetadata name value).body.get "metadata" = _ from
        Resource.metadata_setMetadata r name value, Json.get?_set_of_ne hne]
      rfl
    rw [hsame]
    exact Kind.outcome_metadata_optional hraw hother
  have hupdated : kind.schema.read (updatedDocument raw (r.setMetadata name value)) =
      .ok (r.setMetadata name value).body := by
    have huidfield := Schema.field?_metadata_text (show "uid" ∈ Schema.metadataTexts by decide)
    have huidread := Kind.read_setMetadataField_same hbody huidfield (hkept huid.symm huidfield)
    have hmarked := hkept hmark.symm Schema.field?_metadata_mark
    rw [updatedDocument]
    split
    · next hnull =>
        rw [Json.isNull_iff.mp hnull] at hmarked
        exact Kind.read_drop_metadata_same huidread Schema.field?_metadata_mark rfl
          (Except.ok.inj hmarked).symm (Json.get_metadata_setMetadataField _ _ _)
    · exact Kind.read_setMetadataField_same huidread Schema.field?_metadata_mark hmarked
  refine readAs_eq_ok_iff.mpr ⟨hkind, ?_⟩
  exact Kind.read_setMetadataField hupdated (Schema.field?_metadata_text (by decide)) rfl

end Memory

def Resource.finalizers (r : Resource) : List String := r.finalizers?.getD []

namespace FinalizerState

variable {r : Resource}

theorem observe_eq_unmanaged_iff : observe r finalizerToken = .unmanaged ↔
    r.isTerminating = false ∧ finalizerToken ∉ r.finalizers := by
  rw [Resource.finalizers, ← List.contains_iff_mem, ← Resource.hasFinalizer, observe]
  cases r.isTerminating <;> cases r.hasFinalizer finalizerToken <;> simp

theorem observe_eq_managed_iff : observe r finalizerToken = .managed ↔
    r.isTerminating = false ∧ finalizerToken ∈ r.finalizers := by
  rw [Resource.finalizers, ← List.contains_iff_mem, ← Resource.hasFinalizer, observe]
  cases r.isTerminating <;> cases r.hasFinalizer finalizerToken <;> simp

theorem observe_eq_terminating_iff : observe r finalizerToken = .terminating ↔
    r.isTerminating = true ∧ finalizerToken ∈ r.finalizers := by
  rw [Resource.finalizers, ← List.contains_iff_mem, ← Resource.hasFinalizer, observe]
  cases r.isTerminating <;> cases r.hasFinalizer finalizerToken <;> simp

end FinalizerState

theorem Cluster.kind_child_ne {cluster : Cluster} (identity : Identity) (defaults : WorkloadDefaults)
    (child : Child) : ((cluster.children identity defaults).resource child).kind ≠ .ipfs := by
  cases child <;> nofun

namespace Reconcile

/-- What a pass may make of the finalizers of a declaration: its token is appended if the object lacks
it and is to stay, and taken out, with all its copies, if deletion was requested. -/
inductive Transition (ipfs : Resource) : List String → Prop where
  | adopted (hlive : ipfs.isTerminating = false) (habsent : finalizerToken ∉ ipfs.finalizers) :
    Transition ipfs (ipfs.finalizers ++ [finalizerToken])
  | released (hmarked : ipfs.isTerminating = true) (hpresent : finalizerToken ∈ ipfs.finalizers) :
    Transition ipfs (ipfs.finalizers.filter (· ≠ finalizerToken))

variable {ns name : String} {t : Trace} {m m' : Memory} {c : StoreCall} {key : ObjectKey}
  {ipfs : Resource} {finalizers : List String} {raw : Json}

namespace Transition

/-- The finalizers of others stay, in their order. -/
theorem foreign (h : Transition ipfs finalizers) :
    finalizers.filter (· ≠ finalizerToken) = ipfs.finalizers.filter (· ≠ finalizerToken) := by
  cases h with
  | adopted => simp
  | released => simp

theorem count_le_one (h : Transition ipfs finalizers) : finalizers.count finalizerToken ≤ 1 := by
  cases h with
  | adopted hlive habsent => simp [List.count_eq_zero.mpr habsent]
  | released =>
      rw [List.count_eq_zero.mpr (by simp)]
      exact Nat.zero_le 1

theorem not_mem_of_isTerminating (h : Transition ipfs finalizers)
    (hmarked : ipfs.isTerminating = true) : finalizerToken ∉ finalizers := by
  cases h with
  | adopted hlive =>
      rw [hmarked] at hlive
      cases hlive
  | released => simp

end Transition

/-- What is stored with other finalizers is let go just if it is to be deleted and has none left. -/
theorem isReleased_setFinalizers (m : Memory) (hread : readAs .ipfs raw = .ok ipfs)
    (finalizers : List String) :
    (m.replacedDocument raw (ipfs.setMetadata "finalizers" (.texts finalizers))).isReleased =
      (ipfs.isTerminating && finalizers.isEmpty) := by
  have hmark : (!(raw.metadataField "deletionTimestamp").isNull) = ipfs.isTerminating := by
    have hiff := Resource.isTerminating_eq_false_iff hread
    rw [Json.IsUnmarked, ← Json.isNull_iff] at hiff
    cases hmark : ipfs.isTerminating <;> simp_all
  have hfinalizers : ((ipfs.setMetadata "finalizers" (.texts finalizers)).metadata.get
      "finalizers").items? = some (finalizers.map .str) := by
    rw [Resource.metadata_setMetadata, Json.get_of_get? (Json.get?_set_self _ _ _)]
    rfl
  rw [Json.isReleased, mark_replacedDocument, hmark,
    metadataField_replacedDocument (by decide) (by decide) (by decide), hfinalizers]
  simp

/-- A pass that writes the declaration makes a transition of the object that it read. -/
theorem Makes.exists_transition (hsaw : ∀ act ∈ t, act.Saw m) (h : Makes ns name t c)
    (hwrites : c.Writes key) (hkind : key.kind = .ipfs) :
    ∃ ipfs finalizers, .called (.get ⟨.ipfs, ns, name⟩) (Except.ok (some ipfs)) ∈ t ∧
      Transition ipfs finalizers ∧
      c = .update (ipfs.setMetadata "finalizers" (.texts finalizers)) := by
  have happlies {desired : Resource} (hdesired : desired.kind ≠ .ipfs) (h : Applies desired c) :
      False := hdesired ((h.kind_eq hwrites).trans hkind)
  cases h with
  | readDeclaration | readSecret => nomatch hwrites
  | @adopt ipfs hipfs =>
      obtain ⟨hlive, habsent⟩ := FinalizerState.observe_eq_unmanaged_iff.mp hipfs.2
      exact ⟨ipfs, _, hipfs.1, .adopted hlive habsent, rfl⟩
  | @release ipfs hipfs =>
      obtain ⟨hmarked, hpresent⟩ := FinalizerState.observe_eq_terminating_iff.mp hipfs.2
      exact ⟨ipfs, _, hipfs.1, .released hmarked hpresent, rfl⟩
  | secret hipfs hresolved h =>
      cases h with
      | persisted h => exact (happlies (Cluster.kind_child_ne _ .standard .secret) h).elim
      | fresh => exact (happlies (Cluster.kind_child_ne _ .standard .secret) .create).elim
      | replacing =>
          cases hresolved with
          | replacing hread =>
              obtain ⟨_, _, -, -, -, hreadas⟩ := hsaw _ hread _ _ rfl
              cases hwrites with
              | update hkey =>
                  have hlive := (Resource.named_of_key (replacementSecret_key.symm.trans hkey)).1
                  rw [(readAs_eq_ok_iff.mp hreadas).1, hkind] at hlive
                  cases hlive
  | config hipfs hresolved hstored h =>
      exact (happlies (Cluster.kind_child_ne _ .standard .config) h).elim
  | other hipfs hresolved hsecret hconfig h => exact (happlies (Cluster.kind_child_ne _ _ _) h).elim

/-- An update with other finalizers is refused, or finds under the key just the object that it changes,
if that was seen there. -/
theorem update_setFinalizers_cases (hsaw : SeenAs .ipfs key ipfs m) (finalizers : List String) :
    (∃ e, (m.update (ipfs.setMetadata "finalizers" (.texts finalizers))).1 = .error e ∧
      Refuses m (m.update (ipfs.setMetadata "finalizers" (.texts finalizers))).2) ∨
    ∃ raw m', (ipfs.setMetadata "finalizers" (.texts finalizers)).key = .ok key ∧
      m.get? key = some raw ∧ readAs .ipfs raw = .ok ipfs ∧
      Stores m key
        (m.replacedDocument raw (ipfs.setMetadata "finalizers" (.texts finalizers))) m' ∧
      (m.update (ipfs.setMetadata "finalizers" (.texts finalizers))).2 = m'.settle key := by
  have hversion : (ipfs.setMetadata "finalizers" (.texts finalizers)).resourceVersion? =
      ipfs.resourceVersion? := by
    rw [Resource.resourceVersion?, Resource.metadata_setMetadata, Json.get,
      Json.get?_set_of_ne (by decide)]
    rfl
  rcases m.update_cases (ipfs.setMetadata "finalizers" (.texts finalizers)) with
    hrefused | ⟨found, raw, reply, m', hkey, hget, hstale, -, -, hstores, hsettle⟩
  · exact .inl hrefused
  · obtain ⟨rfl, hread⟩ := hsaw.of_not_stale hversion hget hstale
    exact .inr ⟨raw, m', hkey, hget, hread, hstores, hsettle⟩

/-- What passes saw of a store that anything may happen to. -/
def watched (ns name : String) : Protocol ns name disturbed where
  inv := Versioned
  keeps := Since
  tells := Act.Saw
  refl := .refl
  trans := .trans
  stable := fun hsince h => h.since hsince
  call := fun hversioned _ _ =>
    ⟨⟨hversioned.perform _, since_perform _ _⟩, saw_called hversioned _⟩
  drew := fun _ _ _ _ => Act.noConfusion
  reported := fun _ _ _ _ => Act.noConfusion
  edit := fun hedit hversioned => hedit.versioned_since hversioned

/-- However passes interleave and whatever happens to the store between their calls: a pass that
writes a declaration makes a transition of the object that is stored right then, and leaves it as it
is but for the finalizers and the version; or lets it go, if it is to be deleted and no finalizer is
left. The finalizers of others are kept in their order, the token is never stored twice, and never put
on an object that is to be deleted. -/
theorem finalizer_transition {w : World} {thread : Thread} {next : c.Reply → Program _}
    (hrun : Relation.ReflTransGen (World.Step ns name disturbed) ⟨.empty, []⟩ w)
    (hthread : thread ∈ w.threads) (hcall : thread.rest = .call c next) (hwrites : c.Writes key)
    (hkind : key.kind = .ipfs)
    (hworked : ¬ (Act.called c (perform c w.memory).1).IsIdle) :
    ∃ raw ipfs finalizers, key = ⟨.ipfs, ns, name⟩ ∧ w.memory.get? key = some raw ∧
      readAs .ipfs raw = .ok ipfs ∧ Transition ipfs finalizers ∧
      (if ipfs.isTerminating ∧ finalizers = [] then (perform c w.memory).2.get? key = none
        else ∃ raw', (perform c w.memory).2.get? key = some raw' ∧ readAs .ipfs raw' =
          .ok ((ipfs.setMetadata "finalizers" (.texts finalizers)).setMetadata "resourceVersion"
            (.str (toString (w.memory.versions + 1))))) ∧
      finalizers.filter (· ≠ finalizerToken) = ipfs.finalizers.filter (· ≠ finalizerToken) ∧
      finalizers.count finalizerToken ≤ 1 ∧
      (ipfs.isTerminating = true → finalizerToken ∉ finalizers) := by
  have hstart : (watched ns name).WorldInvariant ⟨.empty, []⟩ := ⟨versioned_empty, nofun⟩
  obtain ⟨hfollows, hsaw⟩ := (hstart.run hrun).1.threads thread hthread
  rw [hcall] at hfollows
  obtain ⟨ipfs, finalizers, hread, htransition, rfl⟩ :=
    hfollows.1.exists_transition hsaw hwrites hkind
  rcases update_setFinalizers_cases (hsaw _ hread _ _ rfl) finalizers with
    ⟨e, herror, -⟩ | ⟨raw, m', hkey, hget, hreadas, hstores, hsettle⟩
  · exact absurd ⟨e, herror⟩ hworked
  cases hwrites with
  | update hwritten =>
      cases hkey.symm.trans hwritten
      refine ⟨raw, ipfs, finalizers, rfl, hget, hreadas, htransition, ?_, htransition.foreign,
        htransition.count_le_one, htransition.not_mem_of_isTerminating⟩
      have hreleased := isReleased_setFinalizers w.memory hreadas finalizers
      rw [perform, hsettle]
      split
      · next hgone =>
          rw [hgone.1, hgone.2] at hreleased
          rw [Memory.get?, settle_of_released hstores.get?_self (hgone.2 ▸ hreleased)]
          exact lookup_collect_of_mem (List.mem_singleton_self _)
      · next hkept =>
          have hnot : (ipfs.isTerminating && finalizers.isEmpty) = false := by
            rw [← Bool.not_eq_true, Bool.and_eq_true, List.isEmpty_iff]
            exact hkept
          rw [hnot] at hreleased
          rw [settle_of_not_released hstores.get?_self hreleased]
          exact ⟨_, hstores.get?_self, readAs_replacedDocument w.memory hreadas rfl
            (Schema.outcome_optional_texts _ _) (by decide) (by decide)⟩

def claim : Json :=
  .obj [("metadata", .obj [("finalizers", .texts ["keep", finalizerToken])])]

/-- The store of the sample declaration after it was claimed so, and then its deletion requested. -/
def shared : Memory :=
  ((declared.tamper ⟨.ipfs, "default", "ipfs"⟩ claim).get rfl).delete ⟨.ipfs, "default", "ipfs"⟩

def shown : Resource :=
  ⟨.ipfs, (shared.get? ⟨.ipfs, "default", "ipfs"⟩).getD .null⟩

theorem reachable_shared : shared.Reachable :=
  (reachable_declared.tail (.tamper (Option.some_get _).symm)).tail (.delete _)

/-- A pass over that declaration takes out its own token and leaves the other finalizer. -/
theorem finalizer_transition_shared : ∃ (w : World) (c : StoreCall) (next : c.Reply → Program _),
    Relation.ReflTransGen (World.Step "default" "ipfs" disturbed) ⟨.empty, []⟩ w ∧
    (∃ thread ∈ w.threads, thread.rest = .call c next) ∧ c.Writes ⟨.ipfs, "default", "ipfs"⟩ ∧
    ¬ (Act.called c (perform c w.memory).1).IsIdle ∧
    ∃ ipfs, Transition ipfs ["keep"] ∧ ipfs.finalizers = ["keep", finalizerToken] := by
  have hedits : Relation.ReflTransGen disturbed.rely .empty shared := reachable_shared
  have hstarted := (World.exists_run_outside "default" "ipfs" hedits []).tail (.start .standard)
  have hread := hstarted.tail (.move (i := 0) rfl .call)
  -- the pass read the declaration, and is about to take out its token
  have hworked {object : Resource} {m : Memory} (h : (m.update object).1.isOk = true) :
      ¬ (Act.called (.update object) (perform (.update object) m).1).IsIdle := by
    rintro ⟨e, herror⟩
    rw [show (m.update object).1 = .error e from herror] at h
    cases h
  refine ⟨_, .update (shown.withoutFinalizer finalizerToken), _, hread,
    ⟨_, List.mem_singleton_self _, rfl⟩, .update rfl, hworked rfl, ?_⟩
  obtain ⟨raw, ipfs, finalizers, -, hraw, hreadas, htransition, -, hforeign, -, habsent⟩ :=
    finalizer_transition hread (List.mem_singleton_self _) rfl (.update rfl) rfl (hworked rfl)
  obtain rfl : shown.body = raw := Option.some.inj hraw
  obtain rfl : shown = ipfs := Except.ok.inj hreadas
  obtain rfl : finalizers = ["keep"] := by
    have hothers : finalizers.filter (· ≠ finalizerToken) = finalizers := by
      refine List.filter_eq_self.mpr fun token htoken => decide_eq_true ?_
      rintro rfl
      exact habsent rfl htoken
    exact hothers.symm.trans hforeign
  exact ⟨shown, htransition, rfl⟩

end Reconcile

end ClusterKeeper
