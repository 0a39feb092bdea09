import Mathlib.Logic.Function.Basic
import ClusterKeeper.Proofs.Reconcile.Users

/-!
Passes over any number of declarations on one store, among users that do as they please. Passes over
different declarations run at once, and over one there is at most one pass at a time. In every such run
a declaration outlives what it owns: children come about only under the token, the token goes only when
deletion was requested, and the declaration then takes with it all that belongs to it.
-/

namespace ClusterKeeper

open Memory Reconcile

/-- The passes under way, by the namespace and name of their declaration. -/
structure Fleet where
  memory : Memory
  passes : String × String → Option Thread

/-- A pass begins, goes on or is dropped, or the store changes from outside. -/
inductive Fleet.Step (env : Surroundings) : Fleet → Fleet → Prop where
  | start {f : Fleet} (id : String × String) (defaults : WorkloadDefaults)
      (hfree : f.passes id = none) :
    Step env f
      { f with passes := Function.update f.passes id (some ⟨[], reconcile defaults id.1 id.2⟩) }
  | move {f : Fleet} {id : String × String} {thread thread' : Thread} {m' : Memory}
      (hthread : f.passes id = some thread) (h : thread.Step env f.memory m' thread') :
    Step env f ⟨m', Function.update f.passes id (some thread')⟩
  | drop {f : Fleet} (id : String × String) :
    Step env f { f with passes := Function.update f.passes id none }
  | outside {f : Fleet} {m' : Memory} (h : env.rely f.memory m') : Step env f { f with memory := m' }

def Fleet.empty : Fleet := ⟨.empty, fun _ => none⟩

/-- Users may do what is theirs to do, and the identity source may answer anything. -/
def users : Surroundings := ⟨UserEdit, fun _ => True⟩

/-- What holds of the store in every such run. -/
structure Memory.FleetInvariant (m : Memory) : Prop where
  versioned : Versioned m
  named : m.Named
  ownersHeld : m.OwnersHeld
  lineage : Lineage .empty m

namespace Reconcile

def ReadsOnce (ns name : String) (t : Trace) : Prop :=
  ∀ found found', .called (.get ⟨.ipfs, ns, name⟩) found ∈ t →
    .called (.get ⟨.ipfs, ns, name⟩) found' ∈ t → found = found'

/-- What holds of a pass under way. -/
structure Sound (ns name : String) (thread : Thread) (m : Memory) : Prop where
  follows : thread.rest.Follows (Makes ns name) (fun _ _ => True) thread.trace
  shows : ∀ act ∈ thread.trace, act.Shows
  saw : ∀ act ∈ thread.trace, act.Saw m
  once : ReadsOnce ns name thread.trace
  managedKept : ManagedKept ns name thread.trace m

variable {ns name : String} {t : Trace} {m m' : Memory} {c : StoreCall} {other : ObjectKey}
  {ipfs ipfs' : Resource} {state state' : FinalizerState} {thread thread' : Thread}

theorem ReadDeclaration.unique (honce : ReadsOnce ns name t)
    (h : ReadDeclaration ns name t ipfs state) (h' : ReadDeclaration ns name t ipfs' state') :
    state = state' := by
  cases honce _ _ h.1 h'.1
  exact h.2.symm.trans h'.2

theorem Makes.eq_nil (h : Makes ns name t (.get ⟨.ipfs, ns, name⟩)) : t = [] := by
  have happlies {desired : Resource} (hdesired : desired.kind ≠ .ipfs)
      (h : Applies desired (.get ⟨.ipfs, ns, name⟩)) : False := by
    cases h with
    | get hkey => exact hdesired (Resource.named_of_key hkey).1
  generalize hcall : StoreCall.get ⟨.ipfs, ns, name⟩ = c at h
  cases h with
  | readDeclaration hfirst => exact hfirst
  | adopt | release => cases hcall
  | readSecret => cases hcall
  | secret hipfs hresolved h =>
      subst hcall
      cases h with
      | persisted h => exact (happlies (Cluster.kind_child_ne _ .standard .secret) h).elim
  | config hipfs hresolved hstored h =>
      subst hcall
      exact (happlies (Cluster.kind_child_ne _ .standard .config) h).elim
  | other hipfs hresolved hsecret hconfig h =>
      subst hcall
      exact (happlies (Cluster.kind_child_ne _ _ _) h).elim

theorem ReadsOnce.called (h : ReadsOnce ns name t) (hmakes : Makes ns name t c)
    (reply : c.Reply) : ReadsOnce ns name (.called c reply :: t) := by
  by_cases hread : c = .get ⟨.ipfs, ns, name⟩
  · subst hread
    cases hmakes.eq_nil
    intro found found' hfound hfound'
    cases List.mem_singleton.mp hfound
    cases List.mem_singleton.mp hfound'
    rfl
  · have hold {found : (StoreCall.get ⟨.ipfs, ns, name⟩).Reply}
        (hfound : .called (.get ⟨.ipfs, ns, name⟩) found ∈ Act.called c reply :: t) :
        .called (.get ⟨.ipfs, ns, name⟩) found ∈ t := by
      refine (List.mem_cons.mp hfound).resolve_left fun hnew => hread ?_
      injection hnew with hcall
      exact hcall.symm
    exact fun found found' hfound hfound' => h found found' (hold hfound) (hold hfound')

/-- A pass that found its declaration managed does not write it. -/
theorem Sends.not_writes (hshows : ∀ act ∈ t, act.Shows) (honce : ReadsOnce ns name t)
    (hipfs : ReadDeclaration ns name t ipfs .managed) (h : Sends ns name t c) :
    ¬ c.Writes ⟨.ipfs, ns, name⟩ := by
  intro hwrites
  cases h with
  | read => nomatch hwrites
  | adopt hunmanaged => cases hipfs.unique honce hunmanaged
  | release hterminating => cases hipfs.unique honce hterminating
  | create identity defaults child hread =>
      cases hwrites with
      | create hkey => exact Cluster.kind_child_ne _ _ _ (Resource.named_of_key hkey).1
  | patch identity defaults child hread =>
      generalize hkey : (⟨.ipfs, ns, name⟩ : ObjectKey) = key at hwrites
      cases hwrites
      exact child.key_kind_ne ns name (congrArg ObjectKey.kind hkey.symm)
  | replace identity hread hlive =>
      cases hwrites with
      | update hkey =>
          rw [replacementSecret_key, hlive.key_eq hshows] at hkey
          cases hkey

/-- A pass that found its declaration managed has it there, when it reads it and after each call. -/
theorem ManagedKept.called (hmanaged : ManagedKept ns name t m) (hshows : ∀ act ∈ t, act.Shows)
    (honce : ReadsOnce ns name t) (hmakes : Makes ns name t c) (hm : m.FleetInvariant) :
    ManagedKept ns name (.called c (perform c m).1 :: t) (perform c m).2 := by
  rintro ipfs ⟨hread, hstate⟩
  rcases List.mem_cons.mp hread with hnew | hold
  · -- it is just read, and has the uid and the token that were read
    obtain ⟨raw, hget, hreadas⟩ := exists_of_called_get hnew.symm
    have hsame : (perform c m).2 = m := by
      injection hnew with hcall
      rw [← hcall]
      rfl
    obtain ⟨n, -, huid⟩ := hm.lineage.issued hget
    refine ⟨raw, hsame.symm ▸ hget, ?_, ?_⟩
    · rw [huid, Cluster.ofResource, Resource.uid?, Resource.metadata_get_text_of_readAs hreadas
        (by decide), huid]
      rfl
    · exact (Json.hasToken_iff hreadas).mpr (FinalizerState.observe_eq_managed_iff.mp hstate).2
  · -- it was read before, and is not written
    have hsends := hmakes.sends hshows
    have hkept : (perform c m).2.get? ⟨.ipfs, ns, name⟩ = m.get? ⟨.ipfs, ns, name⟩ :=
      hsends.get?_declaration hshows hm.ownersHeld rfl
        (hsends.not_writes hshows honce ⟨hold, hstate⟩)
    exact hmanaged.keepsToken (.of_eq hkept) ipfs ⟨hold, hstate⟩

theorem Sound.start (defaults : WorkloadDefaults) (ns name : String) (m : Memory) :
    Sound ns name ⟨[], reconcile defaults ns name⟩ m := by
  constructor
  · exact follows_reconcile defaults ns name
  · exact fun act hact => absurd hact List.not_mem_nil
  · exact fun act hact => absurd hact List.not_mem_nil
  · exact fun found found' hfound => absurd hfound List.not_mem_nil
  · exact fun ipfs hipfs => absurd hipfs.1 List.not_mem_nil

theorem Sound.stable (h : Sound ns name thread m) (hsince : Since m m')
    (hkeeps : KeepsToken m m' ⟨.ipfs, ns, name⟩) : Sound ns name thread m' :=
  ⟨h.follows, h.shows, fun act hact => (h.saw act hact).since hsince, h.once,
    h.managedKept.keepsToken hkeeps⟩

theorem Sound.silent {act : Act} {p next : Program _} (h : Sound ns name ⟨t, p⟩ m)
    (hact : ∀ c reply, act ≠ .called c reply)
    (hnext : next.Follows (Makes ns name) (fun _ _ => True) (act :: t)) :
    Sound ns name ⟨act :: t, next⟩ m := by
  have hold {c : StoreCall} {reply : c.Reply} (hmem : .called c reply ∈ act :: t) :
      .called c reply ∈ t :=
    (List.mem_cons.mp hmem).resolve_left fun hnew => hact c reply hnew.symm
  constructor
  · exact hnext
  · exact List.forall_mem_cons.mpr ⟨fun key found hnew => absurd hnew (hact _ _), h.shows⟩
  · exact List.forall_mem_cons.mpr ⟨fun key found hnew => absurd hnew (hact _ _), h.saw⟩
  · exact fun found found' hfound hfound' => h.once found found' (hold hfound) (hold hfound')
  · exact fun ipfs hipfs => h.managedKept ipfs ⟨hold hipfs.1, hipfs.2⟩

/-- What changes of the store keep: versions and uids are new when they are given out, and declarations
with the token stay, but for that of the pass that makes the change. -/
structure Changes (spared : String → String → Prop) (m m' : Memory) : Prop where
  fleetInvariant : m'.FleetInvariant
  since : Since m m'
  lineage : Lineage m m'
  keepsToken : ∀ ns name, spared ns name → KeepsToken m m' ⟨.ipfs, ns, name⟩

theorem Changes.refl (hm : m.FleetInvariant) (spared : String → String → Prop) : Changes spared m m :=
  ⟨hm, .refl m, .refl m, fun _ _ _ => .of_eq rfl⟩

/-- What a pass does next keeps the store in order, and leaves the declarations of others alone. -/
theorem Sound.step (h : Sound ns name thread m) (hm : m.FleetInvariant)
    (hstep : thread.Step users m m' thread') :
    Changes (fun ns' name' => (ns', name') ≠ (ns, name)) m m' ∧ Sound ns name thread' m' := by
  cases hstep with
  | @call t c next =>
      obtain ⟨⟨hmakes, hrest⟩, hshows, hsaw, honce, hmanaged⟩ := h
      have hsends := hmakes.sends hshows
      have hsince := since_perform m c
      have hlineage := lineage_perform m c
      refine ⟨⟨⟨hm.versioned.perform c, hsends.named hshows hm.named,
        hsends.ownersHeld hshows hsaw hmanaged hm.ownersHeld, hm.lineage.trans hlineage⟩, hsince,
        hlineage, fun ns' name' hne => ?_⟩, ⟨hrest _, ?_, ?_, honce.called hmakes _,
        hmanaged.called hshows honce hmakes hm⟩⟩
      · refine .of_eq (hsends.get?_declaration hshows hm.ownersHeld rfl fun hwrites => ?_)
        -- it writes no declaration but its own
        have hfamily := hsends.isFamily hshows hwrites
        generalize hkey : (⟨.ipfs, ns', name'⟩ : ObjectKey) = key at hfamily
        cases hfamily with
        | declaration =>
            cases hkey
            exact hne rfl
        | child child => exact child.key_kind_ne ns name (congrArg ObjectKey.kind hkey.symm)
      · exact List.forall_mem_cons.mpr ⟨shows_called hm.named c, hshows⟩
      · exact List.forall_mem_cons.mpr
          ⟨saw_called hm.versioned c, fun act hact => (hsaw act hact).since hsince⟩
  | generate => exact ⟨.refl hm _, h.silent (fun _ _ => Act.noConfusion) (h.follows _)⟩
  | emit => exact ⟨.refl hm _, h.silent (fun _ _ => Act.noConfusion) h.follows⟩

end Reconcile

namespace Memory

variable {m m' : Memory} {uid : String}

theorem UserEdit.changes (h : UserEdit m m') (hm : m.FleetInvariant) :
    Changes (fun _ _ => True) m m' := by
  have hedited := h.edited hm.named hm.ownersHeld
  obtain ⟨hversioned, hsince⟩ := h.edit.versioned_since hm.versioned
  exact ⟨⟨hversioned, hedited.named hm.named, hedited.ownersHeld hm.ownersHeld,
    hm.lineage.trans h.lineage⟩, hsince, h.lineage, fun _ _ _ => hedited.keepsToken hm.ownersHeld rfl⟩

def Declares (m : Memory) (uid : String) : Prop := ∃ ns name, m.HasUid ⟨.ipfs, ns, name⟩ uid

theorem HasHeldDeclaration.declares (h : m.HasHeldDeclaration uid) : m.Declares uid := by
  obtain ⟨ns, name, raw, hget, huid, -⟩ := h
  exact ⟨ns, name, raw, hget, huid⟩

end Memory

namespace Fleet

variable {f f' : Fleet}

/-- The store is in order, and all passes under way keep it so. -/
structure Sound (f : Fleet) : Prop where
  memory : f.memory.FleetInvariant
  passes : ∀ id thread, f.passes id = some thread → Reconcile.Sound id.1 id.2 thread f.memory

theorem sound_empty : Sound .empty :=
  ⟨⟨versioned_empty, nofun, ownersHeld_empty, .refl _⟩, nofun⟩

/-- One of the passes may change if the others can go on. -/
theorem Sound.update {id : String × String} {pass : Option Thread} {m' : Memory}
    (hmemory : m'.FleetInvariant)
    (hpass : ∀ thread, pass = some thread → Reconcile.Sound id.1 id.2 thread m')
    (hothers : ∀ other thread, other ≠ id → f.passes other = some thread →
      Reconcile.Sound other.1 other.2 thread m') :
    Sound ⟨m', Function.update f.passes id pass⟩ := by
  refine ⟨hmemory, fun other thread hthread => ?_⟩
  change Function.update f.passes id pass other = some thread at hthread
  by_cases heq : other = id
  · subst heq
    rw [Function.update_self] at hthread
    exact hpass thread hthread
  · rw [Function.update_of_ne heq] at hthread
    exact hothers other thread heq hthread

theorem Sound.step (hf : f.Sound) (hstep : Step users f f') :
    f'.Sound ∧ Lineage f.memory f'.memory := by
  have hothers (id other : String × String) (thread : Thread) (_ : other ≠ id)
      (hthread : f.passes other = some thread) : Reconcile.Sound other.1 other.2 thread f.memory :=
    hf.passes other thread hthread
  cases hstep with
  | start id defaults hfree =>
      refine ⟨.update hf.memory (fun thread hthread => ?_) (hothers id), .refl _⟩
      cases hthread
      exact .start defaults id.1 id.2 f.memory
  | @move id thread thread' m' hthread h =>
      obtain ⟨hchanges, hsound⟩ := (hf.passes id thread hthread).step hf.memory h
      refine ⟨.update hchanges.fleetInvariant (fun moved hmoved => ?_)
        fun other waiting hne hwaiting => ?_, hchanges.lineage⟩
      · cases hmoved
        exact hsound
      · exact (hf.passes other waiting hwaiting).stable hchanges.since (hchanges.keepsToken _ _ hne)
  | drop id => exact ⟨.update hf.memory nofun (hothers id), .refl _⟩
  | outside h =>
      have hchanges := UserEdit.changes h hf.memory
      refine ⟨⟨hchanges.fleetInvariant, fun other thread hthread => ?_⟩, hchanges.lineage⟩
      exact (hf.passes other thread hthread).stable hchanges.since (hchanges.keepsToken _ _ trivial)

theorem Sound.run (hf : f.Sound) (hrun : Relation.ReflTransGen (Step users) f f') :
    f'.Sound ∧ Lineage f.memory f'.memory := by
  induction hrun with
  | refl => exact ⟨hf, .refl _⟩
  | tail _ hstep ih =>
      obtain ⟨hsound, hlineage⟩ := ih
      obtain ⟨hsound', hlineage'⟩ := hsound.step hstep
      exact ⟨hsound', hlineage.trans hlineage'⟩

/-- Nothing that a declaration owns is without it: whatever is stored with an owner, that owner is a
declaration which is stored as well, and has the token or is to be deleted. And once a declaration is
gone, nothing that belongs to it is left, or comes about later. -/
theorem no_orphans (hrun : Relation.ReflTransGen (Step users) .empty f) :
    (∀ key raw uid, f.memory.get? key = some raw → raw.isOwnedBy uid = true →
      ∃ ns name owner, f.memory.get? ⟨.ipfs, ns, name⟩ = some owner ∧
        owner.metadataField "uid" = .str uid ∧ (owner.HasToken ∨ ¬ owner.IsUnmarked)) ∧
    ∀ later latest, Relation.ReflTransGen (Step users) f later →
      Relation.ReflTransGen (Step users) later latest →
      ∀ uid, f.memory.Declares uid → ¬ later.memory.Declares uid →
        ∀ key raw, latest.memory.get? key = some raw → raw.isOwnedBy uid = false := by
  obtain ⟨hsound, hlineage⟩ := sound_empty.run hrun
  refine ⟨fun key raw uid hget howned => ?_, ?_⟩
  · exact hsound.memory.ownersHeld.owner key raw uid (Keyed.mem_of_lookup hget) howned
  · rintro later latest hlater hlatest uid ⟨ns, name, owner, howner, huid⟩ hgone key raw hget
    obtain ⟨hsound', hlineage'⟩ := hsound.run hlater
    obtain ⟨hsound'', hlineage''⟩ := hsound'.run hlatest
    by_contra howned
    rw [Bool.not_eq_false] at howned
    obtain ⟨ns', name', hreturned⟩ := (hsound''.memory.ownersHeld.owner key raw uid
      (Keyed.mem_of_lookup hget) howned).declares
    -- the uid was given out before, so it would have had to stay all the time
    obtain ⟨n, hn, hissued⟩ := hlineage.issued howner
    refine hgone ⟨ns', name', hlineage''.hasUid ⟨n, Nat.le_trans hn hlineage'.uids, ?_⟩ hreturned⟩
    exact Json.str.inj (huid.symm.trans hissued)

section Departed

def departing (version : String) : Resource :=
  ⟨.ipfs, (Json.declared.setMetadataField "deletionTimestamp"
    (.str "2025-01-01T00:00:00Z")).setMetadataField "resourceVersion" (.str version)⟩

theorem readAs_departing (version : String) :
    readAs .ipfs (departing version).body = .ok (departing version) := rfl

theorem isStale_departing (version : String) : isStale (departing version).body
    ((departing version).withoutFinalizer finalizerToken) = false := by
  have hversion : ((departing version).withoutFinalizer finalizerToken).resourceVersion? =
      some version := rfl
  have hlive : ((departing version).body.metadataField "resourceVersion").text? = some version := rfl
  rw [isStale, hversion, hlive]
  simp

theorem stores_sampleSecret : Stores declared (Child.secret.key "default" "ipfs")
    (declared.createdDocument (sampleSecret 0)) (declared.create (sampleSecret 0)).2 := by
  have hr : (sampleSecret 0).IsDesired (Child.secret.key "default" "ipfs") :=
    Cluster.isDesired_secret (Cluster.isDeclared_of_readAs readAs_declared isNamed_declared) _
  obtain ⟨written, hwritten⟩ := hr.readable_createdDocument declared
  have hread : readAs (Child.secret.key "default" "ipfs").kind
      (declared.createdDocument (sampleSecret 0)) = .ok ⟨.secret, written⟩ :=
    readAs_eq_ok_iff.mpr ⟨rfl, hwritten⟩
  have hreply := create_of_absent rfl hr.key rfl hread
  rcases declared.create_cases (sampleSecret 0) with ⟨e, herror, -⟩ | ⟨key, -, hkey, -, -, -, h⟩
  · cases hreply.symm.trans herror
  · cases hr.key.symm.trans hkey
    exact h

variable {m m₁ : Memory} {version : String}

theorem stores_delete (hget : m.get? ⟨.ipfs, "default", "ipfs"⟩ = some .declared) :
    Stores m ⟨.ipfs, "default", "ipfs"⟩ (departing (toString (m.versions + 1))).body
      (m.delete ⟨.ipfs, "default", "ipfs"⟩) := by
  rcases m.delete_cases ⟨.ipfs, "default", "ipfs"⟩ with ⟨hnone, -⟩ | ⟨live, m', hlive, h, hsettle⟩
  · cases hget.symm.trans hnone
  · cases hget.symm.trans hlive
    rw [hsettle, settle_of_not_released h.get?_self rfl]
    exact h

theorem release_departing (hfailures : m.failures = [])
    (hget : m.get? ⟨.ipfs, "default", "ipfs"⟩ = some (departing version).body) :
    ∃ m₁, Stores m ⟨.ipfs, "default", "ipfs"⟩ (m.replacedDocument (departing version).body
        ((departing version).withoutFinalizer finalizerToken)) m₁ ∧
      (m.update ((departing version).withoutFinalizer finalizerToken)).2.objects =
        collect m₁.objects [⟨.ipfs, "default", "ipfs"⟩] := by
  have hreleased : ((departing version).withoutFinalizer finalizerToken).key =
      .ok ⟨.ipfs, "default", "ipfs"⟩ := rfl
  have hfield : Schema.metadata.field? "finalizers" = some (.optional "finalizers" (.list .text)) := rfl
  have hread := readAs_replacedDocument m (readAs_departing version) hfield
    (Schema.outcome_optional_texts "finalizers" []) (by decide) (by decide)
  have hreply := update_of_present (failure?_of_nil hfailures _ _) hreleased hget
    (isStale_departing version) hread
  rcases m.update_cases ((departing version).withoutFinalizer finalizerToken) with
    ⟨e, herror, -⟩ | ⟨key, live, -, m₁, hkey, hlive, -, -, -, h, hsettle⟩
  · cases hreply.symm.trans herror
  · cases hreleased.symm.trans hkey
    cases hget.symm.trans hlive
    refine ⟨m₁, h, ?_⟩
    rw [hsettle, settle_of_released h.get?_self]
    exact isReleased_setFinalizers m (readAs_departing version) []

/-- A pass over the sample declaration comes to create the Secret. -/
theorem exists_run_stored : ∃ m passes, Stores declared (Child.secret.key "default" "ipfs")
      (declared.createdDocument (sampleSecret 0)) m ∧
    Relation.ReflTransGen (Step users) .empty ⟨m, passes⟩ := by
  have hdeclared : Relation.ReflTransGen (Step users) .empty ⟨declared, fun _ => none⟩ :=
    .single (.outside (.create (show Resource.kind ⟨.ipfs, .declared⟩ = .ipfs from rfl) rfl))
  have hstarted := hdeclared.tail (.start ("default", "ipfs") .standard rfl)
  have hread := hstarted.tail (.move (Function.update_self _ _ _) .call)
  -- there is no Secret, so the pass draws an identity and reports that it did
  have hsecret := hread.tail (.move (Function.update_self _ _ _) .call)
  have hanswer : users.answers (.ok (.constant 0)) := trivial
  have hdrew := hsecret.tail (.move (Function.update_self _ _ _) (.generate hanswer))
  have hreported := hdrew.tail (.move (Function.update_self _ _ _) .emit)
  exact ⟨_, _, stores_sampleSecret, hreported.tail (.move (Function.update_self _ _ _) .call)⟩

/-- The declaration may then go: its deletion is requested, the pass dropped, and the next one takes
the token off. -/
theorem exists_run_departed {passes : String × String → Option Thread} (hfailures : m.failures = [])
    (hget : m.get? ⟨.ipfs, "default", "ipfs"⟩ = some .declared) :
    ∃ later : Fleet, Relation.ReflTransGen (Step users) ⟨m, passes⟩ later ∧
      later.memory.get? ⟨.ipfs, "default", "ipfs"⟩ = none ∧
      ∀ key raw, later.memory.get? key = some raw → m.get? key = some raw := by
  have hmarked := stores_delete hget
  have hanswer : perform (.get ⟨.ipfs, "default", "ipfs"⟩) (m.delete ⟨.ipfs, "default", "ipfs"⟩) =
      (Except.ok (some (departing (toString (m.versions + 1)))),
        m.delete ⟨.ipfs, "default", "ipfs"⟩) :=
    Prod.ext (get_of_present (failure?_of_nil (hmarked.failures.trans hfailures) _ _)
      hmarked.get?_self (readAs_departing _)) rfl
  obtain ⟨m₁, hstores, hobjects⟩ :=
    release_departing (hmarked.failures.trans hfailures) hmarked.get?_self
  have hdropped : Relation.ReflTransGen (Step users) ⟨m, passes⟩
      ⟨m.delete ⟨.ipfs, "default", "ipfs"⟩, Function.update passes ("default", "ipfs") none⟩ :=
    .tail (.single (.outside (.delete _))) (.drop ("default", "ipfs"))
  have hfree : Function.update passes ("default", "ipfs") none ("default", "ipfs") = none :=
    Function.update_self _ _ _
  have hstarted := hdropped.tail (.start ("default", "ipfs") .standard hfree)
  have hread := hstarted.tail (.move (Function.update_self _ _ _) (.answered hanswer))
  have hlookup (key : ObjectKey) : ((m.delete ⟨.ipfs, "default", "ipfs"⟩).update
      ((departing (toString (m.versions + 1))).withoutFinalizer finalizerToken)).2.get? key =
        (collect m₁.objects [⟨.ipfs, "default", "ipfs"⟩]).lookup key := by
    rw [Memory.get?, hobjects]
  refine ⟨_, hread.tail (.move (Function.update_self _ _ _) .call), ?_, fun key raw hraw => ?_⟩
  · exact (hlookup _).trans (lookup_collect_of_mem (List.mem_singleton_self _))
  · have hne : key ≠ ⟨.ipfs, "default", "ipfs"⟩ := by
      rintro rfl
      cases ((hlookup _).symm.trans hraw).symm.trans
        (lookup_collect_of_mem (List.mem_singleton_self _))
    rw [← hmarked.get?_of_ne hne, ← hstores.get?_of_ne hne]
    exact lookup_collect_imp ((hlookup key).symm.trans hraw)

/-- The declaration is held as long as there is the Secret, and both go at once. -/
theorem no_orphans_departed : ∃ f later : Fleet, ∃ raw : Json,
    Relation.ReflTransGen (Step users) .empty f ∧
    f.memory.get? (Child.secret.key "default" "ipfs") = some raw ∧ raw.isOwnedBy "uid-1" = true ∧
    f.memory.HasHeldDeclaration "uid-1" ∧
    Relation.ReflTransGen (Step users) f later ∧ f.memory.Declares "uid-1" ∧
    ¬ later.memory.Declares "uid-1" ∧ later.memory.get? (Child.secret.key "default" "ipfs") = none := by
  obtain ⟨m, passes, hstores, hrun⟩ := exists_run_stored
  have hdeclared : m.get? ⟨.ipfs, "default", "ipfs"⟩ = some .declared := hstores.get?_of_ne (by decide)
  obtain ⟨later, hlater, hgone, hleft⟩ := exists_run_departed hstores.failures hdeclared
  have howned : (declared.createdDocument (sampleSecret 0)).isOwnedBy "uid-1" = true := by
    rw [Json.isOwnedBy, metadataField_createdDocument (by decide) (by decide)]
    rfl
  have hdeclares : m.Declares "uid-1" := ⟨"default", "ipfs", .declared, hdeclared, rfl⟩
  have hnone : ¬ later.memory.Declares "uid-1" := by
    rintro ⟨ns, name, raw, hraw, -⟩
    have hne : (⟨.ipfs, ns, name⟩ : ObjectKey) ≠ Child.secret.key "default" "ipfs" :=
      fun heq => Child.key_kind_ne _ _ _ (congrArg ObjectKey.kind heq.symm)
    have hold := (hstores.get?_of_ne hne).symm.trans (hleft _ raw hraw)
    rw [(eq_of_get?_declared hold).1, hgone] at hraw
    cases hraw
  obtain ⟨hownersHeld, horphans⟩ := no_orphans hrun
  refine ⟨_, later, _, hrun, hstores.get?_self, howned, hownersHeld _ _ _ hstores.get?_self howned,
    hlater, hdeclares, hnone, ?_⟩
  refine Option.eq_none_iff_forall_ne_some.mpr fun raw hraw => ?_
  have hunreferenced := horphans later later hlater .refl "uid-1" hdeclares hnone _ raw hraw
  cases hstores.get?_self.symm.trans (hleft _ raw hraw)
  cases howned.symm.trans hunreferenced

end Departed

end Fleet

end ClusterKeeper
