import ClusterKeeper.Proofs.Reconcile.Kept
import ClusterKeeper.Proofs.Reconcile.World

/-!
What a pass may conclude from what it read: a declaration was stored when it was read, and a Secret
that an update finds not to be stale is the very Secret that was read.
-/

namespace ClusterKeeper

open Memory Reconcile

inductive StoreCall.Writes : StoreCall → ObjectKey → Prop where
  | create {object : Resource} {key : ObjectKey} (h : object.key = .ok key) :
    Writes (.create object) key
  | patch {key : ObjectKey} {patch : Json} : Writes (.patch key patch) key
  | update {object : Resource} {key : ObjectKey} (h : object.key = .ok key) :
    Writes (.update object) key

/-- The object is what a document was read as that was stored under the key, at or before this
state. -/
def SeenAs (kind : Kind) (key : ObjectKey) (object : Resource) (m : Memory) : Prop :=
  ∃ before raw, Versioned before ∧ Since before m ∧ before.get? key = some raw ∧
    readAs kind raw = .ok object

def Act.Saw (act : Act) (m : Memory) : Prop :=
  ∀ key found, act = .called (.get key) (Except.ok (some found)) → SeenAs key.kind key found m

section

variable {kind : Kind} {key other : ObjectKey} {object live : Resource} {m m' : Memory} {raw : Json}

theorem SeenAs.since (h : SeenAs kind key live m) (hsince : Since m m') :
    SeenAs kind key live m' := by
  obtain ⟨before, raw, hversioned, hbefore, hget, hread⟩ := h
  exact ⟨before, raw, hversioned, hbefore.trans hsince, hget, hread⟩

/-- An update that carries the version of what was seen, and is not stale, finds just that. -/
theorem SeenAs.of_not_stale (h : SeenAs kind key live m)
    (hversion : object.resourceVersion? = live.resourceVersion?) (hget : m.get? other = some raw)
    (hstale : isStale raw object = false) : other = key ∧ readAs kind raw = .ok live := by
  obtain ⟨before, seen, hversioned, hsince, hseen, hread⟩ := h
  obtain ⟨n, -, hn⟩ := hversioned.issued hseen
  have hobject := hversion.trans (Resource.resourceVersion?_of_hasVersion hread hn)
  obtain ⟨rfl, rfl⟩ := get?_of_not_stale hsince hversioned hseen hn hobject hget hstale
  exact ⟨rfl, hread⟩

theorem Act.Saw.since {act : Act} (h : act.Saw m) (hsince : Since m m') : act.Saw m' :=
  fun key found hact => (h key found hact).since hsince

end

namespace Reconcile

/-- The Secret was read off a document that was stored under the key, at or before this state. -/
def ReadBefore (key : ObjectKey) (secret : Resource) (m : Memory) : Prop :=
  ∃ before raw, Versioned before ∧ Since before m ∧ before.get? key = some raw ∧
    readAs .secret raw = .ok secret

structure Reads (ns name : String) (act : Act) (m : Memory) : Prop where
  declaration : ∀ ipfs, act = .called (.get ⟨.ipfs, ns, name⟩) (Except.ok (some ipfs)) →
    ∃ raw, readAs .ipfs raw = .ok ipfs
  secret : ∀ secret, act = .called (.get (Child.secret.key ns name)) (Except.ok (some secret)) →
    ReadBefore (Child.secret.key ns name) secret m

variable {ns name : String} {t : Trace} {m m' : Memory} {c : StoreCall} {key other : ObjectKey}
  {desired secret live : Resource} {identity : Identity} {raw : Json}

theorem ReadBefore.since (h : ReadBefore key secret m) (hsince : Since m m') :
    ReadBefore key secret m' :=
  SeenAs.since h hsince

theorem exists_of_called_get {found : Resource}
    (h : Act.called c (perform c m).1 = .called (.get key) (Except.ok (some found))) :
    ∃ raw, m.get? key = some raw ∧ readAs key.kind raw = .ok found := by
  injection h with hcall hreply
  subst hcall
  exact exists_of_get (eq_of_heq hreply)

theorem reads_called (hversioned : Versioned m) (ns name : String) (c : StoreCall) :
    Reads ns name (.called c (perform c m).1) (perform c m).2 := by
  refine ⟨fun ipfs hact => ?_, fun secret hact => ?_⟩
  · obtain ⟨raw, -, hread⟩ := exists_of_called_get hact
    exact ⟨raw, hread⟩
  · obtain ⟨raw, hget, hread⟩ := exists_of_called_get hact
    exact ⟨m, raw, hversioned, since_perform m c, hget, hread⟩

theorem saw_called (hversioned : Versioned m) (c : StoreCall) :
    (Act.called c (perform c m).1).Saw (perform c m).2 := by
  intro key found hact
  obtain ⟨raw, hget, hread⟩ := exists_of_called_get hact
  exact ⟨m, raw, hversioned, since_perform m c, hget, hread⟩

theorem Reads.since {act : Act} (h : Reads ns name act m) (hsince : Since m m') :
    Reads ns name act m' :=
  ⟨h.declaration, fun secret hact => (h.secret secret hact).since hsince⟩

theorem ReadBefore.of_not_stale (h : ReadBefore key live m)
    (hget : m.get? other = some raw)
    (hstale : isStale raw (replacementSecret live desired) = false) :
    other = key ∧ readAs .secret raw = .ok live :=
  SeenAs.of_not_stale h replacementSecret_resourceVersion? hget hstale

theorem Applies.kind_eq (h : Applies desired c) (hwrites : c.Writes key) :
    desired.kind = key.kind := by
  cases h with
  | create =>
      cases hwrites with
      | create hkey => exact (Resource.named_of_key hkey).1
  | get hkey => nomatch hwrites
  | patch hkey =>
      cases hwrites
      exact (Resource.named_of_key hkey).1

theorem Makes.storesSecret (h : Makes ns name t c) (hwrites : c.Writes key)
    (hkind : key.kind = .secret) (hreads : ∀ act ∈ t, Reads ns name act m) :
    ∃ ipfs resolved, ReadDeclaration ns name t ipfs .managed ∧ Resolved ns name t resolved ∧
      StoresSecret ((Cluster.ofResource ipfs).secret resolved.identity).resource resolved c := by
  have hdeclaration {ipfs : Resource} {state : FinalizerState}
      (hipfs : ReadDeclaration ns name t ipfs state) : ipfs.kind = .ipfs := by
    obtain ⟨_, hread⟩ := (hreads _ hipfs.1).declaration ipfs rfl
    exact (readAs_eq_ok_iff.mp hread).1
  cases h with
  | readDeclaration | readSecret => nomatch hwrites
  | adopt hipfs | release hipfs =>
      cases hwrites with
      | update hkey =>
          have hipfskind := (hdeclaration hipfs).symm.trans (Resource.named_of_key hkey).1
          rw [hkind] at hipfskind
          cases hipfskind
  | secret hipfs hresolved h => exact ⟨_, _, hipfs, hresolved, h⟩
  | config hipfs hresolved hstored h =>
      have hconfigkind := h.kind_eq hwrites
      rw [hkind] at hconfigkind
      cases hconfigkind
  | other hipfs hresolved hsecret hconfig h =>
      exact absurd ((h.kind_eq hwrites).trans hkind) (Cluster.kind_of_other hsecret)

end Reconcile

end ClusterKeeper
