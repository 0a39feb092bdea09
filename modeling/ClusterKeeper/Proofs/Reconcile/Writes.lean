import ClusterKeeper.Proofs.Reconcile.Reads
import ClusterKeeper.Proofs.Store.Fields

/-!
What a pass writes on a store whose documents carry the names of their keys: the declaration that it
read, with other finalizers, and the children of that declaration under their keys. Such writes leave
the documents with the names of their keys.
-/

namespace ClusterKeeper

open Memory Reconcile

def Memory.Named (m : Memory) : Prop := ∀ key raw, m.get? key = some raw → raw.IsNamed key

def Act.Shows (act : Act) : Prop :=
  ∀ key found, act = .called (.get key) (Except.ok (some found)) →
    ∃ raw, raw.IsNamed key ∧ readAs key.kind raw = .ok found

namespace Memory

variable {m m' : Memory} {key : ObjectKey} {raw : Json} {object : Resource}

theorem isNamed_createdDocument (m : Memory) (hkey : object.key = .ok key) :
    (m.createdDocument object).IsNamed key := by
  obtain ⟨-, hname, hns⟩ := Resource.named_of_key hkey
  constructor
  · rw [metadataField_createdDocument (by decide) (by decide)]
    exact hname
  · rw [metadataField_createdDocument (by decide) (by decide)]
    exact hns

theorem Named.of_refuses (hm : m.Named) (h : Refuses m m') : m'.Named :=
  fun key raw hraw => hm key raw (h.get? key ▸ hraw)

theorem Named.of_stores (hm : m.Named) (hraw : raw.IsNamed key) (h : Stores m key raw m') :
    m'.Named := by
  intro other found hfound
  by_cases heq : other = key
  · subst heq
    rw [h.get?_self] at hfound
    cases hfound
    exact hraw
  · exact hm other found (h.get?_of_ne heq ▸ hfound)

theorem Named.settle (hm : m.Named) (key : ObjectKey) : (m.settle key).Named :=
  fun other raw hraw => hm other raw (settle_get?_imp hraw)

theorem Named.create (hm : m.Named) (object : Resource) : (m.create object).2.Named := by
  rcases m.create_cases object with ⟨-, -, h⟩ | ⟨key, -, hkey, -, -, -, h⟩
  · exact hm.of_refuses h
  · exact hm.of_stores (isNamed_createdDocument m hkey) h

theorem Named.update (hm : m.Named) (object : Resource) : (m.update object).2.Named := by
  rcases m.update_cases object with ⟨-, -, h⟩ | ⟨key, _, -, m', hkey, -, -, -, -, h, hsettle⟩
  · exact hm.of_refuses h
  · rw [hsettle]
    exact (hm.of_stores (isNamed_replacedDocument m hkey) h).settle key

theorem Named.patch (hm : m.Named) (hr : object.IsDesired key) :
    (m.patch key object.mergePatch).2.Named := by
  rcases m.patch_cases key object.mergePatch with ⟨-, -, h⟩ | ⟨live, -, m', -, -, -, h, hsettle⟩
  · exact hm.of_refuses h
  · rw [hsettle]
    exact (hm.of_stores (hr.isNamed (hr.satisfies_patchedDocument m live)) h).settle key

end Memory

namespace Reconcile

/-- The calls of a pass after what it did, by what they do to the store. -/
inductive Sends (ns name : String) (t : Trace) : StoreCall → Prop where
  | read (key : ObjectKey) : Sends ns name t (.get key)
  | adopt {ipfs : Resource} (hipfs : ReadDeclaration ns name t ipfs .unmanaged) :
    Sends ns name t (.update (ipfs.withFinalizer finalizerToken))
  | release {ipfs : Resource} (hipfs : ReadDeclaration ns name t ipfs .terminating) :
    Sends ns name t (.update (ipfs.withoutFinalizer finalizerToken))
  | create {ipfs : Resource} (identity : Identity) (defaults : WorkloadDefaults) (child : Child)
      (hipfs : ReadDeclaration ns name t ipfs .managed) :
    Sends ns name t (.create (((Cluster.ofResource ipfs).children identity defaults).resource child))
  | patch {ipfs : Resource} (identity : Identity) (defaults : WorkloadDefaults) (child : Child)
      (hipfs : ReadDeclaration ns name t ipfs .managed) :
    Sends ns name t (.patch (child.key ns name)
      (((Cluster.ofResource ipfs).children identity defaults).resource child).mergePatch)
  | replace {ipfs live : Resource} (identity : Identity)
      (hipfs : ReadDeclaration ns name t ipfs .managed) (hlive : ReadSecret ns name t (some live)) :
    Sends ns name t
      (.update (replacementSecret live ((Cluster.ofResource ipfs).secret identity).resource))

variable {ns name : String} {t : Trace} {m : Memory} {c : StoreCall} {key : ObjectKey}
  {ipfs live : Resource} {state : FinalizerState}

theorem shows_called (hm : m.Named) (c : StoreCall) : (Act.called c (perform c m).1).Shows := by
  intro key found hact
  obtain ⟨raw, hget, hread⟩ := exists_of_called_get hact
  exact ⟨raw, hm key raw hget, hread⟩

theorem ReadDeclaration.key_eq (hshows : ∀ act ∈ t, act.Shows)
    (h : ReadDeclaration ns name t ipfs state) : ipfs.key = .ok ⟨.ipfs, ns, name⟩ := by
  obtain ⟨raw, hnamed, hread⟩ := hshows _ h.1 _ _ rfl
  exact Resource.key_of_named hread hnamed

theorem ReadDeclaration.key_setFinalizers (hshows : ∀ act ∈ t, act.Shows)
    (h : ReadDeclaration ns name t ipfs state) (finalizers : Json) :
    (ipfs.setMetadata "finalizers" finalizers).key = .ok ⟨.ipfs, ns, name⟩ :=
  (Resource.key_setMetadata (by decide) (by decide) ipfs finalizers).trans (h.key_eq hshows)

theorem ReadDeclaration.isDesired (hshows : ∀ act ∈ t, act.Shows)
    (h : ReadDeclaration ns name t ipfs state) (identity : Identity) (defaults : WorkloadDefaults)
    (child : Child) : (((Cluster.ofResource ipfs).children identity defaults).resource child).IsDesired
      (child.key ns name) := by
  obtain ⟨raw, hnamed, hread⟩ := hshows _ h.1 _ _ rfl
  exact Cluster.isDesired_children (Cluster.isDeclared_of_readAs hread hnamed) identity defaults child

theorem ReadSecret.key_eq (hshows : ∀ act ∈ t, act.Shows) (h : ReadSecret ns name t (some live)) :
    live.key = .ok (Child.secret.key ns name) := by
  obtain ⟨raw, hnamed, hread⟩ := hshows _ h _ _ rfl
  exact Resource.key_of_named hread hnamed

theorem Applies.sends (hshows : ∀ act ∈ t, act.Shows) (hipfs : ReadDeclaration ns name t ipfs .managed)
    (identity : Identity) (defaults : WorkloadDefaults) (child : Child)
    (h : Applies (((Cluster.ofResource ipfs).children identity defaults).resource child) c) :
    Sends ns name t c := by
  have hr := hipfs.isDesired hshows identity defaults child
  cases h with
  | create => exact .create identity defaults child hipfs
  | get hkey => exact .read _
  | patch hkey =>
      cases hr.key.symm.trans hkey
      exact .patch identity defaults child hipfs

theorem Makes.sends (hshows : ∀ act ∈ t, act.Shows) (h : Makes ns name t c) : Sends ns name t c := by
  cases h with
  | readDeclaration => exact .read _
  | readSecret => exact .read _
  | adopt hipfs => exact .adopt hipfs
  | release hipfs => exact .release hipfs
  | @secret ipfs resolved _ hipfs hresolved h =>
      cases h with
      | @persisted identity _ happlies =>
          exact happlies.sends hshows hipfs identity .standard .secret
      | @fresh identity => exact .create identity .standard .secret hipfs
      | @replacing identity live =>
          cases hresolved with
          | replacing hread => exact .replace identity hipfs hread
  | @config ipfs resolved _ hipfs _ _ h =>
      exact h.sends hshows hipfs resolved.identity .standard .config
  | @other ipfs resolved defaults child _ hipfs _ _ _ h =>
      exact h.sends hshows hipfs resolved.identity defaults child

/-- A pass writes the declaration and its children, and nothing else. -/
theorem Sends.isFamily (hshows : ∀ act ∈ t, act.Shows) (h : Sends ns name t c)
    (hwrites : c.Writes key) : key.IsFamily ns name := by
  cases h with
  | read => nomatch hwrites
  | adopt hipfs | release hipfs =>
      cases hwrites with
      | update hkey =>
          cases (hipfs.key_setFinalizers hshows _).symm.trans hkey
          exact .declaration
  | create identity defaults child hipfs =>
      cases hwrites with
      | create hkey =>
          cases (hipfs.isDesired hshows identity defaults child).key.symm.trans hkey
          exact .child child
  | patch identity defaults child hipfs =>
      cases hwrites
      exact .child child
  | replace identity hipfs hlive =>
      cases hwrites with
      | update hkey =>
          rw [replacementSecret_key, hlive.key_eq hshows] at hkey
          cases hkey
          exact .child .secret

theorem Sends.named (hshows : ∀ act ∈ t, act.Shows) (h : Sends ns name t c) (hm : m.Named) :
    (perform c m).2.Named := by
  cases h with
  | read => exact hm
  | adopt | release | replace => exact hm.update _
  | create => exact hm.create _
  | patch identity defaults child hipfs =>
      exact hm.patch (hipfs.isDesired hshows identity defaults child)

end Reconcile

end ClusterKeeper
