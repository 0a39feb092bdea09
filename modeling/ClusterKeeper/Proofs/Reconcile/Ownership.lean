import ClusterKeeper.Proofs.Reconcile.Finalizers
import ClusterKeeper.Proofs.Reconcile.Independence

/-!
Who owns what. A declaration that owns something is held: it carries the token, or its deletion was
requested and something holds it up still. Declarations themselves have no owners, so nothing but its
own deletion takes one away.
-/

namespace ClusterKeeper

open Memory Reconcile

namespace Json

def HasToken (raw : Json) : Prop :=
  .str finalizerToken ∈ (raw.metadataField "finalizers").items?.getD []

def HasNoOwners (raw : Json) : Prop := (raw.metadataField "ownerReferences").items?.getD [] = []

/-- The document carries the token, or deletion was requested. -/
def IsHeld (raw : Json) : Prop := raw.HasToken ∨ ¬ raw.IsUnmarked

/-- The document may take the place of that of a declaration: it is the same object, unowned, and held
if it was. -/
structure Inherits (raw live : Json) : Prop where
  unowned : raw.HasNoOwners
  uid : raw.metadataField "uid" = live.metadataField "uid"
  held : live.IsHeld → raw.IsHeld

variable {kind : Kind} {raw : Json} {r : Resource} {uid : String}

theorem HasNoOwners.isOwnedBy (h : raw.HasNoOwners) (uid : String) : raw.isOwnedBy uid = false := by
  rw [HasNoOwners] at h
  rw [Json.isOwnedBy]
  cases howners : (raw.metadataField "ownerReferences").items? with
  | none => rfl
  | some owners =>
      rw [howners, Option.getD_some] at h
      rw [h]
      rfl

theorem HasToken.isReleased (h : raw.HasToken) : raw.isReleased = false := by
  rw [Json.isReleased, List.isEmpty_eq_false_iff.mpr (List.ne_nil_of_mem h), Bool.and_false]

theorem hasToken_iff (h : readAs kind raw = .ok r) :
    raw.HasToken ↔ finalizerToken ∈ r.finalizers := by
  rw [HasToken, Resource.finalizers, Resource.finalizers?, Resource.metadata]
  rcases kind.metadata_list (readAs_eq_ok_iff.mp h).2
    (show Schema.metadata.field? "finalizers" = some (.optional "finalizers" (.list .text)) from rfl)
    with ⟨hwritten, hraw⟩ | ⟨items, values, hwritten, hraw, hitems⟩
  · rw [hraw, Json.get, hwritten]
    simp [items?]
  · -- texts are read as they are
    obtain rfl : items = values := by
      refine List.forall₂_eq_eq_eq ▸ hitems.imp fun a b hread => ?_
      cases a <;> cases hread
      rfl
    rw [hraw, Json.get, hwritten]
    simp only [items?, Option.getD_some, Option.map_some, List.mem_filterMap, text?_eq_some_iff,
      exists_eq_right]

theorem HasNoOwners.of_readAs (hraw : raw.HasNoOwners) (h : readAs kind raw = .ok r) :
    r.body.HasNoOwners := by
  rw [HasNoOwners] at hraw
  rw [HasNoOwners, metadataField]
  rcases kind.metadata_list (readAs_eq_ok_iff.mp h).2 (show Schema.metadata.field? "ownerReferences" =
      some (.optional "ownerReferences" (.list .ownerReference)) from rfl)
    with ⟨hwritten, -⟩ | ⟨items, values, hwritten, hitems, hread⟩
  · rw [Json.get, hwritten]
    rfl
  · rw [hitems] at hraw
    obtain rfl : items = [] := hraw
    rw [Json.get, hwritten, List.forall₂_nil_left_iff.mp hread]
    rfl

end Json

namespace Cluster

variable {cluster : Cluster} {identity : Identity} {defaults : WorkloadDefaults} {child : Child}
  {raw : Json} {uid : String}

def ownersJson (cluster : Cluster) : Json :=
  .arr (cluster.ownerReferences.map Manifest.OwnerReference.toJson)

/-- What has all that is wanted of a child has its owner references. -/
theorem metadataField_owners
    (h : raw.satisfies ((cluster.children identity defaults).resource child).body = true) :
    raw.metadataField "ownerReferences" = cluster.ownersJson := by
  obtain ⟨name, hmetadata⟩ : ∃ name, ((cluster.children identity defaults).resource child).body.get?
      "metadata" = some (cluster.childMetadata name).toJson := by
    cases child <;> exact ⟨_, rfl⟩
  have howners : (cluster.childMetadata name).toJson.get? "ownerReferences" =
      some cluster.ownersJson := by
    rw [Manifest.Metadata.toJson, childMetadata]
    cases cluster.ns <;> rfl
  obtain ⟨md, hmd, hsatisfied⟩ := Json.get?_of_satisfies h hmetadata (by rintro ⟨⟩)
  obtain ⟨found, hfound, hsame⟩ := Json.get?_of_satisfies hsatisfied howners (by rintro ⟨⟩)
  rw [Json.metadataField, Json.get_of_get? hmd, Json.get_of_get? hfound]
  exact (Json.eq_of_same rfl hsame).symm

/-- The owner references of a child name the declaration of its cluster alone. -/
theorem eq_uid_of_isOwnedBy (h : raw.metadataField "ownerReferences" = cluster.ownersJson)
    (howned : raw.isOwnedBy uid = true) : uid = cluster.uid := by
  rw [Json.isOwnedBy, h] at howned
  obtain ⟨owner, howner, huid⟩ := List.any_eq_true.mp howned
  obtain rfl := List.mem_singleton.mp howner
  exact (Json.str.inj (of_decide_eq_true huid)).symm

end Cluster

namespace Memory

variable {m m' m₁ : Memory} {key other : ObjectKey} {raw live : Json} {uid : String}

def HasHeldDeclaration (m : Memory) (uid : String) : Prop :=
  ∃ ns name raw, m.get? ⟨.ipfs, ns, name⟩ = some raw ∧ raw.metadataField "uid" = .str uid ∧ raw.IsHeld

/-- No declaration is owned, and every owner is a declaration that is held. -/
structure OwnersHeld (m : Memory) : Prop where
  unowned : ∀ key raw, (key, raw) ∈ m.objects → key.kind = .ipfs → raw.HasNoOwners
  owner : ∀ key raw uid, (key, raw) ∈ m.objects → raw.isOwnedBy uid = true → m.HasHeldDeclaration uid

/-- What may be put under a key: a document of a declaration in the place of another, or one whose
owners are all held. -/
inductive Admits (m : Memory) (key : ObjectKey) (raw : Json) : Prop where
  | declaration (howners : raw.HasNoOwners)
      (hlive : ∀ live, m.get? key = some live → raw.Inherits live) : Admits m key raw
  | dependent (hkind : key.kind ≠ .ipfs)
      (howners : ∀ uid, raw.isOwnedBy uid = true → m.HasHeldDeclaration uid) : Admits m key raw

/-- If the declaration of the key has the token, it stays, under its uid, and keeps the token. -/
def KeepsToken (m m' : Memory) (key : ObjectKey) : Prop :=
  ∀ live, m.get? key = some live → live.HasToken → ∃ raw, m'.get? key = some raw ∧
    raw.metadataField "uid" = live.metadataField "uid" ∧ raw.HasToken

theorem KeepsToken.of_eq (h : m'.get? key = m.get? key) : KeepsToken m m' key :=
  fun live hlive htoken => ⟨live, h.trans hlive, rfl, htoken⟩

theorem ownersHeld_empty : OwnersHeld .empty := ⟨nofun, nofun⟩

namespace OwnersHeld

theorem of_objects (hm : m.OwnersHeld) (h : m'.objects = m.objects) : m'.OwnersHeld := by
  constructor
  · rw [h]
    exact hm.unowned
  · intro key raw uid hmem howned
    rw [h] at hmem
    obtain ⟨ns, name, owner, hget, howner⟩ := hm.owner key raw uid hmem howned
    refine ⟨ns, name, owner, ?_, howner⟩
    rw [Memory.get?, h]
    exact hget

theorem of_stores (hm : m.OwnersHeld) (h : Stores m key raw m') (hraw : m.Admits key raw) :
    m'.OwnersHeld := by
  have hstays {uid : String} (huid : m.HasHeldDeclaration uid) : m'.HasHeldDeclaration uid := by
    obtain ⟨ns, name, owner, hget, howner, hheld⟩ := huid
    by_cases heq : ⟨.ipfs, ns, name⟩ = key
    · subst heq
      cases hraw with
      | dependent hkind => exact absurd rfl hkind
      | declaration hunowned hlive =>
          have hinherits := hlive owner hget
          exact ⟨ns, name, raw, h.get?_self, hinherits.uid.trans howner, hinherits.held hheld⟩
    · exact ⟨ns, name, owner, (h.get?_of_ne heq).trans hget, howner, hheld⟩
  constructor
  · intro other found hmem hkind
    rw [h.objects] at hmem
    rcases Keyed.mem_insert hmem with heq | hold
    · cases heq
      cases hraw with
      | dependent hchild => exact absurd hkind hchild
      | declaration hunowned => exact hunowned
    · exact hm.unowned other found hold hkind
  · intro other found uid hmem howned
    rw [h.objects] at hmem
    rcases Keyed.mem_insert hmem with heq | hold
    · cases heq
      cases hraw with
      | dependent hkind howners => exact hstays (howners uid howned)
      | declaration hunowned =>
          rw [hunowned.isOwnedBy uid] at howned
          cases howned
    · exact hstays (hm.owner other found uid hold howned)

theorem settle_get? (hm : m.OwnersHeld) (hkind : other.kind = .ipfs) (hne : other ≠ key) :
    (m.settle key).get? other = m.get? other := by
  cases hget : m.get? key with
  | none => rw [settle, hget]
  | some raw =>
      cases hreleased : raw.isReleased with
      | false => rw [settle_of_not_released hget hreleased]
      | true =>
          rw [Memory.get?, settle_of_released hget hreleased]
          refine lookup_collect_of_unowned (by simpa using hne) fun found uid hmem => ?_
          exact (hm.unowned other found hmem hkind).isOwnedBy uid

theorem settle (hm : m.OwnersHeld) (key : ObjectKey) : (m.settle key).OwnersHeld := by
  cases hget : m.get? key with
  | none => rwa [Memory.settle, hget]
  | some raw =>
      cases hreleased : raw.isReleased with
      | false => rwa [settle_of_not_released hget hreleased]
      | true =>
          have hcollected := settle_of_released hget hreleased
          constructor
          · intro other found hmem hkind
            rw [hcollected] at hmem
            exact hm.unowned other found (mem_collect hmem) hkind
          · intro other found uid hmem howned
            rw [hcollected] at hmem
            obtain ⟨ns, name, owner, howner, huid, hheld⟩ :=
              hm.owner other found uid (mem_collect hmem) howned
            by_cases heq : ⟨.ipfs, ns, name⟩ = key
            · -- what the object owned is gone
              subst heq
              obtain rfl : raw = owner := Option.some.inj (hget.symm.trans howner)
              have hgone : (collect m.objects [⟨.ipfs, ns, name⟩]).lookup ⟨.ipfs, ns, name⟩ = none :=
                lookup_collect_of_mem (List.mem_singleton_self _)
              rw [unreferenced_collect hgone hget huid _ hmem] at howned
              cases howned
            · exact ⟨ns, name, owner, (hm.settle_get? rfl heq).trans howner, huid, hheld⟩

theorem write_get? (hm : m.OwnersHeld) (h : Stores m key raw m₁) (hraw : m.Admits key raw)
    (hkind : other.kind = .ipfs) (hne : other ≠ key) :
    (m₁.settle key).get? other = m.get? other :=
  ((hm.of_stores h hraw).settle_get? hkind hne).trans (h.get?_of_ne hne)

end OwnersHeld

end Memory

namespace Reconcile

variable {ns name : String} {t : Trace} {m m' : Memory} {c : StoreCall} {key other : ObjectKey}
  {ipfs : Resource}

/-- A pass that found its declaration managed has it there still, under the uid that it read and with
the token. -/
def ManagedKept (ns name : String) (t : Trace) (m : Memory) : Prop :=
  ∀ ipfs, ReadDeclaration ns name t ipfs .managed → ∃ raw, m.get? ⟨.ipfs, ns, name⟩ = some raw ∧
    raw.metadataField "uid" = .str (Cluster.ofResource ipfs).uid ∧ raw.HasToken

theorem ManagedKept.keepsToken (h : ManagedKept ns name t m)
    (hkeeps : KeepsToken m m' ⟨.ipfs, ns, name⟩) :
    ManagedKept ns name t m' := by
  intro ipfs hipfs
  obtain ⟨live, hlive, huid, htoken⟩ := h ipfs hipfs
  obtain ⟨raw, hraw, hsame, hkept⟩ := hkeeps live hlive htoken
  exact ⟨raw, hraw, hsame.trans huid, hkept⟩

/-- What the declaration owns may be stored. -/
theorem ManagedKept.admits (h : ManagedKept ns name t m)
    (hipfs : ReadDeclaration ns name t ipfs .managed)
    {raw : Json} (hkind : key.kind ≠ .ipfs)
    (howners : raw.metadataField "ownerReferences" = (Cluster.ofResource ipfs).ownersJson) :
    m.Admits key raw := by
  refine .dependent hkind fun uid howned => ?_
  obtain ⟨owner, howner, huid, htoken⟩ := h ipfs hipfs
  rw [Cluster.eq_uid_of_isOwnedBy howners howned]
  exact ⟨ns, name, owner, howner, huid, .inl htoken⟩

/-- A declaration with other finalizers takes the place of the one that was read, if it is marked for
deletion or gets the token. -/
theorem inherits_setFinalizers (m : Memory) {raw : Json} {finalizers : List String}
    (hunowned : raw.HasNoOwners) (hread : readAs .ipfs raw = .ok ipfs)
    (hheld : finalizerToken ∈ finalizers ∨ ipfs.isTerminating = true) :
    (m.replacedDocument raw (ipfs.setMetadata "finalizers" (.texts finalizers))).Inherits raw := by
  refine ⟨?_, uid_replacedDocument m raw _, fun _ => ?_⟩
  · rw [Json.HasNoOwners, metadataField_replacedDocument (by decide) (by decide) (by decide),
      Resource.metadata_setMetadata, Json.get, Json.get?_set_of_ne (by decide)]
    exact hunowned.of_readAs hread
  · refine hheld.imp (fun htoken => ?_) fun hmarked hunmarked => ?_
    · rw [Json.HasToken, metadataField_replacedDocument (by decide) (by decide) (by decide),
        Resource.metadata_setMetadata, Json.get_of_get? (Json.get?_set_self _ _ _)]
      exact List.mem_map.mpr ⟨_, htoken, rfl⟩
    · rw [Json.IsUnmarked, mark_replacedDocument] at hunmarked
      rw [(Resource.isTerminating_eq_false_iff hread).mpr hunmarked] at hmarked
      cases hmarked

theorem ownersHeld_setFinalizers (hm : m.OwnersHeld) (hsaw : SeenAs .ipfs ⟨.ipfs, ns, name⟩ ipfs m)
    {finalizers : List String} (hheld : finalizerToken ∈ finalizers ∨ ipfs.isTerminating = true) :
    (m.update (ipfs.setMetadata "finalizers" (.texts finalizers))).2.OwnersHeld := by
  rcases update_setFinalizers_cases hsaw finalizers with
    ⟨e, -, h⟩ | ⟨raw, m₁, -, hget, hread, h, hsettle⟩
  · exact hm.of_objects h.objects
  · have hunowned : raw.HasNoOwners := hm.unowned _ raw (Keyed.mem_of_lookup hget) rfl
    have hinherits := inherits_setFinalizers m hunowned hread hheld
    rw [hsettle]
    refine (hm.of_stores h (.declaration hinherits.unowned fun live hlive => ?_)).settle _
    cases hget.symm.trans hlive
    exact hinherits

theorem Sends.get?_declaration (hshows : ∀ act ∈ t, act.Shows) (h : Sends ns name t c)
    (hm : m.OwnersHeld) (hkind : other.kind = .ipfs) (hother : ¬ c.Writes other) :
    (perform c m).2.get? other = m.get? other := by
  rcases h.spares (m := m) hshows hother with hsame | ⟨-, key, -, -, howns⟩
  · exact hsame
  · -- what goes with another object is owned
    obtain ⟨owner, -, raw, child, uid, -, -, hchild, howned⟩ :=
      Relation.TransGen.tail'_iff.mp howns
    rw [(hm.unowned other child hchild hkind).isOwnedBy uid] at howned
    cases howned

theorem Sends.ownersHeld (hshows : ∀ act ∈ t, act.Shows) (hsaw : ∀ act ∈ t, act.Saw m)
    (hmanaged : ManagedKept ns name t m) (h : Sends ns name t c) (hm : m.OwnersHeld) :
    (perform c m).2.OwnersHeld := by
  cases h with
  | read => exact hm
  | adopt hipfs =>
      refine ownersHeld_setFinalizers hm (hsaw _ hipfs.1 _ _ rfl) (.inl ?_)
      exact List.mem_append_right _ (List.mem_singleton_self _)
  | release hipfs =>
      refine ownersHeld_setFinalizers hm (hsaw _ hipfs.1 _ _ rfl) (.inr ?_)
      exact (FinalizerState.observe_eq_terminating_iff.mp hipfs.2).1
  | @create ipfs identity defaults child hipfs =>
      have hr := hipfs.isDesired hshows identity defaults child
      rcases m.create_cases (((Cluster.ofResource ipfs).children identity defaults).resource child)
        with ⟨-, -, h⟩ | ⟨key, -, hkey, -, -, -, h⟩
      · exact hm.of_objects h.objects
      · cases hr.key.symm.trans hkey
        have howners := Cluster.metadataField_owners (hr.carries_createdDocument m).satisfies
        exact hm.of_stores h (hmanaged.admits hipfs (child.key_kind_ne ns name) howners)
  | @patch ipfs identity defaults child hipfs =>
      have hr := hipfs.isDesired hshows identity defaults child
      rcases m.patch_cases (child.key ns name)
          (((Cluster.ofResource ipfs).children identity defaults).resource child).mergePatch
        with ⟨-, -, h⟩ | ⟨live, -, m₁, -, -, -, h, hsettle⟩
      · exact hm.of_objects h.objects
      · have howners := Cluster.metadataField_owners (hr.satisfies_patchedDocument m live)
        rw [perform, hsettle]
        exact (hm.of_stores h (hmanaged.admits hipfs (child.key_kind_ne ns name) howners)).settle _
  | @replace ipfs live identity hipfs hlive =>
      have hr := hipfs.isDesired hshows identity .standard .secret
      rcases m.update_cases (replacementSecret live ((Cluster.ofResource ipfs).secret identity).resource)
        with ⟨-, -, h⟩ | ⟨key, raw, -, m₁, hkey, -, -, -, -, h, hsettle⟩
      · exact hm.of_objects h.objects
      · rw [replacementSecret_key, hlive.key_eq hshows] at hkey
        cases hkey
        have howners : (m.replacedDocument raw (replacementSecret live
            ((Cluster.ofResource ipfs).secret identity).resource)).metadataField "ownerReferences" =
              (Cluster.ofResource ipfs).ownersJson := by
          rw [metadataField_replacedDocument (by decide) (by decide) (by decide),
            replacementSecret_metadata, Json.get_of_get? (Json.get?_set_self _ _ _)]
          exact Cluster.metadataField_owners (Json.satisfies_self hr.isPlain hr.canonical)
        rw [perform, hsettle]
        have hadmits := hmanaged.admits hipfs (Child.secret.key_kind_ne ns name) howners
        exact (hm.of_stores h hadmits).settle _

end Reconcile

end ClusterKeeper
