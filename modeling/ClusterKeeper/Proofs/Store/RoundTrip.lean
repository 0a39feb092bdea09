import ClusterKeeper.Proofs.Manifest.Injective
import ClusterKeeper.Proofs.Reconcile.Declaration
import ClusterKeeper.Proofs.Schema.Typed
import ClusterKeeper.Proofs.Store.Fields

/-!
What is stored is what is read back. An object that is created comes back with the uid and the version
that the store gave it and as it was sent otherwise, and writing it again gives the stored document.
-/

namespace ClusterKeeper

def ClusterSpec.ofValue : Schema.ipfsSpec.Value → ClusterSpec
  | (clusterStorage, image, ipfsStorage, replicas, ()) =>
    { replicas := Int32.toInt replicas
      ipfsStorage
      clusterStorage
      image := Option.map (fun (cluster, imagePullPolicy, ipfs, ()) =>
        { ipfs, cluster, imagePullPolicy }) image }

theorem ClusterSpec.ofJson_write (value : Schema.ipfsSpec.Value) :
    ofJson (Schema.ipfsSpec.write value) = ofValue value := by
  obtain ⟨clusterStorage, image, ipfsStorage, replicas, ⟨⟩⟩ := value
  rcases image with _ | ⟨_ | cluster, _ | imagePullPolicy, _ | ipfs, ⟨⟩⟩ <;> rfl

def Resource.ofValue (kind : Kind) (value : kind.schema.Value) : Resource :=
  ⟨kind, kind.schema.write value⟩

def Children.object (children : Children) : Child → Manifest.Object
  | .serviceAccount => .serviceAccount children.serviceAccount
  | .service => .service children.service
  | .scripts => .configMap children.scriptsConfigMap
  | .config => .configMap children.configConfigMap
  | .secret => .secret children.secret
  | .statefulSet => .statefulSet children.statefulSet

theorem Children.resource_object (children : Children) (child : Child) :
    (children.object child).resource = children.resource child := by
  cases child <;> rfl

/-- A child of a declaration with a key is the written form of one typed object, and is read as the
child that was declared. -/
theorem Cluster.decodes_child {ipfs : Schema.ipfs.Value} {key : ObjectKey}
    (hkey : (Resource.ofValue .ipfs ipfs).key = .ok key) (identity : Identity)
    (defaults : WorkloadDefaults) (child : Child) :
    let children := (ofResource (.ofValue .ipfs ipfs)).children identity defaults
    let sent := children.resource child
    (∃ value, sent = .ofValue sent.kind value ∧
      ∀ found, sent.kind.schema.Decodes sent.body found ↔ found = value) ∧
    ∀ object : Manifest.Object,
      Resource.read sent.kind sent.body = .ok object.resource ↔ object = children.object child := by
  intro children sent
  have hread : Memory.readAs .ipfs (Schema.ipfs.write ipfs) = .ok (.ofValue .ipfs ipfs) :=
    Memory.readAs_eq_ok_iff.mpr ⟨rfl, Schema.isWritten_write Kind.ipfs.isStable_schema ipfs⟩
  have hns : (Resource.ofValue .ipfs ipfs).namespace? = some key.ns := by
    rw [Resource.namespace?, (Resource.named_of_key hkey).2.2]
    rfl
  have hsent : sent.IsDesired _ :=
    isDesired_children (isDeclared_ofResource hread hns) identity defaults child
  constructor
  · obtain ⟨value, hbody, hvalue⟩ :=
      Schema.exists_decodes sent.kind.isStable_schema hsent.canonical hsent.written
    exact ⟨value, congrArg (Resource.mk sent.kind) hbody, hvalue⟩
  · intro object
    have hsame : Resource.read sent.kind sent.body = .ok sent := by
      rw [Resource.read, hsent.written]
      rfl
    rw [hsame, ← Manifest.Object.resource_injective.eq_iff, children.resource_object]
    exact ⟨fun h => (Except.ok.inj h).symm, fun h => congrArg Except.ok h.symm⟩

namespace Memory

/-- An object that is created under a free key is read as what is stored. -/
theorem exists_stored_of_create {m : Memory} {kind : Kind} {sent : kind.schema.Value}
    {key : ObjectKey} (hkey : (Resource.ofValue kind sent).key = .ok key)
    (hcreate : m.failure? .create kind = none) (hget : m.failure? .get kind = none)
    (hfree : m.get? key = none) :
    ∃ found : kind.schema.Value,
      (m.create (.ofValue kind sent)).1 = .ok (.ofValue kind found) ∧
      (m.create (.ofValue kind sent)).2.get key = .ok (some (.ofValue kind found)) ∧
      (m.create (.ofValue kind sent)).2.get? key = some (kind.schema.write found) ∧
      (kind.schema.write found).unstamped = (kind.schema.write sent).unstamped := by
  have hkind : kind = key.kind := (Resource.named_of_key hkey).1
  have hstable := kind.isStable_schema
  have hcanonical : (m.createdDocument (.ofValue kind sent)).isCanonical = true :=
    isCanonical_createdDocument m (Schema.isCanonical_write hstable sent)
  have hwritten : kind.schema.IsWritten (m.createdDocument (.ofValue kind sent)) :=
    isWritten_createdDocument m (Schema.isWritten_write hstable sent)
  -- the stored document is written of a typed object, which a read therefore gives back
  obtain ⟨found, hfound⟩ := Schema.exists_write hstable hcanonical hwritten
  have hread : readAs key.kind (m.createdDocument (.ofValue kind sent)) =
      .ok (.ofValue kind found) := by
    rw [← hkind, ← hfound]
    exact readAs_eq_ok_iff.mpr ⟨rfl, Schema.isWritten_write hstable found⟩
  have hok : (m.create (.ofValue kind sent)).1 = .ok (.ofValue kind found) :=
    create_of_absent hcreate hkey hfree hread
  refine ⟨found, hok, ?_⟩
  rcases m.create_cases (.ofValue kind sent) with
    ⟨e, herror, -⟩ | ⟨other, _, hother, -, -, -, hstores⟩
  · cases hok.symm.trans herror
  · cases hkey.symm.trans hother
    refine ⟨?_, hfound ▸ hstores.get?_self, ?_⟩
    · refine get_of_present ?_ hstores.get?_self hread
      rw [failure?, hstores.failures, ← hkind]
      exact hget
    · rw [hfound]
      exact unstamped_createdDocument m _

/-- What is stored is what is read back. -/
theorem read_back_as_sent :
    (∀ (kind : Kind) (sent found : kind.schema.Value),
      kind.schema.Decodes (kind.schema.write sent) found ↔ found = sent) ∧
    (∀ (metadata : Schema.metadata.Value) (spec : Schema.ipfsSpec.Value),
      (Cluster.ofResource (.ofValue .ipfs ((), (), metadata, spec, ()))).spec = .ofValue spec) ∧
    (∀ (ipfs : Schema.ipfs.Value) (key : ObjectKey) (identity : Identity)
      (defaults : WorkloadDefaults) (child : Child),
      (Resource.ofValue .ipfs ipfs).key = .ok key →
      let children := (Cluster.ofResource (.ofValue .ipfs ipfs)).children identity defaults
      let sent := children.resource child
      (∃ value, sent = .ofValue sent.kind value ∧
        ∀ found, sent.kind.schema.Decodes sent.body found ↔ found = value) ∧
      ∀ object : Manifest.Object,
        Resource.read sent.kind sent.body = .ok object.resource ↔ object = children.object child) ∧
    (∀ (m : Memory) (kind : Kind) (sent : kind.schema.Value) (key : ObjectKey),
      (Resource.ofValue kind sent).key = .ok key → m.failure? .create kind = none →
      m.failure? .get kind = none → m.get? key = none →
      ∃ found : kind.schema.Value,
        (m.create (.ofValue kind sent)).1 = .ok (.ofValue kind found) ∧
        (m.create (.ofValue kind sent)).2.get key = .ok (some (.ofValue kind found)) ∧
        (m.create (.ofValue kind sent)).2.get? key = some (kind.schema.write found) ∧
        (kind.schema.write found).unstamped = (kind.schema.write sent).unstamped) := by
  refine ⟨fun kind _ _ => Schema.decodes_write_iff kind.isStable_schema, fun metadata spec => ?_,
    fun _ _ identity defaults child hkey => Cluster.decodes_child hkey identity defaults child,
    fun _ _ _ _ => exists_stored_of_create⟩
  exact ClusterSpec.ofJson_write spec

def emptyImage : Schema.ipfs.Value :=
  ((), (), (none, none, none, none, none, none, none, none, none, some "ipfs", some "demo", none, none,
    none, none, ()), ("1Gi", some (none, none, none, ()), "10Gi", (3 : Int32), ()), ())

/-- Overrides that are there and empty stay so, and the bytes of a secret are read back. -/
theorem read_back_emptyImage :
    (Resource.ofValue .ipfs emptyImage).key = .ok ⟨.ipfs, "demo", "ipfs"⟩ ∧
      (Cluster.ofResource (.ofValue .ipfs emptyImage)).spec.image = some ⟨none, none, none⟩ ∧
      (∃ found : Schema.ipfs.Value,
        (empty.create (.ofValue .ipfs emptyImage)).2.get ⟨.ipfs, "demo", "ipfs"⟩ =
          .ok (some (.ofValue .ipfs found)) ∧
        (Schema.ipfs.write found).unstamped = (Schema.ipfs.write emptyImage).unstamped) ∧
      ∃ value : Schema.secret.Value,
        (((Cluster.ofResource (.ofValue .ipfs emptyImage)).children ⟨[0], ⟨"peer"⟩, "00"⟩
          .standard).resource .secret).body = Schema.secret.write value := by
  have hkey : (Resource.ofValue .ipfs emptyImage).key = .ok ⟨.ipfs, "demo", "ipfs"⟩ := rfl
  obtain ⟨-, hspec, hchild, hstore⟩ := read_back_as_sent
  refine ⟨hkey, congrArg ClusterSpec.image (hspec _ _), ?_, ?_⟩
  · obtain ⟨found, -, hget, -, hsame⟩ := hstore empty .ipfs emptyImage _ hkey rfl rfl rfl
    exact ⟨found, hget, hsame⟩
  · obtain ⟨⟨value, hvalue, -⟩, -⟩ :=
      hchild emptyImage _ ⟨[0], ⟨"peer"⟩, "00"⟩ .standard .secret hkey
    exact ⟨value, congrArg Resource.body hvalue⟩

end Memory

end ClusterKeeper
