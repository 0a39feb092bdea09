import ClusterKeeper.Reconcile.Object
import ClusterKeeper.Store.Call
import ClusterKeeper.Proofs.Manifest.Written

/-!
What a pass wants of its children: each is an object in written form under a key of its own, and its
patch is the whole object.
-/

namespace ClusterKeeper

namespace Json

@[simp] theorem isCanonical_int (value : Int) : (int value).isCanonical = true := rfl

@[simp] theorem isCanonical_textMap (entries : List (String × String)) :
    (textMap entries).isCanonical = true ↔ Keyed.Sorted entries := by
  have hkeys : (entries.map fun entry => (entry.1, str entry.2)).map Prod.fst =
      entries.map Prod.fst := by simp
  rw [textMap, isCanonical_obj, Keyed.sorted_iff_of_keys_eq hkeys]
  refine and_iff_left fun member hmember => ?_
  obtain ⟨_, -, rfl⟩ := List.mem_map.mp hmember
  rfl

@[simp] theorem isCanonical_texts (values : List String) : (texts values).isCanonical = true := by
  simp [texts]

theorem isCanonical_ofFields {fields : List (String × Option Json)}
    (hsorted : Keyed.Sorted fields)
    (h : ∀ field ∈ fields, ∀ value ∈ field.2, value.isCanonical = true) :
    (ofFields fields).isCanonical = true := by
  rw [ofFields, isCanonical_obj]
  constructor
  · refine List.Pairwise.filterMap _ (fun a b hlt c hc d hd => ?_) hsorted
    obtain ⟨_, -, rfl⟩ := Option.map_eq_some_iff.mp hc
    obtain ⟨_, -, rfl⟩ := Option.map_eq_some_iff.mp hd
    exact hlt
  · intro member hmember
    obtain ⟨field, hfield, hvalue⟩ := List.mem_filterMap.mp hmember
    obtain ⟨value, hfound, rfl⟩ := Option.map_eq_some_iff.mp hvalue
    exact h field hfield value hfound

theorem isCanonical_listUnlessEmpty {items : List Json} {value : Json}
    (h : ∀ item ∈ items, item.isCanonical = true) (hvalue : value ∈ listUnlessEmpty items) :
    value.isCanonical = true := by
  rw [listUnlessEmpty] at hvalue
  split at hvalue
  · cases hvalue
  · cases hvalue
    exact (isCanonical_arr items).mpr h

end Json

namespace Manifest

@[simp] theorem OwnerReference.isCanonical (owner : OwnerReference) :
    owner.toJson.isCanonical = true := by
  simp +decide [toJson, Keyed.sorted_cons_iff]

theorem Metadata.isCanonical {md : Metadata} (h : Keyed.Sorted md.labels) :
    md.toJson.isCanonical = true := by
  refine Json.isCanonical_ofFields (by simp +decide [Keyed.sorted_cons_iff]) ?_
  simp [h]

@[simp] theorem ServicePort.isCanonical (port : ServicePort) : port.toJson.isCanonical = true := by
  simp +decide [toJson, Keyed.sorted_cons_iff]

@[simp] theorem ContainerPort.isCanonical (port : ContainerPort) :
    port.toJson.isCanonical = true := by
  simp +decide [toJson, Keyed.sorted_cons_iff]

@[simp] theorem VolumeMount.isCanonical (mount : VolumeMount) : mount.toJson.isCanonical = true := by
  simp +decide [toJson, Keyed.sorted_cons_iff]

@[simp] theorem EnvVar.isCanonical (var : EnvVar) : var.toJson.isCanonical = true := by
  obtain ⟨name, source⟩ := var
  cases source <;> simp +decide [toJson, keyReference, Keyed.sorted_cons_iff]

@[simp] theorem Volume.isCanonical (volume : Volume) : volume.toJson.isCanonical = true := by
  simp +decide [toJson, Keyed.sorted_cons_iff]

@[simp] theorem VolumeClaim.isCanonical (claim : VolumeClaim) : claim.toJson.isCanonical = true := by
  simp +decide [toJson, Keyed.sorted_cons_iff]

@[simp] theorem Container.isCanonical (container : Container) :
    container.toJson.isCanonical = true := by
  refine Json.isCanonical_ofFields (by simp +decide [Keyed.sorted_cons_iff]) ?_
  simp only [List.forall_mem_cons]
  refine ⟨fun v => Json.isCanonical_listUnlessEmpty (by simp),
    fun v => Json.isCanonical_listUnlessEmpty (by simp), by simp, by simp, by simp,
    fun v => Json.isCanonical_listUnlessEmpty (by simp),
    fun v => Json.isCanonical_listUnlessEmpty (by simp), nofun⟩

theorem Pod.isCanonical {pod : Pod} (h : Keyed.Sorted pod.labels) :
    pod.toJson.isCanonical = true := by
  simpa +decide [toJson, Keyed.sorted_cons_iff] using h

theorem ServiceAccount.isCanonical {account : ServiceAccount}
    (h : Keyed.Sorted account.metadata.labels) : account.toJson.isCanonical = true := by
  simpa +decide [toJson, Keyed.sorted_cons_iff] using Metadata.isCanonical h

theorem ConfigMap.isCanonical {configMap : ConfigMap} (h : Keyed.Sorted configMap.metadata.labels)
    (hdata : Keyed.Sorted configMap.data) : configMap.toJson.isCanonical = true := by
  simpa +decide [toJson, Keyed.sorted_cons_iff] using ⟨hdata, Metadata.isCanonical h⟩

theorem Secret.isCanonical {secret : Secret} (h : Keyed.Sorted secret.metadata.labels)
    (hdata : Keyed.Sorted secret.data) : secret.toJson.isCanonical = true := by
  have hencoded : Keyed.Sorted (secret.data.map fun entry => (entry.1, Base64.encode entry.2)) :=
    (Keyed.sorted_iff_of_keys_eq (by simp)).mpr hdata
  simpa +decide [toJson, Keyed.sorted_cons_iff] using ⟨hencoded, Metadata.isCanonical h⟩

theorem Service.isCanonical {service : Service} (h : Keyed.Sorted service.metadata.labels)
    (hselector : Keyed.Sorted service.selector) : service.toJson.isCanonical = true := by
  simpa +decide [toJson, Keyed.sorted_cons_iff] using ⟨Metadata.isCanonical h, hselector⟩

theorem StatefulSet.isCanonical {set : StatefulSet} (h : Keyed.Sorted set.metadata.labels)
    (hselector : Keyed.Sorted set.selector) (hpod : Keyed.Sorted set.pod.labels) :
    set.toJson.isCanonical = true := by
  simpa +decide [toJson, Keyed.sorted_cons_iff] using
    ⟨Metadata.isCanonical h, hselector, Pod.isCanonical hpod⟩

end Manifest

/-- An object as a pass wants it under a key: in written form, and patched as a whole. -/
structure Resource.IsDesired (r : Resource) (key : ObjectKey) : Prop where
  kind : r.kind ≠ .ipfs
  key : r.key = .ok key
  written : r.kind.schema.IsWritten r.body
  canonical : r.body.isCanonical = true
  mergePatch : r.mergePatch = r.body
  metadata : ∃ md, r.body.get? "metadata" = some (.obj md) ∧
    ∀ member ∈ md, member.1 ∈ patchedMetadata

namespace Manifest

theorem Metadata.toJson_of_ns {md : Metadata} {ns : String} (hns : md.ns = some ns) :
    md.toJson = .obj [("labels", Json.textMap md.labels), ("name", .str md.name),
      ("namespace", .str ns), ("ownerReferences", .arr (md.owners.map OwnerReference.toJson))] := by
  obtain ⟨name, _, labels, owners⟩ := md
  cases hns
  rfl

/-- An object in written form with the metadata of a child is what a pass wants. -/
theorem Metadata.isDesired {md : Metadata} {ns : String} {r : Resource} (hns : md.ns = some ns)
    (hkind : r.kind ≠ .ipfs) (hmetadata : r.body.get? "metadata" = some md.toJson)
    (hstatus : r.body.get? "status" = none) (hwritten : r.kind.schema.IsWritten r.body)
    (hcanonical : r.body.isCanonical = true) : r.IsDesired ⟨r.kind, ns, md.name⟩ := by
  have hr : r.metadata = md.toJson := by
    rw [Resource.metadata, Json.get, hmetadata]
    rfl
  have hmembers := Metadata.toJson_of_ns hns
  have hkey : r.key = .ok ⟨r.kind, ns, md.name⟩ := by
    rw [Resource.key, Resource.key?, Resource.name?, Resource.namespace?, hr, hmembers]
    rfl
  have hpatch : r.mergePatch = r.body := by
    have hfilter : Json.obj (md.toJson.members.filter fun member =>
        patchedMetadata.contains member.1) = md.toJson := by
      rw [hmembers]
      rfl
    rw [Resource.mergePatch, hr, hfilter, Json.set_of_get?_eq_some hcanonical hmetadata,
      Json.drop_of_get?_eq_none hcanonical hstatus]
  exact ⟨hkind, hkey, hwritten, hcanonical, hpatch, _, hmembers ▸ hmetadata, by simp [patchedMetadata]⟩

end Manifest

namespace Cluster

variable {cluster : Cluster} {ns : String}

theorem sorted_labels (name : String) : Keyed.Sorted (labels name) := by
  simp +decide [labels, Keyed.sorted_cons_iff]

theorem sorted_selectorLabels (name : String) : Keyed.Sorted (selectorLabels name) := by
  simp +decide [selectorLabels, Keyed.sorted_cons_iff]

end Cluster

inductive Child where
  | serviceAccount
  | service
  | scripts
  | config
  | secret
  | statefulSet
deriving DecidableEq, Repr

namespace Child

def key (ns name : String) : Child → ObjectKey
  | serviceAccount => ⟨.serviceAccount, ns, (ChildNames.ofCluster name).serviceAccount⟩
  | service => ⟨.service, ns, (ChildNames.ofCluster name).service⟩
  | scripts => ⟨.configMap, ns, (ChildNames.ofCluster name).scriptsConfigMap⟩
  | config => ⟨.configMap, ns, (ChildNames.ofCluster name).configConfigMap⟩
  | secret => ⟨.secret, ns, (ChildNames.ofCluster name).secret⟩
  | statefulSet => ⟨.statefulSet, ns, (ChildNames.ofCluster name).statefulSet⟩

/-- The scripts of a cluster and the identity of any are in config maps of different names. -/
theorem scripts_ne_config (name name' : String) :
    (ChildNames.ofCluster name).scriptsConfigMap ≠ (ChildNames.ofCluster name').configConfigMap := by
  intro h
  have hchars := congrArg (fun text => text.toList[13]?) h
  simp [ChildNames.ofCluster] at hchars

theorem key_injective (ns name : String) : Function.Injective (key ns name) := by
  intro a b h
  have hnames := scripts_ne_config name name
  cases a <;> cases b <;> simp_all [key] 

theorem key_kind_ne (ns name : String) (child : Child) : (child.key ns name).kind ≠ .ipfs := by
  cases child <;> nofun

end Child

/-- The keys of a declaration and of its children. -/
inductive ObjectKey.IsFamily (ns name : String) : ObjectKey → Prop where
  | declaration : IsFamily ns name ⟨.ipfs, ns, name⟩
  | child (child : Child) : IsFamily ns name (child.key ns name)

def Children.resource (children : Children) : Child → Resource
  | .serviceAccount => children.serviceAccount.resource
  | .service => children.service.resource
  | .scripts => children.scriptsConfigMap.resource
  | .config => children.configConfigMap.resource
  | .secret => children.secret.resource
  | .statefulSet => children.statefulSet.resource

/-- A cluster as declared under that namespace and name. -/
structure Cluster.IsDeclared (cluster : Cluster) (ns name : String) : Prop where
  ns : cluster.ns = some ns
  name : cluster.name = name
  replicas : Schema.int32.IsWritten (.int cluster.spec.replicas)

namespace Cluster

variable {cluster : Cluster} {ns name : String}

theorem isWritten_effectiveReplicas (h : Schema.int32.IsWritten (.int cluster.spec.replicas)) :
    Schema.int32.IsWritten (.int cluster.spec.effectiveReplicas) := by
  obtain ⟨hlower, hupper⟩ := Schema.isWritten_int32_iff.mp h
  have hone : (1 : Int) < twoTo 31 := by decide
  refine Schema.isWritten_int32_iff.mpr ?_
  rw [ClusterSpec.effectiveReplicas]
  omega

theorem isDesired_children (h : cluster.IsDeclared ns name) (identity : Identity)
    (defaults : WorkloadDefaults) (child : Child) :
    ((cluster.children identity defaults).resource child).IsDesired (child.key ns name) := by
  obtain ⟨hns, rfl, hreplicas⟩ := h
  have hlabels := sorted_labels cluster.name
  have hselector := sorted_selectorLabels cluster.name
  cases child with
  | serviceAccount =>
      exact Manifest.Metadata.isDesired (r := cluster.serviceAccount.resource) hns nofun rfl rfl
        cluster.serviceAccount.isWritten (Manifest.ServiceAccount.isCanonical hlabels)
  | service =>
      exact Manifest.Metadata.isDesired (r := cluster.service.resource) hns nofun rfl rfl
        cluster.isWritten_service (Manifest.Service.isCanonical hlabels hselector)
  | scripts =>
      refine Manifest.Metadata.isDesired (r := cluster.scriptsConfigMap.resource) hns nofun rfl rfl
        cluster.scriptsConfigMap.isWritten (Manifest.ConfigMap.isCanonical hlabels ?_)
      simp +decide [scriptsConfigMap, Keyed.sorted_cons_iff, DataKey.configureIpfsScript,
        DataKey.entrypointScript]
  | config =>
      refine Manifest.Metadata.isDesired (r := (cluster.configConfigMap identity.peerId).resource)
        hns nofun rfl rfl (cluster.configConfigMap identity.peerId).isWritten
        (Manifest.ConfigMap.isCanonical hlabels ?_)
      simp +decide [configConfigMap, Keyed.sorted_cons_iff]
  | secret =>
      refine Manifest.Metadata.isDesired (r := (cluster.secret identity).resource) hns nofun rfl rfl
        (cluster.secret identity).isWritten (Manifest.Secret.isCanonical hlabels ?_)
      simp +decide [secret, Keyed.sorted_cons_iff, DataKey.bootstrapPeerPrivateKey,
        DataKey.clusterSecret]
  | statefulSet =>
      exact Manifest.Metadata.isDesired (r := (cluster.statefulSet defaults).resource) hns nofun rfl
        rfl (Manifest.StatefulSet.isWritten (isWritten_effectiveReplicas hreplicas)
          (cluster.isWritten_pod defaults))
        (Manifest.StatefulSet.isCanonical hlabels hselector hlabels)

theorem kind_of_other {identity : Identity} {defaults : WorkloadDefaults} {child : Child}
    (hsecret : child ≠ .secret) :
    ((cluster.children identity defaults).resource child).kind ≠ .secret := by
  cases child with
  | secret => exact absurd rfl hsecret
  | _ => nofun

theorem isDesired_secret (h : cluster.IsDeclared ns name) (identity : Identity) :
    (cluster.secret identity).resource.IsDesired (Child.secret.key ns name) :=
  isDesired_children h identity .standard .secret

end Cluster

end ClusterKeeper
