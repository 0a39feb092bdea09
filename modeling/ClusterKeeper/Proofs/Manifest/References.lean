import ClusterKeeper.Proofs.Manifest.Desired

/-!
References between the children of a cluster. The builders of the children spell names, keys, paths
and ports independently of each other; the main statement is that all of them agree, so that whatever
a child refers to is another child of the same set, or a part of one.
-/

namespace ClusterKeeper

namespace Manifest

def Pod.allContainers (pod : Pod) : List Container := pod.initContainers ++ pod.containers

/-- The labels have all that the selector asks for. -/
def Selects (selector labels : List (String × String)) : Prop :=
  ∀ entry ∈ selector, labels.lookup entry.1 = some entry.2

/-- One of the containers exposes the port that a service port leads to. -/
def ServicePort.IsExposed (containers : List Container) (port : ServicePort) : Prop :=
  ∃ container ∈ containers, ∃ exposed ∈ container.ports,
    exposed.port = port.targetPort ∧ exposed.protocol = port.protocol

theorem Metadata.text?_get_namespace (metadata : Metadata) :
    (metadata.toJson.get "namespace").text? = metadata.ns := by
  obtain ⟨name, ns, labels, owners⟩ := metadata
  cases ns <;> rfl

theorem Metadata.get_ownerReferences (metadata : Metadata) :
    metadata.toJson.get "ownerReferences" =
      .arr (metadata.owners.map OwnerReference.toJson) := by
  obtain ⟨name, ns, labels, owners⟩ := metadata
  cases ns <;> rfl

end Manifest

namespace Children

open Manifest

variable (children : Children)

def configMaps : List ConfigMap := [children.scriptsConfigMap, children.configConfigMap]

/-- The value of a variable that is not given literally is kept by a child, under the key that is
asked for. -/
def Supplies : EnvSource → Prop
  | .literal _ => True
  | .configMapKey name key => ∃ configMap ∈ children.configMaps,
      configMap.metadata.name = name ∧ ∃ value, configMap.data.lookup key = some value
  | .secretKey name key => children.secret.metadata.name = name ∧
      ∃ value, children.secret.data.lookup key = some value

def HoldsScripts (volume : Volume) : Prop :=
  volume.configMap = children.scriptsConfigMap.metadata.name

/-- The container runs one of the scripts, from where it mounts the volume that holds them. -/
def RunsScript (container : Container) : Prop :=
  ∃ mount ∈ container.mounts, ∃ volume ∈ children.statefulSet.pod.volumes,
    volume.name = mount.volume ∧ children.HoldsScripts volume ∧
      ∃ file text, children.scriptsConfigMap.data.lookup file = some text ∧
        container.command = ["sh", mount.path ++ "/" ++ file]

def volumeNames : List String :=
  children.statefulSet.pod.volumes.map (·.name) ++ children.statefulSet.claims.map (·.name)

/-- Every reference between the children leads to one of them. -/
structure Coherent : Prop where
  governed : children.statefulSet.serviceName = children.service.metadata.name
  account : children.statefulSet.pod.serviceAccount = children.serviceAccount.metadata.name
  scripts : ∀ volume ∈ children.statefulSet.pod.volumes, children.HoldsScripts volume
  sources : ∀ container ∈ children.statefulSet.pod.allContainers, ∀ var ∈ container.env,
    children.Supplies var.source
  /-- Peers find each other by the name of the service. -/
  peers : ∃ container ∈ children.statefulSet.pod.containers,
    ⟨"SVC_NAME", .literal children.service.metadata.name⟩ ∈ container.env
  onlyService : ∀ container ∈ children.statefulSet.pod.allContainers, ∀ var ∈ container.env,
    var.name = "SVC_NAME" → var.source = .literal children.service.metadata.name
  commands : ∀ container ∈ children.statefulSet.pod.allContainers,
    container.command = [] ∨ children.RunsScript container
  mounts : ∀ container ∈ children.statefulSet.pod.allContainers, ∀ mount ∈ container.mounts,
    mount.volume ∈ children.volumeNames
  selected : Selects children.statefulSet.selector children.statefulSet.pod.labels
  served : Selects children.service.selector children.statefulSet.pod.labels
  ports : ∀ port ∈ children.service.ports,
    port.IsExposed children.statefulSet.pod.containers

def controllerOf (ipfs : Resource) : OwnerReference :=
  { apiVersion := "cluster.ipfs.io/v1alpha1"
    kind := "Ipfs"
    name := ipfs.displayName
    uid := ipfs.uid?.getD ""
    controller := true
    blockOwnerDeletion := true }

/-- Each child is written to the namespace of the declaration, and has it as its one owner. -/
structure BelongTo (ipfs : Resource) : Prop where
  ns : ∀ child, (children.resource child).namespace? = ipfs.namespace?
  owner : ∀ child, (children.resource child).metadata.get "ownerReferences" =
    .arr [(controllerOf ipfs).toJson]

end Children

namespace Cluster

open Manifest

variable (cluster : Cluster) (identity : Identity) (defaults : WorkloadDefaults)

/-- What holds of all containers holds of the one that prepares the pod and of the two daemons. -/
theorem forall_containers {p : Container → Prop} :
    (∀ container ∈ (cluster.pod defaults).allContainers, p container) ↔
      p (configureContainer (cluster.images defaults)) ∧
        p (ipfsContainer (cluster.images defaults)) ∧
          p (clusterContainer cluster.childNames (cluster.images defaults)) := by
  simp [Pod.allContainers, pod]

theorem selects_labels (name : String) : Selects (selectorLabels name) (labels name) := by
  simp +decide [Selects, selectorLabels, labels, List.lookup_cons]

/-- A script of the cluster runs from the mount of the volume that holds them all. -/
theorem runsScript {container : Container} {file text : String}
    (hmount : ⟨VolumeName.scripts, MountPath.scripts⟩ ∈ container.mounts)
    (hfile : cluster.scriptsConfigMap.data.lookup file = some text)
    (hcommand : container.command = ["sh", MountPath.scripts ++ "/" ++ file]) :
    (cluster.children identity defaults).RunsScript container :=
  ⟨_, hmount, ⟨VolumeName.scripts, cluster.childNames.scriptsConfigMap, 0o755⟩,
    List.mem_singleton_self _, rfl, rfl, file, text, hfile, hcommand⟩

theorem lookup_configureScript :
    cluster.scriptsConfigMap.data.lookup DataKey.configureIpfsScript =
      some (Script.configureIpfs cluster.spec.ipfsStorage) := rfl

theorem lookup_entrypointScript :
    cluster.scriptsConfigMap.data.lookup DataKey.entrypointScript = some Script.entrypoint := rfl

theorem coherent_children : (cluster.children identity defaults).Coherent where
  governed := rfl
  account := rfl
  scripts := by
    intro volume hvolume
    cases List.mem_singleton.mp hvolume
    rfl
  sources := by
    have hliteral (value : String) : (cluster.children identity defaults).Supplies
        (.literal value) := trivial
    have hpeerId : (cluster.children identity defaults).Supplies
        (.configMapKey cluster.childNames.configConfigMap DataKey.bootstrapPeerId) :=
      ⟨cluster.configConfigMap identity.peerId, by simp [Children.configMaps, children], rfl, _, rfl⟩
    have hprivateKey : (cluster.children identity defaults).Supplies
        (.secretKey cluster.childNames.secret DataKey.bootstrapPeerPrivateKey) := ⟨rfl, _, rfl⟩
    have hsecret : (cluster.children identity defaults).Supplies
        (.secretKey cluster.childNames.secret DataKey.clusterSecret) := ⟨rfl, _, rfl⟩
    refine (cluster.forall_containers defaults).mpr ⟨List.forall_mem_nil _, ?_, ?_⟩
    · simp [ipfsContainer, hliteral]
    · simp [clusterContainer, hliteral, hpeerId, hprivateKey, hsecret]
  peers := by
    refine ⟨clusterContainer cluster.childNames (cluster.images defaults), ?_, ?_⟩
    · simp [children, statefulSet, pod]
    · simp [clusterContainer, children, service, childMetadata]
  onlyService := by
    refine (cluster.forall_containers defaults).mpr ⟨List.forall_mem_nil _, ?_, ?_⟩
    · simp [ipfsContainer]
    · simp [clusterContainer, children, service, childMetadata]
  commands := by
    refine (cluster.forall_containers defaults).mpr ⟨.inr ?_, .inl rfl, .inr ?_⟩
    · exact cluster.runsScript identity defaults (by simp [configureContainer])
        cluster.lookup_configureScript rfl
    · exact cluster.runsScript identity defaults (by simp [clusterContainer])
        cluster.lookup_entrypointScript rfl
  mounts := by
    have hnames : (cluster.children identity defaults).volumeNames =
        [VolumeName.scripts, VolumeName.ipfsStorage, VolumeName.clusterStorage] := rfl
    rw [hnames]
    refine (cluster.forall_containers defaults).mpr ⟨?_, ?_, ?_⟩
    · simp [configureContainer]
    · simp [ipfsContainer]
    · simp [clusterContainer]
  selected := selects_labels cluster.name
  served := selects_labels cluster.name
  ports := by
    have hexposed (port : ServicePort) : port.IsExposed (cluster.pod defaults).containers ↔
        ∃ exposed ∈ (ipfsContainer (cluster.images defaults)).ports ++
          (clusterContainer cluster.childNames (cluster.images defaults)).ports,
          exposed.port = port.targetPort ∧ exposed.protocol = port.protocol := by
      simp [ServicePort.IsExposed, pod, or_and_right, exists_or]
    intro port hport
    refine (hexposed port).mpr ?_
    simp only [children, service, List.mem_cons, List.not_mem_nil, or_false] at hport
    simp only [ipfsContainer, clusterContainer, List.cons_append, List.nil_append,
      List.exists_mem_cons_iff]
    rcases hport with rfl | rfl | rfl | rfl | rfl | rfl | rfl <;> decide

theorem exists_metadata (child : Child) : ∃ name,
    ((cluster.children identity defaults).resource child).metadata =
      (cluster.childMetadata name).toJson := by
  cases child <;> exact ⟨_, rfl⟩

theorem belongTo_children (ipfs : Resource) :
    ((ofResource ipfs).children identity defaults).BelongTo ipfs := by
  constructor
  · intro child
    obtain ⟨name, hmetadata⟩ := (ofResource ipfs).exists_metadata identity defaults child
    rw [Resource.namespace?, hmetadata, Metadata.text?_get_namespace]
    rfl
  · intro child
    obtain ⟨name, hmetadata⟩ := (ofResource ipfs).exists_metadata identity defaults child
    rw [hmetadata, Metadata.get_ownerReferences]
    rfl

/-- The children of a declaration belong to it, and refer to nothing but each other. -/
theorem references_resolve (ipfs : Resource) :
    ((ofResource ipfs).children identity defaults).BelongTo ipfs ∧
      ((ofResource ipfs).children identity defaults).Coherent :=
  ⟨belongTo_children identity defaults ipfs, coherent_children _ identity defaults⟩

end Cluster

end ClusterKeeper
