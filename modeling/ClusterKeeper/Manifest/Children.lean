import ClusterKeeper.Cluster.Names
import ClusterKeeper.Cluster.Spec
import ClusterKeeper.Identity.Basic
import ClusterKeeper.Manifest.Basic
import ClusterKeeper.Manifest.Script

/-!
The six children of a cluster. They follow from the declaration, the identity and the default images
alone, so every pass wants the same ones.
-/

namespace ClusterKeeper

/-- The images of clusters that do not name their own. -/
structure WorkloadDefaults where
  ipfsImage : String
  clusterImage : String
  imagePullPolicy : String
deriving DecidableEq, Repr

def WorkloadDefaults.standard : WorkloadDefaults :=
  { ipfsImage := "ipfs/go-ipfs:v0.12.2"
    clusterImage := "ipfs/ipfs-cluster:v1.0.0"
    imagePullPolicy := "IfNotPresent" }

/-! The keys under which children keep what other children read. -/

namespace DataKey

def bootstrapPeerId : String := "BOOTSTRAP_PEER_ID"

def bootstrapPeerPrivateKey : String := "BOOTSTRAP_PEER_PRIV_KEY"

def clusterSecret : String := "CLUSTER_SECRET"

def entrypointScript : String := "entrypoint.sh"

def configureIpfsScript : String := "configure-ipfs.sh"

end DataKey

/-! The names of the volumes that containers mount. -/

namespace VolumeName

def scripts : String := "configure-script"

def ipfsStorage : String := "ipfs-storage"

def clusterStorage : String := "cluster-storage"

end VolumeName

structure Children where
  serviceAccount : Manifest.ServiceAccount
  service : Manifest.Service
  scriptsConfigMap : Manifest.ConfigMap
  configConfigMap : Manifest.ConfigMap
  secret : Manifest.Secret
  statefulSet : Manifest.StatefulSet
deriving DecidableEq, Repr

namespace Cluster

def childNames (cluster : Cluster) : ChildNames := ChildNames.ofCluster cluster.name

/-- The declaration as the one owner of its children, so that they go when it goes. -/
def ownerReferences (cluster : Cluster) : List Manifest.OwnerReference :=
  [{ apiVersion := Kind.ipfs.apiVersion
     kind := Kind.ipfs.name
     name := cluster.name
     uid := cluster.uid
     controller := true
     blockOwnerDeletion := true }]

def childMetadata (cluster : Cluster) (name : String) : Manifest.Metadata :=
  { name
    ns := cluster.ns
    labels := labels cluster.name
    owners := cluster.ownerReferences }

def serviceAccount (cluster : Cluster) : Manifest.ServiceAccount :=
  { metadata := cluster.childMetadata cluster.childNames.serviceAccount }

def servicePort (name : String) (port : Nat) (protocol : String) : Manifest.ServicePort :=
  { name, port, protocol, targetPort := port }

/-- The headless service that gives each pod a name, before it is ready too. -/
def service (cluster : Cluster) : Manifest.Service :=
  { metadata := cluster.childMetadata cluster.childNames.service
    clusterIP := "None"
    publishNotReadyAddresses := true
    selector := selectorLabels cluster.name
    ports :=
      [servicePort "swarm" Port.ipfsSwarm "TCP",
       servicePort "swarm-udp" Port.ipfsSwarmUdp "UDP",
       servicePort "http" Port.ipfsGateway "TCP",
       servicePort "ws" Port.ipfsWebsocket "TCP",
       servicePort "api-http" Port.clusterApi "TCP",
       servicePort "proxy-http" Port.clusterProxy "TCP",
       servicePort "cluster-swarm" Port.clusterSwarm "TCP"] }

def scriptsConfigMap (cluster : Cluster) : Manifest.ConfigMap :=
  { metadata := cluster.childMetadata cluster.childNames.scriptsConfigMap
    data :=
      [(DataKey.configureIpfsScript, Manifest.Script.configureIpfs cluster.spec.ipfsStorage),
       (DataKey.entrypointScript, Manifest.Script.entrypoint)] }

/-- The peer id that all peers dial. -/
def configConfigMap (cluster : Cluster) (peerId : PeerId) : Manifest.ConfigMap :=
  { metadata := cluster.childMetadata cluster.childNames.configConfigMap
    data := [(DataKey.bootstrapPeerId, peerId.text)] }

def secret (cluster : Cluster) (identity : Identity) : Manifest.Secret :=
  { metadata := cluster.childMetadata cluster.childNames.secret
    data :=
      [(DataKey.bootstrapPeerPrivateKey, identity.privateKeyBase64.toUTF8.toList),
       (DataKey.clusterSecret, identity.clusterSecret.toUTF8.toList)]
    type := "Opaque" }

def images (cluster : Cluster) (defaults : WorkloadDefaults) : WorkloadDefaults :=
  let override? (field : ImageOverrides → Option String) : Option String :=
    cluster.spec.image.bind field
  { ipfsImage := (override? (·.ipfs)).getD defaults.ipfsImage
    clusterImage := (override? (·.cluster)).getD defaults.clusterImage
    imagePullPolicy := (override? (·.imagePullPolicy)).getD defaults.imagePullPolicy }

def configureContainer (images : WorkloadDefaults) : Manifest.Container :=
  { name := "configure-ipfs"
    image := images.ipfsImage
    imagePullPolicy := images.imagePullPolicy
    command := ["sh", MountPath.scripts ++ "/" ++ DataKey.configureIpfsScript]
    env := []
    ports := []
    mounts :=
      [⟨VolumeName.ipfsStorage, MountPath.ipfsData⟩, ⟨VolumeName.scripts, MountPath.scripts⟩] }

def ipfsContainer (images : WorkloadDefaults) : Manifest.Container :=
  { name := "ipfs"
    image := images.ipfsImage
    imagePullPolicy := images.imagePullPolicy
    command := []
    env := [⟨"IPFS_FD_MAX", .literal "4096"⟩]
    ports :=
      [⟨"swarm", Port.ipfsSwarm, "TCP"⟩,
       ⟨"swarm-udp", Port.ipfsSwarmUdp, "UDP"⟩,
       ⟨"api", Port.ipfsApi, "TCP"⟩,
       ⟨"http", Port.ipfsGateway, "TCP"⟩,
       ⟨"ws", Port.ipfsWebsocket, "TCP"⟩]
    mounts := [⟨VolumeName.ipfsStorage, MountPath.ipfsData⟩] }

def clusterContainer (names : ChildNames) (images : WorkloadDefaults) : Manifest.Container :=
  { name := "ipfs-cluster"
    image := images.clusterImage
    imagePullPolicy := images.imagePullPolicy
    command := ["sh", MountPath.scripts ++ "/" ++ DataKey.entrypointScript]
    env :=
      [⟨"BOOTSTRAP_PEER_ID", .configMapKey names.configConfigMap DataKey.bootstrapPeerId⟩,
       ⟨"BOOTSTRAP_PEER_PRIV_KEY", .secretKey names.secret DataKey.bootstrapPeerPrivateKey⟩,
       ⟨"CLUSTER_SECRET", .secretKey names.secret DataKey.clusterSecret⟩,
       ⟨"SVC_NAME", .literal names.service⟩,
       ⟨"CLUSTER_IPFSHTTP_NODEMULTIADDRESS",
        .literal ("/ip4/127.0.0.1/tcp/" ++ toString Port.ipfsApi)⟩,
       ⟨"CLUSTER_RESTAPI_HTTPLISTENMULTIADDRESS",
        .literal ("/ip4/0.0.0.0/tcp/" ++ toString Port.clusterApi)⟩,
       ⟨"CLUSTER_CRDT_TRUSTEDPEERS", .literal "*"⟩,
       ⟨"CLUSTER_MONITOR_PING_INTERVAL", .literal "3m"⟩]
    ports :=
      [⟨"api-http", Port.clusterApi, "TCP"⟩,
       ⟨"proxy-http", Port.clusterProxy, "TCP"⟩,
       ⟨"cluster-swarm", Port.clusterSwarm, "TCP"⟩]
    mounts :=
      [⟨VolumeName.clusterStorage, MountPath.clusterData⟩,
       ⟨VolumeName.scripts, MountPath.scripts⟩] }

/-- A pod of the cluster: one container prepares it, two run the daemons. -/
def pod (cluster : Cluster) (defaults : WorkloadDefaults) : Manifest.Pod :=
  let names := cluster.childNames
  let images := cluster.images defaults
  { labels := labels cluster.name
    serviceAccount := names.serviceAccount
    initContainers := [configureContainer images]
    containers := [ipfsContainer images, clusterContainer names images]
    volumes := [⟨VolumeName.scripts, names.scriptsConfigMap, 0o755⟩] }

def statefulSet (cluster : Cluster) (defaults : WorkloadDefaults) : Manifest.StatefulSet :=
  { metadata := cluster.childMetadata cluster.childNames.statefulSet
    serviceName := cluster.childNames.service
    replicas := cluster.spec.effectiveReplicas
    selector := selectorLabels cluster.name
    pod := cluster.pod defaults
    claims :=
      [⟨VolumeName.ipfsStorage, ["ReadWriteOnce"], cluster.spec.ipfsStorage⟩,
       ⟨VolumeName.clusterStorage, ["ReadWriteOnce"], cluster.spec.clusterStorage⟩] }

def children (cluster : Cluster) (identity : Identity) (defaults : WorkloadDefaults) : Children :=
  { serviceAccount := cluster.serviceAccount
    service := cluster.service
    scriptsConfigMap := cluster.scriptsConfigMap
    configConfigMap := cluster.configConfigMap identity.peerId
    secret := cluster.secret identity
    statefulSet := cluster.statefulSet defaults }

end Cluster

end ClusterKeeper
