/-!
The names and labels of the children of a cluster, which depend on its name alone, and the ports of
the two daemons.
-/

namespace ClusterKeeper

structure ChildNames where
  serviceAccount : String
  service : String
  scriptsConfigMap : String
  configConfigMap : String
  secret : String
  statefulSet : String
deriving DecidableEq, Repr

def ChildNames.ofCluster (name : String) : ChildNames :=
  { serviceAccount := "ipfs-cluster-" ++ name
    service := "ipfs-cluster-" ++ name
    scriptsConfigMap := "ipfs-cluster-scripts-" ++ name
    configConfigMap := "ipfs-cluster-config-" ++ name
    secret := "ipfs-cluster-secret-" ++ name
    statefulSet := "ipfs-cluster-" ++ name }

namespace Cluster

/-- The labels that select the pods of a cluster; they never change, as a selector cannot. -/
def selectorLabels (name : String) : List (String × String) :=
  [("app.kubernetes.io/instance", name),
   ("app.kubernetes.io/name", "ipfs-cluster")]

def labels (name : String) : List (String × String) :=
  [("app.kubernetes.io/component", "storage-cluster"),
   ("app.kubernetes.io/instance", name),
   ("app.kubernetes.io/managed-by", "ipfs-operator"),
   ("app.kubernetes.io/name", "ipfs-cluster"),
   ("app.kubernetes.io/part-of", "ipfs")]

end Cluster

namespace Port

def ipfsSwarm : Nat := 4001

def ipfsSwarmUdp : Nat := 4002

def ipfsApi : Nat := 5001

def ipfsGateway : Nat := 8080

def ipfsWebsocket : Nat := 8081

def clusterApi : Nat := 9094

def clusterProxy : Nat := 9095

def clusterSwarm : Nat := 9096

end Port

end ClusterKeeper
