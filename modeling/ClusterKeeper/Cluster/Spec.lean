import ClusterKeeper.Resource.Basic

/-!
What an `Ipfs` object declares: how many peers, how much storage for each, which images.
-/

namespace ClusterKeeper

structure ImageOverrides where
  ipfs : Option String
  cluster : Option String
  imagePullPolicy : Option String
deriving DecidableEq, Repr

structure ClusterSpec where
  replicas : Int
  ipfsStorage : String
  clusterStorage : String
  image : Option ImageOverrides
deriving DecidableEq, Repr

namespace ClusterSpec

def default : ClusterSpec :=
  { replicas := 1, ipfsStorage := "10Gi", clusterStorage := "5Gi", image := none }

/-- The number of peers that run; fewer than one is one. -/
def effectiveReplicas (spec : ClusterSpec) : Int := max spec.replicas 1

def imageOfJson (json : Json) : ImageOverrides :=
  { ipfs := (json.get "ipfs").text?
    cluster := (json.get "cluster").text?
    imagePullPolicy := (json.get "imagePullPolicy").text? }

def ofJson (json : Json) : ClusterSpec :=
  { replicas :=
      match json.get "replicas" with
      | .num (.int value) => value
      | _ => default.replicas
    ipfsStorage := (json.get "ipfsStorage").text?.getD default.ipfsStorage
    clusterStorage := (json.get "clusterStorage").text?.getD default.clusterStorage
    image := (json.get? "image").map imageOfJson }

end ClusterSpec

structure Cluster where
  name : String
  ns : Option String
  /-- The uid of the declaration, empty if it has none. -/
  uid : String
  spec : ClusterSpec
deriving DecidableEq, Repr

def Cluster.ofResource (r : Resource) : Cluster :=
  { name := r.displayName
    ns := r.namespace?
    uid := r.uid?.getD ""
    spec := ClusterSpec.ofJson (r.body.get "spec") }

end ClusterKeeper
