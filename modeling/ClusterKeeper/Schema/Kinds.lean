import ClusterKeeper.Schema.Workload

/-!
The kinds of objects, and the form of an object of each.
-/

namespace ClusterKeeper

/-- The cluster declaration `Ipfs` and the five kinds of its children. -/
inductive Kind where
  | configMap
  | ipfs
  | secret
  | service
  | serviceAccount
  | statefulSet
deriving DecidableEq, Repr

namespace Kind

def all : List Kind := [configMap, ipfs, secret, service, serviceAccount, statefulSet]

def name : Kind → String
  | configMap => "ConfigMap"
  | ipfs => "Ipfs"
  | secret => "Secret"
  | service => "Service"
  | serviceAccount => "ServiceAccount"
  | statefulSet => "StatefulSet"

def ofName? (name : String) : Option Kind := all.find? (·.name = name)

def apiVersion : Kind → String
  | ipfs => "cluster.ipfs.io/v1alpha1"
  | statefulSet => "apps/v1"
  | _ => "v1"

def plural : Kind → String
  | configMap => "configmaps"
  | ipfs => "ipfs"
  | secret => "secrets"
  | service => "services"
  | serviceAccount => "serviceaccounts"
  | statefulSet => "statefulsets"

theorem name_injective {a b : Kind} (h : a.name = b.name) : a = b := by
  cases a <;> cases b <;> simp_all [name]

@[simp] theorem ofName?_name (kind : Kind) : ofName? kind.name = some kind := by
  cases kind <;> decide

end Kind

end ClusterKeeper

namespace ClusterKeeper.Schema

open ClusterKeeper.Field

def childMetadata : Field Schema := requiredRecord "metadata" metadata

def configMap : Schema :=
  record "ConfigMap"
    [constant "apiVersion" "v1",
     optional "binaryData" (dict bytes),
     optional "data" (dict text),
     optional "immutable" flag,
     constant "kind" "ConfigMap",
     childMetadata] []

def secret : Schema :=
  record "Secret"
    [constant "apiVersion" "v1",
     optional "data" (dict bytes),
     optional "immutable" flag,
     constant "kind" "Secret",
     childMetadata,
     optional "stringData" (dict text),
     optional "type" text] []

def serviceAccount : Schema :=
  record "ServiceAccount"
    [constant "apiVersion" "v1",
     optional "automountServiceAccountToken" flag,
     optional "imagePullSecrets" (list localReference),
     constant "kind" "ServiceAccount",
     childMetadata,
     optional "secrets" (list objectReference)] []

def servicePort : Schema :=
  record "ServicePort"
    [optional "appProtocol" text,
     optional "name" text,
     optional "nodePort" int32,
     requiredInt "port",
     optional "protocol" text,
     optional "targetPort" intOrText] []

def serviceSpec : Schema :=
  record "ServiceSpec"
    [optional "allocateLoadBalancerNodePorts" flag,
     optional "clusterIP" text,
     optional "clusterIPs" (list text),
     optional "externalIPs" (list text),
     optional "externalName" text,
     optional "externalTrafficPolicy" text,
     optional "healthCheckNodePort" int32,
     optional "internalTrafficPolicy" text,
     optional "ipFamilies" (list text),
     optional "ipFamilyPolicy" text,
     optional "loadBalancerClass" text,
     optional "loadBalancerIP" text,
     optional "loadBalancerSourceRanges" (list text),
     optional "ports" (list servicePort),
     optional "publishNotReadyAddresses" flag,
     optional "selector" (dict text),
     optional "sessionAffinity" text,
     optional "sessionAffinityConfig"
      (record "SessionAffinityConfig"
        [optional "clientIP"
          (record "ClientIPConfig" [optional "timeoutSeconds" int32] [])] []),
     optional "trafficDistribution" text,
     optional "type" text] []

def loadBalancerIngress : Schema :=
  record "LoadBalancerIngress"
    [optional "hostname" text,
     optional "ip" text,
     optional "ipMode" text,
     optional "ports"
      (list (record "PortStatus"
        [optional "error" text,
         requiredInt "port",
         requiredText "protocol"] []))] []

def service : Schema :=
  record "Service"
    [constant "apiVersion" "v1",
     constant "kind" "Service",
     childMetadata,
     optional "spec" serviceSpec,
     optional "status"
      (record "ServiceStatus"
        [optional "conditions" (list condition),
         optional "loadBalancer"
          (record "LoadBalancerStatus"
            [optional "ingress" (list loadBalancerIngress)] [])] [])] []

def statefulSet : Schema :=
  record "StatefulSet"
    [constant "apiVersion" "apps/v1",
     constant "kind" "StatefulSet",
     childMetadata,
     optional "spec" statefulSetSpec,
     optional "status" statefulSetStatus] []

def imageConfig : Schema :=
  record "struct ImageConfig"
    [optional "cluster" text,
     optional "imagePullPolicy" text,
     optional "ipfs" text]
    ["ipfs", "cluster", "imagePullPolicy"]

def ipfsSpec : Schema :=
  record "struct IpfsSpec"
    [⟨"clusterStorage", .defaulted (.str "5Gi"), quantity⟩,
     optional "image" imageConfig,
     ⟨"ipfsStorage", .defaulted (.str "10Gi"), quantity⟩,
     ⟨"replicas", .defaulted (.int 1), int32⟩]
    ["replicas", "ipfsStorage", "clusterStorage", "image"]

/-- A cluster declaration: what its API version and kind are given as does not matter. -/
def ipfs : Schema :=
  record "struct Ipfs"
    [⟨"apiVersion", .stamped "cluster.ipfs.io/v1alpha1", text⟩,
     ⟨"kind", .stamped "Ipfs", text⟩,
     ⟨"metadata", .mandatory, metadata⟩,
     ⟨"spec", .mandatory, ipfsSpec⟩] []

end ClusterKeeper.Schema

namespace ClusterKeeper

def Kind.schema : Kind → Schema
  | .configMap => Schema.configMap
  | .ipfs => Schema.ipfs
  | .secret => Schema.secret
  | .service => Schema.service
  | .serviceAccount => Schema.serviceAccount
  | .statefulSet => Schema.statefulSet

end ClusterKeeper
