import ClusterKeeper.Resource.Basic

/-!
The objects that a cluster is made of, as declared, and their written form.
-/

namespace ClusterKeeper

namespace Json

/-- An object of the members that are there, in the given order. -/
def ofFields (fields : List (String × Option Json)) : Json :=
  .obj (fields.filterMap fun field => field.2.map (field.1, ·))

def listUnlessEmpty (items : List Json) : Option Json :=
  if items.isEmpty then none else some (.arr items)

end Json

namespace Manifest

structure OwnerReference where
  apiVersion : String
  kind : String
  name : String
  uid : String
  controller : Bool
  blockOwnerDeletion : Bool
deriving DecidableEq, Repr

def OwnerReference.toJson (owner : OwnerReference) : Json :=
  .obj
    [("apiVersion", .str owner.apiVersion),
     ("blockOwnerDeletion", .bool owner.blockOwnerDeletion),
     ("controller", .bool owner.controller),
     ("kind", .str owner.kind),
     ("name", .str owner.name),
     ("uid", .str owner.uid)]

structure Metadata where
  name : String
  ns : Option String
  labels : List (String × String)
  owners : List OwnerReference
deriving DecidableEq, Repr

def Metadata.toJson (metadata : Metadata) : Json :=
  Json.ofFields
    [("labels", some (Json.textMap metadata.labels)),
     ("name", some (.str metadata.name)),
     ("namespace", metadata.ns.map .str),
     ("ownerReferences", some (.arr (metadata.owners.map OwnerReference.toJson)))]

structure ServiceAccount where
  metadata : Metadata
deriving DecidableEq, Repr

structure ServicePort where
  name : String
  port : Nat
  protocol : String
  targetPort : Nat
deriving DecidableEq, Repr

structure Service where
  metadata : Metadata
  clusterIP : String
  ports : List ServicePort
  publishNotReadyAddresses : Bool
  selector : List (String × String)
deriving DecidableEq, Repr

structure ConfigMap where
  metadata : Metadata
  data : List (String × String)
deriving DecidableEq, Repr

structure Secret where
  metadata : Metadata
  data : List (String × List UInt8)
  type : String
deriving DecidableEq, Repr

inductive EnvSource where
  | literal (value : String)
  | configMapKey (name key : String)
  | secretKey (name key : String)
deriving DecidableEq, Repr

structure EnvVar where
  name : String
  source : EnvSource
deriving DecidableEq, Repr

structure ContainerPort where
  name : String
  port : Nat
  protocol : String
deriving DecidableEq, Repr

structure VolumeMount where
  volume : String
  path : String
deriving DecidableEq, Repr

structure Container where
  name : String
  image : String
  imagePullPolicy : String
  command : List String
  env : List EnvVar
  ports : List ContainerPort
  mounts : List VolumeMount
deriving DecidableEq, Repr

structure Volume where
  name : String
  configMap : String
  defaultMode : Nat
deriving DecidableEq, Repr

structure Pod where
  labels : List (String × String)
  serviceAccount : String
  initContainers : List Container
  containers : List Container
  volumes : List Volume
deriving DecidableEq, Repr

structure VolumeClaim where
  name : String
  accessModes : List String
  storage : String
deriving DecidableEq, Repr

structure StatefulSet where
  metadata : Metadata
  serviceName : String
  replicas : Int
  selector : List (String × String)
  pod : Pod
  claims : List VolumeClaim
deriving DecidableEq, Repr

def ServiceAccount.toJson (account : ServiceAccount) : Json :=
  .obj
    [("apiVersion", .str "v1"),
     ("kind", .str "ServiceAccount"),
     ("metadata", account.metadata.toJson)]

def ServicePort.toJson (port : ServicePort) : Json :=
  .obj
    [("name", .str port.name),
     ("port", .int port.port),
     ("protocol", .str port.protocol),
     ("targetPort", .int port.targetPort)]

def Service.toJson (service : Service) : Json :=
  .obj
    [("apiVersion", .str "v1"),
     ("kind", .str "Service"),
     ("metadata", service.metadata.toJson),
     ("spec", .obj
       [("clusterIP", .str service.clusterIP),
        ("ports", .arr (service.ports.map ServicePort.toJson)),
        ("publishNotReadyAddresses", .bool service.publishNotReadyAddresses),
        ("selector", Json.textMap service.selector)])]

def ConfigMap.toJson (configMap : ConfigMap) : Json :=
  .obj
    [("apiVersion", .str "v1"),
     ("data", Json.textMap configMap.data),
     ("kind", .str "ConfigMap"),
     ("metadata", configMap.metadata.toJson)]

def Secret.toJson (secret : Secret) : Json :=
  .obj
    [("apiVersion", .str "v1"),
     ("data", Json.textMap (secret.data.map fun entry => (entry.1, Base64.encode entry.2))),
     ("kind", .str "Secret"),
     ("metadata", secret.metadata.toJson),
     ("type", .str secret.type)]

def keyReference (name key : String) : Json :=
  .obj [("key", .str key), ("name", .str name), ("optional", .bool false)]

def EnvVar.toJson (var : EnvVar) : Json :=
  match var.source with
  | .literal value => .obj [("name", .str var.name), ("value", .str value)]
  | .configMapKey name key =>
    .obj
      [("name", .str var.name), ("valueFrom", .obj [("configMapKeyRef", keyReference name key)])]
  | .secretKey name key =>
    .obj [("name", .str var.name), ("valueFrom", .obj [("secretKeyRef", keyReference name key)])]

def ContainerPort.toJson (port : ContainerPort) : Json :=
  .obj
    [("containerPort", .int port.port),
     ("name", .str port.name),
     ("protocol", .str port.protocol)]

def VolumeMount.toJson (mount : VolumeMount) : Json :=
  .obj [("mountPath", .str mount.path), ("name", .str mount.volume)]

def Container.toJson (container : Container) : Json :=
  Json.ofFields
    [("command", Json.listUnlessEmpty (container.command.map .str)),
     ("env", Json.listUnlessEmpty (container.env.map EnvVar.toJson)),
     ("image", some (.str container.image)),
     ("imagePullPolicy", some (.str container.imagePullPolicy)),
     ("name", some (.str container.name)),
     ("ports", Json.listUnlessEmpty (container.ports.map ContainerPort.toJson)),
     ("volumeMounts", Json.listUnlessEmpty (container.mounts.map VolumeMount.toJson))]

def Volume.toJson (volume : Volume) : Json :=
  .obj
    [("configMap", .obj
       [("defaultMode", .int volume.defaultMode), ("name", .str volume.configMap)]),
     ("name", .str volume.name)]

def Pod.toJson (pod : Pod) : Json :=
  .obj
    [("metadata", .obj [("labels", Json.textMap pod.labels)]),
     ("spec", .obj
       [("containers", .arr (pod.containers.map Container.toJson)),
        ("initContainers", .arr (pod.initContainers.map Container.toJson)),
        ("serviceAccountName", .str pod.serviceAccount),
        ("volumes", .arr (pod.volumes.map Volume.toJson))])]

def VolumeClaim.toJson (claim : VolumeClaim) : Json :=
  .obj
    [("apiVersion", .str "v1"),
     ("kind", .str "PersistentVolumeClaim"),
     ("metadata", .obj [("name", .str claim.name)]),
     ("spec", .obj
       [("accessModes", Json.texts claim.accessModes),
        ("resources", .obj [("requests", .obj [("storage", .str claim.storage)])])])]

def StatefulSet.toJson (set : StatefulSet) : Json :=
  .obj
    [("apiVersion", .str "apps/v1"),
     ("kind", .str "StatefulSet"),
     ("metadata", set.metadata.toJson),
     ("spec", .obj
       [("replicas", .int set.replicas),
        ("selector", .obj [("matchLabels", Json.textMap set.selector)]),
        ("serviceName", .str set.serviceName),
        ("template", set.pod.toJson),
        ("volumeClaimTemplates", .arr (set.claims.map VolumeClaim.toJson))])]

def ServiceAccount.resource (account : ServiceAccount) : Resource :=
  ⟨.serviceAccount, account.toJson⟩

def Service.resource (service : Service) : Resource := ⟨.service, service.toJson⟩

def ConfigMap.resource (configMap : ConfigMap) : Resource := ⟨.configMap, configMap.toJson⟩

def Secret.resource (secret : Secret) : Resource := ⟨.secret, secret.toJson⟩

def StatefulSet.resource (set : StatefulSet) : Resource := ⟨.statefulSet, set.toJson⟩

end Manifest

end ClusterKeeper
