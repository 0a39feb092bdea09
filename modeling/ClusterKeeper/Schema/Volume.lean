import ClusterKeeper.Schema.Metadata

/-!
The forms of volumes, by what they are taken from, and of claims to volumes.
-/

namespace ClusterKeeper.Schema

open ClusterKeeper.Field

def fieldSelector : Schema :=
  record "ObjectFieldSelector"
    [optional "apiVersion" text,
     requiredText "fieldPath"] []

def resourceSelector : Schema :=
  record "ResourceFieldSelector"
    [optional "containerName" text,
     optional "divisor" quantity,
     requiredText "resource"] []

def keyToPath : Schema :=
  record "KeyToPath"
    [requiredText "key",
     optional "mode" int32,
     requiredText "path"] []

def downwardFile : Schema :=
  record "DownwardAPIVolumeFile"
    [optional "fieldRef" fieldSelector,
     optional "mode" int32,
     requiredText "path",
     optional "resourceFieldRef" resourceSelector] []

/-- The keys of a config map or a Secret that a volume shows. -/
def projection (title : String) : Schema :=
  record title
    [optional "items" (list keyToPath),
     requiredText "name",
     optional "optional" flag] []

def projectedSource : Schema :=
  record "VolumeProjection"
    [optional "clusterTrustBundle"
      (record "ClusterTrustBundleProjection"
        [optional "labelSelector" labelSelector,
         optional "name" text,
         optional "optional" flag,
         requiredText "path",
         optional "signerName" text] []),
     optional "configMap" (projection "ConfigMapProjection"),
     optional "downwardAPI"
      (record "DownwardAPIProjection" [optional "items" (list downwardFile)] []),
     optional "secret" (projection "SecretProjection"),
     optional "serviceAccountToken"
      (record "ServiceAccountTokenProjection"
        [optional "audience" text,
         optional "expirationSeconds" int64,
         requiredText "path"] [])] []

/-! ### Claims -/

def claimSpec : Schema :=
  record "PersistentVolumeClaimSpec"
    [optional "accessModes" (list text),
     optional "dataSource"
      (record "TypedLocalObjectReference"
        [optional "apiGroup" text,
         requiredText "kind",
         requiredText "name"] []),
     optional "dataSourceRef"
      (record "TypedObjectReference"
        [optional "apiGroup" text,
         requiredText "kind",
         requiredText "name",
         optional "namespace" text] []),
     optional "resources"
      (record "VolumeResourceRequirements"
        [optional "limits" (dict quantity),
         optional "requests" (dict quantity)] []),
     optional "selector" labelSelector,
     optional "storageClassName" text,
     optional "volumeAttributesClassName" text,
     optional "volumeMode" text,
     optional "volumeName" text] []

def claimStatus : Schema :=
  record "PersistentVolumeClaimStatus"
    [optional "accessModes" (list text),
     optional "allocatedResourceStatuses" (dict text),
     optional "allocatedResources" (dict quantity),
     optional "capacity" (dict quantity),
     optional "conditions"
      (list (record "PersistentVolumeClaimCondition"
        [optional "lastProbeTime" time,
         optional "lastTransitionTime" time,
         optional "message" text,
         optional "reason" text,
         requiredText "status",
         requiredText "type"] [])),
     optional "currentVolumeAttributesClassName" text,
     optional "modifyVolumeStatus"
      (record "ModifyVolumeStatus"
        [requiredText "status",
         optional "targetVolumeAttributesClassName" text] []),
     optional "phase" text] []

def volumeClaim : Schema :=
  record "PersistentVolumeClaim"
    [constant "apiVersion" "v1",
     constant "kind" "PersistentVolumeClaim",
     requiredRecord "metadata" metadata,
     optional "spec" claimSpec,
     optional "status" claimStatus] []

/-! ### Volumes -/

/-- The keys of a config map as files. -/
def configMapSource : Schema :=
  record "ConfigMapVolumeSource"
    [optional "defaultMode" int32,
     optional "items" (list keyToPath),
     requiredText "name",
     optional "optional" flag] []

def secretSource : Schema :=
  record "SecretVolumeSource"
    [optional "defaultMode" int32,
     optional "items" (list keyToPath),
     optional "optional" flag,
     optional "secretName" text] []

def ephemeralSource : Schema :=
  record "EphemeralVolumeSource"
    [optional "volumeClaimTemplate"
      (record "PersistentVolumeClaimTemplate"
        [optional "metadata" metadata,
         requiredRecord "spec" claimSpec] [])] []

def cephSource : Schema :=
  record "CephFSVolumeSource"
    [requiredList "monitors" text,
     optional "path" text,
     optional "readOnly" flag,
     optional "secretFile" text,
     optional "secretRef" localReference,
     optional "user" text] []

def iscsiSource : Schema :=
  record "ISCSIVolumeSource"
    [optional "chapAuthDiscovery" flag,
     optional "chapAuthSession" flag,
     optional "fsType" text,
     optional "initiatorName" text,
     requiredText "iqn",
     optional "iscsiInterface" text,
     requiredInt "lun",
     optional "portals" (list text),
     optional "readOnly" flag,
     optional "secretRef" localReference,
     requiredText "targetPortal"] []

def rbdSource : Schema :=
  record "RBDVolumeSource"
    [optional "fsType" text,
     requiredText "image",
     optional "keyring" text,
     requiredList "monitors" text,
     optional "pool" text,
     optional "readOnly" flag,
     optional "secretRef" localReference,
     optional "user" text] []

def scaleIOSource : Schema :=
  record "ScaleIOVolumeSource"
    [optional "fsType" text,
     requiredText "gateway",
     optional "protectionDomain" text,
     optional "readOnly" flag,
     required "secretRef" localReference (.obj [("name", .str "")]),
     optional "sslEnabled" flag,
     optional "storageMode" text,
     optional "storagePool" text,
     requiredText "system",
     optional "volumeName" text] []

def volume : Schema :=
  record "Volume"
    [optional "awsElasticBlockStore"
      (record "AWSElasticBlockStoreVolumeSource"
        [optional "fsType" text,
         optional "partition" int32,
         optional "readOnly" flag,
         requiredText "volumeID"] []),
     optional "azureDisk"
      (record "AzureDiskVolumeSource"
        [optional "cachingMode" text,
         requiredText "diskName",
         requiredText "diskURI",
         optional "fsType" text,
         optional "kind" text,
         optional "readOnly" flag] []),
     optional "azureFile"
      (record "AzureFileVolumeSource"
        [optional "readOnly" flag,
         requiredText "secretName",
         requiredText "shareName"] []),
     optional "cephfs" cephSource,
     optional "cinder"
      (record "CinderVolumeSource"
        [optional "fsType" text,
         optional "readOnly" flag,
         optional "secretRef" localReference,
         requiredText "volumeID"] []),
     optional "configMap" configMapSource,
     optional "csi"
      (record "CSIVolumeSource"
        [requiredText "driver",
         optional "fsType" text,
         optional "nodePublishSecretRef" localReference,
         optional "readOnly" flag,
         optional "volumeAttributes" (dict text)] []),
     optional "downwardAPI"
      (record "DownwardAPIVolumeSource"
        [optional "defaultMode" int32,
         optional "items" (list downwardFile)] []),
     optional "emptyDir"
      (record "EmptyDirVolumeSource"
        [optional "medium" text,
         optional "sizeLimit" quantity] []),
     optional "ephemeral" ephemeralSource,
     optional "fc"
      (record "FCVolumeSource"
        [optional "fsType" text,
         optional "lun" int32,
         optional "readOnly" flag,
         optional "targetWWNs" (list text),
         optional "wwids" (list text)] []),
     optional "flexVolume"
      (record "FlexVolumeSource"
        [requiredText "driver",
         optional "fsType" text,
         optional "options" (dict text),
         optional "readOnly" flag,
         optional "secretRef" localReference] []),
     optional "flocker"
      (record "FlockerVolumeSource"
        [optional "datasetName" text,
         optional "datasetUUID" text] []),
     optional "gcePersistentDisk"
      (record "GCEPersistentDiskVolumeSource"
        [optional "fsType" text,
         optional "partition" int32,
         requiredText "pdName",
         optional "readOnly" flag] []),
     optional "gitRepo"
      (record "GitRepoVolumeSource"
        [optional "directory" text,
         requiredText "repository",
         optional "revision" text] []),
     optional "glusterfs"
      (record "GlusterfsVolumeSource"
        [requiredText "endpoints",
         requiredText "path",
         optional "readOnly" flag] []),
     optional "hostPath"
      (record "HostPathVolumeSource"
        [requiredText "path",
         optional "type" text] []),
     optional "image"
      (record "ImageVolumeSource"
        [optional "pullPolicy" text,
         optional "reference" text] []),
     optional "iscsi" iscsiSource,
     requiredText "name",
     optional "nfs"
      (record "NFSVolumeSource"
        [requiredText "path",
         optional "readOnly" flag,
         requiredText "server"] []),
     optional "persistentVolumeClaim"
      (record "PersistentVolumeClaimVolumeSource"
        [requiredText "claimName",
         optional "readOnly" flag] []),
     optional "photonPersistentDisk"
      (record "PhotonPersistentDiskVolumeSource"
        [optional "fsType" text,
         requiredText "pdID"] []),
     optional "portworxVolume"
      (record "PortworxVolumeSource"
        [optional "fsType" text,
         optional "readOnly" flag,
         requiredText "volumeID"] []),
     optional "projected"
      (record "ProjectedVolumeSource"
        [optional "defaultMode" int32,
         optional "sources" (list projectedSource)] []),
     optional "quobyte"
      (record "QuobyteVolumeSource"
        [optional "group" text,
         optional "readOnly" flag,
         requiredText "registry",
         optional "tenant" text,
         optional "user" text,
         requiredText "volume"] []),
     optional "rbd" rbdSource,
     optional "scaleIO" scaleIOSource,
     optional "secret" secretSource,
     optional "storageos"
      (record "StorageOSVolumeSource"
        [optional "fsType" text,
         optional "readOnly" flag,
         optional "secretRef" localReference,
         optional "volumeName" text,
         optional "volumeNamespace" text] []),
     optional "vsphereVolume"
      (record "VsphereVirtualDiskVolumeSource"
        [optional "fsType" text,
         optional "storagePolicyID" text,
         optional "storagePolicyName" text,
         requiredText "volumePath"] [])] []

end ClusterKeeper.Schema
