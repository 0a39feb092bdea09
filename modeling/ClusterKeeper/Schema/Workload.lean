import ClusterKeeper.Schema.Container

/-!
The forms of pods, of where they may run, and of the sets that run them.
-/

namespace ClusterKeeper.Schema

open ClusterKeeper.Field

/-! ### Placement -/

def nodeRequirement : Schema :=
  record "NodeSelectorRequirement"
    [requiredText "key",
     requiredText "operator",
     optional "values" (list text)] []

def nodeTerm : Schema :=
  record "NodeSelectorTerm"
    [optional "matchExpressions" (list nodeRequirement),
     optional "matchFields" (list nodeRequirement)] []

def nodeAffinity : Schema :=
  record "NodeAffinity"
    [optional "preferredDuringSchedulingIgnoredDuringExecution"
      (list (record "PreferredSchedulingTerm"
        [requiredRecord "preference" nodeTerm,
         requiredInt "weight"] [])),
     optional "requiredDuringSchedulingIgnoredDuringExecution"
      (record "NodeSelector" [requiredList "nodeSelectorTerms" nodeTerm] [])] []

def podTerm : Schema :=
  record "PodAffinityTerm"
    [optional "labelSelector" labelSelector,
     optional "matchLabelKeys" (list text),
     optional "mismatchLabelKeys" (list text),
     optional "namespaceSelector" labelSelector,
     optional "namespaces" (list text),
     requiredText "topologyKey"] []

def podAffinity (title : String) : Schema :=
  record title
    [optional "preferredDuringSchedulingIgnoredDuringExecution"
      (list (record "WeightedPodAffinityTerm"
        [required "podAffinityTerm" podTerm (.obj [("topologyKey", .str "")]),
         requiredInt "weight"] [])),
     optional "requiredDuringSchedulingIgnoredDuringExecution" (list podTerm)] []

def affinity : Schema :=
  record "Affinity"
    [optional "nodeAffinity" nodeAffinity,
     optional "podAffinity" (podAffinity "PodAffinity"),
     optional "podAntiAffinity" (podAffinity "PodAntiAffinity")] []

def toleration : Schema :=
  record "Toleration"
    [optional "effect" text,
     optional "key" text,
     optional "operator" text,
     optional "tolerationSeconds" int64,
     optional "value" text] []

def spreadConstraint : Schema :=
  record "TopologySpreadConstraint"
    [optional "labelSelector" labelSelector,
     optional "matchLabelKeys" (list text),
     requiredInt "maxSkew",
     optional "minDomains" int32,
     optional "nodeAffinityPolicy" text,
     optional "nodeTaintsPolicy" text,
     requiredText "topologyKey",
     requiredText "whenUnsatisfiable"] []

/-! ### Pods -/

def dnsConfig : Schema :=
  record "PodDNSConfig"
    [optional "nameservers" (list text),
     optional "options"
      (list (record "PodDNSConfigOption"
        [optional "name" text,
         optional "value" text] [])),
     optional "searches" (list text)] []

def hostAlias : Schema :=
  record "HostAlias"
    [optional "hostnames" (list text),
     requiredText "ip"] []

def podSecurityContext : Schema :=
  record "PodSecurityContext"
    [optional "appArmorProfile" (securityProfile "AppArmorProfile"),
     optional "fsGroup" int64,
     optional "fsGroupChangePolicy" text,
     optional "runAsGroup" int64,
     optional "runAsNonRoot" flag,
     optional "runAsUser" int64,
     optional "seLinuxOptions" seLinuxOptions,
     optional "seccompProfile" (securityProfile "SeccompProfile"),
     optional "supplementalGroups" (list int64),
     optional "supplementalGroupsPolicy" text,
     optional "sysctls"
      (list (record "Sysctl"
        [requiredText "name",
         requiredText "value"] [])),
     optional "windowsOptions" windowsOptions] []

def podResourceClaim : Schema :=
  record "PodResourceClaim"
    [requiredText "name",
     optional "resourceClaimName" text,
     optional "resourceClaimTemplateName" text] []

def podSpec : Schema :=
  record "PodSpec"
    [optional "activeDeadlineSeconds" int64,
     optional "affinity" affinity,
     optional "automountServiceAccountToken" flag,
     requiredList "containers" container,
     optional "dnsConfig" dnsConfig,
     optional "dnsPolicy" text,
     optional "enableServiceLinks" flag,
     optional "ephemeralContainers" (list ephemeralContainer),
     optional "hostAliases" (list hostAlias),
     optional "hostIPC" flag,
     optional "hostNetwork" flag,
     optional "hostPID" flag,
     optional "hostUsers" flag,
     optional "hostname" text,
     optional "imagePullSecrets" (list localReference),
     optional "initContainers" (list container),
     optional "nodeName" text,
     optional "nodeSelector" (dict text),
     optional "os" (record "PodOS" [requiredText "name"] []),
     optional "overhead" (dict quantity),
     optional "preemptionPolicy" text,
     optional "priority" int32,
     optional "priorityClassName" text,
     optional "readinessGates"
      (list (record "PodReadinessGate" [requiredText "conditionType"] [])),
     optional "resourceClaims" (list podResourceClaim),
     optional "restartPolicy" text,
     optional "runtimeClassName" text,
     optional "schedulerName" text,
     optional "schedulingGates" (list (record "PodSchedulingGate" [requiredText "name"] [])),
     optional "securityContext" podSecurityContext,
     optional "serviceAccount" text,
     optional "serviceAccountName" text,
     optional "setHostnameAsFQDN" flag,
     optional "shareProcessNamespace" flag,
     optional "subdomain" text,
     optional "terminationGracePeriodSeconds" int64,
     optional "tolerations" (list toleration),
     optional "topologySpreadConstraints" (list spreadConstraint),
     optional "volumes" (list volume)] []

def podTemplate : Schema :=
  record "PodTemplateSpec"
    [optional "metadata" metadata,
     optional "spec" podSpec] []

/-! ### Stateful sets -/

def updateStrategy : Schema :=
  record "StatefulSetUpdateStrategy"
    [optional "rollingUpdate"
      (record "RollingUpdateStatefulSetStrategy"
        [optional "maxUnavailable" intOrText,
         optional "partition" int32] []),
     optional "type" text] []

def statefulSetSpec : Schema :=
  record "StatefulSetSpec"
    [optional "minReadySeconds" int32,
     optional "ordinals" (record "StatefulSetOrdinals" [optional "start" int32] []),
     optional "persistentVolumeClaimRetentionPolicy"
      (record "StatefulSetPersistentVolumeClaimRetentionPolicy"
        [optional "whenDeleted" text,
         optional "whenScaled" text] []),
     optional "podManagementPolicy" text,
     optional "replicas" int32,
     optional "revisionHistoryLimit" int32,
     requiredRecord "selector" labelSelector,
     optional "serviceName" text,
     requiredRecord "template" podTemplate,
     optional "updateStrategy" updateStrategy,
     optional "volumeClaimTemplates" (list volumeClaim)] []

def statefulSetStatus : Schema :=
  record "StatefulSetStatus"
    [optional "availableReplicas" int32,
     optional "collisionCount" int32,
     optional "conditions"
      (list (record "StatefulSetCondition"
        [optional "lastTransitionTime" time,
         optional "message" text,
         optional "reason" text,
         requiredText "status",
         requiredText "type"] [])),
     optional "currentReplicas" int32,
     optional "currentRevision" text,
     optional "observedGeneration" int64,
     optional "readyReplicas" int32,
     requiredInt "replicas",
     optional "updateRevision" text,
     optional "updatedReplicas" int32] []

end ClusterKeeper.Schema
