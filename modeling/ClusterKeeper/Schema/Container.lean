import ClusterKeeper.Schema.Volume

/-!
The forms of containers: their environment, what they may use, and how their health is seen.
-/

namespace ClusterKeeper.Schema

open ClusterKeeper.Field

/-! ### Environment -/

def keySelector (title : String) : Schema :=
  record title
    [requiredText "key",
     requiredText "name",
     optional "optional" flag] []

def envVar : Schema :=
  record "EnvVar"
    [requiredText "name",
     optional "value" text,
     optional "valueFrom"
      (record "EnvVarSource"
        [optional "configMapKeyRef" (keySelector "ConfigMapKeySelector"),
         optional "fieldRef" fieldSelector,
         optional "resourceFieldRef" resourceSelector,
         optional "secretKeyRef" (keySelector "SecretKeySelector")] [])] []

/-- An object all of whose keys become variables. -/
def envSource (title : String) : Schema :=
  record title
    [requiredText "name",
     optional "optional" flag] []

def envFrom : Schema :=
  record "EnvFromSource"
    [optional "configMapRef" (envSource "ConfigMapEnvSource"),
     optional "prefix" text,
     optional "secretRef" (envSource "SecretEnvSource")] []

/-! ### Probes -/

def execAction : Schema := record "ExecAction" [optional "command" (list text)] []

def httpAction : Schema :=
  record "HTTPGetAction"
    [optional "host" text,
     optional "httpHeaders"
      (list (record "HTTPHeader"
        [requiredText "name",
         requiredText "value"] [])),
     optional "path" text,
     required "port" intOrText (.int 0),
     optional "scheme" text] []

def socketAction : Schema :=
  record "TCPSocketAction"
    [optional "host" text,
     required "port" intOrText (.int 0)] []

/-- What is done after a container has started, or before it stops. -/
def lifecycleHandler : Schema :=
  record "LifecycleHandler"
    [optional "exec" execAction,
     optional "httpGet" httpAction,
     optional "sleep" (record "SleepAction" [required "seconds" int64 (.int 0)] []),
     optional "tcpSocket" socketAction] []

def lifecycle : Schema :=
  record "Lifecycle"
    [optional "postStart" lifecycleHandler,
     optional "preStop" lifecycleHandler] []

def probe : Schema :=
  record "Probe"
    [optional "exec" execAction,
     optional "failureThreshold" int32,
     optional "grpc"
      (record "GRPCAction"
        [requiredInt "port",
         optional "service" text] []),
     optional "httpGet" httpAction,
     optional "initialDelaySeconds" int32,
     optional "periodSeconds" int32,
     optional "successThreshold" int32,
     optional "tcpSocket" socketAction,
     optional "terminationGracePeriodSeconds" int64,
     optional "timeoutSeconds" int32] []

/-! ### Rights and resources -/

def securityProfile (title : String) : Schema :=
  record title
    [optional "localhostProfile" text,
     requiredText "type"] []

def seLinuxOptions : Schema :=
  record "SELinuxOptions"
    [optional "level" text,
     optional "role" text,
     optional "type" text,
     optional "user" text] []

def windowsOptions : Schema :=
  record "WindowsSecurityContextOptions"
    [optional "gmsaCredentialSpec" text,
     optional "gmsaCredentialSpecName" text,
     optional "hostProcess" flag,
     optional "runAsUserName" text] []

def securityContext : Schema :=
  record "SecurityContext"
    [optional "allowPrivilegeEscalation" flag,
     optional "appArmorProfile" (securityProfile "AppArmorProfile"),
     optional "capabilities"
      (record "Capabilities"
        [optional "add" (list text),
         optional "drop" (list text)] []),
     optional "privileged" flag,
     optional "procMount" text,
     optional "readOnlyRootFilesystem" flag,
     optional "runAsGroup" int64,
     optional "runAsNonRoot" flag,
     optional "runAsUser" int64,
     optional "seLinuxOptions" seLinuxOptions,
     optional "seccompProfile" (securityProfile "SeccompProfile"),
     optional "windowsOptions" windowsOptions] []

def resourceRequirements : Schema :=
  record "ResourceRequirements"
    [optional "claims"
      (list (record "ResourceClaim"
        [requiredText "name",
         optional "request" text] [])),
     optional "limits" (dict quantity),
     optional "requests" (dict quantity)] []

/-! ### Containers -/

def containerPort : Schema :=
  record "ContainerPort"
    [requiredInt "containerPort",
     optional "hostIP" text,
     optional "hostPort" int32,
     optional "name" text,
     optional "protocol" text] []

def volumeMount : Schema :=
  record "VolumeMount"
    [requiredText "mountPath",
     optional "mountPropagation" text,
     requiredText "name",
     optional "readOnly" flag,
     optional "recursiveReadOnly" text,
     optional "subPath" text,
     optional "subPathExpr" text] []

/-- A container; one that is added to a running pod can name the container it looks into. -/
def containerWith (title : String) (target : List (Field Schema)) : Schema :=
  record title
    ([optional "args" (list text),
      optional "command" (list text),
      optional "env" (list envVar),
      optional "envFrom" (list envFrom),
      optional "image" text,
      optional "imagePullPolicy" text,
      optional "lifecycle" lifecycle,
      optional "livenessProbe" probe,
      requiredText "name",
      optional "ports" (list containerPort),
      optional "readinessProbe" probe,
      optional "resizePolicy"
        (list (record "ContainerResizePolicy"
          [requiredText "resourceName",
           requiredText "restartPolicy"] [])),
      optional "resources" resourceRequirements,
      optional "restartPolicy" text,
      optional "securityContext" securityContext,
      optional "startupProbe" probe,
      optional "stdin" flag,
      optional "stdinOnce" flag] ++ target ++
     [optional "terminationMessagePath" text,
      optional "terminationMessagePolicy" text,
      optional "tty" flag,
      optional "volumeDevices"
        (list (record "VolumeDevice"
          [requiredText "devicePath",
           requiredText "name"] [])),
      optional "volumeMounts" (list volumeMount),
      optional "workingDir" text]) []

def container : Schema := containerWith "Container" []

def ephemeralContainer : Schema :=
  containerWith "EphemeralContainer" [optional "targetContainerName" text]

end ClusterKeeper.Schema
