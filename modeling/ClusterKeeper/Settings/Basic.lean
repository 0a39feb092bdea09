import ClusterKeeper.Manifest.Children
import ClusterKeeper.Net.SocketAddress

/-!
The settings of the operator, each of which has a flag, an environment variable, a form and, but for
the namespace, a default.
-/

namespace ClusterKeeper

structure Settings where
  /-- The only namespace to watch; all of them if there is none. -/
  ns : Option String
  concurrency : Nat
  /-- Seconds between two passes over a cluster that needs nothing. -/
  resyncSecs : Nat
  metricsAddress : SocketAddress
  workloads : WorkloadDefaults
deriving DecidableEq, Repr

inductive Setting where
  | ns
  | concurrency
  | resyncSecs
  | metricsAddress
  | ipfsImage
  | clusterImage
  | imagePullPolicy
deriving DecidableEq, Repr

namespace Setting

def all : List Setting :=
  [ns, concurrency, resyncSecs, metricsAddress, ipfsImage, clusterImage, imagePullPolicy]

def flag : Setting → String
  | ns => "namespace"
  | concurrency => "concurrency"
  | resyncSecs => "resync-secs"
  | metricsAddress => "metrics-addr"
  | ipfsImage => "ipfs-image"
  | clusterImage => "cluster-image"
  | imagePullPolicy => "image-pull-policy"

def ofFlag? (flag : String) : Option Setting := all.find? (·.flag = flag)

def variableName : Setting → String
  | ns => "WATCH_NAMESPACE"
  | concurrency => "MAX_CONCURRENT_RECONCILES"
  | resyncSecs => "RESYNC_INTERVAL_SECS"
  | metricsAddress => "METRICS_BIND_ADDRESS"
  | ipfsImage => "IPFS_IMAGE"
  | clusterImage => "IPFS_CLUSTER_IMAGE"
  | imagePullPolicy => "IMAGE_PULL_POLICY"

@[simp] theorem ofFlag?_flag (setting : Setting) : ofFlag? setting.flag = some setting := by
  cases setting <;> decide

end Setting

def digitsValue? (digits : List Char) : Option Nat :=
  if digits ≠ [] ∧ digits.all Char.isDigit then
    some (digits.foldl (fun n c => n * 10 + (c.toNat - '0'.toNat)) 0)
  else none

/-- A natural number below the bound, with a plus sign or without; a minus sign is only allowed
before zero, and only if `minusZero` says so. -/
def boundedNumber? (bound : Nat) (minusZero : Bool) (text : String) : Option Nat :=
  match text.toList with
  | '+' :: digits => (digitsValue? digits).filter (· < bound)
  | '-' :: digits => if minusZero then (digitsValue? digits).filter (· = 0) else none
  | digits => (digitsValue? digits).filter (· < bound)

namespace Settings

def default : Settings :=
  { ns := none
    concurrency := 5
    resyncSecs := 300
    metricsAddress := .v4 [0, 0, 0, 0] 8080
    workloads := .standard }

def assign? (settings : Settings) (setting : Setting) (value : String) : Option Settings :=
  match setting with
  | .ns => some { settings with ns := some value }
  | .concurrency =>
    (boundedNumber? (twoTo 16) true value).map fun number => { settings with concurrency := number }
  | .resyncSecs =>
    (boundedNumber? (twoTo 64) false value).map fun number => { settings with resyncSecs := number }
  | .metricsAddress =>
    (SocketAddress.ofText? value).map fun address => { settings with metricsAddress := address }
  | .ipfsImage => some { settings with workloads := { settings.workloads with ipfsImage := value } }
  | .clusterImage =>
    some { settings with workloads := { settings.workloads with clusterImage := value } }
  | .imagePullPolicy =>
    some { settings with workloads := { settings.workloads with imagePullPolicy := value } }

def value (settings : Settings) : Setting → Json
  | .ns => (settings.ns.map Json.str).getD .null
  | .concurrency => .int settings.concurrency
  | .resyncSecs => .int settings.resyncSecs
  | .metricsAddress => .str settings.metricsAddress.text
  | .ipfsImage => .str settings.workloads.ipfsImage
  | .clusterImage => .str settings.workloads.clusterImage
  | .imagePullPolicy => .str settings.workloads.imagePullPolicy

/-- All settings, each under the name of its flag. -/
def document (settings : Settings) : Json :=
  Json.mk (Setting.all.map fun setting => (setting.flag, settings.value setting))

end Settings

end ClusterKeeper
