import ClusterKeeper.Decimal.Binary64
import ClusterKeeper.Keyed
import ClusterKeeper.Metrics.Record

/-!
The families of samples that metrics are published as: five counters, each with a sample for every
combination of labels that was recorded, and the histogram of how long passes took. Of each family the
text has its help, its type and its samples.
-/

namespace ClusterKeeper

/-- The kind that passes are about, as a label value. -/
def passKind : String := "Ipfs"

structure Counter where
  name : String
  help : String
  /-- Label names in their order. -/
  labels : List String
  /-- The label values that a record is counted under, if it is. -/
  series : Record → Option (List String)

namespace Counter

def childApplies : Counter :=
  { name := "child_applies_total"
    help := "Total number of child resource applies by kind and outcome"
    labels := ["kind", "outcome"]
    series := fun
      | .childApply kind outcome => some [kind, outcome]
      | _ => none }

def errors : Counter :=
  { name := "errors_total"
    help := "Total number of errors by operation and error category"
    labels := ["error_type", "operation"]
    series := fun
      | .failure operation errorType => some [errorType, operation]
      | _ => none }

def identities : Counter :=
  { name := "identities_total"
    help := "Total number of cluster identities by source"
    labels := ["source"]
    series := fun
      | .identity source => some [source]
      | _ => none }

def passes : Counter :=
  { name := "reconciliations_total"
    help := "Total number of reconciliations by resource type and status"
    labels := ["resource_type", "status"]
    series := fun
      | .pass status _ => some [passKind, status.label]
      | _ => none }

def requeues : Counter :=
  { name := "requeues_total"
    help := "Total number of requeue operations by resource type and reason"
    labels := ["reason", "resource_type"]
    series := fun
      | .pass (.requeue reason) _ => some [reason, passKind]
      | _ => none }

end Counter

namespace Duration

def inNanos (d : Duration) : Nat := d.secs * 1000000000 + d.nanos

def seconds (d : Duration) : Float :=
  (UInt64.ofNat (d.inNanos / 1000000000)).toFloat +
    (UInt64.ofNat (d.inNanos % 1000000000)).toFloat / 1000000000

end Duration

def Record.duration? : Record → Option Duration
  | .pass _ duration => some duration
  | _ => none

/-- One line of a family: the end of its name after that of the family, labels, and a value. -/
structure Sample where
  ending : String
  labels : List (String × String)
  value : String
deriving DecidableEq, Repr

structure Family where
  name : String
  help : String
  sort : String
  samples : List Sample
deriving DecidableEq, Repr

namespace Metrics

def value (metrics : Metrics) (counter : Counter) (labels : List String) : Nat :=
  metrics.count fun record => counter.series record = some labels

def combinations (metrics : Metrics) (counter : Counter) : List (List String) :=
  (Keyed.ofEntries ((metrics.records.filterMap counter.series).map (·, ()))).map (·.1)

def counterFamily (metrics : Metrics) (counter : Counter) : Family :=
  { name := counter.name
    help := counter.help
    sort := "counter"
    samples := (metrics.combinations counter).map fun labels =>
      ⟨"", counter.labels.zip labels, toString (metrics.value counter labels)⟩ }

/-- The bounds of the histogram's buckets: as they are written, and in nanoseconds. -/
def durationBounds : List (String × Nat) :=
  [("0.001", 1000000), ("0.01", 10000000), ("0.1", 100000000), ("0.5", 500000000),
   ("1", 1000000000), ("2", 2000000000), ("5", 5000000000), ("10", 10000000000),
   ("30", 30000000000), ("60", 60000000000)]

def durations (metrics : Metrics) : List Duration := metrics.records.reverse.filterMap Record.duration?

/-- The seconds of all durations, added one after the other. -/
def durationSum (durations : List Duration) : Float :=
  durations.foldl (fun sum duration => sum + duration.seconds) 0

/-- The samples of the histogram: the durations up to each bound, their sum and their number. -/
def durationSamples (durations : List Duration) : List Sample :=
  let kind := ("resource_type", passKind)
  let bucket (bound : String) (count : Nat) : Sample :=
    ⟨"_bucket", [kind, ("le", bound)], toString count⟩
  durationBounds.map (fun bound =>
      bucket bound.1 (durations.countP fun duration => duration.inNanos ≤ bound.2)) ++
    [bucket "+Inf" durations.length,
     ⟨"_sum", [kind], Decimal.positional (durationSum durations).toBits⟩,
     ⟨"_count", [kind], toString durations.length⟩]

def durationFamily (metrics : Metrics) : Family :=
  { name := "reconciliation_duration_seconds"
    help := "Duration of reconciliations in seconds by resource type"
    sort := "histogram"
    samples := if metrics.durations = [] then [] else durationSamples metrics.durations }

def families (metrics : Metrics) : List Family :=
  [metrics.counterFamily .childApplies,
   metrics.counterFamily .errors,
   metrics.counterFamily .identities,
   metrics.durationFamily,
   metrics.counterFamily .passes,
   metrics.counterFamily .requeues].filter fun family => family.samples ≠ []

end Metrics

/-! ### The text format -/

def metricsNamespace : String := "ipfs_operator_"

namespace Sample

def escapedChar (c : Char) : List Char :=
  if c = '\\' then ['\\', '\\']
  else if c = '"' then ['\\', '"']
  else if c = '\n' then ['\\', 'n']
  else [c]

def labelText (label : String × String) : String :=
  label.1 ++ "=\"" ++ String.ofList (label.2.toList.flatMap escapedChar) ++ "\""

def line (family : String) (sample : Sample) : String :=
  family ++ sample.ending ++ "\x7b" ++ String.intercalate "," (sample.labels.map labelText) ++
    "\x7d " ++ sample.value

end Sample

def Family.lines (family : Family) : List String :=
  let name := metricsNamespace ++ family.name
  ["# HELP " ++ name ++ " " ++ family.help, "# TYPE " ++ name ++ " " ++ family.sort] ++
    family.samples.map (·.line name)

namespace Metrics

def lines (metrics : Metrics) : List String := metrics.families.flatMap Family.lines

/-- The counts alone, without the namespace and sorted. -/
def summary (metrics : Metrics) : List String :=
  (metrics.families.flatMap fun family =>
    (family.samples.filter fun sample => sample.ending = "" || sample.ending = "_count").map
      (·.line family.name)).mergeSort fun a b => decide (a ≤ b)

end Metrics

end ClusterKeeper
