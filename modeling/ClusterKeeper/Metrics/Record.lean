/-!
What the operator counts. The metrics are the records themselves; a counter is the number of records
of its sort.
-/

namespace ClusterKeeper

/-- A span of time: whole seconds and nanoseconds. -/
structure Duration where
  secs : Nat
  nanos : Nat
deriving DecidableEq, Repr

def Duration.zero : Duration := ⟨0, 0⟩

inductive PassStatus where
  | success
  | error
  | requeue (reason : String)
deriving DecidableEq, Repr

def PassStatus.label : PassStatus → String
  | .success => "success"
  | .error => "error"
  | .requeue _ => "requeue"

inductive Record where
  | pass (status : PassStatus) (duration : Duration)
  | childApply (kind outcome : String)
  | identity (source : String)
  | failure (operation errorType : String)
deriving DecidableEq, Repr

/-- All that was recorded, the latest first. -/
structure Metrics where
  records : List Record
deriving DecidableEq, Repr

namespace Metrics

def empty : Metrics := ⟨[]⟩

def add (metrics : Metrics) (record : Record) : Metrics := ⟨record :: metrics.records⟩

def count (metrics : Metrics) (property : Record → Bool) : Nat := metrics.records.countP property

@[simp] theorem count_empty (property : Record → Bool) : empty.count property = 0 := rfl

theorem count_add (metrics : Metrics) (record : Record) (property : Record → Bool) :
    (metrics.add record).count property =
      metrics.count property + if property record then 1 else 0 := by
  simp [count, add, List.countP_cons]

end Metrics

end ClusterKeeper
