import Mathlib.Algebra.BigOperators.Group.List.Lemmas
import Mathlib.Algebra.GroupWithZero.Nat
import ClusterKeeper.Metrics.Text
import ClusterKeeper.Proofs.Keyed

/-!
Sums over the samples of a counter. A counter has one sample for each combination of labels that was
recorded, so a sum of samples is the number of the records that they count. Whenever no pass is under
way, these sums keep fixed relations.
-/

namespace ClusterKeeper

def Counter.carries (counter : Counter) (given : List (String × String)) (labels : List String) :
    Bool :=
  given.all (counter.labels.zip labels).contains

def Counter.counts (counter : Counter) (given : List (String × String)) (record : Record) : Bool :=
  (counter.series record).any (counter.carries given)

namespace Counter

variable (given : List (String × String)) (record : Record)

@[simp] theorem counts_childApplies :
    childApplies.counts given record =
      match record with
      | .childApply kind outcome => given.all [("kind", kind), ("outcome", outcome)].contains
      | _ => false := by
  cases record <;> rfl

@[simp] theorem counts_errors :
    errors.counts given record =
      match record with
      | .failure operation errorType =>
        given.all [("error_type", errorType), ("operation", operation)].contains
      | _ => false := by
  cases record <;> rfl

@[simp] theorem counts_identities :
    identities.counts given record =
      match record with
      | .identity source => given.all [("source", source)].contains
      | _ => false := by
  cases record <;> rfl

@[simp] theorem counts_passes :
    passes.counts given record =
      match record with
      | .pass status _ =>
        given.all [("resource_type", passKind), ("status", status.label)].contains
      | _ => false := by
  cases record <;> rfl

@[simp] theorem counts_requeues :
    requeues.counts given record =
      match record with
      | .pass (.requeue reason) _ =>
        given.all [("reason", reason), ("resource_type", passKind)].contains
      | _ => false := by
  cases record with
  | pass status _ => cases status <;> rfl
  | _ => rfl

end Counter

namespace Metrics

/-- The sum of the samples of a counter that carry the given labels. -/
def total (metrics : Metrics) (counter : Counter) (given : List (String × String)) : Nat :=
  (((metrics.combinations counter).filter (counter.carries given)).map (metrics.value counter)).sum

section Samples

variable (metrics : Metrics) (counter : Counter)

theorem value_eq_countP (labels : List String) :
    metrics.value counter labels =
      (metrics.records.filterMap counter.series).countP fun found => found = labels := by
  rw [value, count, List.countP_filterMap]
  refine List.countP_congr fun record _ => ?_
  cases counter.series record <;> simp

theorem mem_combinations {labels : List String} :
    labels ∈ metrics.combinations counter ↔
      labels ∈ metrics.records.filterMap counter.series := by
  rw [combinations, Keyed.mem_keys_ofEntries, List.map_map]
  simp

theorem nodup_combinations : (metrics.combinations counter).Nodup := by
  refine List.pairwise_map.mpr ((Keyed.sorted_ofEntries _).imp fun hlt heq => ?_)
  exact List.lt_irrefl _ (heq ▸ hlt)

theorem total_eq_count (given : List (String × String)) :
    metrics.total counter given = metrics.count (counter.counts given) := by
  have hperm : (metrics.combinations counter).Perm (metrics.records.filterMap counter.series).dedup := by
    refine (List.perm_ext_iff_of_nodup (metrics.nodup_combinations counter)
      (List.nodup_dedup _)).mpr fun labels => ?_
    rw [mem_combinations, List.mem_dedup]
  have hvalue : metrics.value counter = fun labels =>
      @List.count _ instBEqOfDecidableEq labels (metrics.records.filterMap counter.series) :=
    funext (metrics.value_eq_countP counter)
  rw [total, ((hperm.filter _).map _).sum_eq, hvalue, List.sum_map_count_dedup_filter_eq_countP,
    List.countP_filterMap, count]
  refine List.countP_congr fun record _ => ?_
  rw [Counter.counts]
  cases counter.series record <;> rfl

variable (other : Metrics) (given : List (String × String))

def merge : Metrics := ⟨metrics.records ++ other.records⟩

@[simp] theorem total_empty : empty.total counter given = 0 := rfl

@[simp] theorem total_add (record : Record) :
    (metrics.add record).total counter given =
      metrics.total counter given + if counter.counts given record then 1 else 0 := by
  simp only [total_eq_count, count_add]

@[simp] theorem total_merge :
    (metrics.merge other).total counter given =
      metrics.total counter given + other.total counter given := by
  simp only [total_eq_count, count, merge, List.countP_append]

theorem total_perm {metrics other : Metrics} (h : metrics.records.Perm other.records) :
    metrics.total counter given = other.total counter given := by
  simp only [total_eq_count, count, h.countP_eq]

theorem length_durations : metrics.durations.length = metrics.total .passes [] := by
  rw [total_eq_count, durations, List.length_filterMap_eq_countP, List.countP_reverse, count]
  refine List.countP_congr fun record _ => ?_
  cases record <;> simp [Record.duration?]

/-- The sums over samples are those of so many complete passes. -/
structure Conserved (passes : Nat) : Prop where
  counted : metrics.total .passes [] = passes
  durations : metrics.durations.length = passes
  requeued : metrics.total .passes [("status", "requeue")] = metrics.total .requeues []
  failed : metrics.total .passes [("status", "error")] =
    metrics.total .errors [("operation", "get")]
  identity : metrics.total .requeues [("reason", "identity")] =
    metrics.total .errors [("operation", "identity")]
  finalizer : metrics.total .errors [("operation", "finalizer")] ≤
    metrics.total .requeues [("reason", "finalizer")]
  apply : metrics.total .errors [("operation", "apply")] =
    metrics.total .childApplies [("outcome", "failed")]
  child : metrics.total .requeues [("reason", "child")] ≤
    metrics.total .childApplies [("outcome", "failed")]
  /-- A pass with an identity applies six children, or five if the first of them, the Secret, fails. -/
  children : metrics.total .childApplies [] +
      metrics.total .childApplies [("kind", "Secret"), ("outcome", "failed")] =
    6 * (metrics.total .identities [("source", "generated")] +
      metrics.total .identities [("source", "persisted")])

end Samples

variable {metrics other : Metrics} {passes more : Nat}

theorem conserved_empty : empty.Conserved 0 := by
  constructor <;> simp [length_durations]

theorem Conserved.merge (h : metrics.Conserved passes) (hother : other.Conserved more) :
    (metrics.merge other).Conserved (passes + more) := by
  obtain ⟨hcounted, -, hrequeued, hfailed, hidentity, hfinalizer, happly, hchild, hchildren⟩ := h
  obtain ⟨hcounted', -, hrequeued', hfailed', hidentity', hfinalizer', happly', hchild',
    hchildren'⟩ := hother
  constructor <;> simp only [length_durations, total_merge] <;> omega

theorem Conserved.perm (h : metrics.Conserved passes)
    (hperm : other.records.Perm metrics.records) : other.Conserved passes := by
  have hdurations := h.durations
  rw [length_durations] at hdurations
  constructor <;> simp only [length_durations, total_perm _ _ hperm]
  exacts [h.counted, hdurations, h.requeued, h.failed, h.identity, h.finalizer, h.apply, h.child,
    h.children]

end Metrics

end ClusterKeeper
