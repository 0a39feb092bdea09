import ClusterKeeper.Reconcile.Pass
import ClusterKeeper.Proofs.Manifest.References
import ClusterKeeper.Proofs.Store.Objects

/-!
A declaration under a key declares the cluster of that key.
-/

namespace ClusterKeeper

open Memory

namespace Schema

theorem read_int32_iff {json written : Json} :
    int32.read json = .ok written ↔
      ∃ value, json = .int value ∧ written = .int value ∧ int32.IsWritten (.int value) := by
  simp only [isWritten_int32_iff]
  exact readInt_eq_ok_iff

/-- The number of peers in a declared spec fits into 32 bits. -/
theorem isWritten_replicas {json written : Json} (h : ipfsSpec.read json = .ok written) :
    int32.IsWritten (.int (ClusterSpec.ofJson written).replicas) := by
  obtain ⟨members, values, rfl, hvalues, -⟩ := exists_gathered_of_read (by decide) h
  have houtcome := hvalues.field ⟨"replicas", .defaulted (.int 1), int32⟩ (by simp)
  have hreplicas : ∃ value, values.lookup "replicas" = some (.int value) ∧
      int32.IsWritten (.int value) := by
    cases hfound : members.lookup "replicas" with
    | none =>
        rw [hfound] at houtcome
        exact ⟨1, (Except.ok.inj houtcome).symm, rfl⟩
    | some value =>
        rw [hfound] at houtcome
        obtain ⟨written, hread, hwritten⟩ := (map_eq_ok_iff some _ _).mp houtcome
        obtain ⟨n, -, rfl, hn⟩ := read_int32_iff.mp hread
        exact ⟨n, hwritten.symm, hn⟩
  obtain ⟨value, hvalue, hwritten⟩ := hreplicas
  have hget : Json.get (.obj values) "replicas" = .int value := by
    rw [Json.get, Json.get?, Json.members, hvalue]
    rfl
  rw [ClusterSpec.ofJson, hget]
  exact hwritten

end Schema

/-- A declaration that was read declares a cluster in its namespace. -/
theorem Cluster.isDeclared_ofResource {ns : String} {raw : Json} {ipfs : Resource}
    (h : readAs .ipfs raw = .ok ipfs) (hns : ipfs.namespace? = some ns) :
    (Cluster.ofResource ipfs).IsDeclared ns ipfs.displayName := by
  have hread : Schema.ipfs.read raw = .ok ipfs.body := (readAs_eq_ok_iff.mp h).2
  refine ⟨hns, rfl, ?_⟩
  have houtcome := Schema.outcome_of_read Kind.ipfs.isRecord_schema
    (show Schema.ipfs.field? "spec" = some ⟨"spec", .mandatory, Schema.ipfsSpec⟩ from rfl) hread
  cases hspec : raw.get? "spec" with
  | none =>
      exact absurd hspec (Schema.get?_ne_none_of_mandatory Kind.ipfs.isRecord_schema
        (show Schema.ipfs.field? "spec" = some ⟨"spec", .mandatory, Schema.ipfsSpec⟩ from rfl) rfl
        ⟨_, hread⟩)
  | some spec =>
      rw [hspec] at houtcome
      obtain ⟨written, hwritten, hfound⟩ := (map_eq_ok_iff some _ _).mp houtcome
      have hbody : ipfs.body.get "spec" = written := by
        rw [Json.get, ← hfound]
        rfl
      rw [Cluster.ofResource, hbody]
      exact Schema.isWritten_replicas hwritten

theorem Cluster.isDeclared_of_readAs {ns name : String} {raw : Json} {ipfs : Resource}
    (h : readAs .ipfs raw = .ok ipfs) (hnamed : raw.IsNamed ⟨.ipfs, ns, name⟩) :
    (Cluster.ofResource ipfs).IsDeclared ns name := by
  have hname : ipfs.displayName = name := by
    rw [Resource.displayName, Resource.name?_of_named h hnamed]
    rfl
  exact hname ▸ isDeclared_ofResource h (Resource.namespace?_of_named h hnamed)

/-- A child of a declaration that was read is wanted under its own key, if it has one. -/
theorem Cluster.isDesired_of_key {raw : Json} {ipfs : Resource} (identity : Identity)
    (defaults : WorkloadDefaults) (child : Child) {key : ObjectKey} (h : readAs .ipfs raw = .ok ipfs)
    (hkey : (((Cluster.ofResource ipfs).children identity defaults).resource child).key = .ok key) :
    (((Cluster.ofResource ipfs).children identity defaults).resource child).IsDesired key := by
  obtain ⟨ns, hns⟩ : ∃ ns, ipfs.namespace? = some ns := by
    have hnamed := (Resource.named_of_key hkey).2.2
    rw [← (belongTo_children identity defaults ipfs).ns child, Resource.namespace?, hnamed]
    exact ⟨key.ns, rfl⟩
  have hr := isDesired_children (isDeclared_ofResource h hns) identity defaults child
  cases hr.key.symm.trans hkey
  exact hr

section Declared

def Json.declared : Json :=
  .obj [
    ("apiVersion", .str "cluster.ipfs.io/v1alpha1"),
    ("kind", .str "Ipfs"),
    ("metadata", .obj [
      ("finalizers", .texts [finalizerToken]),
      ("name", .str "ipfs"),
      ("namespace", .str "default"),
      ("resourceVersion", .str "1"),
      ("uid", .str "uid-1")]),
    ("spec", .obj [
      ("clusterStorage", .str "5Gi"),
      ("ipfsStorage", .str "10Gi"),
      ("replicas", .int 1)])]

def Memory.declared : Memory :=
  ⟨[(⟨.ipfs, "default", "ipfs"⟩, .declared)], 1, 1, [], [(.create, ⟨.ipfs, "default", "ipfs"⟩)]⟩

namespace Memory

theorem readAs_declared : readAs .ipfs .declared = .ok ⟨.ipfs, .declared⟩ := rfl

theorem isNamed_declared : Json.declared.IsNamed ⟨.ipfs, "default", "ipfs"⟩ := ⟨rfl, rfl⟩

theorem isUnmarked_declared : Json.declared.IsUnmarked := rfl

theorem eq_of_get?_declared {key : ObjectKey} {raw : Json} (h : declared.get? key = some raw) :
    key = ⟨.ipfs, "default", "ipfs"⟩ ∧ raw = .declared := by
  exact Prod.mk.inj (List.mem_singleton.mp (Keyed.mem_of_lookup h))

theorem reachable_declared : declared.Reachable :=
  .single (.call (.create ⟨.ipfs, .declared⟩))

end Memory

end Declared

end ClusterKeeper
