import ClusterKeeper.Proofs.Metrics.Pass
import ClusterKeeper.Proofs.Program.Moves
import ClusterKeeper.Proofs.Reconcile.Declaration
import ClusterKeeper.Proofs.Reconcile.World

/-!
The metrics of an operator, however many passes it begins and however they take turns. Each record is
that of one pass, so the sums over samples are those of complete passes as soon as all of them have
ended.
-/

namespace ClusterKeeper

open Reconcile

variable {σ : Type} {h : Handler σ} {metrics : σ → Metrics}

/-- The metrics of the state have what programs record, and nothing else. -/
structure Handler.Counts (h : Handler σ) (metrics : σ → Metrics) : Prop where
  perform : ∀ c s, metrics (h.perform c s).2 = metrics s
  generate : ∀ s, metrics (h.generate s).2 = metrics s
  warned : ∀ warning s, metrics (h.emit (.warned warning) s) = metrics s
  recorded : ∀ record s, metrics (h.emit (.recorded record) s) = (metrics s).add record

theorem Engine.counts : Engine.handler.Counts Engine.metrics where
  perform _ _ := rfl
  generate _ := rfl
  warned _ _ := rfl
  recorded _ _ := rfl

abbrev Passes (σ : Type) := Concurrent (Except ReconcileError Outcome) σ

/-- A pass begins or goes on, or the state changes from outside, except for the metrics. -/
inductive Passes.Step (h : Handler σ) (metrics : σ → Metrics) : Passes σ → Passes σ → Prop where
  | start {passes : Passes σ} (defaults : WorkloadDefaults) (ns name : String) :
      Step h metrics passes
        { passes with programs := passes.programs ++ [reconcile defaults ns name] }
  | move {passes passes' : Passes σ} (hmove : Concurrent.Move h passes passes') :
      Step h metrics passes passes'
  | outside {passes : Passes σ} {s' : σ} (hmetrics : metrics s' = metrics passes.state) :
      Step h metrics passes { passes with state := s' }

/-- What a program does next is added to its records. -/
theorem Program.Move.records {α : Type} {p p' : Program α} {s s' : σ} {t : Trace}
    {post : α → Metrics → Prop} (hcounts : h.Counts metrics) (hmove : p.Move h s p' s')
    (hrecords : Records p post t) :
    ∃ t' added, Records p' post t' ∧ (metrics s').records = added ++ (metrics s).records ∧
      t'.metrics.records = added ++ t.metrics.records := by
  cases hmove with
  | call c next =>
      refine ⟨_, [], hrecords.2 (h.perform c s).1, ?_, rfl⟩
      rw [hcounts.perform, List.nil_append]
  | generate next =>
      refine ⟨_, [], hrecords (h.generate s).1, ?_, rfl⟩
      rw [hcounts.generate, List.nil_append]
  | emit event =>
      cases event with
      | warned warning =>
          refine ⟨_, [], hrecords, ?_, rfl⟩
          rw [hcounts.warned, List.nil_append]
      | recorded record =>
          refine ⟨_, [record], hrecords, ?_, rfl⟩
          rw [hcounts.recorded]
          rfl

/-- The metrics are the records of the passes, each of which will be complete. -/
structure Passes.Recorded (metrics : Metrics) (threads : List Thread) : Prop where
  complete : ∀ thread ∈ threads,
    Records thread.rest (fun _ metrics => metrics.Conserved 1) thread.trace
  records : metrics.records.Perm (threads.flatMap fun thread => thread.trace.metrics.records)

namespace Passes

theorem Recorded.start {metrics : Metrics} {threads : List Thread}
    (hrecorded : Recorded metrics threads) (defaults : WorkloadDefaults) (ns name : String) :
    Recorded metrics (threads ++ [⟨[], reconcile defaults ns name⟩]) := by
  refine ⟨fun thread hthread => ?_, ?_⟩
  · rcases List.mem_append.mp hthread with hthread | hthread
    · exact hrecorded.complete thread hthread
    · cases List.mem_singleton.mp hthread
      exact records_reconcile defaults ns name
  · rw [List.flatMap_append, List.flatMap_singleton]
    exact (List.append_nil _).symm ▸ hrecorded.records

theorem Recorded.move {before after : List Thread} {t : Trace}
    {p p' : Program (Except ReconcileError Outcome)} {s s' : σ} (hcounts : h.Counts metrics)
    (hmove : p.Move h s p' s') (hrecorded : Recorded (metrics s) (before ++ ⟨t, p⟩ :: after)) :
    ∃ t', Recorded (metrics s') (before ++ ⟨t', p'⟩ :: after) := by
  obtain ⟨hcomplete, hrecords⟩ := hrecorded
  obtain ⟨t', added, hcomplete', hstate, htrace⟩ :=
    hmove.records hcounts (hcomplete ⟨t, p⟩ (by simp))
  refine ⟨t', forall_mem_replaced hcomplete (fun _ => id) hcomplete', ?_⟩
  rw [List.flatMap_append, List.flatMap_cons] at hrecords ⊢
  rw [hstate, htrace, List.append_assoc]
  exact (hrecords.append_left added).trans (List.perm_append_comm_assoc _ _ _)

/-- In every run, the metrics are the records of the passes. -/
theorem exists_recorded {passes passes' : Passes σ} (hcounts : h.Counts metrics)
    (hempty : metrics passes.state = .empty) (hnone : passes.programs = [])
    (hrun : Relation.ReflTransGen (Step h metrics) passes passes') :
    ∃ threads, threads.map Thread.rest = passes'.programs ∧
      Recorded (metrics passes'.state) threads := by
  induction hrun with
  | refl => exact ⟨[], hnone.symm, nofun, hempty ▸ .nil⟩
  | tail _ hstep ih =>
      obtain ⟨threads, hrest, hrecorded⟩ := ih
      cases hstep with
      | start defaults ns name => exact ⟨_, by simp [hrest], hrecorded.start defaults ns name⟩
      | move hmove =>
          cases hmove with
          | of before after hmove =>
              obtain ⟨first, last, rfl, rfl, hlast⟩ := List.map_eq_append_iff.mp hrest
              obtain ⟨⟨t, _⟩, later, rfl, rfl, rfl⟩ := List.map_eq_cons_iff.mp hlast
              obtain ⟨t', hrecorded'⟩ := hrecorded.move hcounts hmove
              exact ⟨_, by simp, hrecorded'⟩
      | outside hmetrics => exact ⟨threads, hrest, hmetrics ▸ hrecorded⟩

/-- The records of passes that have all ended are conserved. -/
theorem Recorded.conserved {metrics : Metrics} {threads : List Thread}
    (hrecorded : Recorded metrics threads)
    (hended : ∀ thread ∈ threads, ∃ result, thread.rest = .done result) :
    metrics.Conserved threads.length := by
  have hall (threads : List Thread)
      (hcomplete : ∀ thread ∈ threads, thread.trace.metrics.Conserved 1) :
      (Metrics.mk (threads.flatMap fun thread => thread.trace.metrics.records)).Conserved
        threads.length := by
    induction threads with
    | nil => exact Metrics.conserved_empty
    | cons thread rest ih =>
        obtain ⟨hthread, hrest⟩ := List.forall_mem_cons.mp hcomplete
        rw [List.length_cons, Nat.add_comm]
        exact hthread.merge (ih hrest)
  refine (hall threads fun thread hthread => ?_).perm hrecorded.records
  obtain ⟨result, hresult⟩ := hended thread hthread
  have hcomplete := hrecorded.complete thread hthread
  rw [hresult] at hcomplete
  exact hcomplete

/-- Whenever all passes that began have ended, the metrics are conserved. -/
theorem metrics_conserved {s s' : σ} {programs : List (Program (Except ReconcileError Outcome))}
    (hcounts : h.Counts metrics) (hempty : metrics s = .empty)
    (hrun : Relation.ReflTransGen (Step h metrics) ⟨[], s⟩ ⟨programs, s'⟩)
    (hended : ∀ pass ∈ programs, ∃ result, pass = .done result) :
    (metrics s').Conserved programs.length := by
  obtain ⟨threads, hrest, hrecorded⟩ := exists_recorded hcounts hempty rfl hrun
  obtain rfl : threads.map Thread.rest = programs := hrest
  rw [List.length_map]
  exact hrecorded.conserved fun thread hthread => hended _ (List.mem_map_of_mem hthread)

/-- An operator at a store with one declaration, and passes that find it or look for another. -/
def sample : Passes Engine where
  programs :=
    [reconcile .standard "default" "ipfs", reconcile .standard "default" "ipfs",
      reconcile .standard "default" "other"]
  state := { Engine.start (.ofSeed 7) .standard with memory := .declared }

theorem metrics_conserved_turns :
    (Task.interleave Engine.handler sample.programs [0, 1, 0, 2, 1]
      sample.state).2.metrics.Conserved 3 := by
  have hmoves := Task.moves_interleave (h := Engine.handler) sample.state sample.programs
    [0, 1, 0, 2, 1]
  have hbegun : Relation.ReflTransGen (Step Engine.handler Engine.metrics) ⟨[], sample.state⟩
      ⟨sample.programs, sample.state⟩ :=
    ((Relation.ReflTransGen.refl.tail (.start .standard "default" "ipfs")).tail
      (.start .standard "default" "ipfs")).tail (.start .standard "default" "other")
  have hrun := hbegun.trans
    (Relation.ReflTransGen.mono (fun _ _ hmove => Step.move hmove) _ _ hmoves)
  have hconserved := metrics_conserved Engine.counts rfl hrun fun pass hpass => by
    obtain ⟨result, -, rfl⟩ := List.mem_map.mp hpass
    exact ⟨result, rfl⟩
  rw [hmoves.length_eq] at hconserved
  exact hconserved

end Passes

end ClusterKeeper
