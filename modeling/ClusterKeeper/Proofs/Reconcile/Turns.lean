import ClusterKeeper.Proofs.Program.Moves
import ClusterKeeper.Proofs.Reconcile.World

/-!
Passes that take turns by a schedule are passes that share a store: what holds of all runs of the
latter holds of every schedule.
-/

namespace ClusterKeeper

open Reconcile

variable (ns name : String) {env : Surroundings} {m m' : Memory} {threads : List Thread}

section Engine

theorem Engine.memory_emit (e : Engine) (event : Event) : (e.emit event).memory = e.memory := by
  cases event <;> rfl

variable (hanswers : ∀ source : IdentitySource, env.answers source.next.1)

include hanswers

/-- What a program does on the operator's state is what the pass under way does on its store. -/
theorem Program.Move.step {p p' : Program (Except ReconcileError Outcome)} {e e' : Engine}
    (hmove : p.Move Engine.handler e p' e') (t : Trace) :
    ∃ t', Thread.Step env e.memory ⟨t, p⟩ e'.memory ⟨t', p'⟩ := by
  cases hmove with
  | call c next => exact ⟨_, .call⟩
  | generate next => exact ⟨_, .generate (hanswers e.source)⟩
  | emit event =>
      refine ⟨.reported event :: t, ?_⟩
      rw [show (Engine.handler.emit event e).memory = e.memory from e.memory_emit event]
      exact .emit

/-- Programs that move on the operator's state are passes that go on in the shared store. -/
theorem Concurrent.Moves.exists_run
    {running running' : Concurrent (Except ReconcileError Outcome) Engine}
    (hmoves : Concurrent.Moves Engine.handler running running')
    (hrest : threads.map Thread.rest = running.programs) :
    ∃ threads', Relation.ReflTransGen (World.Step ns name env) ⟨running.state.memory, threads⟩
        ⟨running'.state.memory, threads'⟩ ∧
      threads'.map Thread.rest = running'.programs := by
  induction hmoves with
  | refl => exact ⟨threads, .refl, hrest⟩
  | tail _ hmove ih =>
      obtain ⟨reached, hrun, hreached⟩ := ih
      cases hmove with
      | of before after hmove =>
          obtain ⟨first, last, rfl, rfl, hlast⟩ := List.map_eq_append_iff.mp hreached
          obtain ⟨⟨t, _⟩, later, rfl, rfl, rfl⟩ := List.map_eq_cons_iff.mp hlast
          obtain ⟨t', hstep⟩ := hmove.step hanswers t
          have hnext := hrun.tail (.move (i := first.length) (by simp) hstep)
          rw [List.set_append_right _ _ (Nat.le_refl _), Nat.sub_self, List.set_cons_zero] at hnext
          exact ⟨_, hnext, by simp⟩

end Engine

theorem World.exists_run_start (env : Surroundings) (all : List WorkloadDefaults) (m : Memory)
    (before : List Thread) :
    Relation.ReflTransGen (World.Step ns name env) ⟨m, before⟩
      ⟨m, before ++ all.map fun defaults => ⟨[], reconcile defaults ns name⟩⟩ := by
  induction all generalizing before with
  | nil => rw [List.map_nil, List.append_nil]
  | cons defaults rest ih =>
      have hrest := ih (before ++ [⟨[], reconcile defaults ns name⟩])
      rw [List.append_assoc] at hrest
      exact hrest.head (.start defaults)

theorem World.exists_run_outside (h : Relation.ReflTransGen env.rely m m') (threads : List Thread) :
    Relation.ReflTransGen (World.Step ns name env) ⟨m, threads⟩ ⟨m', threads⟩ := by
  induction h with
  | refl => exact .refl
  | tail _ hrely ih => exact ih.tail (.outside hrely)

section Schedules

variable (hanswers : ∀ source : IdentitySource, env.answers source.next.1)
  (all : List WorkloadDefaults) (schedule : List Nat) (e : Engine)

include hanswers

/-- Passes that begin and take turns by a schedule. -/
theorem Task.exists_run_schedule :
    ∃ threads, Relation.ReflTransGen (World.Step ns name env) ⟨e.memory, []⟩
        ⟨(turns Engine.handler schedule (all.map fun defaults => .ready (reconcile defaults ns name))
          e).2.memory, threads⟩ ∧
      threads.map Thread.rest = (turns Engine.handler schedule
        (all.map fun defaults => .ready (reconcile defaults ns name)) e).1.map Task.rest := by
  have hready : (all.map fun defaults => (⟨[], reconcile defaults ns name⟩ : Thread)).map
      Thread.rest = (all.map fun defaults => Task.ready (reconcile defaults ns name)).map
        Task.rest := by
    simp [Task.rest]
  obtain ⟨threads, hturns, hleft⟩ :=
    (moves_turns e schedule _).exists_run ns name hanswers hready
  exact ⟨threads, (World.exists_run_start ns name env all e.memory []).trans hturns, hleft⟩

/-- Passes that take turns by a schedule and, after something happened from outside, by another. -/
theorem Task.exists_run_schedules {later : List Nat} {e' : Engine}
    {first second : List (Task (Except ReconcileError Outcome)) × Engine}
    (hfirst : turns Engine.handler schedule
      (all.map fun defaults => .ready (reconcile defaults ns name)) e = first)
    (houtside : Relation.ReflTransGen env.rely first.2.memory e'.memory)
    (hsecond : turns Engine.handler later first.1 e' = second) :
    ∃ w w', Relation.ReflTransGen (World.Step ns name env) ⟨e.memory, []⟩ w ∧
      Relation.ReflTransGen (World.Step ns name env) w w' ∧ w.memory = first.2.memory ∧
      w'.memory = second.2.memory ∧ w'.threads.map Thread.rest = second.1.map Task.rest := by
  obtain ⟨threads, hrun, hrest⟩ := exists_run_schedule ns name hanswers all schedule e
  rw [hfirst] at hrun hrest
  have hchanged := World.exists_run_outside ns name houtside threads
  obtain ⟨threads', hrun', hrest'⟩ :=
    (moves_turns e' later first.1).exists_run ns name hanswers hrest
  rw [hsecond] at hrun' hrest'
  exact ⟨_, _, hrun, hchanged.trans hrun', rfl, rfl, hrest'⟩

end Schedules

end ClusterKeeper
