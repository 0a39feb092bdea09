import Mathlib.Logic.Relation
import ClusterKeeper.Reconcile.Engine
import ClusterKeeper.Proofs.Program.Contract
import ClusterKeeper.Proofs.Reconcile.Calls

/-!
Any number of passes over one declaration on one store. Each is at some point of its program; a step
begins a pass, lets one go on to its next call, drops one, or changes the store from outside. Since a
pass makes only the calls that are its to make, what those calls keep is kept in every run.
-/

namespace ClusterKeeper

open Reconcile

structure Thread where
  trace : Trace
  rest : Program (Except ReconcileError Outcome)

inductive Thread.Step (env : Surroundings) : Memory → Thread → Memory → Thread → Prop where
  | call {m : Memory} {t : Trace} {c : StoreCall} {next : c.Reply → Program _} :
    Step env m ⟨t, .call c next⟩ (Memory.perform c m).2
      ⟨.called c (Memory.perform c m).1 :: t, next (Memory.perform c m).1⟩
  | generate {m : Memory} {t : Trace} {next : Except IdentityError Identity → Program _}
      {answer : Except IdentityError Identity} (h : env.answers answer) :
    Step env m ⟨t, .generate next⟩ m ⟨.drew answer :: t, next answer⟩
  | emit {m : Memory} {t : Trace} {event : Event} {next : Program _} :
    Step env m ⟨t, .emit event next⟩ m ⟨.reported event :: t, next⟩

theorem Thread.Step.answered {env : Surroundings} {m m' : Memory} {t : Trace} {c : StoreCall}
    {next : c.Reply → Program _} {reply : c.Reply} (h : Memory.perform c m = (reply, m')) :
    Step env m ⟨t, .call c next⟩ m' ⟨.called c reply :: t, next reply⟩ := by
  obtain rfl : (Memory.perform c m).1 = reply := congrArg Prod.fst h
  obtain rfl : (Memory.perform c m).2 = m' := congrArg Prod.snd h
  exact .call

structure World where
  memory : Memory
  threads : List Thread

/-- A step of the passes over the declaration of that namespace and name, or from outside. -/
inductive World.Step (ns name : String) (env : Surroundings) : World → World → Prop where
  | start {w : World} (defaults : WorkloadDefaults) :
    Step ns name env w
      { w with threads := w.threads ++ [⟨[], reconcile defaults ns name⟩] }
  | move {w : World} {i : Nat} {thread thread' : Thread} {m' : Memory}
      (hthread : w.threads[i]? = some thread) (h : thread.Step env w.memory m' thread') :
    Step ns name env w ⟨m', w.threads.set i thread'⟩
  | drop {w : World} (i : Nat) :
    Step ns name env w { w with threads := w.threads.eraseIdx i }
  | outside {w : World} {m' : Memory} (h : env.rely w.memory m') :
    Step ns name env w { w with memory := m' }

/-- How passes share a store: what always holds of it, what each change keeps of the state before,
and what an act of a pass tells of the state from then on. -/
structure Protocol (ns name : String) (env : Surroundings) where
  inv : Memory → Prop
  keeps : Memory → Memory → Prop
  tells : Act → Memory → Prop
  refl : ∀ m, keeps m m
  trans : ∀ {a b c}, keeps a b → keeps b c → keeps a c
  stable : ∀ {act m m'}, keeps m m' → tells act m → tells act m'
  call : ∀ {t c m}, inv m → (∀ act ∈ t, tells act m) → Makes ns name t c →
    (inv (Memory.perform c m).2 ∧ keeps m (Memory.perform c m).2) ∧
      tells (.called c (Memory.perform c m).1) (Memory.perform c m).2
  drew : ∀ {answer}, env.answers answer → ∀ m, tells (.drew answer) m
  reported : ∀ event m, tells (.reported event) m
  edit : ∀ {m m'}, env.rely m m' → inv m → inv m' ∧ keeps m m'

namespace Protocol

variable {ns name : String} {env : Surroundings} (P : Protocol ns name env)

/-- A pass under way makes the calls of a pass, and all that it did tells of the state. -/
structure ThreadInvariant (thread : Thread) (m : Memory) : Prop where
  follows : thread.rest.Follows (Makes ns name) (fun _ _ => True) thread.trace
  tells : ∀ act ∈ thread.trace, P.tells act m

/-- The state of the store is as it should be, and all passes under way will keep it so. -/
structure WorldInvariant (w : World) : Prop where
  inv : P.inv w.memory
  threads : ∀ thread ∈ w.threads, P.ThreadInvariant thread w.memory

variable {P} {m m' : Memory} {thread thread' : Thread} {w w' : World}

theorem ThreadInvariant.stable (h : P.ThreadInvariant thread m) (hkeeps : P.keeps m m') :
    P.ThreadInvariant thread m' :=
  ⟨h.follows, fun act hact => P.stable hkeeps (h.tells act hact)⟩

/-- What a pass does next keeps both invariants. -/
theorem ThreadInvariant.step (h : P.ThreadInvariant thread m) (hinv : P.inv m)
    (hstep : thread.Step env m m' thread') :
    (P.inv m' ∧ P.keeps m m') ∧ P.ThreadInvariant thread' m' := by
  obtain ⟨hfollows, htells⟩ := h
  cases hstep with
  | call =>
      obtain ⟨hmakes, hrest⟩ := hfollows
      obtain ⟨⟨hinv', hkeeps⟩, htold⟩ := P.call hinv htells hmakes
      have hbefore := fun act hact => P.stable hkeeps (htells act hact)
      exact ⟨⟨hinv', hkeeps⟩, hrest _, List.forall_mem_cons.mpr ⟨htold, hbefore⟩⟩
  | generate hanswer =>
      have htold := P.drew hanswer m
      exact ⟨⟨hinv, P.refl m⟩, hfollows _, List.forall_mem_cons.mpr ⟨htold, htells⟩⟩
  | @emit _ event _ =>
      have htold := P.reported event m
      exact ⟨⟨hinv, P.refl m⟩, hfollows, List.forall_mem_cons.mpr ⟨htold, htells⟩⟩

theorem WorldInvariant.step (hw : P.WorldInvariant w) (hstep : World.Step ns name env w w') :
    P.WorldInvariant w' ∧ P.keeps w.memory w'.memory := by
  cases hstep with
  | start defaults =>
      refine ⟨⟨hw.inv, fun thread hthread => ?_⟩, P.refl _⟩
      rcases List.mem_append.mp hthread with hthread | hthread
      · exact hw.threads thread hthread
      · cases List.mem_singleton.mp hthread
        exact ⟨follows_reconcile defaults ns name, fun _ hact => absurd hact List.not_mem_nil⟩
  | @move i thread thread' m' hthread hmove =>
      obtain ⟨⟨hinv, hkeeps⟩, hmoved⟩ :=
        (hw.threads thread (List.mem_of_getElem? hthread)).step hw.inv hmove
      refine ⟨⟨hinv, fun other hother => ?_⟩, hkeeps⟩
      rcases List.mem_or_eq_of_mem_set hother with hother | rfl
      · exact (hw.threads other hother).stable hkeeps
      · exact hmoved
  | drop i =>
      refine ⟨⟨hw.inv, fun thread hthread => ?_⟩, P.refl _⟩
      exact hw.threads thread (List.mem_of_mem_eraseIdx hthread)
  | outside h =>
      obtain ⟨hinv, hkeeps⟩ := P.edit h hw.inv
      exact ⟨⟨hinv, fun thread hthread => (hw.threads thread hthread).stable hkeeps⟩, hkeeps⟩

/-- In every run the state stays as it should be and keeps what is to be kept. -/
theorem WorldInvariant.run (hw : P.WorldInvariant w)
    (hrun : Relation.ReflTransGen (World.Step ns name env) w w') :
    P.WorldInvariant w' ∧ P.keeps w.memory w'.memory := by
  induction hrun with
  | refl => exact ⟨hw, P.refl _⟩
  | tail _ hstep ih =>
      obtain ⟨hworld, hkeeps⟩ := ih
      obtain ⟨hworld', hkeeps'⟩ := hworld.step hstep
      exact ⟨hworld', P.trans hkeeps hkeeps'⟩

end Protocol

end ClusterKeeper
