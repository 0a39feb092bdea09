import ClusterKeeper.Identity.Source
import ClusterKeeper.Reconcile.Pass
import ClusterKeeper.Store.Memory

/-!
An operator over a store in memory, and programs that take turns on it.
-/

namespace ClusterKeeper

structure Engine where
  memory : Memory
  source : IdentitySource
  /-- How often the source was asked. -/
  asked : Nat
  defaults : WorkloadDefaults
  metrics : Metrics
  /-- The warnings so far, the latest first. -/
  warnings : List Warning

namespace Engine

def start (source : IdentitySource) (defaults : WorkloadDefaults) : Engine :=
  { memory := .empty, source, asked := 0, defaults, metrics := .empty, warnings := [] }

/-- A new operator on the same store. -/
def restart (e : Engine) (source : IdentitySource) (defaults : WorkloadDefaults) : Engine :=
  { e with source, asked := 0, defaults }

def perform (call : StoreCall) (e : Engine) : call.Reply × Engine :=
  let (reply, memory) := Memory.perform call e.memory
  (reply, { e with memory })

def generate (e : Engine) : Except IdentityError Identity × Engine :=
  let (identity, source) := e.source.next
  (identity, { e with source, asked := e.asked + 1 })

def emit (event : Event) (e : Engine) : Engine :=
  match event with
  | .warned warning => { e with warnings := warning :: e.warnings }
  | .recorded record => { e with metrics := e.metrics.add record }

def handler : Handler Engine := ⟨perform, generate, emit⟩

def run {α : Type} (e : Engine) (p : Program α) : α × Engine := p.run handler e

def reconcile (e : Engine) (ns name : String) : Except ReconcileError Outcome × Engine :=
  e.run (ClusterKeeper.reconcile e.defaults ns name)

end Engine

/-! ### Turns

A turn makes the store call at which the program waits, and runs it up to the next one. -/

inductive Task (α : Type) where
  /-- Not begun. -/
  | ready (program : Program α)
  /-- Waits to make the call. -/
  | waiting (call : StoreCall) (next : call.Reply → Program α)
  | finished (value : α)

namespace Program

variable {α σ : Type}

/-- Runs a program up to its next store call. -/
def toCall (h : Handler σ) : Program α → σ → Task α × σ
  | .done value, s => (.finished value, s)
  | .call c next, s => (.waiting c next, s)
  | .generate next, s =>
    let (identity, s) := h.generate s
    (next identity).toCall h s
  | .emit event next, s => next.toCall h (h.emit event s)

end Program

namespace Task

variable {α σ : Type}

/-- Gives a task a turn; one that is finished does nothing with it. -/
def turn (h : Handler σ) : Task α → σ → Task α × σ
  | .ready program, s => program.toCall h s
  | .waiting c next, s =>
    let (reply, s) := h.perform c s
    (next reply).toCall h s
  | .finished value, s => (.finished value, s)

def finish (h : Handler σ) : Task α → σ → α × σ
  | .ready program, s => program.run h s
  | .waiting c next, s => (Program.call c next).run h s
  | .finished value, s => (value, s)

/-- Gives turns to the tasks that the schedule names, in its order; a number that is no task's is
passed over. -/
def turns (h : Handler σ) : List Nat → List (Task α) → σ → List (Task α) × σ
  | [], tasks, s => (tasks, s)
  | i :: schedule, tasks, s =>
    match tasks[i]? with
    | none => turns h schedule tasks s
    | some task =>
      let (task, s) := task.turn h s
      turns h schedule (tasks.set i task) s

def finishAll (h : Handler σ) : List (Task α) → σ → List α × σ
  | [], s => ([], s)
  | task :: rest, s =>
    let (value, s) := task.finish h s
    let (values, s) := finishAll h rest s
    (value :: values, s)

/-- Runs programs by a schedule, and then what is left of each. -/
def interleave (h : Handler σ) (programs : List (Program α)) (schedule : List Nat) (s : σ) :
    List α × σ :=
  let (tasks, s) := turns h schedule (programs.map .ready) s
  finishAll h tasks s

end Task

end ClusterKeeper
