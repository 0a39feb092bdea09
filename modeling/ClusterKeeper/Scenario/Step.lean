import ClusterKeeper.Json.Pointer
import ClusterKeeper.Reconcile.Engine

/-!
The steps of a scenario: what users, the operator and misfortune do to a store, one after the other.
-/

namespace ClusterKeeper.Scenario

structure Target where
  ns : String
  name : String
deriving DecidableEq, Repr

inductive Step where
  /-- Creates the object that a document is. -/
  | create (kind : Kind) (document : Json)
  /-- Drives an object toward the one that a document is. -/
  | apply (kind : Kind) (document : Json)
  /-- One pass over a declaration. -/
  | reconcile (target : Target)
  /-- Passes that take turns by a schedule. -/
  | interleave (targets : List Target) (schedule : List Nat)
  /-- Puts a token on a copy of a stored object, which is edited first. -/
  | addFinalizer (key : ObjectKey) (token : String) (edit : Option Json)
  | removeFinalizer (key : ObjectKey) (token : String) (edit : Option Json)
  /-- Requests deletion. -/
  | delete (key : ObjectKey)
  /-- Takes an object away without a trace. -/
  | remove (key : ObjectKey)
  /-- Changes a stored document unseen. -/
  | tamper (key : ObjectKey) (patch : Json)
  /-- Makes an operation fail from now on. -/
  | fail (failure : Failure)
  /-- Lets all operations work again. -/
  | clear
  /-- Starts a new operator on the same store. -/
  | restart (source : IdentitySource) (defaults : WorkloadDefaults)
  /-- Looks at a stored document, or at the value that a pointer into it leads to. -/
  | inspect (key : ObjectKey) (path : Option String)

inductive StepError where
  /-- The document of the step is no object of its kind. -/
  | unreadable (e : ReadError)
  | store (e : StoreError)
  | reconcile (e : ReconcileError)
  /-- There is no object of that key. -/
  | absent
deriving DecidableEq, Repr

def StepError.message : StepError → String
  | .unreadable e => e.message
  | .store e => e.message
  | .reconcile e => e.message
  | .absent => "no such object in the store"

inductive Result where
  | nothing
  /-- The version of the created object. -/
  | created (version : Option String)
  | applied (outcome : ApplyOutcome)
  | passed (outcome : Outcome)
  | interleaved (outcomes : List (Except ReconcileError Outcome))
  /-- The finalizers and the version of the object with or without its token. -/
  | marked (finalizers : Option (List String)) (version : Option String)
  | found (value : Json)
  /-- The pointer leads nowhere. -/
  | missing (path : String)
  | failed (e : StepError)

namespace Result

def ofStore {α : Type} (result : α → Result) : Except StoreError α → Result
  | .ok value => result value
  | .error e => .failed (.store e)

def ofMarked (r : Resource) : Result := .marked r.finalizers? r.resourceVersion?

def ofPass : Except ReconcileError Outcome → Result
  | .ok outcome => .passed outcome
  | .error e => .failed (.reconcile e)

end Result

namespace Step

def copy (memory : Memory) (key : ObjectKey) (edit : Option Json) : Except StepError Resource :=
  match memory.get? key with
  | none => .error .absent
  | some raw =>
    let edited := match edit with
      | some patch => Json.merge raw patch
      | none => raw
    (Resource.read key.kind edited).mapError .unreadable

def withDocument {α : Type} (kind : Kind) (document : Json)
    (program : Resource → Program (Except StoreError α)) (result : α → Result) (e : Engine) :
    Result × Engine :=
  match Resource.read kind document with
  | .error fault => (.failed (.unreadable fault), e)
  | .ok object =>
    let (reply, e) := e.run (program object)
    (.ofStore result reply, e)

def withCopy (key : ObjectKey) (edit : Option Json)
    (program : Resource → Program (Except StoreError Resource)) (e : Engine) : Result × Engine :=
  match copy e.memory key edit with
  | .error fault => (.failed fault, e)
  | .ok object =>
    let (reply, e) := e.run (program object)
    (.ofStore .ofMarked reply, e)

/-- What is found under a key, or below it. -/
def look (memory : Memory) (key : ObjectKey) (path : Option String) : Result :=
  match memory.get? key, path with
  | none, _ => .failed .absent
  | some raw, none => .found raw
  | some raw, some path =>
    match raw.pointer? path with
    | some value => .found value
    | none => .missing path

def passOver (e : Engine) (target : Target) : Program (Except ReconcileError Outcome) :=
  ClusterKeeper.reconcile e.defaults target.ns target.name

def run (e : Engine) : Step → Result × Engine
  | .create kind document =>
    withDocument kind document Program.create (fun r => .created r.resourceVersion?) e
  | .apply kind document => withDocument kind document createOrPatch .applied e
  | .reconcile target =>
    let (outcome, e) := e.reconcile target.ns target.name
    (.ofPass outcome, e)
  | .interleave targets schedule =>
    let (outcomes, e) := Task.interleave Engine.handler (targets.map (passOver e)) schedule e
    (.interleaved outcomes, e)
  | .addFinalizer key token edit => withCopy key edit (Finalizer.add · token) e
  | .removeFinalizer key token edit => withCopy key edit (Finalizer.remove · token) e
  | .delete key => (.nothing, { e with memory := e.memory.delete key })
  | .remove key => (.nothing, { e with memory := e.memory.remove key })
  | .tamper key patch =>
    match e.memory.tamper key patch with
    | some memory => (.nothing, { e with memory })
    | none => (.failed .absent, e)
  | .fail failure => (.nothing, { e with memory := e.memory.fail failure })
  | .clear => (.nothing, { e with memory := e.memory.clearFailures })
  | .restart source defaults => (.nothing, e.restart source defaults)
  | .inspect key path => (look e.memory key path, e)

end Step

end ClusterKeeper.Scenario
