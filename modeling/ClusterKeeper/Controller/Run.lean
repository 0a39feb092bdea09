import ClusterKeeper.Api.Exchange
import ClusterKeeper.Scenario.Report
import ClusterKeeper.Settings.Basic

/-!
The controller over time. It lists the collections that it watches; every declaration that is there
has a pass at once, and then one whenever its last pass says. A store in memory answers over the API,
and steps of a scenario happen between the passes.
-/

namespace ClusterKeeper

/-- What is to be done after a pass: another one, so many seconds later. -/
structure Action where
  requeueAfter : Nat
deriving DecidableEq, Repr

namespace Action

/-- A pass that asks to be run again is, after a second; any other after the resync interval. -/
def ofOutcome (resyncSecs : Nat) : Outcome → Action
  | .requeue => ⟨1⟩
  | .done => ⟨resyncSecs⟩

/-- A pass that failed is run again after half a minute. -/
def afterError : Action := ⟨30⟩

/-- A span of whole seconds; none at all is written in the smallest unit. -/
def spanText (seconds : Nat) : String := if seconds = 0 then "0ns" else toString seconds ++ "s"

def describe (action : Action) : String :=
  "Action \x7b requeue_after: Some(" ++ spanText action.requeueAfter ++ ") \x7d"

end Action

end ClusterKeeper

namespace ClusterKeeper.Controller

/-! ### What is there at the start -/

structure Declaration where
  ns : Option String
  name : String
deriving DecidableEq, Repr

/-- The declaration with its kind and its group, as warnings name it. -/
def Declaration.text (d : Declaration) : String :=
  "Ipfs.v1alpha1.cluster.ipfs.io/" ++ d.name ++
    match d.ns with
    | some ns => "." ++ ns
    | none => ""

def childKinds : List Kind := [.statefulSet, .service, .serviceAccount, .secret, .configMap]

/-- The collections that are watched; of children only the metadata is. -/
def watched (ns : Option String) : List String :=
  let children := childKinds.map fun kind => kind.collectionPath ns ++ " (metadata)"
  (Kind.ipfs.collectionPath ns :: children).mergeSort fun a b => decide (a ≤ b)

def listed (ns : Option String) (memory : Memory) (kind : Kind) : List Json :=
  (memory.objects.filter fun entry =>
    entry.1.kind = kind && ns.all (· = entry.1.ns)).map (·.2)

def declarationOf (r : Resource) : Declaration := ⟨r.namespace?, r.displayName⟩

/-- All declarations that are there; none if one of them cannot be read. -/
def declarations (ns : Option String) (memory : Memory) : List Declaration :=
  match (listed ns memory .ipfs).mapM fun raw => (Resource.read .ipfs raw).toOption with
  | some found => (found.map declarationOf).eraseDups
  | none => []

def ownerDeclaration? (ns : Option String) (owner : Json) : Option Declaration :=
  if owner.get "apiVersion" = .str Kind.ipfs.apiVersion ∧ owner.get "kind" = .str Kind.ipfs.name then
    (owner.get "name").text?.map (⟨ns, ·⟩)
  else none

def owners (raw : Json) : List Declaration :=
  ((raw.metadataField "ownerReferences").items?.getD []).filterMap
    (ownerDeclaration? (raw.metadataField "namespace").text?)

def missingOwners (ns : Option String) (memory : Memory) : List Declaration :=
  let named := (childKinds.flatMap (listed ns memory)).flatMap owners
  named.eraseDups.filter fun d => !(declarations ns memory).contains d

/-! ### The run -/

inductive Notice where
  /-- A pass warns. -/
  | warned (warning : Warning)
  | passFailed (ns name : String) (e : ReconcileError)
  | willRetry
  | reconcilerFailed (d : Declaration)
  /-- A child names an owner that is not there. -/
  | notFound (d : Declaration)
deriving DecidableEq, Repr

def Notice.text : Notice → String
  | .warned warning => warning.text
  | .passFailed ns name e => "Failed to reconcile Ipfs " ++ ns ++ "/" ++ name ++ ": " ++ e.message
  | .willRetry =>
    "Reconciliation error - will retry in " ++ toString Action.afterError.requeueAfter ++ "s"
  | .reconcilerFailed d =>
    "Controller stream error: reconciler for object " ++ d.text ++ " failed"
  | .notFound d =>
    "Controller stream error: tried to reconcile object " ++ d.text ++
      " that was not found in local store"

structure State where
  /-- The store, the metrics, and the operator that steps of a scenario use. -/
  engine : Engine
  source : IdentitySource
  defaults : WorkloadDefaults
  /-- The second that it is. -/
  now : Nat
  /-- The requests so far and their seconds, the latest first. -/
  calls : List (Nat × Request)
  /-- The notices so far, the latest first. -/
  notices : List Notice

namespace State

def notify (s : State) (notice : Notice) : State := { s with notices := notice :: s.notices }

def exchange : Exchange State := fun call request s =>
  let (answer, memory) := Memory.serve call s.engine.memory
  (answer, { s with
    engine := { s.engine with memory }
    calls := (s.now, request) :: s.calls })

def generate (s : State) : Except IdentityError Identity × State :=
  let (identity, source) := s.source.next
  (identity, { s with source })

def emit (event : Event) (s : State) : State :=
  match event with
  | .warned warning => s.notify (.warned warning)
  | .recorded record =>
    { s with engine := { s.engine with metrics := s.engine.metrics.add record } }

def handler : Handler State := ⟨Client.perform exchange, generate, emit⟩

def fail (s : State) (d : Declaration) : Action × State :=
  (.afterError, (s.notify .willRetry).notify (.reconcilerFailed d))

/-- A pass over a declaration, which fails without a request if it names no namespace. -/
def pass (resyncSecs : Nat) (s : State) (d : Declaration) : Action × State :=
  match d.ns with
  | none => s.fail d
  | some ns =>
    match (reconcile s.defaults ns d.name).run handler s with
    | (.ok outcome, s) => (.ofOutcome resyncSecs outcome, s)
    | (.error e, s) => (s.notify (.passFailed ns d.name e)).fail d

def step (s : State) (step : Scenario.Step) : Scenario.Result × State :=
  let (report, engine) := step.observe s.engine
  let notices := report.warnings.foldl (fun notices w => .warned w :: notices) s.notices
  (report.result, { s with engine, notices })

end State

structure Appointment where
  due : Nat
  declaration : Declaration
deriving DecidableEq, Repr

/-- Runs the passes that are due now; the next pass comes a second later or more. -/
def runDue (resyncSecs : Nat) : State → List Appointment → List Appointment × State
  | s, [] => ([], s)
  | s, appointment :: rest =>
    if appointment.due ≤ s.now then
      let (action, s) := s.pass resyncSecs appointment.declaration
      -- no pass follows another within a second, whatever the interval
      let next : Appointment := ⟨s.now + max 1 action.requeueAfter, appointment.declaration⟩
      let (appointments, s) := runDue resyncSecs s rest
      (next :: appointments, s)
    else
      let (appointments, s) := runDue resyncSecs s rest
      (appointment :: appointments, s)

structure TimedStep where
  second : Nat
  step : Scenario.Step

/-- Runs the steps that are due, in their order; one that is not yet due holds up those after it. -/
def runSteps : State → List TimedStep → List Scenario.Result × List TimedStep × State
  | s, [] => ([], [], s)
  | s, timed :: rest =>
    if timed.second ≤ s.now then
      let (result, s) := s.step timed.step
      let (results, left, s) := runSteps s rest
      (result :: results, left, s)
    else ([], timed :: rest, s)

/-- Lets so many seconds go by: in each the passes that are due, and then the steps. -/
def runSeconds (resyncSecs : Nat) :
    Nat → State → List Appointment → List TimedStep → List Scenario.Result × State
  | 0, s, _, _ => ([], s)
  | count + 1, s, appointments, steps =>
    let (appointments, s) := runDue resyncSecs s appointments
    let (results, left, s) := runSteps s steps
    let (later, s) :=
      runSeconds resyncSecs count { s with now := s.now + 1 } appointments left
    (results ++ later, s)

structure Report where
  /-- What the steps came to. -/
  results : List Scenario.Result
  watched : List String
  calls : List (Nat × Request)
  writes : List (Op × ObjectKey)
  notices : List Notice
  metrics : Metrics

/-- Runs the controller up to and with the given second, or that of the last step. -/
def run (settings : Settings) (source : IdentitySource) (engine : Engine) (seconds : Nat)
    (steps : List TimedStep) : Report :=
  let missing := missingOwners settings.ns engine.memory
  let start : State :=
    { engine, source, defaults := settings.workloads, now := 0, calls := []
      notices := (missing.map .notFound).reverse }
  let appointments := (declarations settings.ns engine.memory).map fun d => ⟨0, d⟩
  let last := steps.foldl (fun last timed => max last timed.second) seconds
  let (results, final) := runSeconds settings.resyncSecs (last + 1) start appointments steps
  { results
    watched := watched settings.ns
    calls := final.calls.reverse
    writes := Scenario.latest engine.memory.log.length final.engine.memory.log
    notices := final.notices.reverse
    metrics := final.engine.metrics }

end ClusterKeeper.Controller
