import ClusterKeeper.Scenario.Step

/-!
Running a scenario: what each step came to and what could be seen of it.
-/

namespace ClusterKeeper.Scenario

structure StepReport where
  result : Result
  /-- The writes of the step, in their order. -/
  writes : List (Op × ObjectKey)
  /-- The number of stored objects after the step. -/
  objects : Nat
  /-- How often the identity source was asked since it was put in; nothing for one that always
  fails. -/
  generated : Option Nat
  /-- The warnings of the step, in their order. -/
  warnings : List Warning

/-- The front of a list that lists its latest element first, in the order of time. -/
def latest {α : Type} (before : Nat) (entries : List α) : List α :=
  (entries.take (entries.length - before)).reverse

/-- How often the identity source was asked, unless it always fails. -/
def generated? (e : Engine) : Option Nat :=
  match e.source with
  | .seeded _ => some e.asked
  | .failing => none

def Step.observe (e : Engine) (step : Step) : StepReport × Engine :=
  let (result, after) := step.run e
  ({ result
     writes := latest e.memory.log.length after.memory.log
     objects := after.memory.objects.length
     generated := generated? after
     warnings := latest e.warnings.length after.warnings }, after)

def run : Engine → List Step → List StepReport × Engine
  | e, [] => ([], e)
  | e, step :: rest =>
    let (report, e) := step.observe e
    let (reports, e) := run e rest
    (report :: reports, e)

structure Entry where
  key : ObjectKey
  uid : String
  version : String
deriving DecidableEq, Repr

def entries (memory : Memory) : List Entry :=
  memory.objects.map fun (key, raw) =>
    { key
      uid := (raw.metadataField "uid").text?.getD ""
      version := (raw.metadataField "resourceVersion").text?.getD "" }

end ClusterKeeper.Scenario
