import ClusterKeeper.Json.Pointer
import ClusterKeeper.Reconcile.Program

/-!
What is done to one object: it is driven toward its desired form, and marked with a finalizer token.
-/

namespace ClusterKeeper

/-! ### The desired form

An object is created, or, if it exists and lacks something, sent a merge patch. Fields that the desired
object does not mention are left alone. -/

inductive ApplyOutcome where
  | created
  | patched
  | unchanged
deriving DecidableEq, Repr

def ApplyOutcome.text : ApplyOutcome → String
  | .created => "created"
  | .patched => "patched"
  | .unchanged => "unchanged"

/-- The metadata that a patch carries; all other metadata is the server's. -/
def patchedMetadata : List String :=
  ["name", "namespace", "labels", "annotations", "ownerReferences"]

/-- The patch that gives an object all that the desired one has, but for its status. -/
def Resource.mergePatch (desired : Resource) : Json :=
  (desired.body.set "metadata"
    (.obj (desired.metadata.members.filter fun member => patchedMetadata.contains member.1))).drop
      "status"

def createOrPatch (desired : Resource) : Program (Except StoreError ApplyOutcome) :=
  match desired.key with
  | .error e => pure (.error e)
  | .ok key => do
    match ← Program.create desired with
    | .ok _ => pure (.ok .created)
    | .error (.alreadyExists _) =>
      match ← Program.get key with
      | .error e => pure (.error e)
      | .ok none => pure (.error (.notFound key.ref))
      | .ok (some live) =>
        if live.body.patchChanges desired.mergePatch then
          match ← Program.patch key desired.mergePatch with
          | .error e => pure (.error e)
          | .ok _ => pure (.ok .patched)
        else pure (.ok .unchanged)
    | .error e => pure (.error e)

/-! ### The finalizer token

By the token an object waits for the cleanup that is owed to it. It is put on before any child exists
and taken off once deletion was requested. -/

def finalizerToken : String := "openshift.ifps.cluster"

/-- Where an object stands with respect to a token. -/
inductive FinalizerState where
  /-- Not yet marked. -/
  | unmanaged
  /-- Marked, and deletion is not requested. -/
  | managed
  /-- Deletion is requested and cleanup is owed. -/
  | terminating
  /-- Deletion is requested and nothing is owed. -/
  | released
deriving DecidableEq, Repr

namespace Resource

def hasFinalizer (r : Resource) (token : String) : Bool :=
  (r.finalizers?.getD []).contains token

/-- The object with the token put last. -/
def withFinalizer (r : Resource) (token : String) : Resource :=
  r.setMetadata "finalizers" (Json.texts (r.finalizers?.getD [] ++ [token]))

/-- The object without any copy of the token. -/
def withoutFinalizer (r : Resource) (token : String) : Resource :=
  r.setMetadata "finalizers" (Json.texts ((r.finalizers?.getD []).filter (· ≠ token)))

end Resource

namespace FinalizerState

def observe (r : Resource) (token : String) : FinalizerState :=
  match r.isTerminating, r.hasFinalizer token with
  | false, false => .unmanaged
  | false, true => .managed
  | true, true => .terminating
  | true, false => .released

end FinalizerState

namespace Finalizer

/-- Puts the token on an object; one that has it is not written. -/
def add (r : Resource) (token : String) : Program (Except StoreError Resource) :=
  if r.hasFinalizer token then pure (.ok r) else Program.update (r.withFinalizer token)

/-- Takes the token off an object; one that lacks it is not written. -/
def remove (r : Resource) (token : String) : Program (Except StoreError Resource) :=
  if r.hasFinalizer token then Program.update (r.withoutFinalizer token) else pure (.ok r)

end Finalizer

end ClusterKeeper
