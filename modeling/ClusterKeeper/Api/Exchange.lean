import ClusterKeeper.Api.Request
import ClusterKeeper.Reconcile.Program
import ClusterKeeper.Store.Memory

/-!
A store behind an API server: how a call becomes a request, what its answer means to the store, and
how a store in memory answers.
-/

namespace ClusterKeeper

/-! ### The client -/

/-- What a server says of a request that it refuses. -/
structure Status where
  code : Nat
  reason : String
  message : String
deriving DecidableEq, Repr

inductive ConnectionFault where
  /-- The connection failed. -/
  | service (reason : String)
  | readEvents (reason : String)
  | lines
  /-- The path lacks the name of the object. -/
  | unnamed
deriving DecidableEq, Repr

def ConnectionFault.message : ConnectionFault → String
  | .service reason => "ServiceError: " ++ reason
  | .readEvents reason => "Error reading events stream: " ++ reason
  | .lines => "Error finding newline character"
  | .unnamed =>
    "Failed to build request: failed to validate request: A non-empty name is required"

/-- Why a request brings no object. -/
inductive ClientError where
  | refused (status : Status)
  /-- The answer is no object of the kind. -/
  | unreadable (reason : String)
  | connection (fault : ConnectionFault)
deriving DecidableEq, Repr

namespace ClientError

def toStoreError (object : ObjectRef) : ClientError → StoreError
  | .refused status => .ofRefusal object status.code status.reason status.message
  | .unreadable reason => .serialization reason
  | .connection fault => .transport fault.message

end ClientError

abbrev Exchange (σ : Type) := StoreCall → Request → σ → Except ClientError Resource × σ

namespace StoreCall

/-- What an answer means to a call: a read takes the reason `NotFound` for an answer. -/
def conclude (object : ObjectRef) :
    (call : StoreCall) → Except ClientError Resource → call.Reply
  | .get _, .ok found => .ok (some found)
  | .get _, .error (.refused status) =>
    if status.reason = "NotFound" then .ok none
    else .error ((ClientError.refused status).toStoreError object)
  | .get _, .error e => .error (e.toStoreError object)
  | .create _, answer => answer.mapError (·.toStoreError object)
  | .patch _ _, answer => answer.mapError (·.toStoreError object)
  | .update _, answer => answer.mapError (·.toStoreError object)

end StoreCall

namespace Client

variable {σ : Type}

/-- Performs a call over an exchange; a call without a key or a name sends nothing. -/
def perform (exchange : Exchange σ) (call : StoreCall) (s : σ) : call.Reply × σ :=
  match call.key with
  | .error e => (call.failed e, s)
  | .ok key =>
    if call.needsName && key.name = "" then
      (call.conclude key.ref (.error (.connection .unnamed)), s)
    else
      let (answer, s) := exchange call (call.request key) s
      (call.conclude key.ref answer, s)

end Client

/-! ### The server

Objects are sent as they are, and what the store refuses is sent as a status where there is a code for
it. -/

def ClientError.ofStoreError (e : StoreError) : ClientError :=
  match e with
  | .notFound _ => .refused ⟨404, "NotFound", e.message⟩
  | .alreadyExists _ => .refused ⟨409, "AlreadyExists", e.message⟩
  | .conflict _ _ => .refused ⟨409, "Conflict", e.message⟩
  | .api code reason _ => .refused ⟨code, reason, e.message⟩
  | .transport _ => .connection (.service e.message)
  | .serialization _ => .connection (.service e.message)
  | .missingMetadata _ => .connection (.service e.message)

namespace Memory

def serveGet (m : Memory) (key : ObjectKey) : Except ClientError Resource :=
  match m.get key with
  | .ok (some object) => .ok object
  | .ok none => .error (.ofStoreError (.notFound key.ref))
  | .error e => .error (.ofStoreError e)

def serve : StoreCall → Memory → Except ClientError Resource × Memory
  | .get key, m => (m.serveGet key, m)
  | .create object, m =>
    let (reply, m) := m.create object
    (reply.mapError .ofStoreError, m)
  | .patch key patch, m =>
    let (reply, m) := m.patch key patch
    (reply.mapError .ofStoreError, m)
  | .update object, m =>
    let (reply, m) := m.update object
    (reply.mapError .ofStoreError, m)

end Memory

end ClusterKeeper
