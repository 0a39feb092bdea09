import ClusterKeeper.Api.Exchange
import ClusterKeeper.Identity.Source
import ClusterKeeper.Json.Parser
import ClusterKeeper.Reconcile.Pass

/-!
Answers as they come over the wire, and a client that is given its answers in advance.
-/

namespace ClusterKeeper

inductive WireAnswer where
  /-- An HTTP status and a body. -/
  | response (status : Nat) (body : String)
  /-- The connection failed. -/
  | failure (reason : String)
deriving DecidableEq, Repr

namespace Status

def textMember? (json : Json) (name : String) : Option String :=
  match json.get? name with
  | none => some ""
  | some value => value.text?

/-- The code, which may be absent and fits in 16 bits. -/
def code? (json : Json) : Option Nat :=
  match json.get? "code" with
  | none => some 0
  | some (.num (.int code)) => if 0 ≤ code ∧ code < 65536 then some code.toNat else none
  | some _ => none

/-- Whether the summary says what a status can say. -/
def hasSummary (json : Json) : Bool :=
  [.null, .str "Success", .str "Failure"].contains (json.get "status")

def ofJson? (json : Json) : Option Status :=
  match json.members?, code? json, textMember? json "reason", textMember? json "message" with
  | some _, some code, some reason, some message =>
    if hasSummary json then some ⟨code, reason, message⟩ else none
  | _, _, _, _ => none

/-- The status that the body of a refusal is, else one that says so. -/
def ofBody (code : Nat) (body : String) : Status :=
  ((Json.parse body).toOption.bind ofJson?).getD ⟨code, "Failed to parse error data", body⟩

end Status

namespace WireAnswer

def readBody (kind : Kind) (body : String) : Except ClientError Resource :=
  match Json.parse body with
  | .error e => .error (.unreadable e.message)
  | .ok json => (Resource.read kind json).mapError fun e => .unreadable e.message

def decode (kind : Kind) : WireAnswer → Except ClientError Resource
  | .failure reason => .error (.connection (.service reason))
  | .response status body =>
    if 400 ≤ status ∧ status < 600 then .error (.refused (.ofBody status body))
    else readBody kind body

end WireAnswer

/-- A client whose answers are given, and what it did. -/
structure Playback where
  answers : List WireAnswer
  source : IdentitySource
  /-- The requests so far, the latest first. -/
  requests : List Request
  /-- The warnings so far, the latest first. -/
  warnings : List Warning

namespace Playback

def start (answers : List WireAnswer) (source : IdentitySource) : Playback :=
  ⟨answers, source, [], []⟩

/-- Answers a request with the next answer; after the last one the connection fails. -/
def exchange : Exchange Playback := fun call request p =>
  let p := { p with requests := request :: p.requests }
  match p.answers with
  | [] => (WireAnswer.decode call.kind (.failure "no more responses"), p)
  | answer :: rest => (answer.decode call.kind, { p with answers := rest })

def generate (p : Playback) : Except IdentityError Identity × Playback :=
  let (identity, source) := p.source.next
  (identity, { p with source })

def emit (event : Event) (p : Playback) : Playback :=
  match event with
  | .warned warning => { p with warnings := warning :: p.warnings }
  | .recorded _ => p

def handler : Handler Playback := ⟨Client.perform exchange, generate, emit⟩

end Playback

end ClusterKeeper
