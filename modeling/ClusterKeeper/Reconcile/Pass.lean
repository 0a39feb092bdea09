import ClusterKeeper.Manifest.Children
import ClusterKeeper.Reconcile.Object

/-!
One pass over a declared cluster. It sees to the finalizer, finds or generates the identity, and
applies the six children. The identity that the Secret keeps is never overwritten: a fresh one is only
written by creating the Secret, and one that replaces unusable data only over the very version read.
-/

namespace ClusterKeeper

inductive Outcome where
  | done
  | requeue
deriving DecidableEq, Repr

namespace Reconcile

inductive RequeueReason where
  | finalizer
  | identity
  | child
deriving DecidableEq, Repr

def RequeueReason.text : RequeueReason → String
  | .finalizer => "finalizer"
  | .identity => "identity"
  | .child => "child"

inductive Ending where
  | done
  | requeue (reason : RequeueReason)
deriving DecidableEq, Repr

/-- The identity that a pass goes on with, and how the Secret relates to it. -/
inductive ResolvedIdentity where
  /-- The Secret holds it. -/
  | persisted (identity : Identity)
  /-- It is new and there was no Secret. -/
  | fresh (identity : Identity)
  /-- It is new and takes the place of what the Secret, as read, holds. -/
  | replacing (identity : Identity) (live : Resource)

def ResolvedIdentity.identity : ResolvedIdentity → Identity
  | .persisted identity => identity
  | .fresh identity => identity
  | .replacing identity _ => identity

def textOfBytes? (bytes : List UInt8) : Option String := String.fromUTF8? ⟨bytes.toArray⟩

def secretData? (secret : Resource) (key : String) : Option (List UInt8) :=
  (((secret.body.get? "data").bind (·.get? key)).bind Json.text?).map fun text =>
    (Base64.decode text).toOption.getD []

/-- The identity that a Secret keeps, if it has both of its keys. -/
def persistedIdentity (secret : Resource) : Option (Except IdentityError Identity) :=
  match secretData? secret DataKey.bootstrapPeerPrivateKey,
    secretData? secret DataKey.clusterSecret with
  | some privateKey, some clusterSecret =>
    match textOfBytes? privateKey, textOfBytes? clusterSecret with
    | some privateKey, some clusterSecret => some (Identity.ofEncoded privateKey clusterSecret)
    | _, _ => some (.error (.invalidKey "Secret values are not UTF-8"))
  | _, _ => none

def generateIdentity : Program (Except ReconcileError Identity) := do
  match ← Program.newIdentity with
  | .error e => pure (.error (.identity e))
  | .ok identity => do
    Program.record (.identity "generated")
    pure (.ok identity)

def freshIdentity : Program (Except ReconcileError ResolvedIdentity) := do
  let generated ← generateIdentity
  pure (generated.map .fresh)

/-- Says why what the Secret keeps is no identity. -/
def warnUnusable (ns secretName : String) : Option (Except IdentityError Identity) → Program Unit
  | some (.error e) => Program.warn (.unusableIdentity ns secretName e)
  | _ => Program.warn (.noIdentity ns secretName)

def replacingIdentity (secret : Resource) : Program (Except ReconcileError ResolvedIdentity) := do
  let generated ← generateIdentity
  pure (generated.map (.replacing · secret))

/-- Reuses the identity of the Secret, or generates one if there is none that can be used. -/
def resolveIdentity (ns secretName : String) :
    Program (Except ReconcileError ResolvedIdentity) := do
  match ← Program.get ⟨.secret, ns, secretName⟩ with
  | .error e => pure (.error (.identityLookup ns secretName e))
  | .ok none => freshIdentity
  | .ok (some secret) =>
    match persistedIdentity secret with
    | some (.ok identity) => do
      Program.record (.identity "persisted")
      pure (.ok (.persisted identity))
    | found => do
      warnUnusable ns secretName found
      replacingIdentity secret

/-- Reports what applying a child came to, and tells whether it worked. -/
def recordApply (kind : Kind) (what : String) (result : Except StoreError ApplyOutcome) :
    Program Bool :=
  match result with
  | .ok outcome => do
    Program.record (.childApply kind.name outcome.text)
    pure true
  | .error e => do
    Program.warn (.childNotApplied what e)
    Program.record (.childApply kind.name "failed")
    Program.record (.failure "apply" e.label)
    pure false

def applyChild (desired : Resource) (what : String) : Program Bool := do
  let result ← createOrPatch desired
  recordApply desired.kind what result

/-- The Secret as read, with the data, type, labels and owners of the desired one. -/
def replacementSecret (live desired : Resource) : Resource :=
  let body := (live.body.set "data" (desired.body.get "data")).drop "stringData"
  let body := body.set "type" (desired.body.get "type")
  let replaced : Resource := ⟨live.kind, body⟩
  (replaced.setMetadata "labels" (desired.metadata.get "labels")).setMetadata "ownerReferences"
    (desired.metadata.get "ownerReferences")

/-- A Secret whose identity is reused is patched. A new identity is only stored where there is no
Secret, or in the very one that was read. -/
def storeSecret (desired : Resource) :
    ResolvedIdentity → Program (Except StoreError ApplyOutcome)
  | .persisted _ => createOrPatch desired
  | .fresh _ => do
    let created ← Program.create desired
    pure (created.map fun _ => .created)
  | .replacing _ live => do
    let updated ← Program.update (replacementSecret live desired)
    pure (updated.map fun _ => .patched)

def applySecret (identity : ResolvedIdentity) (desired : Resource) : Program Bool := do
  let result ← storeSecret desired identity
  recordApply .secret "config secret" result

def applyConfig (secretStored : Bool) (desired : Resource) : Program Bool :=
  if secretStored then applyChild desired "config configmap" else pure true

/-- Applies all children, whichever of them fail; the config map waits for the Secret whose key it
publishes. -/
def applyChildren (identity : ResolvedIdentity) (children : Children) : Program Ending := do
  -- the config map publishes the peer id of the key in the Secret, so the Secret goes first
  let secret ← applySecret identity children.secret.resource
  let config ← applyConfig secret children.configConfigMap.resource
  let serviceAccount ← applyChild children.serviceAccount.resource "service account"
  let service ← applyChild children.service.resource "service"
  let scripts ← applyChild children.scriptsConfigMap.resource "scripts configmap"
  let statefulSet ← applyChild children.statefulSet.resource "statefulset"
  if secret && config && serviceAccount && service && scripts && statefulSet then pure .done
  else pure (.requeue .child)

/-- Puts the finalizer on the declaration; the next pass goes on from there. -/
def adopt (ns name : String) (ipfs : Resource) : Program Ending := do
  match ← Finalizer.add ipfs finalizerToken with
  | .ok _ => pure (.requeue .finalizer)
  | .error e => do
    Program.warn (.finalizerNotAdded ns name e)
    Program.record (.failure "finalizer" e.label)
    pure (.requeue .finalizer)

/-- Takes the finalizer off the declaration, which lets it go with all that it owns. -/
def release (ns name : String) (ipfs : Resource) : Program Ending := do
  match ← Finalizer.remove ipfs finalizerToken with
  | .ok _ => pure .done
  | .error e => do
    Program.warn (.finalizerNotRemoved ns name e)
    Program.record (.failure "finalizer" e.label)
    pure (.requeue .finalizer)

/-- The category that a failure to find an identity is counted under. -/
def identityFailureLabel : ReconcileError → String
  | .identityLookup _ _ source => source.label
  | _ => "identity"

def converge (defaults : WorkloadDefaults) (ns name : String) (ipfs : Resource) :
    Program Ending := do
  match ← resolveIdentity ns (ChildNames.ofCluster name).secret with
  | .error e => do
    Program.warn (.identityNotResolved ns name e)
    Program.record (.failure "identity" (identityFailureLabel e))
    pure (.requeue .identity)
  | .ok identity =>
    applyChildren identity ((Cluster.ofResource ipfs).children identity.identity defaults)

def pass (defaults : WorkloadDefaults) (ns name : String) :
    Program (Except ReconcileError Ending) := do
  match ← Program.get ⟨.ipfs, ns, name⟩ with
  | .error e => do
    Program.record (.failure "get" e.label)
    pure (.error (.fetch ns name e))
  | .ok none => pure (.ok .done)
  | .ok (some ipfs) =>
    match FinalizerState.observe ipfs finalizerToken with
    | .unmanaged => do return .ok (← adopt ns name ipfs)
    | .terminating => do return .ok (← release ns name ipfs)
    | .released => pure (.ok .done)
    | .managed => do return .ok (← converge defaults ns name ipfs)

end Reconcile

open Reconcile in
def reconcile (defaults : WorkloadDefaults) (ns name : String) :
    Program (Except ReconcileError Outcome) := do
  match ← pass defaults ns name with
  | .ok .done => do
    Program.record (.pass .success .zero)
    pure (.ok .done)
  | .ok (.requeue reason) => do
    Program.record (.pass (.requeue reason.text) .zero)
    pure (.ok .requeue)
  | .error e => do
    Program.record (.pass .error .zero)
    pure (.error e)

end ClusterKeeper
