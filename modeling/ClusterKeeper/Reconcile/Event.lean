import ClusterKeeper.Identity.Basic
import ClusterKeeper.Metrics.Record
import ClusterKeeper.Store.Call

/-!
How a pass fails as a whole, and what it reports on the way.
-/

namespace ClusterKeeper

/-- Why a pass has no outcome, or no identity to go on with. -/
inductive ReconcileError where
  /-- The declaration could not be read. -/
  | fetch (ns name : String) (source : StoreError)
  /-- The Secret that keeps the identity could not be read. -/
  | identityLookup (ns name : String) (source : StoreError)
  | identity (source : IdentityError)
deriving DecidableEq, Repr

namespace ReconcileError

def sourceMessage : ReconcileError → String
  | .fetch _ _ source => source.message
  | .identityLookup _ _ source => source.message
  | .identity source => source.message

def message : ReconcileError → String
  | .fetch ns name source => "failed to get Ipfs " ++ ns ++ "/" ++ name ++ ": " ++ source.message
  | .identityLookup ns name source =>
    "failed to read identity Secret " ++ ns ++ "/" ++ name ++ ": " ++ source.message
  | .identity source => "failed to generate cluster identity: " ++ source.message

end ReconcileError

inductive Warning where
  | finalizerNotAdded (ns name : String) (e : StoreError)
  | finalizerNotRemoved (ns name : String) (e : StoreError)
  | identityNotResolved (ns name : String) (e : ReconcileError)
  | unusableIdentity (ns secret : String) (e : IdentityError)
  | noIdentity (ns secret : String)
  | childNotApplied (what : String) (e : StoreError)
deriving DecidableEq, Repr

def Warning.text : Warning → String
  | .finalizerNotAdded ns name e =>
    "Failed to add finalizer to Ipfs " ++ ns ++ "/" ++ name ++ ": " ++ e.message
  | .finalizerNotRemoved ns name e =>
    "Failed to remove finalizer from Ipfs " ++ ns ++ "/" ++ name ++ ": " ++ e.message
  | .identityNotResolved ns name e =>
    "Failed to resolve identity for Ipfs " ++ ns ++ "/" ++ name ++ ": " ++ e.message
  | .unusableIdentity ns secret e =>
    "Secret " ++ ns ++ "/" ++ secret ++
      " holds unusable identity material, generating a new one: " ++ e.message
  | .noIdentity ns secret =>
    "Secret " ++ ns ++ "/" ++ secret ++ " holds no identity material, generating a new one"
  | .childNotApplied what e => "Failed to reconcile " ++ what ++ ": " ++ e.message

inductive Event where
  | warned (warning : Warning)
  | recorded (record : Record)
deriving DecidableEq, Repr

end ClusterKeeper
