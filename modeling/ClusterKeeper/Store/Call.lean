import ClusterKeeper.Resource.Basic

/-!
The four calls that a store answers, and how it refuses one.
-/

namespace ClusterKeeper

/-! ### Errors -/

/-- The object that an error is about, as the message names it. -/
structure ObjectRef where
  kind : String
  ns : String
  name : String
deriving DecidableEq, Repr

def ObjectRef.text (ref : ObjectRef) : String :=
  ref.kind ++ " " ++ ref.ns ++ "/" ++ ref.name

def ObjectKey.ref (key : ObjectKey) : ObjectRef := ⟨key.kind.name, key.ns, key.name⟩

inductive StoreError where
  | notFound (object : ObjectRef)
  | alreadyExists (object : ObjectRef)
  | conflict (object : ObjectRef) (reason : String)
  /-- Any other refusal, by its code. -/
  | api (code : Nat) (reason detail : String)
  /-- No answer came. -/
  | transport (reason : String)
  /-- What came is no object of the kind. -/
  | serialization (reason : String)
  | missingMetadata (field : KeyField)
deriving DecidableEq, Repr

namespace StoreError

def message : StoreError → String
  | .notFound object => object.text ++ " not found"
  | .alreadyExists object => object.text ++ " already exists"
  | .conflict object reason => "conflict writing " ++ object.text ++ ": " ++ reason
  | .api code reason detail =>
    "API error " ++ toString code ++ " (" ++ reason ++ "): " ++ detail
  | .transport reason => "store unavailable: " ++ reason
  | .serialization reason => "serialization failed: " ++ reason
  | .missingMetadata field => "object is missing metadata." ++ field.text

def label : StoreError → String
  | .notFound _ => "not_found"
  | .alreadyExists _ => "already_exists"
  | .conflict _ _ => "conflict"
  | .api _ _ _ => "api"
  | .transport _ => "transport"
  | .serialization _ => "serialization"
  | .missingMetadata _ => "missing_metadata"

def isAlreadyExists : StoreError → Bool
  | .alreadyExists _ => true
  | _ => false

def isNotFound : StoreError → Bool
  | .notFound _ => true
  | _ => false

def ofRead (e : ReadError) : StoreError := .serialization e.message

/-- A refusal by its code and reason: 404 means absent, 409 a conflict unless its reason is that
the object exists. -/
def ofRefusal (object : ObjectRef) (code : Nat) (reason detail : String) : StoreError :=
  if code = 404 then .notFound object
  else if code = 409 then
    if reason = "AlreadyExists" then .alreadyExists object else .conflict object detail
  else .api code reason detail

end StoreError

/-- The key of an object, or the store's error for what it lacks. -/
def Resource.key (r : Resource) : Except StoreError ObjectKey :=
  r.key?.mapError .missingMetadata

/-! ### Calls -/

inductive StoreCall where
  | get (key : ObjectKey)
  | create (object : Resource)
  /-- Merges the patch into the object of the key. -/
  | patch (key : ObjectKey) (patch : Json)
  /-- Puts the object in the place of the one of its key. -/
  | update (object : Resource)

namespace StoreCall

/-- What a call is answered with: the object that is there, or as it is after the write. -/
def Reply : StoreCall → Type
  | .get _ => Except StoreError (Option Resource)
  | .create _ => Except StoreError Resource
  | .patch _ _ => Except StoreError Resource
  | .update _ => Except StoreError Resource

def failed (e : StoreError) : (call : StoreCall) → call.Reply
  | .get _ => .error e
  | .create _ => .error e
  | .patch _ _ => .error e
  | .update _ => .error e

def kind : StoreCall → Kind
  | .get key => key.kind
  | .create object => object.kind
  | .patch key _ => key.kind
  | .update object => object.kind

end StoreCall

end ClusterKeeper
