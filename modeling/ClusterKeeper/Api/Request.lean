import ClusterKeeper.Store.Call

/-!
The request that a store call is sent to an API server as: a method on the path of a collection or
of an object in it, and a body.
-/

namespace ClusterKeeper

namespace Kind

def apiRoot (kind : Kind) : String :=
  if kind.apiVersion.contains '/' then "/apis/" ++ kind.apiVersion else "/api/" ++ kind.apiVersion

/-- The path of the collection of a namespace, or of all of them. -/
def collectionPath (kind : Kind) (ns : Option String) : String :=
  match ns with
  | some ns => kind.apiRoot ++ "/namespaces/" ++ ns ++ "/" ++ kind.plural
  | none => kind.apiRoot ++ "/" ++ kind.plural

end Kind

namespace ObjectKey

def collectionPath (key : ObjectKey) : String := key.kind.collectionPath (some key.ns)

def path (key : ObjectKey) : String := key.collectionPath ++ "/" ++ key.name

end ObjectKey

inductive Method where
  | get
  | post
  | put
  | patch
deriving DecidableEq, Repr

def Method.name : Method → String
  | .get => "GET"
  | .post => "POST"
  | .put => "PUT"
  | .patch => "PATCH"

/-- Who a writing request says that it comes from. -/
def fieldManager : String := "ipfs-operator"

structure Request where
  method : Method
  path : String
  body : Option Json
deriving DecidableEq

namespace Request

/-- The path with the query, in which a request that writes names its manager. -/
def uri (request : Request) : String :=
  match request.method with
  | .get => request.path
  | _ => request.path ++ "?&fieldManager=" ++ fieldManager

def contentType? (request : Request) : Option String :=
  match request.method with
  | .get => none
  | .patch => some "application/merge-patch+json"
  | _ => some "application/json"

end Request

namespace StoreCall

def key : StoreCall → Except StoreError ObjectKey
  | .get key => .ok key
  | .create object => object.key
  | .patch key _ => .ok key
  | .update object => object.key

def request (key : ObjectKey) : StoreCall → Request
  | .get _ => ⟨.get, key.path, none⟩
  | .create object => ⟨.post, key.collectionPath, some object.body⟩
  | .patch _ change => ⟨.patch, key.path, some change⟩
  | .update object => ⟨.put, key.path, some object.body⟩

/-- Whether the path of the request ends in the object's name, which then has to be there. -/
def needsName : StoreCall → Bool
  | .create _ => false
  | _ => true

end StoreCall

end ClusterKeeper
