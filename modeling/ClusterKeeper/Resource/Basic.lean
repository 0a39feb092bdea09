import ClusterKeeper.Schema.Kinds

/-!
Typed objects: a kind and the written form of an object of that kind.
-/

namespace ClusterKeeper

structure Resource where
  kind : Kind
  body : Json
deriving DecidableEq

structure ObjectKey where
  kind : Kind
  ns : String
  name : String
deriving DecidableEq, Repr

/-- A metadata field without which an object has no key. -/
inductive KeyField where
  | name
  | ns
deriving DecidableEq, Repr

def KeyField.text : KeyField → String
  | .name => "name"
  | .ns => "namespace"

namespace Resource

def read (kind : Kind) (raw : Json) : Except ReadError Resource :=
  (kind.schema.read raw).map (⟨kind, ·⟩)

def metadata (r : Resource) : Json := r.body.get "metadata"

def name? (r : Resource) : Option String := (r.metadata.get "name").text?

def namespace? (r : Resource) : Option String := (r.metadata.get "namespace").text?

def generateName? (r : Resource) : Option String := (r.metadata.get "generateName").text?

def uid? (r : Resource) : Option String := (r.metadata.get "uid").text?

def resourceVersion? (r : Resource) : Option String := (r.metadata.get "resourceVersion").text?

/-- The finalizer tokens, if the object has a list of them. -/
def finalizers? (r : Resource) : Option (List String) :=
  (r.metadata.get "finalizers").items?.map fun items => items.filterMap Json.text?

def isTerminating (r : Resource) : Bool := (r.metadata.get? "deletionTimestamp").isSome

/-- The name, else the stem that a name is to be generated from. -/
def displayName (r : Resource) : String := (r.name? <|> r.generateName?).getD ""

def setMetadata (r : Resource) (field : String) (value : Json) : Resource :=
  { r with body := r.body.set "metadata" (r.metadata.set field value) }

/-- The key of an object; without a name the namespace is not looked at. -/
def key? (r : Resource) : Except KeyField ObjectKey :=
  match r.name?, r.namespace? with
  | none, _ => .error .name
  | some _, none => .error .ns
  | some name, some ns => .ok ⟨r.kind, ns, name⟩

end Resource

end ClusterKeeper
