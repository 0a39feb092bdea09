import ClusterKeeper.Json.Pointer
import ClusterKeeper.Store.Call

/-!
A store in memory with the rules of an API server: creation is atomic, an update that carries a
version must carry the current one, deletion waits for finalizers, and what an object owns goes with
it. Objects are kept as they were written, and read by the schema of their kind.
-/

namespace ClusterKeeper

def ObjectKey.order (key : ObjectKey) : List String := [key.kind.name, key.ns, key.name]

instance : LT ObjectKey := ⟨fun a b => a.order < b.order⟩

instance : DecidableLT ObjectKey := fun a b => inferInstanceAs (Decidable (a.order < b.order))

/-- What a store can be asked to do to an object. -/
inductive Op where
  | get
  | create
  | patch
  | update
  | delete
deriving DecidableEq, Repr

def Op.name : Op → String
  | .get => "Get"
  | .create => "Create"
  | .patch => "Patch"
  | .update => "Update"
  | .delete => "Delete"

/-- Makes every such operation on objects of the kind fail. -/
structure Failure where
  op : Op
  kind : Kind
  error : StoreError
deriving DecidableEq, Repr

structure Memory where
  objects : List (ObjectKey × Json)
  /-- The number of versions given out. -/
  versions : Nat
  /-- The number of uids given out. -/
  uids : Nat
  failures : List Failure
  /-- The writes so far, the latest first. -/
  log : List (Op × ObjectKey)

namespace Json

/-- A metadata field of a stored document, null if it has none. -/
def metadataField (raw : Json) (field : String) : Json := (raw.get "metadata").get field

def setMetadataField (raw : Json) (field : String) (value : Json) : Json :=
  raw.set "metadata" ((raw.get "metadata").set field value)

def isOwnedBy (raw : Json) (uid : String) : Bool :=
  match (raw.metadataField "ownerReferences").items? with
  | some owners => owners.any fun owner => owner.get "uid" = .str uid
  | none => false

/-- Whether deletion was requested and no finalizer holds it up. -/
def isReleased (raw : Json) : Bool :=
  !(raw.metadataField "deletionTimestamp").isNull &&
    ((raw.metadataField "finalizers").items?.getD []).isEmpty

end Json

namespace Memory

def empty : Memory := ⟨[], 0, 0, [], []⟩

def get? (m : Memory) (key : ObjectKey) : Option Json := m.objects.lookup key

/-- The error of the first failure for the operation. -/
def failure? (m : Memory) (op : Op) (kind : Kind) : Option StoreError :=
  (m.failures.find? fun f => f.op = op && f.kind = kind).map (·.error)

def bump (m : Memory) (raw : Json) : Memory × Json :=
  ({ m with versions := m.versions + 1 },
   raw.setMetadataField "resourceVersion" (.str (toString (m.versions + 1))))

def put (m : Memory) (key : ObjectKey) (raw : Json) : Memory :=
  { m with objects := Keyed.insert key raw m.objects }

def logWrite (m : Memory) (op : Op) (key : ObjectKey) : Memory :=
  { m with log := (op, key) :: m.log }

/-- The keys of the objects that the removed one owned. -/
def dependents (objects : List (ObjectKey × Json)) (removed : Json) : List ObjectKey :=
  match (removed.metadataField "uid").text? with
  | some uid => (objects.filter fun entry => entry.2.isOwnedBy uid).map (·.1)
  | none => []

theorem length_erase_lt {objects : List (ObjectKey × Json)} {key : ObjectKey} {raw : Json}
    (h : objects.lookup key = some raw) : (Keyed.erase key objects).length < objects.length := by
  have le : ∀ l : List (ObjectKey × Json), (Keyed.erase key l).length ≤ l.length := by
    intro l
    induction l with
    | nil => simp [Keyed.erase]
    | cons entry rest ih =>
      simp only [Keyed.erase]
      split <;> simp only [List.length_cons] <;> omega
  induction objects with
  | nil => simp at h
  | cons entry rest ih =>
    obtain ⟨k, v⟩ := entry
    by_cases hk : k = key
    · simp only [Keyed.erase, hk, if_true, List.length_cons]
      have := le rest
      omega
    · have hbeq : (key == k) = false := by simpa using fun e => hk e.symm
      simp only [List.lookup_cons, hbeq] at h
      simp only [Keyed.erase, hk, if_false, List.length_cons]
      have := ih h
      omega

/-- Removes the objects of the keys, and with each of them what it owned. -/
def collect (objects : List (ObjectKey × Json)) : List ObjectKey → List (ObjectKey × Json)
  | [] => objects
  | key :: rest =>
    match _h : objects.lookup key with
    | none => collect objects rest
    | some removed =>
      let left := Keyed.erase key objects
      collect left (dependents left removed ++ rest)
termination_by keys => (objects.length, keys.length)
decreasing_by
  · simp_wf
    exact Prod.Lex.right _ (by simp)
  · simp_wf
    exact Prod.Lex.left _ _ (length_erase_lt _h)

/-- Removes the object of the key if its deletion is complete. -/
def settle (m : Memory) (key : ObjectKey) : Memory :=
  match m.get? key with
  | some raw => if raw.isReleased then { m with objects := collect m.objects [key] } else m
  | none => m

def readAs (kind : Kind) (raw : Json) : Except StoreError Resource :=
  (Resource.read kind raw).mapError StoreError.ofRead

/-- Stores a document that can be read, under the next version; one that cannot is refused, but has
used up its version. -/
def write (m : Memory) (op : Op) (key : ObjectKey) (raw : Json) :
    Except StoreError Resource × Memory :=
  let (m, raw) := m.bump raw
  match readAs key.kind raw with
  | .error e => (.error e, m)
  | .ok object => (.ok object, ((m.put key raw).logWrite op key).settle key)

def get (m : Memory) (key : ObjectKey) : Except StoreError (Option Resource) :=
  match m.failure? .get key.kind with
  | some e => .error e
  | none =>
    match m.get? key with
    | none => .ok none
    | some raw => (readAs key.kind raw).map some

/-- The document of a new object, with the next uid. -/
def newDocument (m : Memory) (object : Resource) : Memory × Json :=
  ({ m with uids := m.uids + 1 },
   object.body.setMetadataField "uid" (.str ("uid-" ++ toString (m.uids + 1))))

def create (m : Memory) (object : Resource) : Except StoreError Resource × Memory :=
  match object.key with
  | .error e => (.error e, m)
  | .ok key =>
    match m.failure? .create object.kind, m.get? key with
    | some e, _ => (.error e, m)
    | none, some _ => (.error (.alreadyExists key.ref), m)
    | none, none =>
      -- the uid and the version are used up even if the document is then refused
      let (m, raw) := m.newDocument object
      let (m, raw) := m.bump raw
      match readAs key.kind raw with
      | .error e => (.error e, m)
      | .ok created => (.ok created, (m.put key raw).logWrite .create key)

/-- Merges a patch into the document of the key, whose uid stays. -/
def patch (m : Memory) (key : ObjectKey) (patch : Json) : Except StoreError Resource × Memory :=
  match m.failure? .patch key.kind, m.get? key with
  | some e, _ => (.error e, m)
  | none, none => (.error (.notFound key.ref), m)
  | none, some raw =>
    m.write .patch key
      ((Json.merge raw patch).setMetadataField "uid" (raw.metadataField "uid"))

/-- The document of an update: the sent object, with the uid and the deletion mark of the stored
one. -/
def updatedDocument (live : Json) (object : Resource) : Json :=
  let raw := object.body.setMetadataField "uid" (live.metadataField "uid")
  let mark := live.metadataField "deletionTimestamp"
  if mark.isNull then raw.set "metadata" ((raw.get "metadata").drop "deletionTimestamp")
  else raw.setMetadataField "deletionTimestamp" mark

def isStale (live : Json) (object : Resource) : Bool :=
  object.resourceVersion?.isSome &&
    object.resourceVersion? ≠ (live.metadataField "resourceVersion").text?

def update (m : Memory) (object : Resource) : Except StoreError Resource × Memory :=
  match object.key with
  | .error e => (.error e, m)
  | .ok key =>
    match m.failure? .update object.kind, m.get? key with
    | some e, _ => (.error e, m)
    | none, none => (.error (.notFound key.ref), m)
    | none, some live =>
      if isStale live object then
        (.error (.conflict key.ref "the object has been modified"), m)
      else m.write .update key (updatedDocument live object)

/-- Requests deletion: an object with finalizers is only marked, any other goes at once. -/
def delete (m : Memory) (key : ObjectKey) : Memory :=
  match m.get? key with
  | none => m
  | some raw =>
    let m := m.logWrite .delete key
    let (m, raw) := m.bump (raw.setMetadataField "deletionTimestamp" (.str "2025-01-01T00:00:00Z"))
    (m.put key raw).settle key

/-- Takes an object away without a trace; what it owns stays. -/
def remove (m : Memory) (key : ObjectKey) : Memory :=
  { m with objects := Keyed.erase key m.objects }

/-- Merges a patch into a document unseen, under a new version; nothing if there is none. -/
def tamper (m : Memory) (key : ObjectKey) (patch : Json) : Option Memory :=
  (m.get? key).map fun raw =>
    let (m, raw) := m.bump (Json.merge raw patch)
    m.put key raw

/-- Makes an operation fail from now on, unless an earlier failure does. -/
def fail (m : Memory) (failure : Failure) : Memory :=
  { m with failures := m.failures ++ [failure] }

def clearFailures (m : Memory) : Memory := { m with failures := [] }

def perform : (call : StoreCall) → Memory → call.Reply × Memory
  | .get key, m => (m.get key, m)
  | .create object, m => m.create object
  | .patch key patch, m => m.patch key patch
  | .update object, m => m.update object

end Memory

end ClusterKeeper
