import ClusterKeeper.Keyed
import ClusterKeeper.Decimal.Binary64

/-!
JSON values. An object is a list of members sorted by name; numbers keep apart integers and doubles,
and `same` is equality of values, under which the two zeros of a double are one.
-/

namespace ClusterKeeper

/-- A JSON number: an integer without point and exponent, or the bits of a finite double. -/
inductive Number where
  | int (value : Int)
  | float (bits : UInt64)
deriving DecidableEq, Repr

namespace Number

/-- Whether the numbers are of one sort and of one value. -/
def same : Number → Number → Bool
  | .int a, .int b => a = b
  | .float a, .float b =>
    a = b || (Decimal.Binary64.ofBits a).isZero && (Decimal.Binary64.ofBits b).isZero
  | _, _ => false

@[simp] theorem same_refl (n : Number) : n.same n = true := by
  cases n <;> simp [same]

end Number

inductive Json where
  | null
  | bool (value : Bool)
  | num (value : Number)
  | str (value : String)
  | arr (items : List Json)
  | obj (members : List (String × Json))
deriving Repr, Inhabited

namespace Json

abbrev Members := List (String × Json)

def int (value : Int) : Json := .num (.int value)

/-- An object of the given members, in any order. -/
def mk (members : List (String × Json)) : Json := .obj (Keyed.ofEntries members)

def texts (values : List String) : Json := .arr (values.map .str)

def textMap (entries : List (String × String)) : Json :=
  .obj (entries.map fun entry => (entry.1, .str entry.2))

def members : Json → Members
  | .obj members => members
  | _ => []

def get? (json : Json) (name : String) : Option Json := json.members.lookup name

def get (json : Json) (name : String) : Json := (json.get? name).getD .null

def text? : Json → Option String
  | .str value => some value
  | _ => none

def items? : Json → Option (List Json)
  | .arr items => some items
  | _ => none

def members? : Json → Option Members
  | .obj members => some members
  | _ => none

def isNull : Json → Bool
  | .null => true
  | _ => false

/-- Gives a member a value; a value that is no object becomes one with that member alone. -/
def set (json : Json) (name : String) (value : Json) : Json :=
  .obj (Keyed.insert name value json.members)

def drop (json : Json) (name : String) : Json :=
  match json with
  | .obj members => .obj (Keyed.erase name members)
  | other => other

@[simp] theorem get?_set_self (json : Json) (name : String) (value : Json) :
    (json.set name value).get? name = some value := by
  simp [get?, set, members]

theorem get?_set_of_ne {name other : String} (h : other ≠ name) (json value : Json) :
    (json.set name value).get? other = json.get? other := by
  simp [get?, set, members, Keyed.lookup_insert_of_ne h]

mutual

def beq : Json → Json → Bool
  | .null, .null => true
  | .bool a, .bool b => a == b
  | .num a, .num b => a == b
  | .str a, .str b => a == b
  | .arr a, .arr b => beqItems a b
  | .obj a, .obj b => beqMembers a b
  | _, _ => false

def beqItems : List Json → List Json → Bool
  | [], [] => true
  | a :: as, b :: bs => beq a b && beqItems as bs
  | _, _ => false

def beqMembers : List (String × Json) → List (String × Json) → Bool
  | [], [] => true
  | (k, a) :: as, (l, b) :: bs => k == l && beq a b && beqMembers as bs
  | _, _ => false

end

mutual

theorem eq_of_beq : ∀ {a b : Json}, beq a b = true → a = b
  | .null, b, h => by cases b <;> simp_all [beq]
  | .bool _, b, h => by cases b <;> simp_all [beq]
  | .num _, b, h => by cases b <;> simp_all [beq]
  | .str _, b, h => by cases b <;> simp_all [beq]
  | .arr as, b, h => by
    cases b <;> simp only [beq, Bool.false_eq_true] at h
    rw [eq_of_beqItems h]
  | .obj as, b, h => by
    cases b <;> simp only [beq, Bool.false_eq_true] at h
    rw [eq_of_beqMembers h]

theorem eq_of_beqItems : ∀ {as bs : List Json}, beqItems as bs = true → as = bs
  | [], bs, h => by cases bs <;> simp_all [beqItems]
  | a :: as, bs, h => by
    cases bs with
    | nil => simp [beqItems] at h
    | cons b bs =>
      simp only [beqItems, Bool.and_eq_true] at h
      rw [eq_of_beq h.1, eq_of_beqItems h.2]

theorem eq_of_beqMembers : ∀ {as bs : List (String × Json)}, beqMembers as bs = true → as = bs
  | [], bs, h => by cases bs <;> simp_all [beqMembers]
  | (k, a) :: as, bs, h => by
    cases bs with
    | nil => simp [beqMembers] at h
    | cons b bs =>
      obtain ⟨l, b⟩ := b
      simp only [beqMembers, Bool.and_eq_true, beq_iff_eq] at h
      rw [h.1.1, eq_of_beq h.1.2, eq_of_beqMembers h.2]

end

mutual

theorem beq_refl : ∀ a : Json, beq a a = true
  | .null => rfl
  | .bool _ | .num _ | .str _ => by simp [beq]
  | .arr as => by rw [beq]; exact beqItems_refl as
  | .obj as => by rw [beq]; exact beqMembers_refl as

theorem beqItems_refl : ∀ as : List Json, beqItems as as = true
  | [] => rfl
  | a :: as => by rw [beqItems, beq_refl a, beqItems_refl as]; rfl

theorem beqMembers_refl : ∀ as : List (String × Json), beqMembers as as = true
  | [] => rfl
  | (k, a) :: as => by simp [beqMembers, beq_refl a, beqMembers_refl as]

end

instance : DecidableEq Json := fun a b =>
  if h : beq a b = true then isTrue (eq_of_beq h)
  else isFalse fun e => h (e ▸ beq_refl a)

mutual

/-- Equality of values: member by member and item by item, numbers by value. -/
def same : Json → Json → Bool
  | .null, .null => true
  | .bool a, .bool b => a == b
  | .num a, .num b => a.same b
  | .str a, .str b => a == b
  | .arr a, .arr b => sameItems a b
  | .obj a, .obj b => sameMembers a b
  | _, _ => false

def sameItems : List Json → List Json → Bool
  | [], [] => true
  | a :: as, b :: bs => same a b && sameItems as bs
  | _, _ => false

def sameMembers : List (String × Json) → List (String × Json) → Bool
  | [], [] => true
  | (k, a) :: as, (l, b) :: bs => k == l && same a b && sameMembers as bs
  | _, _ => false

end

mutual

@[simp] theorem same_refl : ∀ a : Json, same a a = true
  | .null => rfl
  | .bool _ | .num _ | .str _ => by simp [same]
  | .arr as => by rw [same]; exact sameItems_refl as
  | .obj as => by rw [same]; exact sameMembers_refl as

theorem sameItems_refl : ∀ as : List Json, sameItems as as = true
  | [] => rfl
  | a :: as => by rw [sameItems, same_refl a, sameItems_refl as]; rfl

theorem sameMembers_refl : ∀ as : List (String × Json), sameMembers as as = true
  | [] => rfl
  | (k, a) :: as => by simp [sameMembers, same_refl a, sameMembers_refl as]

end

end Json

end ClusterKeeper
