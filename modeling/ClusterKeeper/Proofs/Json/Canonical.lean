import ClusterKeeper.Json.Basic
import ClusterKeeper.Proofs.Keyed

/-!
Canonical values, all of whose objects list their members by increasing name, and plain
values, which have neither nulls nor doubles, so that equality of values is equality.
-/

namespace ClusterKeeper

theorem Number.same_trans {a b c : Number} (hab : a.same b = true) (hbc : b.same c = true) :
    a.same c = true := by
  cases a <;> cases b <;> cases c <;>
    simp only [Number.same, Bool.or_eq_true, Bool.and_eq_true, decide_eq_true_eq,
      Bool.false_eq_true] at hab hbc ⊢
  · exact hab.trans hbc
  -- the two zeros of a double are the same, so each may stand for the other on the way
  · rcases hab with rfl | ⟨ha, hb⟩
    · exact hbc
    · rcases hbc with rfl | ⟨-, hc⟩
      · exact .inr ⟨ha, hb⟩
      · exact .inr ⟨ha, hc⟩

namespace Json

/-- Induction over a value with the hypothesis for all items and all members at once. -/
theorem induction {motive : Json → Prop} (null : motive .null) (bool : ∀ b, motive (.bool b))
    (num : ∀ n, motive (.num n)) (str : ∀ s, motive (.str s))
    (arr : ∀ items, (∀ item ∈ items, motive item) → motive (.arr items))
    (obj : ∀ members, (∀ member ∈ members, motive member.2) → motive (.obj members))
    (json : Json) : motive json := by
  refine Json.rec (motive_1 := motive) (motive_2 := fun items => ∀ item ∈ items, motive item)
    (motive_3 := fun members => ∀ member ∈ members, motive member.2)
    (motive_4 := fun member => motive member.2)
    null bool num str arr obj ?_ ?_ ?_ ?_ ?_ json
  · simp
  · intro item items hitem hitems
    exact List.forall_mem_cons.mpr ⟨hitem, hitems⟩
  · simp
  · intro member members hmember hmembers
    exact List.forall_mem_cons.mpr ⟨hmember, hmembers⟩
  · intro name value hvalue
    exact hvalue

instance (members : Members) : Decidable (Keyed.Sorted members) :=
  inferInstanceAs (Decidable (members.Pairwise fun a b => a.1 < b.1))

mutual

/-- Whether each object in the value lists its members by increasing name. -/
def isCanonical : Json → Bool
  | .arr items => areCanonical items
  | .obj members => decide (Keyed.Sorted members) && membersCanonical members
  | _ => true

def areCanonical : List Json → Bool
  | [] => true
  | item :: rest => item.isCanonical && areCanonical rest

def membersCanonical : List (String × Json) → Bool
  | [] => true
  | (_, value) :: rest => value.isCanonical && membersCanonical rest

end

@[simp] theorem isCanonical_null : isCanonical .null = true := rfl

@[simp] theorem isCanonical_bool (b : Bool) : isCanonical (.bool b) = true := rfl

@[simp] theorem isCanonical_num (n : Number) : isCanonical (.num n) = true := rfl

@[simp] theorem isCanonical_str (s : String) : isCanonical (.str s) = true := rfl

theorem areCanonical_iff (items : List Json) :
    areCanonical items = true ↔ ∀ item ∈ items, item.isCanonical = true := by
  induction items with
  | nil => simp [areCanonical]
  | cons item rest ih => simp [areCanonical, ih]

theorem membersCanonical_iff (members : Members) :
    membersCanonical members = true ↔ ∀ member ∈ members, member.2.isCanonical = true := by
  induction members with
  | nil => simp [membersCanonical]
  | cons member rest ih => simp [membersCanonical, ih]

@[simp] theorem isCanonical_arr (items : List Json) :
    isCanonical (.arr items) = true ↔ ∀ item ∈ items, item.isCanonical = true := by
  rw [isCanonical, areCanonical_iff]

@[simp] theorem isCanonical_obj (members : Members) :
    isCanonical (.obj members) = true ↔
      Keyed.Sorted members ∧ ∀ member ∈ members, member.2.isCanonical = true := by
  rw [isCanonical, Bool.and_eq_true, membersCanonical_iff, decide_eq_true_eq]

theorem sorted_members {json : Json} (h : json.isCanonical = true) :
    Keyed.Sorted json.members := by
  cases json with
  | obj members => exact ((isCanonical_obj members).mp h).1
  | _ => exact Keyed.sorted_nil

theorem isCanonical_of_mem_members {json : Json} (h : json.isCanonical = true) :
    ∀ member ∈ json.members, member.2.isCanonical = true := by
  cases json with
  | obj members => exact ((isCanonical_obj members).mp h).2
  | _ => exact nofun

theorem isCanonical_of_lookup {json value : Json} {name : String} (h : json.isCanonical = true)
    (hfound : json.get? name = some value) : value.isCanonical = true := by
  cases json with
  | obj members =>
      exact ((isCanonical_obj members).mp h).2 _ (Keyed.mem_of_lookup hfound)
  | _ => simp [get?, members] at hfound

theorem isCanonical_get {json : Json} (name : String) (h : json.isCanonical = true) :
    (json.get name).isCanonical = true := by
  rw [get]
  cases hfound : json.get? name with
  | none => rfl
  | some value => exact isCanonical_of_lookup h hfound

theorem isCanonical_set {json value : Json} (name : String) (h : json.isCanonical = true)
    (hvalue : value.isCanonical = true) : (json.set name value).isCanonical = true := by
  rw [set, isCanonical_obj]
  refine ⟨Keyed.sorted_insert _ _ (sorted_members h), ?_⟩
  intro member hmember
  rcases Keyed.mem_insert hmember with rfl | hmember
  · exact hvalue
  · exact isCanonical_of_mem_members h member hmember

theorem isCanonical_drop {json : Json} (name : String) (h : json.isCanonical = true) :
    (json.drop name).isCanonical = true := by
  cases json with
  | obj members =>
      rw [isCanonical_obj] at h
      rw [drop, isCanonical_obj]
      exact ⟨Keyed.sorted_erase _ h.1, fun member hmember => h.2 _ (Keyed.mem_erase hmember).1⟩
  | _ => exact h

theorem get?_drop_of_ne {name other : String} (h : other ≠ name) (json : Json) :
    (json.drop name).get? other = json.get? other := by
  cases json with
  | obj members => exact Keyed.lookup_erase_of_ne h members
  | _ => rfl

theorem set_set (json : Json) (name : String) (value later : Json) :
    (json.set name value).set name later = json.set name later :=
  congrArg obj (Keyed.insert_insert name value later json.members)

theorem get_of_get? {json value : Json} {name : String} (h : json.get? name = some value) :
    json.get name = value := by
  rw [get, h]
  rfl

theorem get_eq_str_iff {json : Json} {name text : String} :
    json.get name = .str text ↔ json.get? name = some (.str text) := by
  rw [get]
  cases json.get? name <;> simp

theorem obj_ext {left right : Members} (hleft : Keyed.Sorted left) (hright : Keyed.Sorted right)
    (h : ∀ name, left.lookup name = right.lookup name) : obj left = obj right :=
  congrArg obj (Keyed.ext_of_sorted hleft hright h)

theorem set_of_get?_eq_some {json value : Json} {name : String} (hcanonical : json.isCanonical = true)
    (h : json.get? name = some value) : json.set name value = json := by
  cases json with
  | obj members =>
      have hsorted := ((isCanonical_obj members).mp hcanonical).1
      refine obj_ext (Keyed.sorted_insert _ _ hsorted) hsorted fun other => ?_
      by_cases heq : other = name
      · rw [heq, Keyed.lookup_insert_self]
        exact h.symm
      · exact Keyed.lookup_insert_of_ne heq _ _
  | _ => cases h

theorem drop_of_get?_eq_none {json : Json} {name : String} (hcanonical : json.isCanonical = true)
    (h : json.get? name = none) : json.drop name = json := by
  cases json with
  | obj members =>
      have hsorted := ((isCanonical_obj members).mp hcanonical).1
      refine obj_ext (Keyed.sorted_erase _ hsorted) hsorted fun other => ?_
      by_cases heq : other = name
      · rw [heq, Keyed.lookup_erase_self]
        exact h.symm
      · exact Keyed.lookup_erase_of_ne heq _
  | _ => rfl

mutual

/-- Whether the value has neither nulls nor doubles. -/
def isPlain : Json → Bool
  | .null => false
  | .num (.float _) => false
  | .arr items => arePlain items
  | .obj members => membersPlain members
  | _ => true

def arePlain : List Json → Bool
  | [] => true
  | item :: rest => item.isPlain && arePlain rest

def membersPlain : List (String × Json) → Bool
  | [] => true
  | (_, value) :: rest => value.isPlain && membersPlain rest

end

@[simp] theorem isPlain_arr (items : List Json) :
    isPlain (.arr items) = true ↔ ∀ item ∈ items, item.isPlain = true := by
  rw [isPlain]
  induction items with
  | nil => simp [arePlain]
  | cons item rest ih => simp [arePlain, ih]

@[simp] theorem isPlain_obj (members : Members) :
    isPlain (.obj members) = true ↔ ∀ member ∈ members, member.2.isPlain = true := by
  rw [isPlain]
  induction members with
  | nil => simp [membersPlain]
  | cons member rest ih => simp [membersPlain, ih]

theorem ne_null_of_isPlain {json : Json} (h : json.isPlain = true) : json ≠ .null := by
  rintro rfl
  simp [isPlain] at h

theorem isPlain_of_mem_members {json : Json} (h : json.isPlain = true) :
    ∀ member ∈ json.members, member.2.isPlain = true := by
  cases json with
  | obj members => exact (isPlain_obj members).mp h
  | _ => exact nofun

theorem sameItems_iff (left right : List Json) :
    sameItems left right = true ↔ List.Forall₂ (fun a b => a.same b = true) left right := by
  induction left generalizing right with
  | nil => cases right <;> simp [sameItems]
  | cons item rest ih => cases right <;> simp [sameItems, ih]

theorem sameMembers_iff (left right : Members) :
    sameMembers left right = true ↔
      List.Forall₂ (fun a b => a.1 = b.1 ∧ a.2.same b.2 = true) left right := by
  induction left generalizing right with
  | nil => cases right <;> simp [sameMembers]
  | cons member rest ih => cases right <;> simp [sameMembers, ih, and_assoc]

/-- Only doubles have values that are the same without being equal. -/
theorem eq_of_same {left right : Json} (hleft : left.isPlain = true)
    (h : left.same right = true) : left = right := by
  induction left using induction generalizing right with
  | null => simp [isPlain] at hleft
  | bool _ | str _ => cases right <;> simp_all [same]
  | num n =>
      cases right with
      | num m =>
          cases n with
          | int a => cases m <;> simp_all [same, Number.same]
          | float bits => simp [isPlain] at hleft
      | _ => simp [same] at h
  | arr items ih =>
      cases right with
      | arr others =>
          rw [same, sameItems_iff] at h
          rw [isPlain_arr] at hleft
          congr 1
          induction h with
          | nil => rfl
          | cons hhead _ ihrest =>
              rw [List.forall_mem_cons] at ih hleft
              rw [ih.1 hleft.1 hhead, ihrest ih.2 hleft.2]
      | _ => simp [same] at h
  | obj members ih =>
      cases right with
      | obj others =>
          rw [same, sameMembers_iff] at h
          rw [isPlain_obj] at hleft
          congr 1
          induction h with
          | nil => rfl
          | cons hhead _ ihrest =>
              rw [List.forall_mem_cons] at ih hleft
              rw [ihrest ih.2 hleft.2, Prod.ext hhead.1 (ih.1 hleft.1 hhead.2)]
      | _ => simp [same] at h

theorem same_trans {a b c : Json} (hab : a.same b = true) (hbc : b.same c = true) :
    a.same c = true := by
  induction a using induction generalizing b c with
  | null =>
      cases b <;> simp only [same, Bool.false_eq_true] at hab
      exact hbc
  | bool _ | str _ => exact eq_of_same rfl hab ▸ hbc
  | num n =>
      cases b <;> cases c <;> simp only [same, Bool.false_eq_true] at hab hbc
      exact Number.same_trans hab hbc
  | arr items ih =>
      cases b <;> cases c <;> simp only [same, Bool.false_eq_true] at hab hbc
      rename_i middle right
      rw [sameItems_iff] at hab hbc
      rw [same, sameItems_iff]
      induction hab generalizing right with
      | nil => exact hbc
      | cons hhead _ ihrest =>
          cases hbc with
          | cons hhead' hrest' =>
              rw [List.forall_mem_cons] at ih
              exact .cons (ih.1 hhead hhead') (ihrest ih.2 _ hrest')
  | obj members ih =>
      cases b <;> cases c <;> simp only [same, Bool.false_eq_true] at hab hbc
      rename_i middle right
      rw [sameMembers_iff] at hab hbc
      rw [same, sameMembers_iff]
      induction hab generalizing right with
      | nil => exact hbc
      | cons hhead _ ihrest =>
          cases hbc with
          | cons hhead' hrest' =>
              rw [List.forall_mem_cons] at ih
              exact .cons ⟨hhead.1.trans hhead'.1, ih.1 hhead.2 hhead'.2⟩ (ihrest ih.2 _ hrest')

end Json

end ClusterKeeper
