import ClusterKeeper.Proofs.Json.Merge

/-!
Values that have members which another value does not mention. A merge patch looks into objects but
takes a list as a whole, so it leaves such members alone where a path of member names leads to them,
and drops them from the items of lists.
-/

namespace ClusterKeeper.Json

/-- The value at the end of a path of member names. -/
def at? : Json → List String → Option Json
  | json, [] => some json
  | json, name :: rest => (json.get? name).bind fun value => value.at? rest

mutual

/-- Whether the value is the other one but for members that the other one does not mention, added at
any depth, within the items of lists too. -/
def covers (live : Json) : Json → Bool
  | .obj desired =>
    match live with
    | .obj members => coversMembers members desired
    | _ => false
  | .arr desired =>
    match live with
    | .arr items => coversItems items desired
    | _ => false
  | desired => desired.same live

def coversItems (live : List Json) : List Json → Bool
  | [] => live.isEmpty
  | desired :: rest =>
    match live with
    | item :: items => covers item desired && coversItems items rest
    | [] => false

def coversMembers (live : Members) : List (String × Json) → Bool
  | [] => true
  | (name, desired) :: rest =>
    (match live.lookup name with
      | some value => covers value desired
      | none => false) && coversMembers live rest

end

/-- Whether each list that a path of names leads to in the other value is the same list here. -/
def KeepsLists (live desired : Json) : Prop :=
  ∀ path items, desired.at? path = some (.arr items) → live.at? path = some (.arr items)

variable {live desired patch : Json} {path rest : List String} {name : String} {members : Members}

@[simp] theorem at?_nil (json : Json) : json.at? [] = some json := rfl

@[simp] theorem at?_cons (json : Json) (name : String) (rest : List String) :
    json.at? (name :: rest) = (json.get? name).bind fun value => value.at? rest := rfl

/-- On the way to something else a member that is not there may be taken for null. -/
theorem at?_of_ne_nil (json : Json) (name : String) (h : path ≠ []) :
    json.at? (name :: path) = (json.get name).at? path := by
  rw [at?_cons, get]
  cases json.get? name with
  | some value => rfl
  | none =>
      cases path with
      | nil => exact absurd rfl h
      | cons step rest => rfl

theorem coversMembers_iff (live desired : Members) :
    coversMembers live desired = true ↔ ∀ member ∈ desired,
      ∃ value, live.lookup member.1 = some value ∧ value.covers member.2 = true := by
  induction desired with
  | nil => simp [coversMembers]
  | cons member rest ih =>
      obtain ⟨name, wanted⟩ := member
      rw [coversMembers, Bool.and_eq_true, List.forall_mem_cons, ih]
      cases live.lookup name <;> simp

theorem covers_obj_iff (live : Json) (desired : Members) :
    live.covers (.obj desired) = true ↔
      (∃ members, live = .obj members) ∧ ∀ member ∈ desired,
        ∃ value, live.get? member.1 = some value ∧ value.covers member.2 = true := by
  cases live with
  | obj members =>
      rw [covers, coversMembers_iff]
      simp [get?, Json.members]
  | _ => simp [covers]

/-! ### What a patch leaves alone -/

/-- A patch alters no member that it does not mention, at any depth. -/
theorem at?_merge (live : Json) (rest : List String) (hpatch : patch.isCanonical = true)
    (hpath : patch.at? path = some (.obj members)) (hname : members.lookup name = none) :
    (merge live patch).at? (path ++ name :: rest) = live.at? (path ++ name :: rest) := by
  induction path generalizing live patch with
  | nil =>
      cases hpath
      have hget : (merge live (.obj members)).get? name = live.get? name := by
        rw [get?_merge_obj live name ((isCanonical_obj members).mp hpatch).1, hname]
        rfl
      simp only [List.nil_append, at?_cons, hget]
  | cons step steps ih =>
      obtain ⟨inner, hstep, hinner⟩ := Option.bind_eq_some_iff.mp hpath
      -- a null in the patch would remove the member, but no path leads through it
      have hnull : inner ≠ .null := by
        rintro rfl
        cases steps <;> cases hinner
      cases patch with
      | obj patched =>
          have hget : (merge live (.obj patched)).get? step =
              some (merge (live.get step) inner) := by
            rw [get?_merge_obj live step ((isCanonical_obj patched).mp hpatch).1,
              show patched.lookup step = some inner from hstep, mergeMember_of_ne_null _ hnull]
            rfl
          have hne : steps ++ name :: rest ≠ [] := by simp
          rw [List.cons_append, at?_of_ne_nil live step hne, at?_cons, hget]
          exact ih (live.get step) (isCanonical_of_lookup hpatch hstep) hinner
      | _ => cases hstep

/-- Where a path leads to objects both in the value and in the patch, these two are merged. -/
theorem at?_merge_of_objects {changes : Members} (hpatch : patch.isCanonical = true)
    (hlive : live.at? path = some (.obj members)) (hpath : patch.at? path = some (.obj changes)) :
    (merge live patch).at? path = some (.obj (mergeMembers members changes)) := by
  induction path generalizing live patch with
  | nil =>
      cases hlive
      cases hpath
      rfl
  | cons step steps ih =>
      obtain ⟨found, hfound, hmembers⟩ := Option.bind_eq_some_iff.mp hlive
      obtain ⟨inner, hstep, hinner⟩ := Option.bind_eq_some_iff.mp hpath
      have hnull : inner ≠ .null := by
        rintro rfl
        cases steps <;> cases hinner
      cases patch with
      | obj patched =>
          have hget : (merge live (.obj patched)).get? step = some (merge found inner) := by
            rw [get?_merge_obj live step ((isCanonical_obj patched).mp hpatch).1, hfound,
              show patched.lookup step = some inner from hstep, mergeMember_of_ne_null _ hnull]
            rfl
          rw [at?_cons, hget]
          exact ih (isCanonical_of_lookup hpatch hstep) hmembers hinner
      | _ => cases hstep

theorem isCanonical_of_at? {value : Json} (hcanonical : desired.isCanonical = true)
    (h : desired.at? path = some value) : value.isCanonical = true := by
  induction path generalizing desired with
  | nil =>
      cases h
      exact hcanonical
  | cons name rest ih =>
      obtain ⟨inner, hinner, hrest⟩ := Option.bind_eq_some_iff.mp h
      exact ih (isCanonical_of_lookup hcanonical hinner) hrest

/-- What a path leads to in a plain patch that is satisfied, it leads to in the value. -/
theorem at?_of_satisfies {change : Json} (hplain : patch.isPlain = true)
    (h : live.satisfies patch = true) (hpath : patch.at? path = some change) :
    ∃ value, live.at? path = some value ∧ value.satisfies change = true := by
  induction path generalizing live patch with
  | nil =>
      cases hpath
      exact ⟨live, rfl, h⟩
  | cons name rest ih =>
      obtain ⟨inner, hinner, hrest⟩ := Option.bind_eq_some_iff.mp hpath
      have hinnerplain : inner.isPlain = true :=
        isPlain_of_mem_members hplain _ (Keyed.mem_of_lookup hinner)
      obtain ⟨found, hfound, hsatisfied⟩ := get?_of_satisfies h hinner (ne_null_of_isPlain hinnerplain)
      obtain ⟨value, hvalue, hchange⟩ := ih hinnerplain hsatisfied hrest
      refine ⟨value, ?_, hchange⟩
      rw [at?_cons, hfound]
      exact hvalue

theorem isPlain_of_at? {value : Json} (hplain : desired.isPlain = true)
    (h : desired.at? path = some value) : value.isPlain = true := by
  induction path generalizing desired with
  | nil =>
      cases h
      exact hplain
  | cons name rest ih =>
      obtain ⟨inner, hinner, hrest⟩ := Option.bind_eq_some_iff.mp h
      exact ih (isPlain_of_mem_members hplain _ (Keyed.mem_of_lookup hinner)) hrest

/-- A plain patch drops no member, at any depth that objects in the value and in the patch lead to. -/
theorem exists_kept_merge {changes : Members} (hpatch : patch.isCanonical = true)
    (hplain : patch.isPlain = true) (hlive : live.at? path = some (.obj members))
    (hpath : patch.at? path = some (.obj changes)) :
    ∃ kept, (merge live patch).at? path = some (.obj kept) ∧
      ∀ name, members.lookup name ≠ none → kept.lookup name ≠ none := by
  refine ⟨_, at?_merge_of_objects hpatch hlive hpath, fun name hname => ?_⟩
  have hsorted := ((isCanonical_obj changes).mp (isCanonical_of_at? hpatch hpath)).1
  rw [lookup_mergeMembers members name hsorted]
  cases hfound : changes.lookup name with
  | none => exact hname
  | some change =>
      have hchange := (isPlain_obj changes).mp (isPlain_of_at? hplain hpath) _
        (Keyed.mem_of_lookup hfound)
      rw [mergeMember_of_ne_null _ (ne_null_of_isPlain hchange)]
      exact Option.some_ne_none _

theorem keepsLists_of_satisfies (hplain : desired.isPlain = true)
    (h : live.satisfies desired = true) : live.KeepsLists desired := by
  intro path items hpath
  obtain ⟨value, hvalue, hsatisfied⟩ := at?_of_satisfies hplain h hpath
  have hsame : (arr items).same value = true := hsatisfied
  rw [hvalue, ← eq_of_same (isPlain_of_at? hplain hpath) hsame]

/-! ### When a value needs no patch -/

/-- If a value is another one but for members that are not mentioned, it has all that the other has
just if its lists are the same. -/
theorem satisfies_of_keepsLists (hcanonical : desired.isCanonical = true)
    (hplain : desired.isPlain = true) (hcovers : live.covers desired = true)
    (hlists : live.KeepsLists desired) :
    live.satisfies desired = true := by
  induction desired using induction generalizing live with
  | obj desired ih =>
      obtain ⟨hsorted, hmembers⟩ := (isCanonical_obj desired).mp hcanonical
      obtain ⟨hobject, hcovered⟩ := (covers_obj_iff live desired).mp hcovers
      refine (satisfies_obj_iff live desired).mpr ⟨hobject, ?_⟩
      rintro ⟨name, wanted⟩ hmem
      obtain ⟨value, hvalue, hcoversvalue⟩ := hcovered _ hmem
      have hwanted : (obj desired).get? name = some wanted :=
        (Keyed.lookup_eq_some_iff_mem hsorted).mpr hmem
      have hbelow : value.KeepsLists wanted := by
        intro path items hpath
        have h := hlists (name :: path) items
        simp only [at?_cons, hvalue, hwanted, Option.bind_some] at h
        exact h hpath
      rw [satisfiesMember_of_ne_null (ne_null_of_isPlain ((isPlain_obj desired).mp hplain _ hmem))]
      exact ⟨value, hvalue, ih _ hmem (hmembers _ hmem) ((isPlain_obj desired).mp hplain _ hmem)
        hcoversvalue hbelow⟩
  -- a list is wanted as a whole: what is covered item by item does not satisfy it
  | arr items ih =>
      have hsame : live.at? [] = some (.arr items) := hlists [] items rfl
      cases hsame
      exact same_refl _
  | _ => exact hcovers

/-- A patch that mentions nothing but what the value has already is not needed just if no list of the
value has more in its items. -/
theorem patchChanges_eq_false_iff (hlive : live.isCanonical = true)
    (hcanonical : desired.isCanonical = true) (hplain : desired.isPlain = true)
    (hcovers : live.covers desired = true) :
    live.patchChanges desired = false ↔ live.KeepsLists desired := by
  constructor
  · intro h
    exact keepsLists_of_satisfies hplain (satisfies_of_patchChanges_eq_false hcanonical h)
  · intro h
    exact patchChanges_eq_false_of_satisfies hlive hcanonical
      (satisfies_of_keepsLists hcanonical hplain hcovers h)

end ClusterKeeper.Json
