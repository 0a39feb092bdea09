import ClusterKeeper.Keyed
import Mathlib.Data.List.Forall2

/-!
Maps with sorted keys: insertion and erasure keep the order, and two sorted maps with the same
lookups are the same list.
-/

namespace ClusterKeeper.Keyed

variable {κ α β : Type}

@[simp] theorem sorted_nil [LT κ] : Sorted ([] : List (κ × α)) := List.Pairwise.nil

theorem sorted_cons [LT κ] {key : κ} {value : α} {entries : List (κ × α)} :
    Sorted ((key, value) :: entries) ↔ (∀ entry ∈ entries, key < entry.1) ∧ Sorted entries :=
  List.pairwise_cons

/-- The order of a map is that of its keys alone. -/
theorem sorted_iff_of_keys_eq [LT κ] {entries : List (κ × α)} {others : List (κ × β)}
    (h : entries.map Prod.fst = others.map Prod.fst) : Sorted entries ↔ Sorted others := by
  have key (l : List (κ × α)) : Sorted l ↔ (l.map Prod.fst).Pairwise (· < ·) :=
    List.pairwise_map.symm
  have key' (l : List (κ × β)) : Sorted l ↔ (l.map Prod.fst).Pairwise (· < ·) :=
    List.pairwise_map.symm
  rw [key, key', h]

def ascending (names : List String) : Bool := decide (names.Pairwise (· < ·))

/-- A map of given names is sorted if a test of the names says so. -/
theorem sorted_cons_iff {name : String} {value : α} {entries : List (String × α)} :
    Sorted ((name, value) :: entries) ↔ ascending (name :: entries.map Prod.fst) = true := by
  rw [ascending, decide_eq_true_iff]
  exact (List.pairwise_map (l := (name, value) :: entries)).symm

variable [DecidableEq κ]

theorem mem_of_lookup {key : κ} {value : α} {entries : List (κ × α)}
    (h : entries.lookup key = some value) : (key, value) ∈ entries := by
  obtain ⟨before, after, rfl, -⟩ := List.lookup_eq_some_iff.mp h
  simp

theorem lookup_eq_none_of_forall_ne {key : κ} {entries : List (κ × α)}
    (h : ∀ entry ∈ entries, entry.1 ≠ key) : entries.lookup key = none := by
  rw [List.lookup_eq_none_iff]
  intro entry hentry
  simpa using (h entry hentry).symm

theorem isSome_lookup_iff {key : κ} {entries : List (κ × α)} :
    (entries.lookup key).isSome ↔ key ∈ entries.map Prod.fst := by
  rw [List.lookup_isSome_iff, List.mem_map]
  refine exists_congr fun entry => and_congr_right fun _ => ?_
  rw [beq_iff_eq, eq_comm]

theorem exists_lookup_of_mem {key : κ} {value : α} {entries : List (κ × α)}
    (h : (key, value) ∈ entries) : ∃ found, entries.lookup key = some found :=
  Option.isSome_iff_exists.mp (isSome_lookup_iff.mpr (List.mem_map_of_mem h))

theorem mem_erase {key : κ} {entries : List (κ × α)} {entry : κ × α}
    (h : entry ∈ erase key entries) : entry ∈ entries ∧ entry.1 ≠ key := by
  induction entries with
  | nil => simp [erase] at h
  | cons head rest ih =>
      obtain ⟨k, v⟩ := head
      by_cases hk : k = key
      · rw [erase, if_pos hk] at h
        exact ⟨List.mem_cons_of_mem _ (ih h).1, (ih h).2⟩
      · rw [erase, if_neg hk, List.mem_cons] at h
        rcases h with rfl | h
        · exact ⟨List.mem_cons_self, hk⟩
        · exact ⟨List.mem_cons_of_mem _ (ih h).1, (ih h).2⟩

/-- Maps that are related entry by entry have related lookups. -/
theorem rel_lookup_of_forall₂ {R : α → β → Prop} {left : List (κ × α)} {right : List (κ × β)}
    (h : List.Forall₂ (fun a b => a.1 = b.1 ∧ R a.2 b.2) left right) (key : κ) :
    Option.Rel R (left.lookup key) (right.lookup key) := by
  induction h with
  | nil => exact .none
  | @cons a b as bs hab _ ih =>
      obtain ⟨hkey, hvalue⟩ := hab
      by_cases h : key = a.1
      · rw [List.lookup_cons, List.lookup_cons, ← hkey, show (key == a.1) = true by simpa using h]
        exact .some hvalue
      · rw [List.lookup_cons, List.lookup_cons, ← hkey, show (key == a.1) = false by simpa using h]
        exact ih

theorem lookup_filter (keep : κ → Bool) (key : κ) (entries : List (κ × α)) :
    (entries.filter fun entry => keep entry.1).lookup key =
      if keep key then entries.lookup key else none := by
  induction entries with
  | nil => simp
  | cons entry rest ih =>
      obtain ⟨k, v⟩ := entry
      by_cases hkey : key = k
      · subst hkey
        by_cases hkeep : keep key = true <;> simp [hkeep, ih]
      · have hne : (key == k) = false := by simpa using hkey
        by_cases hkeep : keep k = true <;> simp [List.lookup_cons, hkeep, hne, ih]

theorem erase_comm (key other : κ) (entries : List (κ × α)) :
    erase key (erase other entries) = erase other (erase key entries) := by
  induction entries with
  | nil => rfl
  | cons head rest ih =>
      obtain ⟨k, v⟩ := head
      by_cases hkey : k = key
      · by_cases hother : k = other
        · rw [← hkey, ← hother]
        · simp only [erase, if_pos hkey, if_neg hother, ih]
      · by_cases hother : k = other
        · simp only [erase, if_neg hkey, if_pos hother, ih]
        · simp only [erase, if_neg hkey, if_neg hother, ih]

section Order

variable [LT κ]

theorem erase_insert_self [DecidableLT κ] (key : κ) (value : α) (entries : List (κ × α)) :
    erase key (insert key value entries) = erase key entries := by
  induction entries with
  | nil => simp only [insert, erase, if_true]
  | cons head rest ih =>
      obtain ⟨k, v⟩ := head
      by_cases hkey : key = k
      · simp only [insert, erase, hkey, if_true]
      · by_cases hlt : key < k
        · simp only [insert, erase, if_neg hkey, if_pos hlt, if_true]
        · simp only [insert, erase, if_neg hkey, if_neg hlt, if_neg (Ne.symm hkey), ih]

theorem insert_insert [DecidableLT κ] (key : κ) (value later : α) (entries : List (κ × α)) :
    insert key later (insert key value entries) = insert key later entries := by
  induction entries with
  | nil => simp only [insert, if_true]
  | cons head rest ih =>
      obtain ⟨k, v⟩ := head
      by_cases hkey : key = k
      · simp only [insert, hkey, if_true]
      · by_cases hlt : key < k
        · simp only [insert, if_neg hkey, if_pos hlt, if_true]
        · simp only [insert, if_neg hkey, if_neg hlt, ih]

theorem mem_insert [DecidableLT κ] {key : κ} {value : α} {entries : List (κ × α)} {entry : κ × α}
    (h : entry ∈ insert key value entries) : entry = (key, value) ∨ entry ∈ entries := by
  induction entries with
  | nil => simpa [insert] using h
  | cons head rest ih =>
      obtain ⟨k, v⟩ := head
      simp only [insert] at h
      split at h
      · rcases List.mem_cons.mp h with h | h
        · exact .inl h
        · exact .inr (List.mem_cons_of_mem _ h)
      · split at h
        · exact List.mem_cons.mp h
        · rcases List.mem_cons.mp h with h | h
          · exact .inr (h ▸ List.mem_cons_self)
          · exact (ih h).imp_right (List.mem_cons_of_mem _)

theorem sorted_erase {entries : List (κ × α)} (key : κ) (h : Sorted entries) :
    Sorted (erase key entries) := by
  induction entries with
  | nil => exact sorted_nil
  | cons head rest ih =>
      obtain ⟨k, v⟩ := head
      obtain ⟨hlt, hrest⟩ := sorted_cons.mp h
      rw [erase]
      split
      · exact ih hrest
      · exact sorted_cons.mpr ⟨fun entry hentry => hlt entry (mem_erase hentry).1, ih hrest⟩

section Insert

variable [DecidableLT κ] [Trans (α := κ) (· < ·) (· < ·) (· < ·)]
  [Std.Trichotomous (α := κ) (· < ·)]

theorem sorted_insert {entries : List (κ × α)} (key : κ) (value : α) (h : Sorted entries) :
    Sorted (insert key value entries) := by
  induction entries with
  | nil => simp [insert, Sorted]
  | cons head rest ih =>
      obtain ⟨k, v⟩ := head
      obtain ⟨hlt, hrest⟩ := sorted_cons.mp h
      rw [insert]
      split
      · next heq => exact sorted_cons.mpr ⟨heq ▸ hlt, hrest⟩
      · next hne =>
          split
          · next hkey =>
              refine sorted_cons.mpr ⟨?_, h⟩
              intro entry hentry
              rcases List.mem_cons.mp hentry with rfl | hentry
              · exact hkey
              · exact Trans.trans hkey (hlt entry hentry)
          · next hkey =>
              have hgt : k < key := by
                rcases Std.Trichotomous.rel_or_eq_or_rel_swap (r := (· < ·)) (a := key) (b := k)
                  with h | h | h
                · exact absurd h hkey
                · exact absurd h hne
                · exact h
              refine sorted_cons.mpr ⟨?_, ih hrest⟩
              intro entry hentry
              rcases mem_insert hentry with rfl | hentry
              · exact hgt
              · exact hlt entry hentry

theorem sorted_ofEntries (entries : List (κ × α)) : Sorted (ofEntries entries) := by
  have hfold (map : List (κ × α)) (h : Sorted map) :
      Sorted (entries.foldl (fun map entry => insert entry.1 entry.2 map) map) := by
    induction entries generalizing map with
    | nil => exact h
    | cons entry rest ih => exact ih _ (sorted_insert entry.1 entry.2 h)
  exact hfold [] sorted_nil

end Insert

theorem mem_keys_ofEntries [DecidableLT κ] {key : κ} {entries : List (κ × α)} :
    key ∈ (ofEntries entries).map Prod.fst ↔ key ∈ entries.map Prod.fst := by
  have hfold (map : List (κ × α)) :
      (List.lookup key (entries.foldl (fun map entry => insert entry.1 entry.2 map) map)).isSome ↔
        (map.lookup key).isSome ∨ key ∈ entries.map Prod.fst := by
    induction entries generalizing map with
    | nil => simp
    | cons entry rest ih =>
        rw [List.foldl_cons, ih]
        by_cases hkey : key = entry.1
        · simp [hkey]
        · simp [lookup_insert_of_ne hkey, hkey]
  rw [← isSome_lookup_iff, ofEntries, hfold []]
  simp

theorem lt_of_lookup_cons {key first : κ} (value : α) {entries : List (κ × α)}
    (hlt : ∀ entry ∈ entries, first < entry.1) (hne : key ≠ first)
    (h : List.lookup key ((first, value) :: entries) ≠ none) : first < key := by
  rw [List.lookup_cons, show (key == first) = false by simpa using hne] at h
  obtain ⟨found, hfound⟩ := Option.ne_none_iff_exists'.mp h
  exact hlt _ (mem_of_lookup hfound)

variable [Std.Asymm (α := κ) (· < ·)]

theorem lookup_eq_some_iff_mem {key : κ} {value : α} {entries : List (κ × α)}
    (h : Sorted entries) : entries.lookup key = some value ↔ (key, value) ∈ entries := by
  refine ⟨mem_of_lookup, fun hmem => ?_⟩
  induction entries with
  | nil => simp at hmem
  | cons head rest ih =>
      obtain ⟨k, v⟩ := head
      obtain ⟨hlt, hrest⟩ := sorted_cons.mp h
      rcases List.mem_cons.mp hmem with heq | hmem
      · cases heq
        simp
      · have hne : (key == k) = false := by
          simpa using fun e : key = k => Std.Asymm.asymm _ _ (hlt _ hmem) (e ▸ hlt _ hmem)
        rw [List.lookup_cons, hne]
        exact ih hrest hmem

/-- Sorted maps whose lookups are related key by key are related entry by entry. -/
theorem forall₂_of_sorted {R : α → β → Prop} {left : List (κ × α)} {right : List (κ × β)}
    (hleft : Sorted left) (hright : Sorted right)
    (h : ∀ key, Option.Rel R (left.lookup key) (right.lookup key)) :
    List.Forall₂ (fun a b => a.1 = b.1 ∧ R a.2 b.2) left right := by
  induction left generalizing right with
  | nil =>
      cases right with
      | nil => exact .nil
      | cons entry rest =>
          have hrel := h entry.1
          rw [List.lookup_cons_self] at hrel
          cases hrel
  | cons entry rest ih =>
      obtain ⟨k, v⟩ := entry
      obtain ⟨hlt, hrest⟩ := sorted_cons.mp hleft
      cases right with
      | nil =>
          have hrel := h k
          rw [List.lookup_cons_self] at hrel
          cases hrel
      | cons other others =>
          obtain ⟨k', v'⟩ := other
          obtain ⟨hlt', hrest'⟩ := sorted_cons.mp hright
          have hkey : k = k' := by
            by_contra hne
            -- each of the two maps has the first key of the other, so each would be the smaller
            have hk : k' < k := by
              refine lt_of_lookup_cons v' hlt' hne fun hnone => ?_
              have hrel := h k
              rw [List.lookup_cons_self, hnone] at hrel
              cases hrel
            have hk' : k < k' := by
              refine lt_of_lookup_cons v hlt (Ne.symm hne) fun hnone => ?_
              have hrel := h k'
              rw [List.lookup_cons_self, hnone] at hrel
              cases hrel
            exact Std.Asymm.asymm _ _ hk hk'
          subst hkey
          have hhead : R v v' := by
            have hrel := h k
            rw [List.lookup_cons_self, List.lookup_cons_self] at hrel
            cases hrel with
            | some hv => exact hv
          have fresh {γ : Type} {l : List (κ × γ)} (hl : ∀ e ∈ l, k < e.1) : l.lookup k = none :=
            lookup_eq_none_of_forall_ne fun e he heq =>
              Std.Asymm.asymm _ _ (heq ▸ hl e he) (hl e he)
          refine .cons ⟨rfl, hhead⟩ (ih hrest hrest' fun key => ?_)
          by_cases hkey : key = k
          · subst hkey
            rw [fresh hlt, fresh hlt']
            exact .none
          · have hrel := h key
            rwa [List.lookup_cons, List.lookup_cons,
              show (key == k) = false by simpa using hkey] at hrel

theorem ext_of_sorted {left right : List (κ × α)} (hleft : Sorted left) (hright : Sorted right)
    (h : ∀ key, left.lookup key = right.lookup key) : left = right := by
  have hrel : List.Forall₂ (fun a b => a.1 = b.1 ∧ a.2 = b.2) left right := by
    refine forall₂_of_sorted hleft hright fun key => ?_
    rw [h key]
    cases right.lookup key with
    | none => exact .none
    | some value => exact .some rfl
  refine List.forall₂_eq_eq_eq ▸ hrel.imp fun a b hab => ?_
  exact Prod.ext hab.1 hab.2

end Order

end ClusterKeeper.Keyed
