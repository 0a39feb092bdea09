/-!
Finite maps kept as lists of entries sorted by key. Lookup is `List.lookup`; `insert` puts an
entry in its place and replaces the one that has its key, `erase` drops it.
-/

namespace ClusterKeeper.Keyed

variable {κ α : Type} [DecidableEq κ]

/-- The entry of `key` becomes `value`; a new key goes before the first larger one. -/
def insert [LT κ] [DecidableLT κ] (key : κ) (value : α) : List (κ × α) → List (κ × α)
  | [] => [(key, value)]
  | (k, v) :: rest =>
    if key = k then (key, value) :: rest
    else if key < k then (key, value) :: (k, v) :: rest
    else (k, v) :: insert key value rest

/-- Every entry but that of `key`. -/
def erase (key : κ) : List (κ × α) → List (κ × α)
  | [] => []
  | (k, v) :: rest => if k = key then erase key rest else (k, v) :: erase key rest

/-- Builds the map of a list of entries; the last entry of a key counts. -/
def ofEntries [LT κ] [DecidableLT κ] (entries : List (κ × α)) : List (κ × α) :=
  entries.foldl (fun map entry => insert entry.1 entry.2 map) []

def Sorted [LT κ] (entries : List (κ × α)) : Prop :=
  entries.Pairwise fun a b => a.1 < b.1

@[simp] theorem lookup_insert_self [LT κ] [DecidableLT κ] (key : κ) (value : α)
    (entries : List (κ × α)) : (insert key value entries).lookup key = some value := by
  induction entries with
  | nil => simp [insert]
  | cons entry rest ih =>
    obtain ⟨k, v⟩ := entry
    by_cases h : key = k
    · simp [insert, h]
    · have hbeq : (key == k) = false := by simpa using h
      by_cases hlt : key < k
      · simp [insert, h, hlt]
      · simp [insert, h, hlt, List.lookup_cons, hbeq, ih]

theorem lookup_insert_of_ne [LT κ] [DecidableLT κ] {key other : κ} (hne : other ≠ key) (value : α)
    (entries : List (κ × α)) : (insert key value entries).lookup other = entries.lookup other := by
  have hbeq : (other == key) = false := by simpa using hne
  induction entries with
  | nil => simp [insert, List.lookup_cons, hbeq]
  | cons entry rest ih =>
    obtain ⟨k, v⟩ := entry
    by_cases h : key = k
    · subst h
      simp [insert, List.lookup_cons, hbeq]
    · by_cases hlt : key < k
      · simp [insert, h, hlt, List.lookup_cons, hbeq]
      · simp [insert, h, hlt, List.lookup_cons, ih]

@[simp] theorem lookup_erase_self (key : κ) (entries : List (κ × α)) :
    (erase key entries).lookup key = none := by
  induction entries with
  | nil => rfl
  | cons entry rest ih =>
    obtain ⟨k, v⟩ := entry
    by_cases h : k = key
    · simp [erase, h, ih]
    · have hbeq : (key == k) = false := by simpa using fun e => h e.symm
      simp [erase, h, List.lookup_cons, hbeq, ih]

theorem lookup_erase_of_ne {key other : κ} (hne : other ≠ key) (entries : List (κ × α)) :
    (erase key entries).lookup other = entries.lookup other := by
  induction entries with
  | nil => rfl
  | cons entry rest ih =>
    obtain ⟨k, v⟩ := entry
    by_cases h : k = key
    · subst h
      have hbeq : (other == k) = false := by simpa using hne
      simp [erase, List.lookup_cons, hbeq, ih]
    · simp [erase, h, List.lookup_cons, ih]

end ClusterKeeper.Keyed
