import Mathlib.Logic.Relation
import ClusterKeeper.Proofs.Store.Calls

/-!
Versions are given out once: a stored document carries a number that no other has, and a document
that was written after a moment carries a number from after it. So an update that carries the version
it was read at finds the document it was read from.
-/

namespace ClusterKeeper

theorem toString_nat_inj {a b : Nat} : toString a = toString b ↔ a = b := by
  refine ⟨fun h => ?_, congrArg _⟩
  rw [Nat.toString_eq_ofList_toDigits, Nat.toString_eq_ofList_toDigits] at h
  have hdigits := congrArg String.toList h
  rw [String.toList_ofList, String.toList_ofList] at hdigits
  rw [← Nat.ofDigitChars_ten_toDigits (n := a), hdigits, Nat.ofDigitChars_ten_toDigits]

theorem Json.text?_eq_some_iff {json : Json} {text : String} :
    json.text? = some text ↔ json = .str text := by
  cases json <;> simp [Json.text?]

def Json.HasVersion (raw : Json) (n : Nat) : Prop :=
  raw.metadataField "resourceVersion" = .str (toString n)

theorem Json.HasVersion.unique {raw : Json} {a b : Nat} (ha : raw.HasVersion a)
    (hb : raw.HasVersion b) : a = b :=
  toString_nat_inj.mp (Json.str.inj (ha.symm.trans hb))

namespace Memory

variable {m m' m'' : Memory} {key : ObjectKey} {raw live : Json} {object : Resource}

/-- Every stored document carries a version that was given out to it alone. -/
structure Versioned (m : Memory) : Prop where
  issued : ∀ {key raw}, m.get? key = some raw → ∃ n ≤ m.versions, raw.HasVersion n
  unique : ∀ {key other raw raw' n}, m.get? key = some raw → m.get? other = some raw' →
    raw.HasVersion n → raw'.HasVersion n → key = other

/-- What is stored now was stored before, or carries a version from in between. -/
structure Since (m m' : Memory) : Prop where
  versions : m.versions ≤ m'.versions
  changed : ∀ {key raw}, m'.get? key = some raw → m.get? key = some raw ∨
    ∃ n, m.versions < n ∧ n ≤ m'.versions ∧ raw.HasVersion n

theorem Since.refl (m : Memory) : Since m m := ⟨Nat.le_refl _, .inl⟩

theorem Since.trans (h : Since m m') (h' : Since m' m'') : Since m m'' := by
  refine ⟨Nat.le_trans h.versions h'.versions, fun hget => ?_⟩
  rcases h'.changed hget with hget | ⟨n, hlower, hupper, hversion⟩
  · rcases h.changed hget with hget | ⟨n, hlower, hupper, hversion⟩
    · exact .inl hget
    · exact .inr ⟨n, hlower, Nat.le_trans hupper h'.versions, hversion⟩
  · exact .inr ⟨n, Nat.lt_of_le_of_lt h.versions hlower, hupper, hversion⟩

theorem Since.of_removal (hversions : m.versions ≤ m'.versions)
    (hget : ∀ {key raw}, m'.get? key = some raw → m.get? key = some raw) : Since m m' :=
  ⟨hversions, fun h => .inl (hget h)⟩

theorem Versioned.of_removal (h : Versioned m) (hversions : m.versions ≤ m'.versions)
    (hget : ∀ {key raw}, m'.get? key = some raw → m.get? key = some raw) : Versioned m' := by
  refine ⟨fun hfound => ?_, fun hfound hother => h.unique (hget hfound) (hget hother)⟩
  obtain ⟨n, hn, hversion⟩ := h.issued (hget hfound)
  exact ⟨n, Nat.le_trans hn hversions, hversion⟩

theorem Stores.since (h : Stores m key raw m') : Since m m' := by
  refine ⟨by rw [h.versions]; omega, fun {other found} hget => ?_⟩
  by_cases heq : other = key
  · subst heq
    rw [h.get?_self] at hget
    cases hget
    exact .inr ⟨m'.versions, by rw [h.versions]; omega, Nat.le_refl _, h.version⟩
  · rw [h.get?_of_ne heq] at hget
    exact .inl hget

theorem Stores.versioned (h : Stores m key raw m') (hm : Versioned m) : Versioned m' := by
  have hold {other : ObjectKey} {found : Json} (hne : other ≠ key)
      (hget : m'.get? other = some found) : m.get? other = some found :=
    h.get?_of_ne hne ▸ hget
  -- a document that was there before cannot carry the new version
  have hfresh {other : ObjectKey} {found : Json} {n : Nat} (hne : other ≠ key)
      (hget : m'.get? other = some found) (hversion : found.HasVersion n)
      (hstored : raw.HasVersion n) : False := by
    obtain ⟨k, hk, hk'⟩ := hm.issued (hold hne hget)
    have hn := hstored.unique h.version
    have hnk := hversion.unique hk'
    have := h.versions
    omega
  refine ⟨fun {other found} hget => ?_, fun {a b x y n} hx hy hvx hvy => ?_⟩
  · by_cases heq : other = key
    · subst heq
      rw [h.get?_self] at hget
      cases hget
      exact ⟨m'.versions, Nat.le_refl _, h.version⟩
    · obtain ⟨n, hn, hversion⟩ := hm.issued (hold heq hget)
      exact ⟨n, by rw [h.versions]; omega, hversion⟩
  · by_cases ha : a = key
    · by_cases hb : b = key
      · rw [ha, hb]
      · subst ha
        rw [h.get?_self] at hx
        cases hx
        exact absurd (hfresh hb hy hvy hvx) id
    · by_cases hb : b = key
      · subst hb
        rw [h.get?_self] at hy
        cases hy
        exact absurd (hfresh ha hx hvx hvy) id
      · exact hm.unique (hold ha hx) (hold hb hy) hvx hvy

theorem Refuses.since (h : Refuses m m') : Since m m' :=
  .of_removal h.versions fun hget => h.get? _ ▸ hget

theorem Refuses.versioned (h : Refuses m m') (hm : Versioned m) : Versioned m' :=
  hm.of_removal h.versions fun hget => h.get? _ ▸ hget

theorem since_settle (m : Memory) (key : ObjectKey) : Since m (m.settle key) :=
  .of_removal (Nat.le_of_eq (settle_versions m key).symm) settle_get?_imp

theorem Versioned.settle (h : Versioned m) (key : ObjectKey) : Versioned (m.settle key) :=
  h.of_removal (Nat.le_of_eq (settle_versions m key).symm) settle_get?_imp

/-- A version is as new as the call that gave it out. -/
theorem since_perform (m : Memory) (call : StoreCall) : Since m (perform call m).2 := by
  cases call with
  | get key => exact .refl m
  | create object =>
      rcases m.create_cases object with ⟨_, -, h⟩ | ⟨_, _, -, -, -, -, h⟩
      · exact h.since
      · exact h.since
  | patch key patch =>
      rcases m.patch_cases key patch with ⟨_, -, h⟩ | ⟨_, _, m', -, -, -, h, hsettle⟩
      · exact h.since
      · rw [perform, hsettle]
        exact h.since.trans (since_settle m' key)
  | update object =>
      rcases m.update_cases object with ⟨_, -, h⟩ | ⟨key, _, _, m', -, -, -, -, -, h, hsettle⟩
      · exact h.since
      · rw [perform, hsettle]
        exact h.since.trans (since_settle m' key)

theorem Versioned.perform (h : Versioned m) (call : StoreCall) :
    Versioned (perform call m).2 := by
  cases call with
  | get key => exact h
  | create object =>
      rcases m.create_cases object with ⟨_, -, hrefused⟩ | ⟨_, _, -, -, -, -, hstored⟩
      · exact hrefused.versioned h
      · exact hstored.versioned h
  | patch key patch =>
      rcases m.patch_cases key patch with ⟨_, -, hrefused⟩ | ⟨_, _, m', -, -, -, hstored, hsettle⟩
      · exact hrefused.versioned h
      · rw [Memory.perform, hsettle]
        exact (hstored.versioned h).settle key
  | update object =>
      rcases m.update_cases object with
        ⟨_, -, hrefused⟩ | ⟨key, _, _, m', -, -, -, -, -, hstored, hsettle⟩
      · exact hrefused.versioned h
      · rw [Memory.perform, hsettle]
        exact (hstored.versioned h).settle key

theorem versioned_empty : Versioned .empty :=
  ⟨fun h => absurd h nofun, fun h => absurd h nofun⟩

/-- An object that is not stale was read off the document that is stored under its version. -/
theorem get?_of_not_stale {seen : Json} {other : ObjectKey} {version : String}
    (hsince : Since m m') (hversioned : Versioned m) (hseen : m.get? other = some seen)
    (hversion : seen.metadataField "resourceVersion" = .str version)
    (hobject : object.resourceVersion? = some version) (hlive : m'.get? key = some live)
    (hstale : isStale live object = false) : key = other ∧ live = seen := by
  obtain ⟨n, hn, hseenversion⟩ := hversioned.issued hseen
  have hsame : (live.metadataField "resourceVersion").text? = some version := by
    rw [isStale, hobject, Option.isSome_some, Bool.true_and, decide_eq_false_iff_not,
      Classical.not_not] at hstale
    exact hstale.symm
  have hliveversion : live.HasVersion n :=
    (Json.text?_eq_some_iff.mp hsame).trans (hversion.symm.trans hseenversion)
  rcases hsince.changed hlive with hold | ⟨k, hlower, -, hk⟩
  · have hkey := hversioned.unique hold hseen hliveversion hseenversion
    subst hkey
    exact ⟨rfl, Option.some.inj (hold.symm.trans hseen)⟩
  · have := hk.unique hliveversion
    omega

/-- What may happen to a store from outside: any call, a deletion, a loss, an unseen change, and
failures that appear or disappear. -/
inductive Edit (m : Memory) : Memory → Prop where
  | call (call : StoreCall) : Edit m (perform call m).2
  | delete (key : ObjectKey) : Edit m (m.delete key)
  | remove (key : ObjectKey) : Edit m (m.remove key)
  | tamper {key : ObjectKey} {patch : Json} {m' : Memory} (h : m.tamper key patch = some m') :
      Edit m m'
  | fail (failures : List Failure) : Edit m { m with failures }

/-- An edit keeps the store versioned and gives new versions to what it changes. -/
theorem Edit.versioned_since (h : Edit m m') (hm : Versioned m) : Versioned m' ∧ Since m m' := by
  cases h with
  | call call => exact ⟨hm.perform call, since_perform m call⟩
  | delete key =>
      rcases m.delete_cases key with ⟨-, hsame⟩ | ⟨live, m₁, -, hstores, hsettle⟩
      · rw [hsame]
        exact ⟨hm, .refl m⟩
      · rw [hsettle]
        exact ⟨(hstores.versioned hm).settle key, hstores.since.trans (since_settle m₁ key)⟩
  | remove key =>
      exact ⟨hm.of_removal (Nat.le_refl _) lookup_erase_imp,
        .of_removal (Nat.le_refl _) lookup_erase_imp⟩
  | tamper h =>
      obtain ⟨live, -, hstores⟩ := exists_of_tamper h
      exact ⟨hstores.versioned hm, hstores.since⟩
  | fail failures =>
      exact ⟨hm.of_removal (Nat.le_refl _) fun h => h, .of_removal (Nat.le_refl _) fun h => h⟩

/-- The store came about from an empty one. -/
def Reachable (m : Memory) : Prop := Relation.ReflTransGen Edit .empty m

theorem Reachable.versioned (h : m.Reachable) : Versioned m := by
  induction h with
  | refl => exact versioned_empty
  | tail _ hedit ih => exact (hedit.versioned_since ih).1

end Memory

end ClusterKeeper
