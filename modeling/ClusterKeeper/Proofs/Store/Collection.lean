import Mathlib.Logic.Relation
import ClusterKeeper.Proofs.Keyed
import ClusterKeeper.Proofs.Store.Versions

/-!
What a collection removes: its keys, and what belongs to them at some remove, whatever the shape of the
ownership. So an object that nobody owns outlives every collection that does not begin with it, and
nothing that a removed object owned is left behind.
-/

namespace ClusterKeeper

/-! ### The order of keys -/

theorem ObjectKey.order_injective {a b : ObjectKey} (h : a.order = b.order) : a = b := by
  obtain ⟨kind, ns, name⟩ := a
  obtain ⟨kind', ns', name'⟩ := b
  simp only [ObjectKey.order, List.cons.injEq, and_true] at h
  obtain ⟨hkind, rfl, rfl⟩ := h
  rw [Kind.name_injective hkind]

instance : Std.Asymm (α := ObjectKey) (· < ·) :=
  ⟨fun a b => Std.Asymm.asymm (r := (· < ·)) a.order b.order⟩

instance : Trans (α := ObjectKey) (· < ·) (· < ·) (· < ·) :=
  ⟨fun {a b c} (hab : a.order < b.order) (hbc : b.order < c.order) =>
    show a.order < c.order from Trans.trans hab hbc⟩

instance : Std.Trichotomous (α := ObjectKey) (· < ·) :=
  ⟨fun a b hab hba => ObjectKey.order_injective
    (Std.Trichotomous.trichotomous (r := (· < ·)) a.order b.order hab hba)⟩

namespace Memory

variable {m m' : Memory} {objects : List (ObjectKey × Json)} {keys : List ObjectKey}
  {key other : ObjectKey} {raw live child : Json} {uid : String}

def Owns (objects : List (ObjectKey × Json)) (owner dependent : ObjectKey) : Prop :=
  ∃ raw child uid, (owner, raw) ∈ objects ∧ raw.metadataField "uid" = .str uid ∧
    (dependent, child) ∈ objects ∧ child.isOwnedBy uid = true

def Unreferenced (objects : List (ObjectKey × Json)) (uid : String) : Prop :=
  ∀ entry ∈ objects, entry.2.isOwnedBy uid = false

theorem Owns.mono {fewer : List (ObjectKey × Json)} (h : Owns fewer key other)
    (hsub : ∀ entry ∈ fewer, entry ∈ objects) : Owns objects key other := by
  obtain ⟨raw, child, uid, hraw, huid, hchild, howned⟩ := h
  exact ⟨raw, child, uid, hsub _ hraw, huid, hsub _ hchild, howned⟩

/-- A chain of owners in a part of the store is one in the whole. -/
theorem owns_chain_mono {fewer : List (ObjectKey × Json)} (hsub : ∀ entry ∈ fewer, entry ∈ objects)
    (h : Relation.ReflTransGen (Owns fewer) key other) :
    Relation.ReflTransGen (Owns objects) key other :=
  Relation.ReflTransGen.mono (fun _ _ (howns : Owns fewer _ _) => howns.mono hsub) _ _ h

theorem mem_dependents {removed : Json} :
    other ∈ dependents objects removed ↔ ∃ child uid, removed.metadataField "uid" = .str uid ∧
      (other, child) ∈ objects ∧ child.isOwnedBy uid = true := by
  rw [dependents]
  cases htext : (removed.metadataField "uid").text? with
  | none =>
      refine iff_of_false List.not_mem_nil ?_
      rintro ⟨child, uid, huid, -, -⟩
      rw [huid] at htext
      cases htext
  | some uid =>
      have huid := Json.text?_eq_some_iff.mp htext
      simp only [huid, List.mem_map, List.mem_filter, Prod.exists, Json.str.injEq]
      constructor
      · rintro ⟨found, child, ⟨hmem, howned⟩, rfl⟩
        exact ⟨child, uid, rfl, hmem, howned⟩
      · rintro ⟨child, _, rfl, hmem, howned⟩
        exact ⟨other, child, ⟨hmem, howned⟩, rfl⟩

/-! ### The rounds of a collection -/

theorem collect_cons_of_none {rest : List ObjectKey} (h : objects.lookup key = none) :
    collect objects (key :: rest) = collect objects rest := by
  rw [collect]
  split
  · rfl
  · next hsome =>
      rw [h] at hsome
      cases hsome

theorem collect_cons_of_some {rest : List ObjectKey} (h : objects.lookup key = some raw) :
    collect objects (key :: rest) =
      collect (Keyed.erase key objects) (dependents (Keyed.erase key objects) raw ++ rest) := by
  rw [collect]
  split
  · next hnone =>
      rw [h] at hnone
      cases hnone
  · next found hsome =>
      cases Option.some.inj (h.symm.trans hsome)
      rfl

theorem mem_collect {entry : ObjectKey × Json} (h : entry ∈ collect objects keys) :
    entry ∈ objects := by
  induction objects, keys using collect.induct with
  | case1 objects => rwa [collect] at h
  | case2 objects key rest hnone ih =>
      rw [collect_cons_of_none hnone] at h
      exact ih h
  | case3 objects key rest removed hfound left ih =>
      rw [collect_cons_of_some hfound] at h
      exact (Keyed.mem_erase (ih h)).1

theorem lookup_collect_of_mem (hmem : key ∈ keys) : (collect objects keys).lookup key = none := by
  have stays {objects : List (ObjectKey × Json)} {keys : List ObjectKey}
      (h : objects.lookup key = none) : (collect objects keys).lookup key = none := by
    refine Option.eq_none_iff_forall_ne_some.mpr fun raw hraw => ?_
    rw [lookup_collect_imp hraw] at h
    cases h
  induction objects, keys using collect.induct with
  | case1 objects => exact absurd hmem List.not_mem_nil
  | case2 objects first rest hnone ih =>
      rw [collect_cons_of_none hnone]
      rcases List.mem_cons.mp hmem with rfl | hmem
      · exact stays hnone
      · exact ih hmem
  | case3 objects first rest removed hfound left ih =>
      rw [collect_cons_of_some hfound]
      rcases List.mem_cons.mp hmem with rfl | hmem
      · exact stays (Keyed.lookup_erase_self _ _)
      · exact ih (List.mem_append_right _ hmem)

/-- Whatever a collection removes is one of its keys, or belongs to one at some remove. -/
theorem exists_owns_of_collect
    (hgone : (collect objects keys).lookup other ≠ objects.lookup other) :
    ∃ key ∈ keys, Relation.ReflTransGen (Owns objects) key other := by
  induction objects, keys using collect.induct with
  | case1 objects =>
      rw [collect] at hgone
      exact absurd rfl hgone
  | case2 objects first rest hnone ih =>
      rw [collect_cons_of_none hnone] at hgone
      obtain ⟨key, hkey, howns⟩ := ih hgone
      exact ⟨key, List.mem_cons_of_mem _ hkey, howns⟩
  | case3 objects first rest removed hfound left ih =>
      rw [collect_cons_of_some hfound] at hgone
      by_cases heq : other = first
      · exact ⟨first, List.mem_cons_self, heq ▸ .refl⟩
      · have hleft : left.lookup other = objects.lookup other := Keyed.lookup_erase_of_ne heq _
        rw [← hleft] at hgone
        obtain ⟨key, hkey, howns⟩ := ih hgone
        have hsub : ∀ entry ∈ left, entry ∈ objects := fun _ h => (Keyed.mem_erase h).1
        replace howns := owns_chain_mono hsub howns
        rcases List.mem_append.mp hkey with hdependent | hrest
        · -- the object that went first owned the one that the chain begins with
          obtain ⟨child, uid, huid, hmem, howned⟩ := mem_dependents.mp hdependent
          refine ⟨first, List.mem_cons_self, howns.head ?_⟩
          exact ⟨removed, child, uid, Keyed.mem_of_lookup hfound, huid, hsub _ hmem, howned⟩
        · exact ⟨key, List.mem_cons_of_mem _ hrest, howns⟩

/-- An object that nobody owns stays, unless the collection begins with it. -/
theorem lookup_collect_of_unowned (hkey : other ∉ keys)
    (hunowned : ∀ raw uid, (other, raw) ∈ objects → raw.isOwnedBy uid = false) :
    (collect objects keys).lookup other = objects.lookup other := by
  by_contra hgone
  obtain ⟨key, hmem, howns⟩ := exists_owns_of_collect hgone
  rcases howns.cases_tail with rfl | ⟨owner, -, raw, child, uid, -, -, hchild, howned⟩
  · exact hkey hmem
  · rw [hunowned child uid hchild] at howned
    cases howned

/-- Nothing that a removed object owned is left. -/
theorem unreferenced_collect (hgone : (collect objects keys).lookup key = none)
    (hraw : objects.lookup key = some raw) (huid : raw.metadataField "uid" = .str uid) :
    Unreferenced (collect objects keys) uid := by
  induction objects, keys using collect.induct with
  | case1 objects =>
      rw [collect] at hgone
      cases hgone.symm.trans hraw
  | case2 objects first rest hnone ih =>
      rw [collect_cons_of_none hnone] at hgone ⊢
      exact ih hgone hraw
  | case3 objects first rest removed hfound left ih =>
      rw [collect_cons_of_some hfound] at hgone ⊢
      by_cases heq : key = first
      · subst heq
        obtain rfl : raw = removed := Option.some.inj (hraw.symm.trans hfound)
        intro entry hentry
        by_contra howned
        rw [Bool.not_eq_false] at howned
        -- it would be a dependent of the object, and those are collected next
        have hdependent : entry.1 ∈ dependents left raw :=
          mem_dependents.mpr ⟨entry.2, uid, huid, mem_collect hentry, howned⟩
        have hnone : (collect left (dependents left raw ++ rest)).lookup entry.1 = none :=
          lookup_collect_of_mem (List.mem_append_left rest hdependent)
        obtain ⟨found, hfound⟩ := Keyed.exists_lookup_of_mem hentry
        cases hnone.symm.trans hfound
      · exact ih hgone ((Keyed.lookup_erase_of_ne heq _).trans hraw)

theorem sorted_collect (h : Keyed.Sorted objects) : Keyed.Sorted (collect objects keys) := by
  induction objects, keys using collect.induct with
  | case1 objects => rwa [collect]
  | case2 objects first rest hnone ih =>
      rw [collect_cons_of_none hnone]
      exact ih h
  | case3 objects first rest removed hfound left ih =>
      rw [collect_cons_of_some hfound]
      exact ih (Keyed.sorted_erase _ h)

/-- Whatever belongs to a key of a collection is removed, through however many owners and whichever of
them goes first. -/
theorem lookup_collect_of_owns (hsorted : Keyed.Sorted objects) (hkey : key ∈ keys)
    (h : Relation.ReflTransGen (Owns objects) key other) :
    (collect objects keys).lookup other = none := by
  induction h with
  | refl => exact lookup_collect_of_mem hkey
  | @tail owner dependent _ howns ih =>
      obtain ⟨raw, child, uid, hraw, huid, hchild, howned⟩ := howns
      have hunreferenced : Unreferenced (collect objects keys) uid :=
        unreferenced_collect ih ((Keyed.lookup_eq_some_iff_mem hsorted).mpr hraw) huid
      refine Option.eq_none_iff_forall_ne_some.mpr fun left hleft => ?_
      have hsame : objects.lookup dependent = some child :=
        (Keyed.lookup_eq_some_iff_mem hsorted).mpr hchild
      cases (lookup_collect_imp hleft).symm.trans hsame
      rw [hunreferenced _ (Keyed.mem_of_lookup hleft)] at howned
      cases howned

/-! ### Completed deletions -/

theorem settle_of_released (hget : m.get? key = some raw) (h : raw.isReleased = true) :
    (m.settle key).objects = collect m.objects [key] := by
  rw [settle, hget]
  simp only [h, if_true]

/-- What goes with an object that was written belonged to it before the write, at some remove. -/
theorem Stores.owns_of_collect (h : Stores m key raw m') (hlive : m.get? key = some live)
    (huid : raw.metadataField "uid" = live.metadataField "uid") (hne : other ≠ key)
    (hgone : (collect m'.objects [key]).lookup other ≠ m.get? other) :
    Relation.TransGen (Owns m.objects) key other := by
  have hlookup : m'.objects.lookup key = some raw := h.get?_self
  have hleft : (Keyed.erase key m'.objects).lookup other = m.get? other :=
    (Keyed.lookup_erase_of_ne hne _).trans (h.get?_of_ne hne)
  rw [collect_cons_of_some hlookup, List.append_nil, ← hleft] at hgone
  obtain ⟨first, hfirst, howns⟩ := exists_owns_of_collect hgone
  -- what is left besides the object was there before it was written
  have hsub : ∀ entry ∈ Keyed.erase key m'.objects, entry ∈ m.objects := by
    intro entry hentry
    obtain ⟨hmem, hname⟩ := Keyed.mem_erase hentry
    rw [h.objects] at hmem
    exact (Keyed.mem_insert hmem).resolve_left fun heq => hname (heq ▸ rfl)
  obtain ⟨child, uid, hchild, hmem, howned⟩ := mem_dependents.mp hfirst
  refine .head' ?_ (owns_chain_mono hsub howns)
  exact ⟨live, child, uid, Keyed.mem_of_lookup hlive, huid ▸ hchild, hsub _ hmem, howned⟩

theorem Stores.sorted (h : Stores m key raw m') (hm : Keyed.Sorted m.objects) :
    Keyed.Sorted m'.objects := by
  rw [h.objects]
  exact Keyed.sorted_insert _ _ hm

/-- A write under a uid that stays leaves the ownership of all other objects as it is. -/
theorem Stores.owns {dependent : ObjectKey} (h : Stores m key raw m') (hm : Keyed.Sorted m.objects)
    (hlive : m.get? key = some live) (huid : raw.metadataField "uid" = live.metadataField "uid")
    (hne : dependent ≠ key) (howns : Owns m.objects other dependent) :
    Owns m'.objects other dependent := by
  obtain ⟨owner, child, uid, howner, hownerUid, hchild, howned⟩ := howns
  have hstays {k : ObjectKey} {v : Json} (hk : k ≠ key) (hmem : (k, v) ∈ m.objects) :
      (k, v) ∈ m'.objects := by
    rw [← Keyed.lookup_eq_some_iff_mem (h.sorted hm)]
    exact (h.get?_of_ne hk).trans ((Keyed.lookup_eq_some_iff_mem hm).mpr hmem)
  by_cases heq : other = key
  · subst heq
    cases ((Keyed.lookup_eq_some_iff_mem hm).mpr howner).symm.trans hlive
    exact ⟨raw, child, uid, Keyed.mem_of_lookup h.get?_self, huid.trans hownerUid,
      hstays hne hchild, howned⟩
  · exact ⟨owner, child, uid, hstays heq howner, hownerUid, hstays hne hchild, howned⟩

/-- All that belonged to an object before it was written goes with it. -/
theorem Stores.lookup_collect_of_owns (h : Stores m key raw m') (hm : Keyed.Sorted m.objects)
    (hlive : m.get? key = some live) (huid : raw.metadataField "uid" = live.metadataField "uid")
    (howns : Relation.ReflTransGen (Owns m.objects) key other) :
    (collect m'.objects [key]).lookup other = none := by
  refine Memory.lookup_collect_of_owns (h.sorted hm) (List.mem_singleton_self key) ?_
  induction howns with
  | refl => exact .refl
  | @tail owner dependent _ hlast ih =>
      -- the chain may come back to the object, and begins anew there
      by_cases heq : dependent = key
      · exact heq ▸ .refl
      · exact ih.tail (h.owns hm hlive huid heq hlast)

/-- Another object stays, or goes with the one that was written. -/
theorem Stores.settle_get?_of_ne (h : Stores m key raw m') (hlive : m.get? key = some live)
    (huid : raw.metadataField "uid" = live.metadataField "uid") (hne : other ≠ key) :
    (m'.settle key).get? other = m.get? other ∨
      (m'.settle key).get? other = none ∧ (m'.settle key).get? key = none ∧
        Relation.TransGen (Owns m.objects) key other := by
  cases hreleased : raw.isReleased with
  | false =>
      rw [settle_of_not_released h.get?_self hreleased]
      exact .inl (h.get?_of_ne hne)
  | true =>
      have hcollected := settle_of_released h.get?_self hreleased
      by_cases hkept : (m'.settle key).get? other = m.get? other
      · exact .inl hkept
      · refine .inr ⟨?_, ?_, ?_⟩
        · refine Option.eq_none_iff_forall_ne_some.mpr fun left hleft => hkept ?_
          rw [hleft, ← h.get?_of_ne hne, settle_get?_imp hleft]
        · rw [Memory.get?, hcollected]
          exact lookup_collect_of_mem (List.mem_singleton_self key)
        · rw [Memory.get?, hcollected] at hkept
          exact h.owns_of_collect hlive huid hne hkept

/-! ### Stores are sorted -/

theorem sorted_settle (h : Keyed.Sorted m.objects) (key : ObjectKey) :
    Keyed.Sorted (m.settle key).objects := by
  rw [settle]
  split
  · split
    · exact sorted_collect h
    · exact h
  · exact h

theorem Edit.sorted (h : Edit m m') (hm : Keyed.Sorted m.objects) : Keyed.Sorted m'.objects := by
  have refused {m' : Memory} (h : Refuses m m') : Keyed.Sorted m'.objects := h.objects ▸ hm
  cases h with
  | call call =>
      cases call with
      | get key => exact hm
      | create object =>
          rcases m.create_cases object with ⟨_, -, h⟩ | ⟨_, _, -, -, -, -, h⟩
          · exact refused h
          · exact h.sorted hm
      | patch key patch =>
          rcases m.patch_cases key patch with ⟨_, -, h⟩ | ⟨_, _, _, -, -, -, h, hsettle⟩
          · exact refused h
          · rw [perform, hsettle]
            exact sorted_settle (h.sorted hm) key
      | update object =>
          rcases m.update_cases object with ⟨_, -, h⟩ | ⟨key, _, _, _, -, -, -, -, -, h, hsettle⟩
          · exact refused h
          · rw [perform, hsettle]
            exact sorted_settle (h.sorted hm) key
  | delete key =>
      rcases m.delete_cases key with ⟨-, hsame⟩ | ⟨_, _, -, h, hsettle⟩
      · rwa [hsame]
      · rw [hsettle]
        exact sorted_settle (h.sorted hm) key
  | remove key => exact Keyed.sorted_erase _ hm
  | tamper h =>
      obtain ⟨_, -, h⟩ := exists_of_tamper h
      exact h.sorted hm
  | fail failures => exact hm

theorem Reachable.sorted (h : m.Reachable) : Keyed.Sorted m.objects := by
  induction h with
  | refl => exact Keyed.sorted_nil
  | tail _ hedit ih => exact hedit.sorted ih

end Memory

end ClusterKeeper
