import ClusterKeeper.Json.Pointer
import ClusterKeeper.Proofs.Json.Canonical

/-!
What a merge patch does, member by member. A value that was patched satisfies the patch, and a patch
that is satisfied alters nothing.
-/

namespace ClusterKeeper.Json

theorem mergeMembers_cons_null (live : Members) (name : String) (rest : Members) :
    mergeMembers live ((name, .null) :: rest) = mergeMembers (Keyed.erase name live) rest := by
  rw [mergeMembers]

theorem mergeMembers_cons (live : Members) {name : String} {patch : Json} (rest : Members)
    (h : patch ≠ .null) :
    mergeMembers live ((name, patch) :: rest) =
      mergeMembers (Keyed.insert name (merge ((live.lookup name).getD .null) patch) live) rest := by
  rw [mergeMembers]
  exact h

theorem merge_of_members?_eq_none {patch : Json} (live : Json) (h : patch.members? = none) :
    merge live patch = patch := by
  cases patch with
  | obj members => simp [members?] at h
  | _ => rfl

theorem merge_obj (live : Json) (patch : Members) :
    merge live (.obj patch) = .obj (mergeMembers live.members patch) := rfl

def mergeMember (live : Option Json) : Option Json → Option Json
  | none => live
  | some .null => none
  | some patch => some (merge (live.getD .null) patch)

theorem mergeMember_of_ne_null {patch : Json} (live : Option Json) (h : patch ≠ .null) :
    mergeMember live (some patch) = some (merge (live.getD .null) patch) := by
  cases patch <;> first | exact absurd rfl h | rfl

theorem lookup_mergeMembers {patch : Members} (live : Members) (name : String)
    (h : Keyed.Sorted patch) :
    (mergeMembers live patch).lookup name = mergeMember (live.lookup name) (patch.lookup name) := by
  induction patch generalizing live with
  | nil => rfl
  | cons member rest ih =>
      obtain ⟨key, value⟩ := member
      obtain ⟨hlt, hrest⟩ := Keyed.sorted_cons.mp h
      have hkey : rest.lookup key = none :=
        Keyed.lookup_eq_none_of_forall_ne fun e he heq => String.lt_irrefl _ (heq ▸ hlt e he)
      by_cases hnull : value = .null
      · subst hnull
        rw [mergeMembers_cons_null, ih _ hrest]
        by_cases hname : name = key
        · subst hname
          rw [hkey, List.lookup_cons_self, Keyed.lookup_erase_self]
          rfl
        · rw [List.lookup_cons, show (name == key) = false by simpa using hname,
            Keyed.lookup_erase_of_ne hname]
      · rw [mergeMembers_cons live rest hnull, ih _ hrest]
        by_cases hname : name = key
        · subst hname
          rw [hkey, List.lookup_cons_self, Keyed.lookup_insert_self,
            mergeMember_of_ne_null _ hnull]
          rfl
        · rw [List.lookup_cons, show (name == key) = false by simpa using hname,
            Keyed.lookup_insert_of_ne hname]

theorem get?_merge_obj (live : Json) {patch : Members} (name : String)
    (h : Keyed.Sorted patch) :
    (merge live (.obj patch)).get? name = mergeMember (live.get? name) (patch.lookup name) :=
  lookup_mergeMembers live.members name h

mutual

theorem isCanonical_merge : ∀ {live : Json} (patch : Json), live.isCanonical = true →
    patch.isCanonical = true → (merge live patch).isCanonical = true
  | live, .obj patch, hlive, hpatch => by
      rw [merge_obj]
      refine isCanonical_mergeMembers patch ?_ fun m hm => ((isCanonical_obj patch).mp hpatch).2 m hm
      cases live with
      | obj members => exact hlive
      | _ => simp [Json.members]
  | _, .null, _, _ | _, .bool _, _, _ | _, .num _, _, _ | _, .str _, _, _ => rfl
  | _, .arr _, _, hpatch => hpatch

theorem isCanonical_mergeMembers : ∀ {live : Members} (patch : Members),
    isCanonical (.obj live) = true → (∀ member ∈ patch, member.2.isCanonical = true) →
      isCanonical (.obj (mergeMembers live patch)) = true
  | _, [], hlive, _ => hlive
  | live, (name, value) :: rest, hlive, hpatch => by
      rw [List.forall_mem_cons] at hpatch
      by_cases hnull : value = .null
      · subst hnull
        rw [mergeMembers_cons_null]
        exact isCanonical_mergeMembers rest (isCanonical_drop name hlive) hpatch.2
      · rw [mergeMembers_cons live rest hnull]
        have hfound : isCanonical ((live.lookup name).getD .null) = true := isCanonical_get name hlive
        have hset : isCanonical ((obj live).set name
            (merge ((live.lookup name).getD .null) value)) = true :=
          isCanonical_set name hlive (isCanonical_merge value hfound hpatch.1)
        exact isCanonical_mergeMembers rest hset hpatch.2

end

mutual

theorem isPlain_merge : ∀ {live : Json} (patch : Json),
    (∀ member ∈ live.members, member.2.isPlain = true) → patch.isPlain = true →
      (merge live patch).isPlain = true
  | live, .obj patch, hlive, hpatch => by
      rw [merge_obj, isPlain_obj]
      exact isPlain_mergeMembers patch hlive ((isPlain_obj patch).mp hpatch)
  | _, .null, _, hpatch | _, .bool _, _, hpatch | _, .num _, _, hpatch | _, .str _, _, hpatch
  | _, .arr _, _, hpatch => hpatch

theorem isPlain_mergeMembers : ∀ {live : Members} (patch : Members),
    (∀ member ∈ live, member.2.isPlain = true) → (∀ member ∈ patch, member.2.isPlain = true) →
      ∀ member ∈ mergeMembers live patch, member.2.isPlain = true
  | _, [], hlive, _ => hlive
  | live, (name, value) :: rest, hlive, hpatch => by
      rw [List.forall_mem_cons] at hpatch
      rw [mergeMembers_cons live rest (ne_null_of_isPlain hpatch.1)]
      refine isPlain_mergeMembers rest (fun member hmember => ?_) hpatch.2
      rcases Keyed.mem_insert hmember with rfl | hmember
      · refine isPlain_merge value ?_ hpatch.1
        cases hfound : live.lookup name with
        | none => exact nofun
        | some found => exact isPlain_of_mem_members (hlive _ (Keyed.mem_of_lookup hfound))
      · exact hlive member hmember

end

theorem merge_ne_null {patch : Json} (live : Json) (h : patch ≠ .null) :
    merge live patch ≠ .null := by
  cases patch with
  | null => exact absurd rfl h
  | obj members => exact nofun
  | _ => exact h

/-- A plain patch makes itself of nothing. -/
theorem merge_null {patch : Json} (hplain : patch.isPlain = true)
    (hpatch : patch.isCanonical = true) : merge .null patch = patch := by
  induction patch using induction with
  | obj patch ih =>
      obtain ⟨hsorted, hcanonical⟩ := (isCanonical_obj patch).mp hpatch
      rw [isPlain_obj] at hplain
      have hmerged : (merge .null (.obj patch)).isCanonical = true :=
        isCanonical_merge _ isCanonical_null hpatch
      rw [merge_obj] at hmerged ⊢
      refine obj_ext ((isCanonical_obj _).mp hmerged).1 hsorted fun name => ?_
      rw [lookup_mergeMembers _ name hsorted]
      cases hfound : patch.lookup name with
      | none => rfl
      | some value =>
          have hmem := Keyed.mem_of_lookup hfound
          rw [mergeMember_of_ne_null _ (ne_null_of_isPlain (hplain _ hmem))]
          exact congrArg some (ih _ hmem (hplain _ hmem) (hcanonical _ hmem))
  | _ => rfl

def satisfiesMember (live : Option Json) : Json → Prop
  | .null => live = none
  | patch => ∃ value, live = some value ∧ value.satisfies patch = true

theorem satisfiesMember_of_ne_null {live : Option Json} {patch : Json} (h : patch ≠ .null) :
    satisfiesMember live patch ↔ ∃ value, live = some value ∧ value.satisfies patch = true := by
  cases patch <;> first | exact absurd rfl h | rfl

theorem satisfiesMembers_iff (live patch : Members) :
    satisfiesMembers live patch = true ↔
      ∀ member ∈ patch, satisfiesMember (live.lookup member.1) member.2 := by
  induction patch with
  | nil => simp [satisfiesMembers]
  | cons member rest ih =>
      obtain ⟨name, patch⟩ := member
      rw [List.forall_mem_cons, ← ih]
      by_cases hnull : patch = .null
      · subst hnull
        rw [satisfiesMembers.eq_2, Bool.and_eq_true, Option.isNone_iff_eq_none]
        rfl
      · rw [satisfiesMember_of_ne_null hnull]
        cases hfound : live.lookup name with
        | none =>
            rw [satisfiesMembers.eq_4 live name rest patch hnull hfound]
            simp
        | some value =>
            rw [satisfiesMembers.eq_3 live name rest patch value hnull hfound]
            simp

theorem satisfies_obj_iff (live : Json) (patch : Members) :
    live.satisfies (.obj patch) = true ↔
      (∃ members, live = .obj members) ∧
        ∀ member ∈ patch, satisfiesMember (live.get? member.1) member.2 := by
  cases live with
  | obj members =>
      rw [satisfies, satisfiesMembers_iff]
      simp [get?, Json.members]
  | _ => simp [satisfies]

theorem satisfies_of_members?_eq_none {patch : Json} (live : Json) (h : patch.members? = none) :
    live.satisfies patch = patch.same live := by
  cases patch with
  | obj members => simp [members?] at h
  | _ => rfl

theorem ne_null_of_satisfies {live patch : Json} (hpatch : patch ≠ .null)
    (h : live.satisfies patch = true) : live ≠ .null := by
  rintro rfl
  cases patch with
  | null => exact hpatch rfl
  | obj members => exact absurd ((satisfies_obj_iff _ _).mp h).1 (by simp)
  | _ => simp [satisfies, same] at h

theorem get?_of_satisfies {live patch change : Json} {name : String}
    (h : live.satisfies patch = true) (hpatch : patch.get? name = some change)
    (hnull : change ≠ .null) : ∃ value, live.get? name = some value ∧
      value.satisfies change = true := by
  cases patch with
  | obj members =>
      have hmember := ((satisfies_obj_iff live members).mp h).2 _ (Keyed.mem_of_lookup hpatch)
      exact (satisfiesMember_of_ne_null hnull).mp hmember
  | _ => cases hpatch

theorem get?_of_satisfies_str {live patch : Json} {name text : String}
    (h : live.satisfies patch = true) (hpatch : patch.get? name = some (.str text)) :
    live.get? name = some (.str text) := by
  obtain ⟨value, hvalue, hsatisfied⟩ := get?_of_satisfies h hpatch nofun
  rw [hvalue, eq_of_same rfl hsatisfied]

theorem satisfies_set {live value : Json} {patch : Members} {name : String}
    (h : live.satisfies (.obj patch) = true)
    (hname : ∀ change, (name, change) ∈ patch → change ≠ .null ∧ value.satisfies change = true) :
    (live.set name value).satisfies (.obj patch) = true := by
  rw [satisfies_obj_iff] at h ⊢
  refine ⟨⟨_, rfl⟩, ?_⟩
  rintro ⟨other, change⟩ hmem
  by_cases heq : other = name
  · subst heq
    obtain ⟨hnull, hsatisfied⟩ := hname change hmem
    rw [satisfiesMember_of_ne_null hnull, get?_set_self]
    exact ⟨value, rfl, hsatisfied⟩
  · rw [get?_set_of_ne heq]
    exact h.2 _ hmem

theorem satisfies_drop {live : Json} {patch : Members} {name : String}
    (h : live.satisfies (.obj patch) = true) (hname : patch.lookup name = none) :
    (live.drop name).satisfies (.obj patch) = true := by
  rw [satisfies_obj_iff] at h ⊢
  obtain ⟨⟨members, rfl⟩, hmembers⟩ := h
  refine ⟨⟨_, rfl⟩, ?_⟩
  rintro ⟨other, change⟩ hmem
  have hne : other ≠ name := by
    rintro rfl
    obtain ⟨found, hfound⟩ := Keyed.exists_lookup_of_mem hmem
    rw [hname] at hfound
    cases hfound
  change satisfiesMember ((Keyed.erase name members).lookup other) change
  rw [Keyed.lookup_erase_of_ne hne]
  exact hmembers _ hmem

/-- Sending a patch once is enough. -/
theorem satisfies_merge (live : Json) {patch : Json} (h : patch.isCanonical = true) :
    (merge live patch).satisfies patch = true := by
  induction patch using induction generalizing live with
  | obj patch ih =>
      obtain ⟨hsorted, hcanonical⟩ := (isCanonical_obj patch).mp h
      rw [satisfies_obj_iff]
      refine ⟨⟨_, merge_obj live patch⟩, ?_⟩
      rintro ⟨name, value⟩ hmember
      rw [get?_merge_obj live name hsorted, (Keyed.lookup_eq_some_iff_mem hsorted).mpr hmember]
      by_cases hnull : value = .null
      · subst hnull
        rfl
      · rw [satisfiesMember_of_ne_null hnull]
        exact ⟨_, mergeMember_of_ne_null _ hnull, ih _ hmember _ (hcanonical _ hmember)⟩
  | _ => simp [merge, satisfies]

theorem satisfies_self {json : Json} (hplain : json.isPlain = true)
    (hcanonical : json.isCanonical = true) : json.satisfies json = true := by
  have h := satisfies_merge .null hcanonical
  rwa [merge_null hplain hcanonical] at h

/-- What agrees with a value on all that the value has, has all of it. -/
theorem satisfies_of_agrees {live : Json} {patch : Members}
    (hself : (obj patch).satisfies (.obj patch) = true) (hlive : ∃ members, live = .obj members)
    (h : ∀ member ∈ patch, live.get? member.1 = (obj patch).get? member.1) :
    live.satisfies (.obj patch) = true := by
  refine (satisfies_obj_iff live patch).mpr ⟨hlive, fun member hmember => ?_⟩
  rw [h member hmember]
  exact ((satisfies_obj_iff _ patch).mp hself).2 member hmember

/-- What a satisfied patch makes of a value is the value. -/
theorem same_merge_of_satisfies {live patch : Json} (hlive : live.isCanonical = true)
    (hpatch : patch.isCanonical = true) (h : live.satisfies patch = true) :
    (merge live patch).same live = true := by
  induction patch using induction generalizing live with
  | obj patch ih =>
      obtain ⟨⟨members, rfl⟩, hmembers⟩ := (satisfies_obj_iff live patch).mp h
      obtain ⟨hsorted, hcanonical⟩ := (isCanonical_obj patch).mp hpatch
      obtain ⟨hlsorted, hlcanonical⟩ := (isCanonical_obj members).mp hlive
      have hmerged := isCanonical_merge (.obj patch) hlive hpatch
      rw [merge_obj] at hmerged ⊢
      rw [same, sameMembers_iff]
      refine Keyed.forall₂_of_sorted (R := fun a b => a.same b = true)
        ((isCanonical_obj _).mp hmerged).1 hlsorted fun name => ?_
      change Option.Rel _ ((mergeMembers members patch).lookup name) _
      rw [lookup_mergeMembers members name hsorted]
      cases hpatched : patch.lookup name with
      | none =>
          change Option.Rel _ (members.lookup name) _
          cases members.lookup name with
          | none => exact .none
          | some value => exact .some (same_refl value)
      | some value =>
          have hmem := Keyed.mem_of_lookup hpatched
          have hmember : satisfiesMember (members.lookup name) value := hmembers _ hmem
          by_cases hnull : value = .null
          · subst hnull
            rw [show members.lookup name = none from hmember]
            exact .none
          · obtain ⟨found, hfound, hsatisfied⟩ := (satisfiesMember_of_ne_null hnull).mp hmember
            have hsame : (merge found value).same found = true :=
              ih _ hmem (hlcanonical _ (Keyed.mem_of_lookup hfound)) (hcanonical _ hmem) hsatisfied
            rw [hfound, mergeMember_of_ne_null _ hnull]
            exact .some hsame
  | _ => exact h

/-- A plain patch that is satisfied leaves a value as it is. -/
theorem merge_of_satisfies {live patch : Json} (hlive : live.isCanonical = true)
    (hpatch : patch.isCanonical = true) (hplain : patch.isPlain = true)
    (h : live.satisfies patch = true) : merge live patch = live := by
  induction patch using induction generalizing live with
  | obj patch ih =>
      obtain ⟨⟨members, rfl⟩, hmembers⟩ := (satisfies_obj_iff live patch).mp h
      obtain ⟨hsorted, hcanonical⟩ := (isCanonical_obj patch).mp hpatch
      obtain ⟨hlsorted, hlcanonical⟩ := (isCanonical_obj members).mp hlive
      rw [isPlain_obj] at hplain
      have hmerged := isCanonical_merge (.obj patch) hlive hpatch
      rw [merge_obj] at hmerged ⊢
      refine obj_ext ((isCanonical_obj _).mp hmerged).1 hlsorted fun name => ?_
      change (mergeMembers members patch).lookup name = _
      rw [lookup_mergeMembers members name hsorted]
      cases hpatched : patch.lookup name with
      | none => rfl
      | some value =>
          have hmem := Keyed.mem_of_lookup hpatched
          have hmember : satisfiesMember (members.lookup name) value := hmembers _ hmem
          have hnull := ne_null_of_isPlain (hplain _ hmem)
          obtain ⟨found, hfound, hsatisfied⟩ := (satisfiesMember_of_ne_null hnull).mp hmember
          have hmerge : merge found value = found :=
            ih _ hmem (hlcanonical _ (Keyed.mem_of_lookup hfound)) (hcanonical _ hmem)
              (hplain _ hmem) hsatisfied
          rw [hfound, mergeMember_of_ne_null _ hnull]
          exact congrArg some hmerge
  | _ => exact eq_of_same hplain h

/-- A patch leaves a plain value as it is just if the value satisfies the patch. -/
theorem merge_eq_self_iff {live patch : Json} (hlive : live.isCanonical = true)
    (hplain : live.isPlain = true) (hpatch : patch.isCanonical = true)
    (hpatchplain : patch.isPlain = true) :
    merge live patch = live ↔ live.satisfies patch = true := by
  constructor
  · intro h
    rw [← h]
    exact satisfies_merge live hpatch
  · intro h
    exact eq_of_same (isPlain_merge patch (isPlain_of_mem_members hplain) hpatchplain)
      (same_merge_of_satisfies hlive hpatch h)

theorem satisfies_of_same {value live patch : Json} (h : value.satisfies patch = true)
    (hsame : value.same live = true) : live.satisfies patch = true := by
  induction patch using induction generalizing value live with
  | obj patch ih =>
      obtain ⟨⟨members, rfl⟩, hmembers⟩ := (satisfies_obj_iff value patch).mp h
      cases live with
      | obj others =>
          rw [same, sameMembers_iff] at hsame
          refine (satisfies_obj_iff _ patch).mpr ⟨⟨others, rfl⟩, fun member hmem => ?_⟩
          have hrel := Keyed.rel_lookup_of_forall₂ (R := fun a b : Json => a.same b = true) hsame
            member.1
          have hmember : satisfiesMember (members.lookup member.1) member.2 := hmembers _ hmem
          change satisfiesMember (others.lookup member.1) member.2
          generalize others.lookup member.1 = other at hrel ⊢
          by_cases hnull : member.2 = .null
          · rw [hnull] at hmember ⊢
            rw [show members.lookup member.1 = none from hmember] at hrel
            cases hrel
            rfl
          · obtain ⟨found, hfound, hsatisfied⟩ := (satisfiesMember_of_ne_null hnull).mp hmember
            rw [hfound] at hrel
            cases hrel with
            | some hvalue =>
                exact (satisfiesMember_of_ne_null hnull).mpr ⟨_, rfl, ih _ hmem hsatisfied hvalue⟩
      | _ => simp [same] at hsame
  | _ => exact same_trans h hsame

theorem satisfies_of_patchChanges_eq_false {live patch : Json} (hpatch : patch.isCanonical = true)
    (h : live.patchChanges patch = false) : live.satisfies patch = true := by
  rw [patchChanges, Bool.not_eq_false'] at h
  exact satisfies_of_same (satisfies_merge live hpatch) h

theorem patchChanges_eq_false_of_satisfies {live patch : Json} (hlive : live.isCanonical = true)
    (hpatch : patch.isCanonical = true) (h : live.satisfies patch = true) :
    live.patchChanges patch = false := by
  rw [patchChanges, same_merge_of_satisfies hlive hpatch h]
  rfl

/-- A patch is not needed just if the value has what it gives and lacks what it drops, and after it
was sent once it is not needed. -/
theorem patchChanges_decides (live patch : Json) (hlive : live.isCanonical = true)
    (hpatch : patch.isCanonical = true) :
    (live.patchChanges patch = false ↔ live.satisfies patch = true) ∧
      (merge live patch).patchChanges patch = false := by
  refine ⟨⟨?_, ?_⟩, ?_⟩
  · exact satisfies_of_patchChanges_eq_false hpatch
  · exact patchChanges_eq_false_of_satisfies hlive hpatch
  · exact patchChanges_eq_false_of_satisfies (isCanonical_merge patch hlive hpatch) hpatch
      (satisfies_merge live hpatch)

/-- A null under a missing member makes an empty object of it, so such a patch is needed once. -/
theorem patchChanges_decides_null_below_missing :
    (obj []).patchChanges (.obj [("spec", .obj [("status", .null)])]) = true ∧
      merge (.obj []) (.obj [("spec", .obj [("status", .null)])]) = .obj [("spec", .obj [])] ∧
      (merge (.obj []) (.obj [("spec", .obj [("status", .null)])])).patchChanges
        (.obj [("spec", .obj [("status", .null)])]) = false := by
  have h := patchChanges_decides (.obj []) (.obj [("spec", .obj [("status", .null)])]) rfl
    (by decide)
  refine ⟨?_, rfl, h.2⟩
  rw [← Bool.not_eq_false, h.1]
  decide

end ClusterKeeper.Json
