import ClusterKeeper.Proofs.Json.Merge
import ClusterKeeper.Proofs.Schema.Rereading

/-!
Reading and merging. A patch in written form may be merged into a document before it is read or into
what was read of it: by a regular schema both come to the same. So a value that the patch was merged
into stays readable, and what a value has of the patch, its written form has.
-/

namespace ClusterKeeper

namespace Json

/-- Of a value a patch sees the members only. -/
theorem merge_congr {live other : Json} (patch : Json) (h : live.members = other.members) :
    live.merge patch = other.merge patch := by
  cases patch with
  | obj changes => rw [merge_obj, merge_obj, h]
  | _ => rfl

theorem isFieldSet_merge {live patch : Json} (hlive : live.isCanonical = true)
    (hpatch : patch.isCanonical = true) (hfields : live.isFieldSet = true)
    (hchange : patch.isFieldSet = true) : (live.merge patch).isFieldSet = true := by
  induction patch using induction generalizing live with
  | obj changes ih =>
      cases live with
      | obj members =>
          have hsorted := sorted_members (isCanonical_merge (.obj changes) hlive hpatch)
          rw [isCanonical_obj] at hlive hpatch
          rw [isFieldSet_obj] at hfields hchange
          rw [merge_obj, isFieldSet_obj]
          rintro ⟨name, value⟩ hmember
          have hvalue : (mergeMembers members changes).lookup name = some value :=
            (Keyed.lookup_eq_some_iff_mem hsorted).mpr hmember
          rw [lookup_mergeMembers members name hpatch.1] at hvalue
          cases hfound : changes.lookup name with
          | none =>
              rw [hfound] at hvalue
              exact hfields _ (Keyed.mem_of_lookup hvalue)
          | some change =>
              have hmem := Keyed.mem_of_lookup hfound
              have hplain := isPlain_of_isFieldSet (hchange _ hmem)
              rw [hfound, mergeMember_of_ne_null _ (ne_null_of_isPlain hplain)] at hvalue
              cases hvalue
              cases hold : members.lookup name with
              | none =>
                  rw [Option.getD_none, merge_null hplain (hpatch.2 _ hmem)]
                  exact hchange _ hmem
              | some old =>
                  have hmem' := Keyed.mem_of_lookup hold
                  exact ih _ hmem (hlive.2 _ hmem') (hpatch.2 _ hmem) (hfields _ hmem')
                    (hchange _ hmem)
      | _ => exact absurd hfields (by simp [isFieldSet])
  | _ => exact absurd hchange (by simp [isFieldSet])

end Json

namespace Field

/-- What a field without a value comes to has no members but those that an empty record is read with;
a value that it has was read. -/
theorem vacant_or_read {field : Field Schema} (hregular : field.IsRegular)
    (hpresence : ∀ text, field.presence ≠ .constant text) {found written : Option Json}
    (h : field.outcome found = .ok written) :
    (found.getD .null = .null ∧ ((written.getD .null).members = [] ∨
        field.schema.read (.obj []) = .ok (written.getD .null))) ∨
      ∃ value read, found = some value ∧ written = some read ∧
        field.schema.read value = .ok read := by
  by_cases hnull : found.getD .null = .null
  · refine .inl ⟨hnull, ?_⟩
    obtain ⟨name, presence, schema⟩ := field
    cases presence with
    | optional =>
        rcases found with _ | _ | _ | _ | _ | _ | _ <;> cases hnull <;> cases h <;> exact .inl rfl
    | required default =>
        have hdefault := (read_default hregular).2.2
        rcases found with _ | _ | _ | _ | _ | _ | _ <;> cases hnull <;> cases h <;> exact hdefault
    | constant text => exact absurd rfl (hpresence text)
    | _ => exact absurd hregular.1 (by simp [Presence.isRegular])
  · cases found with
    | none => exact absurd rfl hnull
    | some value =>
        obtain ⟨read, hread, hvalue⟩ := read_of_outcome hregular hpresence hnull h
        exact .inr ⟨value, read, rfl, hread, hvalue⟩

/-- What a value has of a written one, the written form of its field has, if reading keeps it. -/
theorem satisfies_of_outcome {field : Field Schema} (hregular : field.IsRegular)
    {value patch : Json} {found : Option Json} (hnull : patch ≠ .null)
    (hpatch : field.outcome (some patch) = .ok (some patch)) (h : value.satisfies patch = true)
    (hfound : field.outcome (some value) = .ok found)
    (hread : ∀ written, field.schema.read value = .ok written →
      field.schema.read patch = .ok patch → written.satisfies patch = true) :
    ∃ written, found = some written ∧ written.satisfies patch = true := by
  rcases constant_or_read hregular hnull hpatch with ⟨text, htext, rfl⟩ | ⟨hconstant, hwritten⟩
  · exact ⟨_, ((outcome_constant htext _ _).mp hfound).1, Json.same_refl _⟩
  · obtain ⟨written, hsome, hvalue⟩ :=
      read_of_outcome hregular hconstant (Json.ne_null_of_satisfies hnull h) hfound
    exact ⟨written, hsome, hread written hvalue hwritten⟩

end Field

namespace Schema

/-- A patch in written form is merged into what was read as it is merged into the document. -/
def Commutes (schema : Schema) : Prop :=
  ∀ live patch written : Json, live.isCanonical = true → patch.isCanonical = true →
    schema.read live = .ok written → schema.read patch = .ok patch →
      schema.read (live.merge patch) = .ok (written.merge patch)

/-- A patch that takes the place of the value takes the place of what was read. -/
theorem Commutes.of_members?_eq_none {schema : Schema}
    (h : ∀ patch, schema.read patch = .ok patch → patch.members? = none) : schema.Commutes := by
  intro live patch written _ _ _ hpatch
  rw [Json.merge_of_members?_eq_none live (h patch hpatch),
    Json.merge_of_members?_eq_none written (h patch hpatch)]
  exact hpatch

theorem Commutes.fieldSet : fieldSet.Commutes := by
  intro live patch written hlive hpatch hread hchange
  obtain ⟨hfields, rfl⟩ := read_fieldSet_iff.mp hread
  have hmerged := Json.isFieldSet_merge hlive hpatch hfields (read_fieldSet_iff.mp hchange).1
  exact read_fieldSet_iff.mpr ⟨hmerged, rfl⟩

/-- A change to one member of a dictionary commutes with reading it, whether the member was there or
not. -/
theorem Commutes.member {value : Schema} (hregular : value.isRegular = true) (h : value.Commutes)
    {live written : Option Json} {change : Json}
    (hlive : ∀ old, live = some old → old.isCanonical = true) (hpatch : change.isCanonical = true)
    (hread : Option.Rel (fun a b => value.read a = .ok b) live written)
    (hself : value.read change = .ok change) :
    Option.Rel (fun a b => value.read a = .ok b) (Json.mergeMember live (some change))
      (Json.mergeMember written (some change)) := by
  have hplain := isPlain_of_isRegular hregular hself
  have hnull := Json.ne_null_of_isPlain hplain
  rw [Json.mergeMember_of_ne_null _ hnull, Json.mergeMember_of_ne_null _ hnull]
  refine .some ?_
  cases hread with
  | none =>
      rw [Option.getD_none, Json.merge_null hplain hpatch]
      exact hself
  | some hvalue => exact h _ _ _ (hlive _ rfl) hpatch hvalue hself

theorem Commutes.dict {value : Schema} (hregular : value.isRegular = true) (h : value.Commutes) :
    (dict value).Commutes := by
  intro live patch written hlive hpatch hread hchange
  have hdict : (Schema.dict value).isRegular = true := by simpa [isRegular] using hregular
  have hwritten := isCanonical_of_read hdict hlive hread
  obtain ⟨members, values, rfl, rfl, hvalues⟩ := (read_dict_iff value live written).mp hread
  obtain ⟨changes, _, rfl, heq, hchanges⟩ := (read_dict_iff value patch patch).mp hchange
  cases heq
  have hmerged := Json.sorted_members (Json.isCanonical_merge (.obj changes) hlive hpatch)
  have hmerged' := Json.sorted_members (Json.isCanonical_merge (.obj changes) hwritten hpatch)
  rw [Json.isCanonical_obj] at hlive hpatch
  rw [Json.merge_obj, Json.merge_obj]
  refine (read_dict_iff value _ _).mpr ⟨_, _, rfl, rfl,
    Keyed.forall₂_of_sorted (R := fun a b => value.read a = .ok b) hmerged hmerged' fun name => ?_⟩
  change Option.Rel _ ((Json.mergeMembers members changes).lookup name)
    ((Json.mergeMembers values changes).lookup name)
  rw [Json.lookup_mergeMembers members name hpatch.1, Json.lookup_mergeMembers values name hpatch.1]
  have hrel : Option.Rel (fun a b => value.read a = .ok b) (members.lookup name)
    (values.lookup name) := Keyed.rel_lookup_of_forall₂ hvalues name
  cases hfound : changes.lookup name with
  | none => exact hrel
  | some change =>
      have hmem := Keyed.mem_of_lookup hfound
      exact h.member hregular (fun old hold => hlive.2 _ (Keyed.mem_of_lookup hold)) (hpatch.2 _ hmem)
        hrel (List.forall₂_same.mp hchanges _ hmem).2

/-- A change to a field of a record commutes with reading the field. -/
theorem Commutes.field {field : Field Schema} (hregular : field.IsRegular)
    (h : field.schema.Commutes) {live written : Option Json} {change : Json}
    (hlive : ∀ old, live = some old → old.isCanonical = true) (hplain : change.isPlain = true)
    (hpatch : change.isCanonical = true) (hread : field.outcome live = .ok written)
    (hself : field.outcome (some change) = .ok (some change)) :
    field.outcome (Json.mergeMember live (some change)) =
      .ok (Json.mergeMember written (some change)) := by
  have hnull := Json.ne_null_of_isPlain hplain
  rw [Json.mergeMember_of_ne_null _ hnull, Json.mergeMember_of_ne_null _ hnull]
  rcases Field.constant_or_read hregular hnull hself with ⟨text, -, rfl⟩ | ⟨hconstant, hchange⟩
  · exact hself
  · rcases Field.vacant_or_read hregular hconstant hread with
      ⟨hvacant, hmembers⟩ | ⟨old, found, rfl, rfl, hold⟩
    · have hblank (other : Json) (hother : other.members = []) : other.merge change = change :=
        (Json.merge_congr change hother).trans (Json.merge_null hplain hpatch)
      have hfilled : (written.getD .null).merge change = change := by
        rcases hmembers with hmembers | hempty
        · exact hblank _ hmembers
        · have hmerged := h _ change _ rfl hpatch hempty hchange
          rw [hblank _ rfl, hchange] at hmerged
          exact (Except.ok.inj hmerged).symm
      rw [hvacant, hfilled, hblank _ rfl]
      exact hself
    · exact Field.outcome_of_read hregular hconstant (Json.merge_ne_null old hnull)
        (h old change found (hlive old rfl) hpatch hold hchange)

theorem Commutes.record {title : String} {fields : List (Field Schema)} {positions : List String}
    (hregular : (record title fields positions).isRegular = true)
    (h : ∀ field ∈ fields, field.schema.Commutes) :
    (record title fields positions).Commutes := by
  intro live patch written hlive hpatch hread hchange
  have hplain := isPlain_of_isRegular hregular hchange
  have hwritten := isCanonical_of_read hregular hlive hread
  obtain ⟨rfl, hordered, hfields⟩ := (isRegular_record_iff title fields positions).mp hregular
  obtain ⟨members, values, rfl, rfl, hvalues, -⟩ :=
    (read_record_iff hordered title live written).mp hread
  obtain ⟨changes, _, rfl, heq, hchanges, -⟩ :=
    (read_record_iff hordered title patch patch).mp hchange
  cases heq
  have hmerged := Json.sorted_members (Json.isCanonical_merge (.obj changes) hwritten hpatch)
  rw [Json.isCanonical_obj] at hlive hpatch
  rw [Json.isPlain_obj] at hplain
  rw [Json.merge_obj, Json.merge_obj]
  refine (read_record_iff hordered title _ _).mpr
    ⟨_, _, rfl, rfl, ⟨hmerged, fun field hfield => ?_, fun name hname => ?_⟩,
      Field.missing?_of_regular hfields _⟩
  · change field.outcome ((Json.mergeMembers members changes).lookup field.name) =
      .ok ((Json.mergeMembers values changes).lookup field.name)
    rw [Json.lookup_mergeMembers members _ hpatch.1, Json.lookup_mergeMembers values _ hpatch.1]
    have houtcome := hvalues.field field hfield
    have hself := hchanges.field field hfield
    cases hfound : changes.lookup field.name with
    | none => exact houtcome
    | some change =>
        rw [hfound] at hself
        have hmem := Keyed.mem_of_lookup hfound
        exact (h field hfield).field (hfields field hfield)
          (fun old hold => hlive.2 _ (Keyed.mem_of_lookup hold)) (hplain _ hmem) (hpatch.2 _ hmem)
          houtcome hself
  · change (Json.mergeMembers values changes).lookup name = none
    rw [Json.lookup_mergeMembers values name hpatch.1, hvalues.known name hname,
      hchanges.known name hname]
    rfl

/-- Reading commutes with merging, by any regular schema. -/
theorem commutes_of_isRegular {schema : Schema} (hregular : schema.isRegular = true) :
    schema.Commutes := by
  induction schema using induction with
  | list item ih =>
      refine .of_members?_eq_none fun patch hpatch => ?_
      obtain ⟨items, _, rfl, -, -⟩ := (read_list_iff item patch patch).mp hpatch
      rfl
  | dict value ih =>
      have hvalue : value.isRegular = true := by simpa [isRegular] using hregular
      exact .dict hvalue (ih hvalue)
  | record title fields positions ih =>
      obtain ⟨-, -, hfields⟩ := (isRegular_record_iff title fields positions).mp hregular
      exact .record hregular fun field hfield => ih field hfield (hfields field hfield).2
  | fieldSet => exact .fieldSet
  | text | flag | int32 | int64 | bytes | quantity | intOrText | time =>
      exact .of_members?_eq_none fun patch hpatch => members?_eq_none_of_leaf rfl ⟨_, hpatch⟩

/-- A document with a patch merged into it reads as what was read with the patch merged into that. -/
theorem read_merge {schema : Schema} (hregular : schema.isRegular = true)
    {live patch written : Json} (hlive : live.isCanonical = true) (hpatch : patch.isCanonical = true)
    (hread : schema.read live = .ok written) (hchange : schema.read patch = .ok patch) :
    schema.read (live.merge patch) = .ok (written.merge patch) :=
  commutes_of_isRegular hregular live patch written hlive hpatch hread hchange

theorem readable_merge {schema : Schema} (hregular : schema.isRegular = true) {live patch : Json}
    (hlive : live.isCanonical = true) (hpatch : patch.isCanonical = true)
    (hreadable : schema.Readable live) (hchange : schema.read patch = .ok patch) :
    schema.Readable (live.merge patch) := by
  obtain ⟨written, hread⟩ := hreadable
  exact ⟨_, read_merge hregular hlive hpatch hread hchange⟩

/-- A value that is what a patch without members asks for is in written form. -/
theorem satisfies_of_members?_eq_none {schema : Schema} (hregular : schema.isRegular = true)
    {live patch written : Json} (hlive : schema.read live = .ok written)
    (hpatch : schema.read patch = .ok patch) (hmembers : patch.members? = none)
    (h : live.satisfies patch = true) : written.satisfies patch = true := by
  rw [Json.satisfies_of_members?_eq_none live hmembers] at h
  cases Json.eq_of_same (isPlain_of_isRegular hregular hpatch) h
  cases Except.ok.inj (hlive.symm.trans hpatch)
  rw [Json.satisfies_of_members?_eq_none _ hmembers, Json.same_refl]

/-- What a value has of a patch in written form, its own written form has. -/
theorem satisfies_of_read {schema : Schema} (hregular : schema.isRegular = true)
    {live patch written : Json} (hlive : schema.read live = .ok written)
    (hpatch : schema.read patch = .ok patch) (h : live.satisfies patch = true) :
    written.satisfies patch = true := by
  induction schema using induction generalizing live patch written with
  | list item ih =>
      obtain ⟨items, _, rfl, -, -⟩ := (read_list_iff item patch patch).mp hpatch
      exact satisfies_of_members?_eq_none hregular hlive hpatch rfl h
  | dict value ih =>
      have hvalue : value.isRegular = true := by simpa [isRegular] using hregular
      obtain ⟨patches, _, rfl, heq, hpatches⟩ := (read_dict_iff value patch patch).mp hpatch
      cases heq
      obtain ⟨members, values, rfl, rfl, hvalues⟩ := (read_dict_iff value live written).mp hlive
      rw [Json.satisfies_obj_iff] at h ⊢
      refine ⟨⟨values, rfl⟩, ?_⟩
      rintro ⟨name, change⟩ hmem
      have hnull : change ≠ .null := Json.ne_null_of_isPlain
        ((Json.isPlain_obj patches).mp (isPlain_of_isRegular hregular hpatch) _ hmem)
      obtain ⟨old, hold, hsatisfied⟩ := (Json.satisfiesMember_of_ne_null hnull).mp (h.2 _ hmem)
      have hrel : Option.Rel (fun a b => value.read a = .ok b) (members.lookup name)
        (values.lookup name) := Keyed.rel_lookup_of_forall₂ hvalues name
      rw [show members.lookup name = some old from hold] at hrel
      cases hfound : values.lookup name with
      | none =>
          rw [hfound] at hrel
          cases hrel
      | some found =>
          rw [hfound] at hrel
          cases hrel with
          | some hread =>
              exact (Json.satisfiesMember_of_ne_null hnull).mpr ⟨found, hfound,
                ih hvalue hread (List.forall₂_same.mp hpatches _ hmem).2 hsatisfied⟩
  | record title fields positions ih =>
      obtain ⟨rfl, hordered, hfields⟩ := (isRegular_record_iff title fields positions).mp hregular
      obtain ⟨patches, _, rfl, heq, hpatches, -⟩ :=
        (read_record_iff hordered title patch patch).mp hpatch
      cases heq
      obtain ⟨members, values, rfl, rfl, hvalues, -⟩ :=
        (read_record_iff hordered title live written).mp hlive
      rw [Json.satisfies_obj_iff] at h ⊢
      refine ⟨⟨values, rfl⟩, ?_⟩
      rintro ⟨name, change⟩ hmem
      have hnull : change ≠ .null := Json.ne_null_of_isPlain
        ((Json.isPlain_obj patches).mp (isPlain_of_isRegular hregular hpatch) _ hmem)
      obtain ⟨old, hold, hsatisfied⟩ := (Json.satisfiesMember_of_ne_null hnull).mp (h.2 _ hmem)
      obtain ⟨field, hfield, rfl⟩ := hpatches.name_of_mem hmem
      have hchange := hpatches.field field hfield
      have houtcome := hvalues.field field hfield
      rw [(Keyed.lookup_eq_some_iff_mem hpatches.sorted).mpr hmem] at hchange
      rw [show members.lookup field.name = some old from hold] at houtcome
      refine (Json.satisfiesMember_of_ne_null hnull).mpr ?_
      exact Field.satisfies_of_outcome (hfields field hfield) hnull hchange hsatisfied houtcome
        fun found hread hwritten => ih field hfield (hfields field hfield).2 hread hwritten hsatisfied
  | fieldSet =>
      obtain ⟨-, rfl⟩ := read_fieldSet_iff.mp hlive
      exact h
  | text | flag | int32 | int64 | bytes | quantity | intOrText | time =>
      exact satisfies_of_members?_eq_none hregular hlive hpatch
        (members?_eq_none_of_leaf rfl ⟨_, hpatch⟩) h

end Schema

end ClusterKeeper
