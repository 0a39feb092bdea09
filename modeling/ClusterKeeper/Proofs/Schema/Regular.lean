import ClusterKeeper.Proofs.Calendar
import ClusterKeeper.Proofs.Encoding.Base64
import ClusterKeeper.Proofs.Schema.Reading

/-!
Regular schemas, those of all objects that an operator writes. What they read is canonical if the
value was. The written value of a field is its constant, its default, or what was read; a default
with members is what an empty record is read as.
-/

namespace ClusterKeeper

namespace Json

theorem isFieldSet_obj (members : Members) :
    isFieldSet (.obj members) = true ↔ ∀ member ∈ members, member.2.isFieldSet = true := by
  rw [isFieldSet]
  induction members with
  | nil => simp [areFieldSets]
  | cons member rest ih => simp [areFieldSets, ih]

theorem isPlain_of_isFieldSet {json : Json} (h : json.isFieldSet = true) :
    json.isPlain = true := by
  induction json using induction with
  | obj members ih =>
      rw [isFieldSet_obj] at h
      exact (isPlain_obj members).mpr fun member hmember => ih member hmember (h member hmember)
  | _ => exact absurd h (by simp [isFieldSet])

end Json

def Json.isReadAs (value written : Json) (read : Json → Except ReadError Json) : Bool :=
  match read value with
  | .ok found => found = written
  | .error _ => false

/-- Whether a field is optional, constant, or has a default that reads as itself. If the default has
members, they are those of an empty record. -/
def Presence.isRegular (presence : Presence) (read : Json → Except ReadError Json) : Bool :=
  match presence with
  | .optional => true
  | .constant _ => true
  | .required default =>
    default.isReadAs default read && default.isCanonical &&
      (default.members.isEmpty || (Json.obj []).isReadAs default read)
  | _ => false

mutual

/-- Whether all records in the schema have ordered regular fields and no positions. -/
def Schema.isRegular : Schema → Bool
  | .list item => item.isRegular
  | .dict value => value.isRegular
  | .record _ fields positions =>
    positions.isEmpty && decide (Field.Ordered fields) && Field.areRegular fields
  | _ => true

def Field.areRegular : List (Field Schema) → Bool
  | [] => true
  | ⟨_, presence, schema⟩ :: rest =>
    presence.isRegular (fun value => schema.read value) && schema.isRegular &&
      Field.areRegular rest

end

namespace Field

def IsRegular (field : Field Schema) : Prop :=
  field.presence.isRegular (fun value => field.schema.read value) = true ∧
    field.schema.isRegular = true

theorem areRegular_iff (fields : List (Field Schema)) :
    areRegular fields = true ↔ ∀ field ∈ fields, field.IsRegular := by
  induction fields with
  | nil => simp [areRegular]
  | cons field rest ih =>
      obtain ⟨name, presence, schema⟩ := field
      rw [areRegular, Bool.and_eq_true, Bool.and_eq_true, ih, List.forall_mem_cons]
      exact Iff.rfl

theorem read_of_isReadAs {schema : Schema} {value written : Json}
    (h : value.isReadAs written (fun json => schema.read json) = true) :
    schema.read value = .ok written := by
  rw [Json.isReadAs] at h
  split at h
  · next found hread => rw [hread, of_decide_eq_true h]
  · cases h

/-- The default of a regular field reads as itself, and a patch finds nothing in it but what an empty
record is read as. -/
theorem read_default {name : String} {default : Json} {schema : Schema}
    (h : IsRegular ⟨name, .required default, schema⟩) :
    schema.read default = .ok default ∧ default.isCanonical = true ∧
      (default.members = [] ∨ schema.read (.obj []) = .ok default) := by
  obtain ⟨hpresence, -⟩ := h
  rw [Presence.isRegular, Bool.and_eq_true, Bool.and_eq_true, Bool.or_eq_true,
    List.isEmpty_iff] at hpresence
  exact ⟨read_of_isReadAs hpresence.1.1, hpresence.1.2, hpresence.2.imp_right read_of_isReadAs⟩

/-- Where the value of a field comes from: a constant, or a value that was read. -/
theorem written_of_outcome {field : Field Schema} (hregular : field.IsRegular)
    {found : Option Json} {written : Json} (h : field.outcome found = .ok (some written)) :
    (∃ text, field.presence = .constant text ∧ written = .str text) ∨
      ∃ value, (found = some value ∨ value.isCanonical = true) ∧
        field.schema.read value = .ok written := by
  obtain ⟨name, presence, schema⟩ := field
  cases presence with
  | optional =>
      right
      cases found with
      | none => simp [outcome, Presence.outcome] at h
      | some value =>
          refine ⟨value, .inl rfl, ?_⟩
          cases value <;> simp_all [outcome, Presence.outcome, map_eq_ok_iff]
  | required default =>
      right
      obtain ⟨hdefault, hcanonical, -⟩ := read_default hregular
      have hnull (hw : default = written) : ∃ value, (found = some value ∨
          value.isCanonical = true) ∧ schema.read value = .ok written :=
        ⟨default, .inr hcanonical, hw ▸ hdefault⟩
      cases found with
      | none => exact hnull (by simpa [outcome, Presence.outcome] using h)
      | some value =>
          cases value with
          | null => exact hnull (by simpa [outcome, Presence.outcome] using h)
          | _ =>
              refine ⟨_, .inl rfl, ?_⟩
              simpa [outcome, Presence.outcome, map_eq_ok_iff] using h
  | constant text =>
      left
      refine ⟨text, rfl, ?_⟩
      cases found with
      | none => simpa [outcome, Presence.outcome, eq_comm] using h
      | some value =>
          cases value with
          | str value =>
              simp only [outcome, Presence.outcome] at h
              split at h
              · simpa [eq_comm] using h
              · cases h
          | _ => simp [outcome, Presence.outcome] at h
  | _ => exact absurd hregular.1 (by simp [Presence.isRegular])

theorem outcome_of_read {field : Field Schema} (hregular : field.IsRegular)
    (hpresence : ∀ text, field.presence ≠ .constant text) {value written : Json}
    (hnull : value ≠ .null) (h : field.schema.read value = .ok written) :
    field.outcome (some value) = .ok (some written) := by
  obtain ⟨name, presence, schema⟩ := field
  cases presence with
  | optional | required default =>
      cases value <;> first | exact absurd rfl hnull | simp [outcome, Presence.outcome, h, Except.map]
  | constant text => exact absurd rfl (hpresence text)
  | _ => exact absurd hregular.1 (by simp [Presence.isRegular])

/-- A value of a field that is no constant was read, unless it is null. -/
theorem read_of_outcome {field : Field Schema} (hregular : field.IsRegular)
    (hpresence : ∀ text, field.presence ≠ .constant text) {value : Json} (hnull : value ≠ .null)
    {found : Option Json} (h : field.outcome (some value) = .ok found) :
    ∃ written, found = some written ∧ field.schema.read value = .ok written := by
  cases hread : field.schema.read value with
  | ok written =>
      rw [outcome_of_read hregular hpresence hnull hread] at h
      exact ⟨written, (Except.ok.inj h).symm, rfl⟩
  | error e =>
      obtain ⟨name, presence, schema⟩ := field
      cases presence with
      | optional | required default =>
          cases value <;> simp_all [outcome, Presence.outcome, Except.map]
      | constant text => exact absurd rfl (hpresence text)
      | _ => exact absurd hregular.1 (by simp [Presence.isRegular])

theorem outcome_constant {field : Field Schema} {text : String}
    (h : field.presence = .constant text) (found : Option Json) (written : Option Json) :
    field.outcome found = .ok written ↔
      written = some (.str text) ∧ (found = none ∨ found = some (.str text)) := by
  rw [outcome, h]
  cases found with
  | none => simp [Presence.outcome, eq_comm]
  | some value =>
      cases value with
      | str value =>
          by_cases heq : value = text
          · simp [Presence.outcome, heq, eq_comm]
          · simp [Presence.outcome, heq]
      | _ => simp [Presence.outcome]

/-- A written value of a field is its constant, or is read as itself. -/
theorem constant_or_read {field : Field Schema} (hregular : field.IsRegular) {value : Json}
    (hnull : value ≠ .null) (h : field.outcome (some value) = .ok (some value)) :
    (∃ text, field.presence = .constant text ∧ value = .str text) ∨
      (∀ text, field.presence ≠ .constant text) ∧ field.schema.read value = .ok value := by
  by_cases hconstant : ∃ text, field.presence = .constant text
  · obtain ⟨text, htext⟩ := hconstant
    exact .inl ⟨text, htext, Option.some.inj ((outcome_constant htext _ _).mp h).1⟩
  · rw [not_exists] at hconstant
    obtain ⟨_, heq, hread⟩ := read_of_outcome hregular hconstant hnull h
    cases heq
    exact .inr ⟨hconstant, hread⟩

theorem missing?_of_regular {fields : List (Field Schema)} (h : ∀ field ∈ fields, field.IsRegular)
    (members : Json.Members) : missing? fields members = none := by
  rw [missing?, Option.map_eq_none_iff, List.find?_eq_none]
  intro field hfield
  have hpresence := (h field hfield).1
  cases hmandatory : field.presence <;> simp_all [Presence.isRegular]

end Field

namespace Schema

theorem isRegular_record_iff (title : String) (fields : List (Field Schema))
    (positions : List String) :
    (record title fields positions).isRegular = true ↔
      positions = [] ∧ Field.Ordered fields ∧ ∀ field ∈ fields, field.IsRegular := by
  rw [isRegular, Bool.and_eq_true, Bool.and_eq_true, decide_eq_true_eq, Field.areRegular_iff,
    List.isEmpty_iff, and_assoc]

def isLeaf : Schema → Bool
  | .fieldSet | .list _ | .dict _ | .record _ _ _ => false
  | _ => true

theorem read_time_iff {json written : Json} :
    time.read json = .ok written ↔
      ∃ value moment, json = .str value ∧ Moment.read? value = some moment ∧
        written = .str moment.text := by
  cases json with
  | str value =>
      cases hmoment : Moment.read? value <;> simp [read, readTime, hmoment, eq_comm]
  | _ => simp [read, readTime]

theorem read_leaf {schema : Schema} (hleaf : schema.isLeaf = true) {json written : Json}
    (h : schema.read json = .ok written) :
    schema.read written = .ok written ∧ written.isPlain = true ∧ written.isCanonical = true := by
  have integer (bits : Nat) (wanted : String) (hint : readInt bits wanted json = .ok written) :
      json = written ∧ written.isPlain = true ∧ written.isCanonical = true := by
    obtain ⟨value, rfl, rfl, -⟩ := readInt_eq_ok_iff.mp hint
    exact ⟨rfl, rfl, rfl⟩
  cases schema with
  | fieldSet | list _ | dict _ | record _ _ _ => cases hleaf
  | text | flag =>
      cases json <;> cases h
      exact ⟨rfl, rfl, rfl⟩
  | int32 =>
      obtain ⟨rfl, hwritten⟩ := integer 32 "i32" h
      exact ⟨h, hwritten⟩
  | int64 =>
      obtain ⟨rfl, hwritten⟩ := integer 64 "i64" h
      exact ⟨h, hwritten⟩
  | bytes =>
      cases json with
      | null =>
          cases h
          have hempty : Base64.decode "" = .ok [] := Base64.decode_encode []
          refine ⟨?_, rfl, rfl⟩
          rw [read, readBytes, hempty]
      | str value =>
          have hread := h
          simp only [read, readBytes] at h
          split at h <;> cases h
          exact ⟨hread, rfl, rfl⟩
      | _ => cases h
  | quantity =>
      cases json with
      | str value =>
          cases h
          exact ⟨rfl, rfl, rfl⟩
      | num n => cases n <;> cases h <;> exact ⟨rfl, rfl, rfl⟩
      | _ => cases h
  | intOrText =>
      cases json with
      | str value =>
          cases h
          exact ⟨rfl, rfl, rfl⟩
      | num n =>
          have hread := h
          cases n <;> simp only [read, readIntOrText] at h
          · split at h <;> cases h
            exact ⟨hread, rfl, rfl⟩
          · cases h
      | _ => cases h
  | time =>
      obtain ⟨value, moment, -, -, rfl⟩ := read_time_iff.mp h
      exact ⟨read_time_iff.mpr ⟨_, moment, rfl, moment.read?_text, rfl⟩, rfl, rfl⟩

theorem read_fieldSet_iff {json written : Json} :
    fieldSet.read json = .ok written ↔ json.isFieldSet = true ∧ written = json := by
  by_cases hfields : json.isFieldSet = true
  · simp [read, hfields, eq_comm]
  · simp [read, hfields]

theorem isCanonical_of_read {schema : Schema} (hregular : schema.isRegular = true)
    {json written : Json} (hcanonical : json.isCanonical = true)
    (h : schema.read json = .ok written) : written.isCanonical = true := by
  induction schema using induction generalizing json written with
  | list item ih =>
      obtain ⟨items, values, rfl, rfl, hvalues⟩ := (read_list_iff item json written).mp h
      rw [Json.isCanonical_arr] at hcanonical ⊢
      intro value hvalue
      obtain ⟨_, hitem, hread⟩ := exists_of_forall₂_right hvalues hvalue
      exact ih (by simpa [isRegular] using hregular) (hcanonical _ hitem) hread
  | dict value ih =>
      obtain ⟨members, values, rfl, rfl, hvalues⟩ := (read_dict_iff value json written).mp h
      rw [Json.isCanonical_obj] at hcanonical ⊢
      have hkeys : members.map Prod.fst = values.map Prod.fst := by
        have := hvalues.imp fun a b hab => hab.1
        rw [← List.forall₂_eq_eq_eq, List.forall₂_map_left_iff, List.forall₂_map_right_iff]
        exact this
      refine ⟨(Keyed.sorted_iff_of_keys_eq hkeys).mp hcanonical.1, fun member hmember => ?_⟩
      obtain ⟨_, hmem, -, hread⟩ := exists_of_forall₂_right hvalues hmember
      exact ih (by simpa [isRegular] using hregular) (hcanonical.2 _ hmem) hread
  | record title fields positions ih =>
      obtain ⟨rfl, hordered, hfields⟩ := (isRegular_record_iff title fields positions).mp hregular
      obtain ⟨members, values, rfl, rfl, hvalues, -⟩ :=
        (read_record_iff hordered title json written).mp h
      rw [Json.isCanonical_obj]
      refine ⟨hvalues.sorted, ?_⟩
      rintro ⟨name, value⟩ hmember
      obtain ⟨field, hfield, rfl⟩ := hvalues.name_of_mem hmember
      have houtcome := hvalues.field field hfield
      rw [(Keyed.lookup_eq_some_iff_mem hvalues.sorted).mpr hmember] at houtcome
      rcases Field.written_of_outcome (hfields field hfield) houtcome with
        ⟨text, -, rfl⟩ | ⟨found, hfound, hread⟩
      · rfl
      · refine ih field hfield (hfields field hfield).2 ?_ hread
        rcases hfound with hfound | hfound
        · exact Json.isCanonical_of_lookup hcanonical hfound
        · exact hfound
  | fieldSet => exact (read_fieldSet_iff.mp h).2 ▸ hcanonical
  | text | flag | int32 | int64 | bytes | quantity | intOrText | time => exact (read_leaf rfl h).2.2

theorem members?_eq_none_of_leaf {schema : Schema} (hleaf : schema.isLeaf = true) {json : Json}
    (h : schema.Readable json) : json.members? = none := by
  obtain ⟨written, h⟩ := h
  cases json with
  | obj members =>
      cases schema <;>
        first
          | exact absurd hleaf Bool.false_ne_true
          | simp [read, readInt, readBytes, readQuantity, readIntOrText, readTime] at h
  | _ => rfl

end Schema

end ClusterKeeper
