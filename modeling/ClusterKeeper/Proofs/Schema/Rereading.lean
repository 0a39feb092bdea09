import ClusterKeeper.Proofs.Schema.Regular
import ClusterKeeper.Schema.Kinds

/-!
Stable schemas, those of objects of every kind: what they read is read as itself. A declaration that
is sent back as it was read is therefore stored as it was read.
-/

namespace ClusterKeeper

/-- Whether the default of a field, if it has one, is read as itself. -/
def Presence.isStable (presence : Presence) (read : Json → Except ReadError Json) : Bool :=
  match presence with
  | .required default => default.isReadAs default read
  | .defaulted default => default.isReadAs default read
  | _ => true

mutual

/-- Whether all records in the schema have ordered stable fields, none of them mandatory if the record
can be given as an array. -/
def Schema.isStable : Schema → Bool
  | .list item => item.isStable
  | .dict value => value.isStable
  | .record _ fields positions =>
    (positions.isEmpty || fields.all fun field => field.presence ≠ .mandatory) &&
      decide (Field.Ordered fields) && Field.areStable fields
  | _ => true

def Field.areStable : List (Field Schema) → Bool
  | [] => true
  | ⟨_, presence, schema⟩ :: rest =>
    presence.isStable (fun value => schema.read value) && schema.isStable && Field.areStable rest

end

namespace Field

def IsStable (field : Field Schema) : Prop :=
  field.presence.isStable (fun value => field.schema.read value) = true ∧
    field.schema.isStable = true

theorem areStable_iff (fields : List (Field Schema)) :
    areStable fields = true ↔ ∀ field ∈ fields, field.IsStable := by
  induction fields with
  | nil => simp [areStable]
  | cons field rest ih =>
      obtain ⟨name, presence, schema⟩ := field
      rw [areStable, Bool.and_eq_true, Bool.and_eq_true, ih, List.forall_mem_cons]
      exact Iff.rfl

/-- A regular field is stable, as its default was asked to be. -/
theorem IsRegular.isStable {field : Field Schema} (hregular : field.IsRegular)
    (hschema : field.schema.isStable = true) : field.IsStable := by
  refine ⟨?_, hschema⟩
  obtain ⟨name, presence, schema⟩ := field
  cases presence with
  | required default => simp [Presence.isStable, Json.isReadAs, (read_default hregular).1]
  | optional | constant text => rfl
  | _ => exact absurd hregular.1 (by simp [Presence.isRegular])

end Field

namespace Schema

theorem isStable_record_iff (title : String) (fields : List (Field Schema))
    (positions : List String) :
    (record title fields positions).isStable = true ↔
      (positions = [] ∨ ∀ field ∈ fields, field.presence ≠ .mandatory) ∧ Field.Ordered fields ∧
        ∀ field ∈ fields, field.IsStable := by
  rw [isStable, Bool.and_eq_true, Bool.and_eq_true, decide_eq_true_eq, Field.areStable_iff,
    Bool.or_eq_true, List.isEmpty_iff, and_assoc]
  simp

theorem isStable_of_isRegular {schema : Schema} (h : schema.isRegular = true) :
    schema.isStable = true := by
  induction schema using induction with
  | list item ih => exact ih (by simpa [isRegular] using h)
  | dict value ih => exact ih (by simpa [isRegular] using h)
  | record title fields positions ih =>
      obtain ⟨hpositions, hordered, hfields⟩ := (isRegular_record_iff title fields positions).mp h
      refine (isStable_record_iff title fields positions).mpr
        ⟨.inl hpositions, hordered, fun field hfield => ?_⟩
      exact (hfields field hfield).isStable (ih field hfield (hfields field hfield).2)
  | _ => rfl

end Schema

namespace Kind

/-- The kinds of children have regular schemas. -/
theorem isRegular_schema {kind : Kind} (h : kind ≠ .ipfs) : kind.schema.isRegular = true := by
  cases kind <;> first | exact absurd rfl h | decide +kernel

theorem isStable_schema (kind : Kind) : kind.schema.isStable = true := by
  by_cases h : kind = .ipfs
  · subst h
    decide +kernel
  · exact Schema.isStable_of_isRegular (isRegular_schema h)

end Kind

namespace Schema

theorem ne_null_of_read {schema : Schema} {json : Json} : schema.read json ≠ .ok .null := by
  intro h
  cases schema with
  | list item =>
      obtain ⟨_, _, -, hwritten, -⟩ := (read_list_iff item json .null).mp h
      cases hwritten
  | dict value =>
      obtain ⟨_, _, -, hwritten, -⟩ := (read_dict_iff value json .null).mp h
      cases hwritten
  | record title fields positions =>
      cases json with
      | obj members =>
          rw [read] at h
          cases hgather : (readFields fields members).gather <;> rw [hgather] at h
          · cases h
          · simp only [bind, Except.bind] at h
            split at h <;> cases h
      | arr items =>
          cases positions with
          | nil => simp [read] at h
          | cons position rest =>
              rw [read] at h
              simp only [bind, Except.bind] at h
              split at h
              · cases h
              · split at h
                · cases h
                · obtain ⟨_, -, hwritten⟩ := (map_eq_ok_iff _ _ _).mp h
                  cases hwritten
      | _ => simp [read] at h
  | fieldSet =>
      obtain ⟨hfields, rfl⟩ := read_fieldSet_iff.mp h
      cases hfields
  | _ => exact absurd (read_leaf rfl h).2.1 (by decide)

end Schema

namespace Field

/-- What a stable field came to, it comes to again. -/
theorem outcome_written {field : Field Schema} (hstable : field.IsStable)
    (hread : ∀ json written, field.schema.read json = .ok written →
      field.schema.read written = .ok written)
    {found written : Option Json} (h : field.outcome found = .ok written) :
    field.outcome written = .ok written := by
  obtain ⟨name, presence, schema⟩ := field
  obtain ⟨hdefault, -⟩ := hstable
  -- a value that was read, and so is not null, is read again
  have hagain {json : Json} (h : (schema.read json).map some = .ok written) :
      ∃ value, written = some value ∧ value ≠ .null ∧ schema.read value = .ok value := by
    obtain ⟨value, hvalue, rfl⟩ := (map_eq_ok_iff _ _ _).mp h
    refine ⟨value, rfl, ?_, hread json value hvalue⟩
    rintro rfl
    exact Schema.ne_null_of_read hvalue
  have hfixed {default : Json} (hdefault : default.isReadAs default (fun json => schema.read json) = true)
      (h : Except.ok (some default) = (.ok written : Except ReadError (Option Json))) :
      ∃ value, written = some value ∧ value ≠ .null ∧ schema.read value = .ok value := by
    cases h
    refine ⟨default, rfl, ?_, read_of_isReadAs hdefault⟩
    rintro rfl
    exact Schema.ne_null_of_read (read_of_isReadAs hdefault)
  cases presence with
  | stamped text =>
      cases h
      rfl
  | constant text =>
      obtain ⟨rfl, -⟩ := (outcome_constant rfl found written).mp h
      exact (outcome_constant rfl _ _).mpr ⟨rfl, .inr rfl⟩
  | optional =>
      rcases found with _ | _ | _ | _ | _ | _ | _
      case none | some.null =>
        cases h
        rfl
      all_goals
        obtain ⟨value, rfl, hnull, hvalue⟩ := hagain h
        cases value <;> first | exact absurd rfl hnull | exact congrArg (Except.map some) hvalue
  | required default =>
      have hsome : ∃ value, written = some value ∧ value ≠ .null ∧ schema.read value = .ok value := by
        rcases found with _ | _ | _ | _ | _ | _ | _
        case none | some.null => exact hfixed hdefault h
        all_goals exact hagain h
      obtain ⟨value, rfl, hnull, hvalue⟩ := hsome
      cases value <;> first | exact absurd rfl hnull | exact congrArg (Except.map some) hvalue
  | defaulted default =>
      have hsome : ∃ value, written = some value ∧ value ≠ .null ∧ schema.read value = .ok value := by
        cases found with
        | none => exact hfixed hdefault h
        | some json => exact hagain h
      obtain ⟨value, rfl, -, hvalue⟩ := hsome
      exact congrArg (Except.map some) hvalue
  | mandatory =>
      cases found with
      | none =>
          cases h
          rfl
      | some json =>
          obtain ⟨value, rfl, -, hvalue⟩ := hagain h
          exact congrArg (Except.map some) hvalue

/-- Where the value of a stable field comes from: it is a text that the field fixes, or was read. -/
theorem text_or_read {field : Field Schema} (hstable : field.IsStable) {found : Option Json}
    {value : Json} (h : field.outcome found = .ok (some value)) :
    (∃ text, value = .str text) ∨ ∃ json, field.schema.read json = .ok value := by
  obtain ⟨name, presence, schema⟩ := field
  obtain ⟨hdefault, -⟩ := hstable
  have hmapped {json : Json} (h : (schema.read json).map some = .ok (some value)) :
      ∃ json, schema.read json = .ok value := by
    obtain ⟨_, hread, heq⟩ := (map_eq_ok_iff _ _ _).mp h
    cases heq
    exact ⟨json, hread⟩
  cases presence with
  | stamped text =>
      cases h
      exact .inl ⟨text, rfl⟩
  | constant text => exact .inl ⟨text, Option.some.inj ((outcome_constant rfl _ _).mp h).1⟩
  | optional =>
      rcases found with _ | _ | _ | _ | _ | _ | _
      case none | some.null => cases h
      all_goals exact .inr (hmapped h)
  | required default =>
      rcases found with _ | _ | _ | _ | _ | _ | _
      case none | some.null =>
        cases h
        exact .inr ⟨_, read_of_isReadAs hdefault⟩
      all_goals exact .inr (hmapped h)
  | defaulted default =>
      cases found with
      | none =>
          cases h
          exact .inr ⟨_, read_of_isReadAs hdefault⟩
      | some json => exact .inr (hmapped h)
  | mandatory =>
      cases found with
      | none => cases h
      | some json => exact .inr (hmapped h)

end Field

namespace Schema

/-- The written form is read as itself. -/
theorem read_written {schema : Schema} (hstable : schema.isStable = true) {json written : Json}
    (h : schema.read json = .ok written) : schema.read written = .ok written := by
  induction schema using induction generalizing json written with
  | list item ih =>
      obtain ⟨items, values, rfl, rfl, hvalues⟩ := (read_list_iff item json written).mp h
      refine (read_list_iff item _ _).mpr ⟨values, values, rfl, rfl, List.forall₂_same.mpr ?_⟩
      intro value hvalue
      obtain ⟨_, -, hread⟩ := exists_of_forall₂_right hvalues hvalue
      exact ih (by simpa [isStable] using hstable) hread
  | dict value ih =>
      obtain ⟨members, values, rfl, rfl, hvalues⟩ := (read_dict_iff value json written).mp h
      refine (read_dict_iff value _ _).mpr ⟨values, values, rfl, rfl, List.forall₂_same.mpr ?_⟩
      intro member hmember
      obtain ⟨_, -, -, hread⟩ := exists_of_forall₂_right hvalues hmember
      exact ⟨rfl, ih (by simpa [isStable] using hstable) hread⟩
  | record title fields positions ih =>
      obtain ⟨hpositions, hordered, hfields⟩ := (isStable_record_iff title fields positions).mp hstable
      obtain ⟨members, values, rfl, hvalues, hmissing⟩ := exists_gathered_of_read hordered h
      rw [read_record_obj, read_record_iff hordered]
      refine ⟨values, values, rfl, rfl, ⟨hvalues.sorted, fun field hfield => ?_, hvalues.known⟩, ?_⟩
      · exact Field.outcome_written (hfields field hfield)
          (fun _ _ => ih field hfield (hfields field hfield).2) (hvalues.field field hfield)
      · -- a mandatory field was there when the record was read, and is written
        rw [missing?_eq_none_iff]
        intro field hfield hmandatory
        rcases hpositions with hpositions | hnone
        · have hpresent := (missing?_eq_none_iff fields members).mp (hmissing hpositions) field hfield
            hmandatory
          obtain ⟨json, hjson⟩ := Option.ne_none_iff_exists'.mp hpresent
          have houtcome := hvalues.field field hfield
          rw [hjson, Field.outcome, hmandatory] at houtcome
          obtain ⟨value, -, hvalue⟩ := (map_eq_ok_iff _ _ _).mp houtcome
          rw [← hvalue]
          exact Option.some_ne_none value
        · exact absurd hmandatory (hnone field hfield)
  | fieldSet =>
      obtain ⟨-, rfl⟩ := read_fieldSet_iff.mp h
      exact h
  | text | flag | int32 | int64 | bytes | quantity | intOrText | time => exact (read_leaf rfl h).1

/-- The written form has neither nulls nor doubles. -/
theorem isPlain_of_isStable {schema : Schema} (hstable : schema.isStable = true)
    {json written : Json} (h : schema.read json = .ok written) : written.isPlain = true := by
  induction schema using induction generalizing json written with
  | list item ih =>
      obtain ⟨items, values, rfl, rfl, hvalues⟩ := (read_list_iff item json written).mp h
      rw [Json.isPlain_arr]
      intro value hvalue
      obtain ⟨_, -, hread⟩ := exists_of_forall₂_right hvalues hvalue
      exact ih (by simpa [isStable] using hstable) hread
  | dict value ih =>
      obtain ⟨members, values, rfl, rfl, hvalues⟩ := (read_dict_iff value json written).mp h
      rw [Json.isPlain_obj]
      intro member hmember
      obtain ⟨_, -, -, hread⟩ := exists_of_forall₂_right hvalues hmember
      exact ih (by simpa [isStable] using hstable) hread
  | record title fields positions ih =>
      obtain ⟨-, hordered, hfields⟩ := (isStable_record_iff title fields positions).mp hstable
      obtain ⟨members, values, rfl, hvalues, -⟩ := exists_gathered_of_read hordered h
      rw [Json.isPlain_obj]
      rintro ⟨name, value⟩ hmember
      obtain ⟨field, hfield, rfl⟩ := hvalues.name_of_mem hmember
      have houtcome := hvalues.field field hfield
      rw [(Keyed.lookup_eq_some_iff_mem hvalues.sorted).mpr hmember] at houtcome
      rcases Field.text_or_read (hfields field hfield) houtcome with ⟨text, rfl⟩ | ⟨json, hread⟩
      · rfl
      · exact ih field hfield (hfields field hfield).2 hread
  | fieldSet =>
      obtain ⟨hfields, rfl⟩ := read_fieldSet_iff.mp h
      exact Json.isPlain_of_isFieldSet hfields
  | text | flag | int32 | int64 | bytes | quantity | intOrText | time => exact (read_leaf rfl h).2.1

theorem isPlain_of_isRegular {schema : Schema} (hregular : schema.isRegular = true)
    {json written : Json} (h : schema.read json = .ok written) : written.isPlain = true :=
  isPlain_of_isStable (isStable_of_isRegular hregular) h

end Schema

end ClusterKeeper
