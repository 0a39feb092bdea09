import ClusterKeeper.Schema.Basic
import ClusterKeeper.Proofs.Json.Canonical

/-!
Reading by a schema, item by item and field by field: what a list, a dictionary and a record come to
in terms of what their parts come to.
-/

namespace ClusterKeeper

/-- All items of a list are read, or none. -/
theorem mapM_eq_ok_iff {ε α β : Type} (f : α → Except ε β) (items : List α) (values : List β) :
    items.mapM f = .ok values ↔ List.Forall₂ (fun a b => f a = .ok b) items values := by
  induction items generalizing values with
  | nil => cases values <;> simp [pure, Except.pure]
  | cons item rest ih =>
      rw [List.mapM_cons]
      cases hitem : f item with
      | error e => cases values <;> simp [bind, Except.bind, hitem]
      | ok value =>
          cases hrest : rest.mapM f with
          | error e => cases values <;> simp [bind, Except.bind, ← ih, hrest]
          | ok others =>
              cases values <;>
                simp [bind, Except.bind, pure, Except.pure, ← ih, hrest, hitem]

theorem map_eq_ok_iff {ε α β : Type} (f : α → β) (result : Except ε α) (value : β) :
    result.map f = .ok value ↔ ∃ found, result = .ok found ∧ f found = value := by
  cases result <;> simp [Except.map]

theorem exists_of_forall₂_right {α β : Type} {R : α → β → Prop} {as : List α} {bs : List β}
    (h : List.Forall₂ R as bs) {b : β} (hb : b ∈ bs) : ∃ a ∈ as, R a b := by
  induction h with
  | nil => cases hb
  | cons hab _ ih =>
      rcases List.mem_cons.mp hb with rfl | hb
      · exact ⟨_, List.mem_cons_self, hab⟩
      · obtain ⟨a, ha, hab⟩ := ih hb
        exact ⟨a, List.mem_cons_of_mem _ ha, hab⟩

def Field.outcome (field : Field Schema) (found : Option Json) : Except ReadError (Option Json) :=
  field.presence.outcome (fun value => field.schema.read value) found

def Field.Ordered (fields : List (Field Schema)) : Prop :=
  fields.Pairwise fun a b => a.name < b.name

theorem Field.isChain_iff_ordered (fields : List (Field Schema)) :
    fields.IsChain (fun a b => a.name < b.name) ↔ Field.Ordered fields :=
  have : IsTrans (Field Schema) fun a b => a.name < b.name := ⟨fun _ _ _ => String.lt_trans⟩
  List.isChain_iff_pairwise

instance (fields : List (Field Schema)) : Decidable (Field.Ordered fields) :=
  decidable_of_iff _ (Field.isChain_iff_ordered fields)

theorem Field.name_ne_of_lt {field : Field Schema} {rest : List (Field Schema)}
    (h : ∀ other ∈ rest, field.name < other.name) : ∀ other ∈ rest, other.name ≠ field.name :=
  fun other hother heq => String.lt_irrefl _ (heq ▸ h other hother)

namespace Schema

/-- Induction over a schema with the hypothesis for all fields of a record at once. -/
theorem induction {motive : Schema → Prop} (text : motive .text) (flag : motive .flag)
    (int32 : motive .int32) (int64 : motive .int64) (bytes : motive .bytes)
    (quantity : motive .quantity) (intOrText : motive .intOrText) (time : motive .time)
    (fieldSet : motive .fieldSet)
    (list : ∀ item, motive item → motive (.list item))
    (dict : ∀ value, motive value → motive (.dict value))
    (record : ∀ title fields positions, (∀ field ∈ fields, motive field.schema) →
      motive (.record title fields positions))
    (schema : Schema) : motive schema := by
  refine Schema.rec (motive_1 := motive)
    (motive_2 := fun fields => ∀ field ∈ fields, motive field.schema)
    (motive_3 := fun field => motive field.schema)
    text flag int32 int64 bytes quantity intOrText time fieldSet list dict record ?_ ?_ ?_ schema
  · simp
  · intro field fields hfield hfields
    exact List.forall_mem_cons.mpr ⟨hfield, hfields⟩
  · intro name presence schema hschema
    exact hschema

theorem readInt_eq_ok_iff {bits : Nat} {wanted : String} {json written : Json} :
    readInt bits wanted json = .ok written ↔
      ∃ value : Int, json = .int value ∧ written = .int value ∧
        -(twoTo (bits - 1) : Int) ≤ value ∧ value < twoTo (bits - 1) := by
  constructor
  · intro h
    simp only [readInt] at h
    split at h
    · next value =>
        split at h
        · next hrange =>
            cases h
            exact ⟨value, rfl, rfl, hrange⟩
        · cases h
    · cases h
  · rintro ⟨value, rfl, rfl, hrange⟩
    rw [Json.int, readInt, if_pos hrange]

theorem read_list_iff (item : Schema) (json written : Json) :
    (list item).read json = .ok written ↔
      ∃ items values, json = .arr items ∧ written = .arr values ∧
        List.Forall₂ (fun a b => item.read a = .ok b) items values := by
  cases json with
  | arr items =>
      rw [read, map_eq_ok_iff]
      simp only [mapM_eq_ok_iff]
      constructor
      · rintro ⟨values, hvalues, rfl⟩
        exact ⟨items, values, rfl, rfl, hvalues⟩
      · rintro ⟨_, values, h, rfl, hvalues⟩
        cases h
        exact ⟨values, hvalues, rfl⟩
  | _ => simp [read]

theorem read_dict_iff (value : Schema) (json written : Json) :
    (dict value).read json = .ok written ↔
      ∃ members values, json = .obj members ∧ written = .obj values ∧
        List.Forall₂ (fun a b => a.1 = b.1 ∧ value.read a.2 = .ok b.2) members values := by
  have member (a b : String × Json) :
      (value.read a.2).map (a.1, ·) = .ok b ↔ a.1 = b.1 ∧ value.read a.2 = .ok b.2 := by
    rw [map_eq_ok_iff]
    constructor
    · rintro ⟨found, hfound, rfl⟩
      exact ⟨rfl, hfound⟩
    · rintro ⟨hname, hvalue⟩
      exact ⟨b.2, hvalue, Prod.ext hname rfl⟩
  cases json with
  | obj members =>
      rw [read, map_eq_ok_iff]
      simp only [mapM_eq_ok_iff, member]
      constructor
      · rintro ⟨values, hvalues, rfl⟩
        exact ⟨members, values, rfl, rfl, hvalues⟩
      · rintro ⟨_, values, h, rfl, hvalues⟩
        cases h
        exact ⟨values, hvalues, rfl⟩
  | _ => simp [read]

theorem readFields_cons (field : Field Schema) (rest : List (Field Schema))
    (members : Json.Members) :
    readFields (field :: rest) members =
      (field.name, field.outcome (members.lookup field.name)) :: readFields rest members := by
  cases field
  rfl

/-- The written fields `written` of a record, each of them what its field comes to. -/
structure Gathered (fields : List (Field Schema)) (members written : Json.Members) : Prop where
  sorted : Keyed.Sorted written
  field : ∀ field ∈ fields, field.outcome (members.lookup field.name) =
    .ok (written.lookup field.name)
  known : ∀ name, (∀ field ∈ fields, field.name ≠ name) → written.lookup name = none

theorem Gathered.name_of_mem {fields : List (Field Schema)} {members written : Json.Members}
    (h : Gathered fields members written) {member : String × Json} (hmem : member ∈ written) :
    ∃ field ∈ fields, field.name = member.1 := by
  by_contra hnone
  push Not at hnone
  obtain ⟨value, hvalue⟩ := Keyed.exists_lookup_of_mem hmem
  rw [h.known _ hnone] at hvalue
  cases hvalue

section

variable {field : Field Schema} {rest : List (Field Schema)} {members written : Json.Members}

theorem gathered_cons_none (hne : ∀ other ∈ rest, other.name ≠ field.name)
    (houtcome : field.outcome (members.lookup field.name) = .ok none) :
    Gathered (field :: rest) members written ↔ Gathered rest members written := by
  constructor
  · intro h
    refine ⟨h.sorted, (List.forall_mem_cons.mp h.field).2, fun name hname => ?_⟩
    by_cases heq : field.name = name
    · have hnone := (List.forall_mem_cons.mp h.field).1
      rw [houtcome] at hnone
      rw [← heq]
      exact (Except.ok.inj hnone).symm
    · exact h.known name (List.forall_mem_cons.mpr ⟨heq, hname⟩)
  · intro h
    refine ⟨h.sorted, List.forall_mem_cons.mpr ⟨?_, h.field⟩, fun name hname => h.known name ?_⟩
    · rw [houtcome, h.known field.name hne]
    · exact (List.forall_mem_cons.mp hname).2

theorem gathered_cons_some {value : Json} (hlt : ∀ other ∈ rest, field.name < other.name)
    (houtcome : field.outcome (members.lookup field.name) = .ok (some value)) :
    Gathered (field :: rest) members written ↔
      ∃ others, Gathered rest members others ∧ (field.name, value) :: others = written := by
  have hne := Field.name_ne_of_lt hlt
  have lookup_of_ne {name : String} (l : Json.Members) (hname : name ≠ field.name) :
      List.lookup name ((field.name, value) :: l) = l.lookup name := by
    rw [List.lookup_cons, show (name == field.name) = false by simpa using hname]
  constructor
  · intro h
    have hfound : written.lookup field.name = some value := by
      have hsome := (List.forall_mem_cons.mp h.field).1
      rw [houtcome] at hsome
      exact (Except.ok.inj hsome).symm
    refine ⟨Keyed.erase field.name written, ⟨Keyed.sorted_erase _ h.sorted, ?_, ?_⟩, ?_⟩
    · intro other hother
      rw [Keyed.lookup_erase_of_ne (hne other hother)]
      exact (List.forall_mem_cons.mp h.field).2 other hother
    · intro name hname
      by_cases heq : name = field.name
      · rw [heq, Keyed.lookup_erase_self]
      · rw [Keyed.lookup_erase_of_ne heq]
        exact h.known name (List.forall_mem_cons.mpr ⟨Ne.symm heq, hname⟩)
    · have hfirst : ∀ member ∈ Keyed.erase field.name written, field.name < member.1 := by
        intro member hmember
        obtain ⟨hmember, hname⟩ := Keyed.mem_erase hmember
        obtain ⟨other, hother, heq⟩ := h.name_of_mem hmember
        rcases List.mem_cons.mp hother with rfl | hother
        · exact absurd heq.symm hname
        · exact heq ▸ hlt other hother
      refine Keyed.ext_of_sorted (Keyed.sorted_cons.mpr ⟨hfirst, Keyed.sorted_erase _ h.sorted⟩)
        h.sorted fun name => ?_
      by_cases heq : name = field.name
      · rw [heq, List.lookup_cons_self, hfound]
      · rw [lookup_of_ne _ heq, Keyed.lookup_erase_of_ne heq]
  · rintro ⟨others, h, rfl⟩
    refine ⟨Keyed.sorted_cons.mpr ⟨fun member hmember => ?_, h.sorted⟩, ?_, fun name hname => ?_⟩
    · obtain ⟨other, hother, hname⟩ := h.name_of_mem hmember
      exact hname ▸ hlt other hother
    · refine List.forall_mem_cons.mpr ⟨?_, fun other hother => ?_⟩
      · rw [houtcome, List.lookup_cons_self]
      · rw [lookup_of_ne others (hne other hother)]
        exact h.field other hother
    · obtain ⟨hhead, htail⟩ := List.forall_mem_cons.mp hname
      rw [lookup_of_ne others (Ne.symm hhead)]
      exact h.known name htail

end

theorem gather_eq_ok_iff {fields : List (Field Schema)} (hordered : Field.Ordered fields)
    (members written : Json.Members) :
    (readFields fields members).gather = .ok written ↔ Gathered fields members written := by
  induction fields generalizing written with
  | nil =>
      constructor
      · intro h
        cases h
        exact ⟨Keyed.sorted_nil, by simp, by simp⟩
      · intro h
        cases written with
        | nil => rfl
        | cons member rest =>
            obtain ⟨field, hfield, -⟩ := h.name_of_mem List.mem_cons_self
            exact absurd hfield List.not_mem_nil
  | cons field rest ih =>
      obtain ⟨hlt, hrest⟩ := List.pairwise_cons.mp hordered
      rw [readFields_cons]
      cases houtcome : field.outcome (members.lookup field.name) with
      | error e =>
          constructor
          · intro h
            cases h
          · intro h
            have hfound := h.field field List.mem_cons_self
            rw [houtcome] at hfound
            cases hfound
      | ok found =>
          cases found with
          | none =>
              rw [Outcomes.gather, ih hrest, gathered_cons_none (Field.name_ne_of_lt hlt) houtcome]
          | some value =>
              rw [Outcomes.gather, map_eq_ok_iff, gathered_cons_some hlt houtcome]
              simp only [ih hrest]

theorem exists_gathered_iff {fields : List (Field Schema)} (hordered : Field.Ordered fields)
    (members : Json.Members) :
    (∃ written, Gathered fields members written) ↔
      ∀ field ∈ fields, ∃ found, field.outcome (members.lookup field.name) = .ok found := by
  constructor
  · rintro ⟨written, h⟩ field hfield
    exact ⟨_, h.field field hfield⟩
  · intro h
    simp only [← gather_eq_ok_iff hordered]
    induction fields with
    | nil => exact ⟨[], rfl⟩
    | cons field rest ih =>
        rw [List.forall_mem_cons] at h
        obtain ⟨⟨found, hfound⟩, hrest⟩ := h
        obtain ⟨others, hothers⟩ := ih (List.pairwise_cons.mp hordered).2 hrest
        rw [readFields_cons, hfound]
        cases found with
        | none => exact ⟨others, hothers⟩
        | some value => exact ⟨(field.name, value) :: others, by rw [Outcomes.gather, hothers]; rfl⟩

/-- Records without positions are read from objects. -/
theorem read_record_iff {fields : List (Field Schema)} (hordered : Field.Ordered fields)
    (title : String) (json written : Json) :
    (record title fields []).read json = .ok written ↔
      ∃ members values, json = .obj members ∧ written = .obj values ∧
        Gathered fields members values ∧ Field.missing? fields members = none := by
  cases json with
  | obj members =>
      rw [read]
      cases hgather : (readFields fields members).gather with
      | error e =>
          simp only [bind, Except.bind, reduceCtorEq, false_iff]
          rintro ⟨_, values, h, -, hvalues, -⟩
          cases h
          rw [← gather_eq_ok_iff hordered, hgather] at hvalues
          cases hvalues
      | ok values =>
          have hvalues := (gather_eq_ok_iff hordered members values).mp hgather
          cases hmissing : Field.missing? fields members with
          | some name =>
              simp only [bind, Except.bind, reduceCtorEq, false_iff]
              rintro ⟨_, _, h, -, -, hnone⟩
              cases h
              rw [hmissing] at hnone
              cases hnone
          | none =>
              simp only [bind, Except.bind, Except.ok.injEq]
              constructor
              · rintro rfl
                exact ⟨members, values, rfl, rfl, hvalues, hmissing⟩
              · rintro ⟨_, others, h, rfl, hothers, -⟩
                cases h
                rw [← gather_eq_ok_iff hordered, hgather] at hothers
                cases hothers
                rfl
  | _ => simp [read]

/-- The written fields of a record, whether it was read from an object or from an array; an object
lacks no mandatory field. -/
theorem exists_gathered_of_read {title : String} {fields : List (Field Schema)}
    {positions : List String} (hordered : Field.Ordered fields) {json written : Json}
    (h : (record title fields positions).read json = .ok written) :
    ∃ members values, written = .obj values ∧ Gathered fields members values ∧
      (positions = [] → Field.missing? fields members = none) := by
  cases json with
  | obj members =>
      rw [read] at h
      cases hgather : (readFields fields members).gather with
      | error e =>
          rw [hgather] at h
          cases h
      | ok values =>
          rw [hgather] at h
          simp only [bind, Except.bind] at h
          split at h
          · cases h
          · next hmissing =>
              cases h
              have hvalues := (gather_eq_ok_iff hordered members values).mp hgather
              exact ⟨members, values, rfl, hvalues, fun _ => hmissing⟩
  | arr items =>
      cases positions with
      | nil => simp [read] at h
      | cons position rest =>
          rw [read] at h
          simp only [bind, Except.bind] at h
          split at h
          · cases h
          · split at h
            · cases h
            · obtain ⟨values, hgather, rfl⟩ := (map_eq_ok_iff _ _ _).mp h
              exact ⟨_, values, rfl, (gather_eq_ok_iff hordered _ values).mp hgather, nofun⟩
  | _ => simp [read] at h

/-- An object is read as a record in the same way with positions and without. -/
theorem read_record_obj (title : String) (fields : List (Field Schema)) (positions : List String)
    (members : Json.Members) : (record title fields positions).read (.obj members) =
      (record title fields []).read (.obj members) := by
  rw [read, read]

def Readable (schema : Schema) (json : Json) : Prop := ∃ written, schema.read json = .ok written

theorem readable_record_iff {fields : List (Field Schema)} (hordered : Field.Ordered fields)
    (title : String) (json : Json) :
    (record title fields []).Readable json ↔
      ∃ members, json = .obj members ∧ Field.missing? fields members = none ∧
        ∀ field ∈ fields, ∃ found, field.outcome (members.lookup field.name) = .ok found := by
  simp only [Readable, read_record_iff hordered, ← exists_gathered_iff hordered]
  constructor
  · rintro ⟨_, members, values, rfl, -, h, hmissing⟩
    exact ⟨members, rfl, hmissing, values, h⟩
  · rintro ⟨members, rfl, hmissing, values, h⟩
    exact ⟨_, members, values, rfl, rfl, h, hmissing⟩

theorem missing?_eq_none_iff (fields : List (Field Schema)) (members : Json.Members) :
    Field.missing? fields members = none ↔
      ∀ field ∈ fields, field.presence = .mandatory → members.lookup field.name ≠ none := by
  rw [Field.missing?, Option.map_eq_none_iff, List.find?_eq_none]
  simp only [Bool.and_eq_true, decide_eq_true_eq, Option.isNone_iff_eq_none, not_and]

theorem eq_of_name_eq {fields : List (Field Schema)} (hordered : Field.Ordered fields)
    {left right : Field Schema} (hleft : left ∈ fields) (hright : right ∈ fields)
    (h : left.name = right.name) : left = right := by
  by_contra hne
  rcases List.Pairwise.forall_of_forall_of_flip
    (R := fun a b : Field Schema => a ≠ b → a.name ≠ b.name) (fun _ _ hne => absurd rfl hne)
    (hordered.imp fun hlt _ heq => String.lt_irrefl _ (heq ▸ hlt))
    (hordered.imp fun hlt _ heq => String.lt_irrefl _ (heq ▸ hlt)) hleft hright hne h

/-- Records of ordered fields without positions. -/
def IsRecord (schema : Schema) : Prop :=
  ∃ title fields, schema = record title fields [] ∧ Field.Ordered fields

def field? (schema : Schema) (name : String) : Option (Field Schema) :=
  match schema with
  | .record _ fields _ => fields.find? fun field => field.name = name
  | _ => none

theorem mem_of_field?_eq_some {title : String} {fields : List (Field Schema)}
    {positions : List String} {name : String} {field : Field Schema}
    (h : (record title fields positions).field? name = some field) :
    field ∈ fields ∧ field.name = name :=
  ⟨List.mem_of_find?_eq_some h, by simpa using List.find?_some h⟩

variable {schema : Schema} {json : Json} {name : String} {field : Field Schema}

/-- What a field of a record comes to is its written value. -/
theorem outcome_of_read {written : Json} (hrecord : schema.IsRecord)
    (hfield : schema.field? name = some field) (h : schema.read json = .ok written) :
    field.outcome (json.get? name) = .ok (written.get? name) := by
  obtain ⟨title, fields, rfl, hordered⟩ := hrecord
  obtain ⟨hmem, rfl⟩ := mem_of_field?_eq_some hfield
  obtain ⟨members, values, rfl, rfl, hvalues, -⟩ :=
    (read_record_iff hordered title json written).mp h
  exact hvalues.field field hmem

theorem get?_ne_none_of_mandatory (hrecord : schema.IsRecord)
    (hfield : schema.field? name = some field) (hmandatory : field.presence = .mandatory)
    (h : schema.Readable json) : json.get? name ≠ none := by
  obtain ⟨title, fields, rfl, hordered⟩ := hrecord
  obtain ⟨hmem, rfl⟩ := mem_of_field?_eq_some hfield
  obtain ⟨members, rfl, hmissing, -⟩ := (readable_record_iff hordered title json).mp h
  exact (missing?_eq_none_iff fields members).mp hmissing field hmem hmandatory

/-- An object that differs in one field is read as an object that differs in that field. -/
theorem read_of_same_but {written : Json} {members values : Json.Members} (hrecord : schema.IsRecord)
    (hfield : schema.field? name = some field) (h : schema.read json = .ok written)
    (houtcome : field.outcome (members.lookup name) = .ok (values.lookup name))
    (hmandatory : field.presence = .mandatory → members.lookup name ≠ none)
    (hmembers : ∀ other, other ≠ name → members.lookup other = json.get? other)
    (hsorted : Keyed.Sorted values)
    (hvalues : ∀ other, other ≠ name → values.lookup other = written.get? other) :
    schema.read (.obj members) = .ok (.obj values) := by
  obtain ⟨title, fields, rfl, hordered⟩ := hrecord
  obtain ⟨hmem, rfl⟩ := mem_of_field?_eq_some hfield
  obtain ⟨source, found, rfl, rfl, hfound, hmissing⟩ :=
    (read_record_iff hordered title json written).mp h
  refine (read_record_iff hordered title _ _).mpr ⟨members, values, rfl, rfl, ⟨hsorted, ?_, ?_⟩, ?_⟩
  · intro other hother
    by_cases hname : other.name = field.name
    · rw [hname, eq_of_name_eq hordered hother hmem hname]
      exact houtcome
    · rw [hmembers _ hname, hvalues _ hname]
      exact hfound.field other hother
  · intro unknown hunknown
    rw [hvalues unknown (Ne.symm (hunknown field hmem))]
    exact hfound.known unknown hunknown
  · rw [missing?_eq_none_iff] at hmissing ⊢
    intro other hother hpresence
    by_cases hname : other.name = field.name
    · rw [hname]
      exact hmandatory (eq_of_name_eq hordered hother hmem hname ▸ hpresence)
    · rw [hmembers _ hname]
      exact hmissing other hother hpresence

theorem exists_members_of_read {written : Json} (hrecord : schema.IsRecord)
    (h : schema.read json = .ok written) :
    ∃ members values, json = .obj members ∧ written = .obj values ∧ Keyed.Sorted values := by
  obtain ⟨title, fields, rfl, hordered⟩ := hrecord
  obtain ⟨members, values, rfl, rfl, hvalues, -⟩ :=
    (read_record_iff hordered title json written).mp h
  exact ⟨members, values, rfl, rfl, hvalues.sorted⟩

/-- A field of a record may be given a value: its written form is that of the value. -/
theorem read_set {written value found : Json} (hrecord : schema.IsRecord)
    (hfield : schema.field? name = some field)
    (hvalue : field.outcome (some value) = .ok (some found)) (h : schema.read json = .ok written) :
    schema.read (json.set name value) = .ok (written.set name found) := by
  obtain ⟨members, values, rfl, rfl, hsorted⟩ := exists_members_of_read hrecord h
  refine read_of_same_but hrecord hfield h ?_ (fun _ => ?_) (fun other hne => ?_)
    (Keyed.sorted_insert _ _ hsorted) (fun other hne => ?_)
  · rw [Json.members, Json.members, Keyed.lookup_insert_self, Keyed.lookup_insert_self]
    exact hvalue
  · rw [Json.members, Keyed.lookup_insert_self]
    exact Option.some_ne_none _
  · exact Keyed.lookup_insert_of_ne hne _ _
  · exact Keyed.lookup_insert_of_ne hne _ _

theorem read_set_same {written value : Json} (hrecord : schema.IsRecord)
    (hfield : schema.field? name = some field)
    (hvalue : field.outcome (some value) = .ok (written.get? name))
    (h : schema.read json = .ok written) : schema.read (json.set name value) = .ok written := by
  obtain ⟨members, values, rfl, rfl, hsorted⟩ := exists_members_of_read hrecord h
  refine read_of_same_but hrecord hfield h ?_ (fun _ => ?_) (fun other hne => ?_) hsorted
    (fun _ _ => rfl)
  · rw [Json.members, Keyed.lookup_insert_self]
    exact hvalue
  · rw [Json.members, Keyed.lookup_insert_self]
    exact Option.some_ne_none _
  · exact Keyed.lookup_insert_of_ne hne _ _

/-- A field that is not written may be dropped. -/
theorem read_drop_same {written : Json} (hrecord : schema.IsRecord)
    (hfield : schema.field? name = some field) (hoptional : field.presence = .optional)
    (hnone : written.get? name = none) (h : schema.read json = .ok written) :
    schema.read (json.drop name) = .ok written := by
  obtain ⟨members, values, rfl, rfl, hsorted⟩ := exists_members_of_read hrecord h
  refine read_of_same_but hrecord hfield h ?_ (fun hmandatory => ?_) (fun other hne => ?_) hsorted
    (fun _ _ => rfl)
  · rw [Keyed.lookup_erase_self, show values.lookup name = none from hnone, Field.outcome, hoptional]
    rfl
  · rw [hoptional] at hmandatory
    cases hmandatory
  · exact Keyed.lookup_erase_of_ne hne _

theorem readable_of_same_but {members : Json.Members} (hrecord : schema.IsRecord)
    (hfield : schema.field? name = some field) (h : schema.Readable json)
    (houtcome : ∃ found, field.outcome (members.lookup name) = .ok found)
    (hmandatory : field.presence = .mandatory → members.lookup name ≠ none)
    (hmembers : ∀ other, other ≠ name → members.lookup other = json.get? other) :
    schema.Readable (.obj members) := by
  obtain ⟨title, fields, rfl, hordered⟩ := hrecord
  obtain ⟨hmem, rfl⟩ := mem_of_field?_eq_some hfield
  obtain ⟨source, rfl, hmissing, hfields⟩ := (readable_record_iff hordered title json).mp h
  refine (readable_record_iff hordered title _).mpr ⟨_, rfl, ?_, fun other hother => ?_⟩
  · rw [missing?_eq_none_iff] at hmissing ⊢
    intro other hother hpresence
    by_cases hname : other.name = field.name
    · rw [hname]
      exact hmandatory (eq_of_name_eq hordered hother hmem hname ▸ hpresence)
    · rw [hmembers _ hname]
      exact hmissing other hother hpresence
  · by_cases hname : other.name = field.name
    · rw [hname, eq_of_name_eq hordered hother hmem hname]
      exact houtcome
    · rw [hmembers _ hname]
      exact hfields other hother

theorem exists_members_of_readable (hrecord : schema.IsRecord) (h : schema.Readable json) :
    ∃ members, json = .obj members := by
  obtain ⟨title, fields, rfl, hordered⟩ := hrecord
  obtain ⟨members, rfl, -⟩ := (readable_record_iff hordered title json).mp h
  exact ⟨members, rfl⟩

theorem readable_set {value : Json} (hrecord : schema.IsRecord)
    (hfield : schema.field? name = some field)
    (hvalue : ∃ found, field.outcome (some value) = .ok found) (h : schema.Readable json) :
    schema.Readable (json.set name value) := by
  obtain ⟨members, rfl⟩ := exists_members_of_readable hrecord h
  refine readable_of_same_but hrecord hfield h ?_ (fun _ => ?_) fun other hne => ?_
  · rw [Json.members, Keyed.lookup_insert_self]
    exact hvalue
  · rw [Json.members, Keyed.lookup_insert_self]
    exact Option.some_ne_none _
  · exact Keyed.lookup_insert_of_ne hne _ _

theorem readable_drop (hrecord : schema.IsRecord) (hfield : schema.field? name = some field)
    (hoptional : field.presence = .optional) (h : schema.Readable json) :
    schema.Readable (json.drop name) := by
  obtain ⟨members, rfl⟩ := exists_members_of_readable hrecord h
  refine readable_of_same_but hrecord hfield h ?_ (fun hmandatory => ?_) fun other hne => ?_
  · rw [Keyed.lookup_erase_self, Field.outcome, hoptional]
    exact ⟨none, rfl⟩
  · rw [hoptional] at hmandatory
    cases hmandatory
  · exact Keyed.lookup_erase_of_ne hne _

end Schema

end ClusterKeeper
