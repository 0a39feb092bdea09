import ClusterKeeper.Proofs.Manifest.Written
import ClusterKeeper.Proofs.Schema.Rereading
import Mathlib.Data.Set.List

/-!
Typed objects. A schema denotes a type: a record is a tuple with a slot for each of its fields, the
slot of an optional field may be empty, and a text that a field fixes takes no room. Numbers have the
width of the schema, bytes are bytes, times are moments, and a set of fields lists them by name.
What is written of an object lacks the empty slots and nothing else. The canonical values that are
read as themselves are the written objects, each of them written of one object.
-/

namespace ClusterKeeper

namespace Presence

/-- What a typed record holds of a field. -/
def Slot (presence : Presence) (α : Type) : Type :=
  match presence with
  | .optional => Option α
  | .required _ | .defaulted _ | .mandatory => α
  | .constant _ | .stamped _ => Unit

def write {α : Type} (presence : Presence) (write : α → Json) : presence.Slot α → Option Json :=
  match presence with
  | .optional => Option.map write
  | .required _ | .defaulted _ | .mandatory => fun value => some (write value)
  | .constant text | .stamped text => fun _ => some (.str text)

end Presence

namespace Schema

mutual

/-- The typed objects of a schema. -/
def Value : Schema → Type
  | .text => String
  | .flag => Bool
  | .int32 => Int32
  | .int64 => Int64
  | .bytes => List UInt8
  | .quantity => String
  | .intOrText => Int32 ⊕ String
  | .time => Moment
  | .fieldSet => { fields : Json // fields.isFieldSet = true ∧ fields.isCanonical = true }
  | .list item => List item.Value
  | .dict value => { entries : List (String × value.Value) // Keyed.Sorted entries }
  | .record _ fields _ => FieldValues fields

def FieldValues : List (Field Schema) → Type
  | [] => Unit
  | ⟨_, presence, schema⟩ :: rest => presence.Slot schema.Value × FieldValues rest

end

mutual

def write : (schema : Schema) → schema.Value → Json
  | .text, (value : String) => .str value
  | .flag, (value : Bool) => .bool value
  | .int32, (value : Int32) => .int value.toInt
  | .int64, (value : Int64) => .int value.toInt
  | .bytes, (value : List UInt8) => .str (Base64.encode value)
  | .quantity, (value : String) => .str value
  | .intOrText, (value : Int32 ⊕ String) =>
    match value with
    | .inl number => .int number.toInt
    | .inr word => .str word
  | .time, (moment : Moment) => .str moment.text
  | .fieldSet,
    (fields : { fields : Json // fields.isFieldSet = true ∧ fields.isCanonical = true }) =>
    fields.val
  | .list item, (items : List item.Value) => .arr (items.map fun value => item.write value)
  | .dict value, (entries : { entries : List (String × value.Value) // Keyed.Sorted entries }) =>
    .obj (entries.val.map fun entry => (entry.1, value.write entry.2))
  | .record _ fields _, values => .obj (writeFields fields values)

/-- The members that are written for a record: those of the slots that are not empty. -/
def writeFields : (fields : List (Field Schema)) → FieldValues fields → Json.Members
  | [], _ => []
  | ⟨name, presence, schema⟩ :: rest, (slot, values) =>
    match presence.write (fun value => schema.write value) slot with
    | none => writeFields rest values
    | some json => (name, json) :: writeFields rest values

end

theorem write_list (item : Schema) (items : (list item).Value) :
    (list item).write items = .arr (List.map (fun value => item.write value) items) := rfl

theorem write_dict (inner : Schema) (entries : (dict inner).Value) :
    (dict inner).write entries =
      .obj (entries.val.map fun entry => (entry.1, inner.write entry.2)) := rfl

theorem write_record (title : String) (fields : List (Field Schema)) (positions : List String)
    (values : (record title fields positions).Value) :
    (record title fields positions).write values = .obj (writeFields fields values) := rfl

end Schema

namespace Field

abbrev Slot (field : Field Schema) : Type := field.presence.Slot field.schema.Value

def write (field : Field Schema) (slot : field.Slot) : Option Json :=
  field.presence.write (fun value => field.schema.write value) slot

/-- What is written of a slot is what the field comes to when it is read. -/
theorem outcome_write {field : Field Schema}
    (h : ∀ value, field.schema.IsWritten (field.schema.write value)) (slot : field.Slot) :
    field.outcome (field.write slot) = .ok (field.write slot) := by
  obtain ⟨name, presence, schema⟩ := field
  cases presence with
  | optional =>
      cases slot with
      | none => rfl
      | some value => exact Schema.outcome_of_isWritten rfl (h value)
  | required default | defaulted default | mandatory =>
      exact Schema.outcome_of_isWritten rfl (h slot)
  | constant text => exact (outcome_constant rfl _ _).mpr ⟨rfl, .inr rfl⟩
  | stamped text => rfl

theorem isCanonical_of_write {field : Field Schema}
    (h : ∀ value, (field.schema.write value).isCanonical = true) {slot : field.Slot} {json : Json}
    (hwrite : field.write slot = some json) : json.isCanonical = true := by
  obtain ⟨name, presence, schema⟩ := field
  cases presence with
  | optional =>
      obtain ⟨value, -, rfl⟩ := Option.map_eq_some_iff.mp hwrite
      exact h value
  | required default | defaulted default | mandatory => exact Option.some.inj hwrite ▸ h slot
  | constant text | stamped text => exact Option.some.inj hwrite ▸ rfl

theorem write_ne_none_of_mandatory {field : Field Schema} (h : field.presence = .mandatory)
    (slot : field.Slot) : field.write slot ≠ none := by
  obtain ⟨name, presence, schema⟩ := field
  cases h
  exact Option.some_ne_none _

theorem write_injective {field : Field Schema}
    (h : Function.Injective fun value => field.schema.write value) :
    Function.Injective field.write := by
  obtain ⟨name, presence, schema⟩ := field
  cases presence with
  | optional => exact Option.map_injective h
  | required default | defaulted default | mandatory => exact fun _ _ heq => h (Option.some.inj heq)
  | constant text | stamped text => exact fun _ _ _ => rfl

/-- What a field came to was written of a slot. -/
theorem exists_slot {field : Field Schema} (hstable : field.IsStable)
    (h : ∀ json, json.isCanonical = true → field.schema.IsWritten json →
      ∃ value, field.schema.write value = json)
    {found : Option Json} (hcanonical : ∀ json, found = some json → json.isCanonical = true)
    (hmandatory : field.presence = .mandatory → found ≠ none)
    (houtcome : field.outcome found = .ok found) : ∃ slot, field.write slot = found := by
  obtain ⟨name, presence, schema⟩ := field
  have hvalue {json : Json} (hfound : found = some json)
      (hread : (schema.read json).map some = .ok (some json)) :
      ∃ value, some (schema.write value) = found := by
    obtain ⟨_, hwritten, heq⟩ := (map_eq_ok_iff _ _ _).mp hread
    cases heq
    obtain ⟨value, hvalue⟩ := h json (hcanonical json hfound) hwritten
    exact ⟨value, by rw [hvalue, hfound]⟩
  cases presence with
  | optional =>
      cases found with
      | none => exact ⟨none, rfl⟩
      | some json =>
          have hread : (schema.read json).map some = .ok (some json) := by
            cases json <;> first | exact houtcome | cases houtcome
          obtain ⟨value, hvalue⟩ := hvalue rfl hread
          exact ⟨some value, hvalue⟩
  | required default =>
      cases found with
      | none => cases houtcome
      | some json =>
          have hread : (schema.read json).map some = .ok (some json) := by
            cases json with
            | null =>
                -- the default of a stable field is read, and nothing is read as null
                cases houtcome
                exact absurd (read_of_isReadAs hstable.1) Schema.ne_null_of_read
            | _ => exact houtcome
          exact hvalue rfl hread
  | defaulted default =>
      cases found with
      | none => cases houtcome
      | some json => exact hvalue rfl houtcome
  | mandatory =>
      cases found with
      | none => exact absurd rfl (hmandatory rfl)
      | some json => exact hvalue rfl houtcome
  | constant text => exact ⟨(), ((outcome_constant rfl _ _).mp houtcome).1.symm⟩
  | stamped text => exact ⟨(), Except.ok.inj houtcome⟩

end Field

namespace Schema

section Record

variable {field : Field Schema} {fields rest : List (Field Schema)}

theorem writeFields_cons (slot : field.Slot) (values : FieldValues rest) :
    writeFields (field :: rest) (slot, values) =
      (field.write slot).toList.map (field.name, ·) ++ writeFields rest values := by
  rw [writeFields, ← Field.write]
  cases field.write slot <;> rfl

/-- A written member is that of a field. -/
theorem exists_slot_of_mem (values : FieldValues fields) {member : String × Json}
    (h : member ∈ writeFields fields values) :
    ∃ field ∈ fields, field.name = member.1 ∧ ∃ slot, field.write slot = some member.2 := by
  induction fields with
  | nil => cases h
  | cons field rest ih =>
      obtain ⟨slot, values⟩ := values
      rw [writeFields_cons, List.mem_append] at h
      rcases h with h | h
      · obtain ⟨json, hjson, rfl⟩ := List.mem_map.mp h
        exact ⟨field, List.mem_cons_self, rfl, slot, Option.mem_toList.mp hjson⟩
      · obtain ⟨other, hother, hwritten⟩ := ih values h
        exact ⟨other, List.mem_cons_of_mem _ hother, hwritten⟩

theorem lookup_writeFields_of_unknown (values : FieldValues fields) {name : String}
    (h : ∀ field ∈ fields, field.name ≠ name) : (writeFields fields values).lookup name = none := by
  refine Keyed.lookup_eq_none_of_forall_ne fun member hmember heq => ?_
  obtain ⟨field, hfield, hname, -⟩ := exists_slot_of_mem values hmember
  exact h field hfield (hname.trans heq)

theorem lookup_writeFields_self (hne : ∀ other ∈ rest, other.name ≠ field.name)
    (slot : field.Slot) (values : FieldValues rest) :
    (writeFields (field :: rest) (slot, values)).lookup field.name = field.write slot := by
  rw [writeFields_cons]
  cases field.write slot with
  | none => exact lookup_writeFields_of_unknown values hne
  | some json => exact List.lookup_cons_self

theorem lookup_writeFields_of_ne {name : String} (hne : name ≠ field.name)
    (slot : field.Slot) (values : FieldValues rest) :
    (writeFields (field :: rest) (slot, values)).lookup name =
      (writeFields rest values).lookup name := by
  rw [writeFields_cons]
  cases field.write slot with
  | none => rfl
  | some json =>
      change List.lookup name ((field.name, json) :: writeFields rest values) = _
      rw [List.lookup_cons, show (name == field.name) = false by simpa using hne]

theorem sorted_writeFields (hordered : Field.Ordered fields) (values : FieldValues fields) :
    Keyed.Sorted (writeFields fields values) := by
  induction fields with
  | nil => exact Keyed.sorted_nil
  | cons field rest ih =>
      obtain ⟨slot, values⟩ := values
      obtain ⟨hlt, hrest⟩ := List.pairwise_cons.mp hordered
      rw [writeFields_cons]
      cases field.write slot with
      | none => exact ih hrest values
      | some json =>
          refine Keyed.sorted_cons.mpr ⟨fun member hmember => ?_, ih hrest values⟩
          obtain ⟨other, hother, hname, -⟩ := exists_slot_of_mem values hmember
          exact hname ▸ hlt other hother

/-- What is written under the name of a field is written of a slot. -/
theorem exists_slot_of_field (hordered : Field.Ordered fields) (values : FieldValues fields)
    (hfield : field ∈ fields) :
    ∃ slot, (writeFields fields values).lookup field.name = field.write slot := by
  induction fields with
  | nil => cases hfield
  | cons first rest ih =>
      obtain ⟨slot, values⟩ := values
      obtain ⟨hlt, hrest⟩ := List.pairwise_cons.mp hordered
      have hne := Field.name_ne_of_lt hlt
      rcases List.mem_cons.mp hfield with rfl | hfield
      · exact ⟨slot, lookup_writeFields_self hne slot values⟩
      · rw [lookup_writeFields_of_ne (hne field hfield)]
        exact ih hrest values hfield

theorem writeFields_injective (hordered : Field.Ordered fields)
    (h : ∀ field ∈ fields, Function.Injective field.write) :
    Function.Injective (writeFields fields) := by
  induction fields with
  | nil => exact fun _ _ _ => rfl
  | cons field rest ih =>
      obtain ⟨hlt, hrest⟩ := List.pairwise_cons.mp hordered
      obtain ⟨hfield, hfields⟩ := List.forall_mem_cons.mp h
      rintro ⟨slot, values⟩ ⟨slot', values'⟩ heq
      have hne := Field.name_ne_of_lt hlt
      have hslot : slot = slot' := by
        refine hfield ?_
        rw [← lookup_writeFields_self hne slot values, heq, lookup_writeFields_self hne]
      subst hslot
      rw [writeFields_cons, writeFields_cons, List.append_cancel_left_eq] at heq
      rw [ih hrest hfields heq]

/-- Members that are written of slots, one for each field, are those of a record. -/
theorem exists_writeFields (hordered : Field.Ordered fields) {members : Json.Members}
    (hsorted : Keyed.Sorted members)
    (hknown : ∀ name, (∀ field ∈ fields, field.name ≠ name) → members.lookup name = none)
    (h : ∀ field ∈ fields, ∃ slot, field.write slot = members.lookup field.name) :
    ∃ values, writeFields fields values = members := by
  have hlookup : ∃ values, ∀ field ∈ fields,
      (writeFields fields values).lookup field.name = members.lookup field.name := by
    clear hknown hsorted
    induction fields with
    | nil => exact ⟨(), nofun⟩
    | cons field rest ih =>
        obtain ⟨hlt, hrest⟩ := List.pairwise_cons.mp hordered
        have hne := Field.name_ne_of_lt hlt
        obtain ⟨⟨slot, hslot⟩, hslots⟩ := List.forall_mem_cons.mp h
        obtain ⟨values, hvalues⟩ := ih hrest hslots
        refine ⟨(slot, values), List.forall_mem_cons.mpr ⟨?_, fun other hother => ?_⟩⟩
        · rw [lookup_writeFields_self hne, hslot]
        · rw [lookup_writeFields_of_ne (hne other hother), hvalues other hother]
  obtain ⟨values, hvalues⟩ := hlookup
  refine ⟨values, Keyed.ext_of_sorted (sorted_writeFields hordered values) hsorted fun name => ?_⟩
  by_cases hname : ∃ field ∈ fields, field.name = name
  · obtain ⟨field, hfield, rfl⟩ := hname
    exact hvalues field hfield
  · push Not at hname
    rw [lookup_writeFields_of_unknown values hname, hknown name hname]

end Record

theorem isWritten_int_iff {bits : Nat} {wanted : String} {json : Json} :
    readInt bits wanted json = .ok json ↔
      ∃ value : Int, json = .int value ∧ -(twoTo (bits - 1) : Int) ≤ value ∧
        value < twoTo (bits - 1) := by
  rw [readInt_eq_ok_iff]
  constructor
  · rintro ⟨value, rfl, -, hrange⟩
    exact ⟨value, rfl, hrange⟩
  · rintro ⟨value, rfl, hrange⟩
    exact ⟨value, rfl, rfl, hrange⟩

theorem isWritten_intOrText_iff {json : Json} :
    intOrText.IsWritten json ↔ int32.IsWritten json ∨ ∃ value, json = .str value := by
  cases json with
  | num n =>
      cases n with
      | int value =>
          rw [IsWritten, IsWritten, read, read, readInt, readIntOrText]
          split <;> simp_all
      | float bits => simp [IsWritten, read, readInt, readIntOrText]
  | _ => simp [IsWritten, read, readInt, readIntOrText]

theorem isWritten_text_iff {json : Json} : text.IsWritten json ↔ ∃ value, json = .str value := by
  cases json <;> simp [IsWritten, read]

theorem isWritten_flag_iff {json : Json} : flag.IsWritten json ↔ ∃ value, json = .bool value := by
  cases json <;> simp [IsWritten, read]

theorem isWritten_quantity_iff {json : Json} :
    quantity.IsWritten json ↔ ∃ value, json = .str value := by
  cases json with
  | num n => cases n <;> simp [IsWritten, read, readQuantity]
  | _ => simp [IsWritten, read, readQuantity]

theorem isWritten_bytes_iff {json : Json} :
    bytes.IsWritten json ↔ ∃ content, json = .str (Base64.encode content) := by
  constructor
  · intro h
    cases json with
    | str value =>
        simp only [IsWritten, read, readBytes] at h
        split at h
        · next content hdecode =>
            exact ⟨content, congrArg Json.str (Base64.decode_eq_ok_iff.mp hdecode)⟩
        · cases h
    | _ => cases h
  · rintro ⟨content, rfl⟩
    rw [IsWritten, read, readBytes, Base64.decode_encode]

theorem isWritten_time_iff {json : Json} :
    time.IsWritten json ↔ ∃ moment : Moment, json = .str moment.text := by
  rw [IsWritten, read_time_iff]
  constructor
  · rintro ⟨-, moment, -, -, hwritten⟩
    exact ⟨moment, hwritten⟩
  · rintro ⟨moment, rfl⟩
    exact ⟨_, moment, rfl, moment.read?_text, rfl⟩

variable {schema : Schema}

/-- The JSON of an object is read as itself. -/
theorem isWritten_write (hstable : schema.isStable = true) (value : schema.Value) :
    schema.IsWritten (schema.write value) := by
  induction schema using induction with
  | text => rfl
  | flag => rfl
  | int32 => exact isWritten_int_iff.mpr ⟨_, rfl, Int32.le_toInt value, Int32.toInt_lt value⟩
  | int64 => exact isWritten_int_iff.mpr ⟨_, rfl, Int64.le_toInt value, Int64.toInt_lt value⟩
  | bytes => exact isWritten_bytes_iff.mpr ⟨value, rfl⟩
  | quantity => rfl
  | intOrText =>
      rw [isWritten_intOrText_iff]
      cases value with
      | inl number =>
          exact .inl (isWritten_int_iff.mpr ⟨_, rfl, Int32.le_toInt number, Int32.toInt_lt number⟩)
      | inr word => exact .inr ⟨word, rfl⟩
  | time => exact isWritten_time_iff.mpr ⟨value, rfl⟩
  | fieldSet => exact read_fieldSet_iff.mpr ⟨value.property.1, rfl⟩
  | list item ih => exact isWritten_list value fun entry _ => ih hstable entry
  | dict inner ih =>
      refine (read_dict_iff inner _ _).mpr ⟨_, _, rfl, rfl, List.forall₂_same.mpr ?_⟩
      intro member hmember
      obtain ⟨entry, -, rfl⟩ := List.mem_map.mp hmember
      exact ⟨rfl, ih hstable entry.2⟩
  | record title fields positions ih =>
      obtain ⟨-, hordered, hfields⟩ := (isStable_record_iff title fields positions).mp hstable
      rw [IsWritten, write_record, read_record_obj, read_record_iff hordered]
      refine ⟨_, _, rfl, rfl, ⟨sorted_writeFields hordered value, fun field hfield => ?_,
        fun name => lookup_writeFields_of_unknown value⟩, ?_⟩
      · obtain ⟨slot, hslot⟩ := exists_slot_of_field hordered value hfield
        rw [hslot]
        exact Field.outcome_write (ih field hfield (hfields field hfield).2) slot
      · rw [missing?_eq_none_iff]
        intro field hfield hmandatory
        obtain ⟨slot, hslot⟩ := exists_slot_of_field hordered value hfield
        rw [hslot]
        exact Field.write_ne_none_of_mandatory hmandatory slot

theorem isCanonical_write (hstable : schema.isStable = true) (value : schema.Value) :
    (schema.write value).isCanonical = true := by
  induction schema using induction with
  | text | flag | int32 | int64 | bytes | quantity | time => rfl
  | intOrText => cases value <;> rfl
  | fieldSet => exact value.property.2
  | list item ih =>
      rw [write_list, Json.isCanonical_arr]
      intro json hjson
      obtain ⟨entry, -, rfl⟩ := List.mem_map.mp hjson
      exact ih hstable entry
  | dict inner ih =>
      rw [write_dict, Json.isCanonical_obj]
      refine ⟨(Keyed.sorted_iff_of_keys_eq (by simp)).mpr value.property, fun member hmember => ?_⟩
      obtain ⟨entry, -, rfl⟩ := List.mem_map.mp hmember
      exact ih hstable entry.2
  | record title fields positions ih =>
      obtain ⟨-, hordered, hfields⟩ := (isStable_record_iff title fields positions).mp hstable
      rw [write_record, Json.isCanonical_obj]
      refine ⟨sorted_writeFields hordered value, fun member hmember => ?_⟩
      obtain ⟨field, hfield, -, slot, hslot⟩ := exists_slot_of_mem value hmember
      exact Field.isCanonical_of_write (ih field hfield (hfields field hfield).2) hslot

theorem write_injective (hstable : schema.isStable = true) :
    Function.Injective fun value => schema.write value := by
  induction schema using induction with
  | text | quantity => exact fun _ _ heq => Json.str.inj heq
  | flag => exact fun _ _ heq => Json.bool.inj heq
  | int32 => exact fun _ _ heq => Int32.toInt_inj.mp (Number.int.inj (Json.num.inj heq))
  | int64 => exact fun _ _ heq => Int64.toInt_inj.mp (Number.int.inj (Json.num.inj heq))
  | bytes => exact fun _ _ heq => Base64.encode_injective (Json.str.inj heq)
  | intOrText =>
      rintro (left | left) (right | right) heq
      · exact congrArg Sum.inl (Int32.toInt_inj.mp (Number.int.inj (Json.num.inj heq)))
      · cases heq
      · cases heq
      · exact congrArg Sum.inr (Json.str.inj heq)
  | time => exact fun _ _ heq => Moment.text_injective (Json.str.inj heq)
  | fieldSet => exact Subtype.val_injective
  | list item ih =>
      exact fun _ _ heq => List.map_injective_iff.mpr (ih hstable) (Json.arr.inj heq)
  | dict inner ih =>
      intro left right heq
      refine Subtype.ext (List.map_injective_iff.mpr ?_ (Json.obj.inj heq))
      rintro ⟨name, value⟩ ⟨name', value'⟩ hentry
      obtain ⟨hname, hvalue⟩ := Prod.mk.inj hentry
      exact Prod.ext hname (ih hstable hvalue)
  | record title fields positions ih =>
      obtain ⟨-, hordered, hfields⟩ := (isStable_record_iff title fields positions).mp hstable
      intro left right heq
      refine writeFields_injective hordered (fun field hfield => ?_) (Json.obj.inj heq)
      exact Field.write_injective (ih field hfield (hfields field hfield).2)

/-- A canonical value that is read as itself is the JSON of an object. -/
theorem exists_write (hstable : schema.isStable = true) {json : Json}
    (hcanonical : json.isCanonical = true) (h : schema.IsWritten json) :
    ∃ value, schema.write value = json := by
  induction schema using induction generalizing json with
  | text =>
      obtain ⟨value, rfl⟩ := isWritten_text_iff.mp h
      exact ⟨value, rfl⟩
  | quantity =>
      obtain ⟨value, rfl⟩ := isWritten_quantity_iff.mp h
      exact ⟨value, rfl⟩
  | flag =>
      obtain ⟨value, rfl⟩ := isWritten_flag_iff.mp h
      exact ⟨value, rfl⟩
  | int32 =>
      obtain ⟨value, rfl, hrange⟩ := isWritten_int_iff.mp h
      exact ⟨Int32.ofInt value, congrArg Json.int (Int32.toInt_ofInt_of_le hrange.1 hrange.2)⟩
  | int64 =>
      obtain ⟨value, rfl, hrange⟩ := isWritten_int_iff.mp h
      exact ⟨Int64.ofInt value, congrArg Json.int (Int64.toInt_ofInt_of_le hrange.1 hrange.2)⟩
  | bytes =>
      obtain ⟨content, rfl⟩ := isWritten_bytes_iff.mp h
      exact ⟨content, rfl⟩
  | intOrText =>
      rcases isWritten_intOrText_iff.mp h with h | ⟨value, rfl⟩
      · obtain ⟨value, rfl, hrange⟩ := isWritten_int_iff.mp h
        exact ⟨.inl (Int32.ofInt value),
          congrArg Json.int (Int32.toInt_ofInt_of_le hrange.1 hrange.2)⟩
      · exact ⟨.inr value, rfl⟩
  | time =>
      obtain ⟨moment, rfl⟩ := isWritten_time_iff.mp h
      exact ⟨moment, rfl⟩
  | fieldSet => exact ⟨⟨json, (read_fieldSet_iff.mp h).1, hcanonical⟩, rfl⟩
  | list item ih =>
      obtain ⟨items, values, rfl, hvalues, hread⟩ := (read_list_iff item json json).mp h
      cases hvalues
      rw [Json.isCanonical_arr] at hcanonical
      have hitems : ∀ value ∈ items, value ∈ Set.range item.write := fun value hvalue =>
        ih hstable (hcanonical value hvalue) (List.forall₂_same.mp hread value hvalue)
      obtain ⟨objects, hobjects⟩ := (Set.range_list_map _).ge hitems
      exact ⟨objects, congrArg Json.arr hobjects⟩
  | dict inner ih =>
      obtain ⟨members, values, rfl, hvalues, hread⟩ := (read_dict_iff inner json json).mp h
      cases hvalues
      rw [Json.isCanonical_obj] at hcanonical
      have hmembers : ∀ member ∈ members, member ∈ Set.range
          fun entry : String × inner.Value => (entry.1, inner.write entry.2) := by
        intro member hmember
        obtain ⟨value, hvalue⟩ := ih hstable (hcanonical.2 member hmember)
          (List.forall₂_same.mp hread member hmember).2
        exact ⟨(member.1, value), Prod.ext rfl hvalue⟩
      obtain ⟨entries, hentries⟩ := (Set.range_list_map _).ge hmembers
      have hsorted : Keyed.Sorted entries :=
        (Keyed.sorted_iff_of_keys_eq (by simp [← hentries])).mpr hcanonical.1
      exact ⟨⟨entries, hsorted⟩, congrArg Json.obj hentries⟩
  | record title fields positions ih =>
      obtain ⟨-, hordered, hfields⟩ := (isStable_record_iff title fields positions).mp hstable
      have hread : (record title fields []).read json = .ok json := by
        obtain ⟨_, values, rfl, -⟩ := exists_gathered_of_read hordered h
        rw [← read_record_obj, h]
      obtain ⟨members, values, rfl, hvalues, hgathered, hmissing⟩ :=
        (read_record_iff hordered title json json).mp hread
      cases hvalues
      rw [Json.isCanonical_obj] at hcanonical
      obtain ⟨found, hfound⟩ := exists_writeFields hordered hcanonical.1 hgathered.known
        fun field hfield => Field.exists_slot (hfields field hfield)
          (fun json => ih field hfield (hfields field hfield).2)
          (fun json hjson => hcanonical.2 _ (Keyed.mem_of_lookup hjson))
          ((missing?_eq_none_iff fields members).mp hmissing field hfield)
          (hgathered.field field hfield)
      exact ⟨found, congrArg Json.obj hfound⟩

def Decodes (schema : Schema) (json : Json) (value : schema.Value) : Prop :=
  schema.read json = .ok (schema.write value)

/-- What is written of an object is read as that object and as no other. -/
theorem decodes_write_iff (hstable : schema.isStable = true) {value found : schema.Value} :
    schema.Decodes (schema.write value) found ↔ found = value := by
  rw [Decodes, isWritten_write hstable value]
  constructor
  · exact fun heq => write_injective hstable (Except.ok.inj heq).symm
  · rintro rfl
    rfl

/-- A canonical value that is read as itself is read as one object. -/
theorem exists_decodes (hstable : schema.isStable = true) {json : Json}
    (hcanonical : json.isCanonical = true) (h : schema.IsWritten json) :
    ∃ value, json = schema.write value ∧ ∀ found, schema.Decodes json found ↔ found = value := by
  obtain ⟨value, rfl⟩ := exists_write hstable hcanonical h
  exact ⟨value, rfl, fun _ => decodes_write_iff hstable⟩

end Schema

end ClusterKeeper
