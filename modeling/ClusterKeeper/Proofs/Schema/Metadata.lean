import ClusterKeeper.Store.Memory
import ClusterKeeper.Proofs.Schema.Merging

/-!
The metadata of objects of all kinds: reading keeps the texts in it, and a readable document stays so
when a metadata field is given a value that can be read.
-/

namespace ClusterKeeper

theorem Kind.isRecord_schema (kind : Kind) : kind.schema.IsRecord := by
  cases kind <;> exact ⟨_, _, rfl, by decide⟩

theorem Kind.field?_metadata (kind : Kind) :
    ∃ presence, kind.schema.field? "metadata" = some ⟨"metadata", presence, Schema.metadata⟩ ∧
      (presence = .required (.obj []) ∨ presence = .mandatory) := by
  cases kind with
  | ipfs => exact ⟨_, rfl, .inr rfl⟩
  | _ => exact ⟨_, rfl, .inl rfl⟩

namespace Schema

theorem isRecord_metadata : metadata.IsRecord := ⟨_, _, rfl, by decide⟩

theorem isRegular_metadata : metadata.isRegular = true := by decide +kernel

def metadataTexts : List String :=
  ["generateName", "name", "namespace", "resourceVersion", "selfLink", "uid"]

theorem field?_metadata_text {name : String} (h : name ∈ metadataTexts) :
    metadata.field? name = some (Field.optional name text) := by
  simp only [metadataTexts, List.mem_cons, List.not_mem_nil, or_false] at h
  rcases h with rfl | rfl | rfl | rfl | rfl | rfl <;> rfl

theorem field?_metadata_mark : metadata.field? "deletionTimestamp" =
    some (Field.optional "deletionTimestamp" time) := rfl

/-- An optional field comes to nothing if it is absent or null. -/
theorem outcome_optional_eq_none_iff {name : String} {schema : Schema} {json : Json} :
    (Field.optional name schema).outcome (some json) = .ok none ↔ json = .null := by
  cases json <;> simp [Field.outcome, Field.optional, Presence.outcome, map_eq_ok_iff]

theorem outcome_optional_text {name : String} {found written : Option Json}
    (h : (Field.optional name text).outcome found = .ok written) :
    (written = none ∧ found.getD .null = .null) ∨
      ∃ value, written = some (.str value) ∧ found = some (.str value) := by
  cases found with
  | none => exact .inl ⟨(Except.ok.inj h).symm, rfl⟩
  | some value =>
      cases value with
      | null => exact .inl ⟨(Except.ok.inj h).symm, rfl⟩
      | str value => exact .inr ⟨value, (Except.ok.inj h).symm, rfl⟩
      | _ => cases h

theorem outcome_optional_list {name : String} {item : Schema} {found written : Option Json}
    (h : (Field.optional name (list item)).outcome found = .ok written) :
    (written = none ∧ found.getD .null = .null) ∨
      ∃ items values, written = some (.arr values) ∧ found.getD .null = .arr items ∧
        List.Forall₂ (fun a b => item.read a = .ok b) items values := by
  rcases found with _ | value
  · exact .inl ⟨(Except.ok.inj h).symm, rfl⟩
  · by_cases hnull : value = .null
    · subst hnull
      exact .inl ⟨(Except.ok.inj h).symm, rfl⟩
    · have hmapped : ((list item).read value).map some = .ok written := by
        cases value <;> first | exact absurd rfl hnull | exact h
      obtain ⟨list, hread, rfl⟩ := (map_eq_ok_iff some _ _).mp hmapped
      obtain ⟨items, values, rfl, rfl, hitems⟩ := (read_list_iff item _ _).mp hread
      exact .inr ⟨items, values, rfl, rfl, hitems⟩

theorem eq_of_read_textMap {json written : Json} (h : (dict text).read json = .ok written) :
    written = json := by
  obtain ⟨members, values, rfl, rfl, hmembers⟩ := (read_dict_iff text json written).mp h
  congr 1
  clear h
  induction hmembers with
  | nil => rfl
  | @cons member value _ _ hhead _ ih =>
      obtain ⟨name, source⟩ := member
      obtain ⟨_, target⟩ := value
      obtain ⟨rfl, hread⟩ := hhead
      have htext : target = source := by
        cases source <;> cases hread
        rfl
      rw [htext, ih]

theorem outcome_optional_textMap {name : String} {found written : Option Json}
    (h : (Field.optional name (dict text)).outcome found = .ok written) :
    written.getD .null = found.getD .null := by
  cases found with
  | none =>
      cases h
      rfl
  | some value =>
      cases value with
      | obj members =>
          obtain ⟨map, hread, rfl⟩ := (map_eq_ok_iff some _ _).mp h
          exact eq_of_read_textMap hread
      | null =>
          cases h
          rfl
      | _ => cases h

theorem outcome_optional_texts (name : String) (values : List String) :
    (Field.optional name (list text)).outcome (some (.texts values)) = .ok (some (.texts values)) := by
  have hread : (list text).read (.texts values) = .ok (.texts values) := by
    refine (read_list_iff text _ _).mpr ⟨_, _, rfl, rfl, List.forall₂_same.mpr fun value hvalue => ?_⟩
    obtain ⟨found, -, rfl⟩ := List.mem_map.mp hvalue
    rfl
  exact congrArg (Except.map some) hread

end Schema

namespace Kind

open Schema

variable {kind : Kind} {raw written : Json}

/-- Objects of every kind have metadata, which is read from the members of the document's. -/
theorem read_metadata (h : kind.schema.read raw = .ok written) :
    ∃ source md, written.get? "metadata" = some md ∧ metadata.read source = .ok md ∧
      source.members = (raw.get "metadata").members := by
  obtain ⟨presence, hfield, hpresence⟩ := kind.field?_metadata
  have houtcome := outcome_of_read kind.isRecord_schema hfield h
  rcases hpresence with rfl | rfl
  · have hdefault : (Field.mk "metadata" (.required (.obj [])) metadata).outcome none =
        .ok (some (.obj [])) := rfl
    have hempty : metadata.read (.obj []) = .ok (.obj []) := rfl
    cases hfound : raw.get? "metadata" with
    | none =>
        rw [hfound, hdefault] at houtcome
        refine ⟨.obj [], _, (Except.ok.inj houtcome).symm, hempty, ?_⟩
        rw [Json.get, hfound]
        rfl
    | some source =>
        by_cases hnull : source = .null
        · subst hnull
          rw [hfound] at houtcome
          refine ⟨.obj [], _, (Except.ok.inj houtcome).symm, hempty, ?_⟩
          rw [Json.get, hfound]
          rfl
        · rw [hfound] at houtcome
          obtain ⟨md, hmd, hread⟩ :=
            Field.read_of_outcome ⟨rfl, isRegular_metadata⟩ (by simp) hnull houtcome
          exact ⟨source, md, hmd, hread, by rw [Json.get, hfound]; rfl⟩
  · cases hfound : raw.get? "metadata" with
    | none =>
        exact absurd hfound
          (get?_ne_none_of_mandatory kind.isRecord_schema hfield rfl ⟨written, h⟩)
    | some source =>
        rw [hfound] at houtcome
        obtain ⟨md, hread, hmd⟩ := (map_eq_ok_iff some _ _).mp houtcome
        exact ⟨source, md, hmd.symm, hread, by rw [Json.get, hfound]; rfl⟩

/-- What is written of a metadata field is what the document's comes to. -/
theorem outcome_metadata_field (h : kind.schema.read raw = .ok written) {name : String}
    {field : Field Schema} (hfield : metadata.field? name = some field) :
    ∃ found, field.outcome found = .ok ((written.get "metadata").get? name) ∧
      found.getD .null = raw.metadataField name := by
  obtain ⟨source, md, hmd, hread, hmembers⟩ := read_metadata h
  have hget : source.get? name = (raw.get "metadata").get? name := congrArg _ hmembers
  have houtcome := outcome_of_read isRecord_metadata hfield hread
  refine ⟨source.get? name, ?_, ?_⟩
  · rw [Json.get_of_get? hmd]
    exact houtcome
  · rw [hget]
    rfl

theorem metadata_text (h : kind.schema.read raw = .ok written) {name : String}
    (hname : name ∈ metadataTexts) :
    ((written.get "metadata").get? name = none ∧ raw.metadataField name = .null) ∨
      ∃ value, (written.get "metadata").get? name = some (.str value) ∧
        raw.metadataField name = .str value := by
  obtain ⟨found, houtcome, hraw⟩ := outcome_metadata_field h (field?_metadata_text hname)
  rw [← hraw]
  rcases outcome_optional_text houtcome with h | ⟨value, hwritten, rfl⟩
  · exact .inl h
  · exact .inr ⟨value, hwritten, rfl⟩

theorem metadata_list (h : kind.schema.read raw = .ok written) {name : String} {item : Schema}
    (hfield : metadata.field? name = some (Field.optional name (list item))) :
    ((written.get "metadata").get? name = none ∧ raw.metadataField name = .null) ∨
      ∃ items values, (written.get "metadata").get? name = some (.arr values) ∧
        raw.metadataField name = .arr items ∧
        List.Forall₂ (fun a b => item.read a = .ok b) items values := by
  obtain ⟨found, houtcome, hraw⟩ := outcome_metadata_field h hfield
  rw [← hraw]
  exact outcome_optional_list houtcome

theorem metadata_get_textMap (h : kind.schema.read raw = .ok written) {name : String}
    (hfield : metadata.field? name = some (Field.optional name (dict text))) :
    (written.get "metadata").get name = raw.metadataField name := by
  obtain ⟨found, houtcome, hraw⟩ := outcome_metadata_field h hfield
  rw [← hraw]
  exact outcome_optional_textMap houtcome

/-- An optional metadata field of a document comes to what is written of it. -/
theorem outcome_metadata_optional (h : kind.schema.read raw = .ok written) {name : String}
    {schema : Schema} (hfield : metadata.field? name = some (Field.optional name schema)) :
    (Field.optional name schema).outcome (some (raw.metadataField name)) =
      .ok ((written.get "metadata").get? name) := by
  obtain ⟨found, houtcome, hraw⟩ := outcome_metadata_field h hfield
  rw [← hraw, ← houtcome]
  cases found <;> rfl

theorem metadata_get?_eq_none_iff (h : kind.schema.read raw = .ok written) {name : String}
    {schema : Schema} (hfield : metadata.field? name = some (Field.optional name schema)) :
    (written.get "metadata").get? name = none ↔ raw.metadataField name = .null := by
  rw [← outcome_optional_eq_none_iff, outcome_metadata_optional h hfield, Except.ok.injEq]

theorem metadata_get_text (h : kind.schema.read raw = .ok written) {name : String}
    (hname : name ∈ metadataTexts) :
    (written.get "metadata").get name = raw.metadataField name := by
  rcases metadata_text h hname with ⟨hwritten, hraw⟩ | ⟨value, hwritten, hraw⟩
  · rw [Json.get, hwritten, hraw]
    rfl
  · rw [Json.get, hwritten, hraw]
    rfl

theorem metadataField_text (h : kind.schema.Readable raw) {name : String}
    (hname : name ∈ metadataTexts) :
    raw.metadataField name = .null ∨ ∃ text, raw.metadataField name = .str text := by
  obtain ⟨written, h⟩ := h
  rcases metadata_text h hname with ⟨-, hraw⟩ | ⟨value, -, hraw⟩
  · exact .inl hraw
  · exact .inr ⟨value, hraw⟩

theorem outcome_metadata {field : Field Schema} (hfield : kind.schema.field? "metadata" = some field)
    {md found : Json} (hmd : metadata.read md = .ok found) :
    field.outcome (some md) = .ok (some found) := by
  obtain ⟨presence, hmetadata, hpresence⟩ := kind.field?_metadata
  cases hmetadata.symm.trans hfield
  rcases hpresence with rfl | rfl
  · refine Field.outcome_of_read ⟨rfl, isRegular_metadata⟩ (by simp) ?_ hmd
    rintro rfl
    cases hmd
  · exact congrArg (Except.map some) hmd

theorem readable_set_metadata (h : kind.schema.Readable raw) {md : Json}
    (hmd : metadata.Readable md) : kind.schema.Readable (raw.set "metadata" md) := by
  obtain ⟨presence, hfield, -⟩ := kind.field?_metadata
  obtain ⟨found, hfound⟩ := hmd
  exact readable_set kind.isRecord_schema hfield ⟨_, outcome_metadata hfield hfound⟩ h

theorem read_set_metadata (h : kind.schema.read raw = .ok written) {md found : Json}
    (hmd : metadata.read md = .ok found) :
    kind.schema.read (raw.set "metadata" md) = .ok (written.set "metadata" found) := by
  obtain ⟨presence, hfield, -⟩ := kind.field?_metadata
  exact read_set kind.isRecord_schema hfield (outcome_metadata hfield hmd) h

/-- Metadata that are read like the document's do not change what the document is read as. -/
theorem read_set_metadata_same (h : kind.schema.read raw = .ok written) {md found : Json}
    (hfound : written.get? "metadata" = some found) (hmd : metadata.read md = .ok found) :
    kind.schema.read (raw.set "metadata" md) = .ok written := by
  obtain ⟨presence, hfield, -⟩ := kind.field?_metadata
  refine read_set_same kind.isRecord_schema hfield ?_ h
  rw [hfound]
  exact outcome_metadata hfield hmd

theorem set_metadata_congr {source : Json} (hmembers : source.members = (raw.get "metadata").members)
    (name : String) (value : Json) : raw.setMetadataField name value =
      raw.set "metadata" (source.set name value) := by
  have hset : (raw.get "metadata").set name value = source.set name value := by
    rw [Json.set, Json.set, hmembers]
  rw [Json.setMetadataField, hset]

/-- A metadata field that is given a value is read as what the value comes to. -/
theorem read_setMetadataField (h : kind.schema.read raw = .ok written) {name : String}
    {field : Field Schema} (hfield : metadata.field? name = some field) {value found : Json}
    (hvalue : field.outcome (some value) = .ok (some found)) :
    kind.schema.read (raw.setMetadataField name value) =
      .ok (written.setMetadataField name found) := by
  obtain ⟨source, md, hmd, hread, hmembers⟩ := read_metadata h
  rw [set_metadata_congr hmembers, Json.setMetadataField, Json.get_of_get? hmd]
  exact read_set_metadata h (read_set isRecord_metadata hfield hvalue hread)

theorem read_setMetadataField_same (h : kind.schema.read raw = .ok written) {name : String}
    {field : Field Schema} (hfield : metadata.field? name = some field) {value : Json}
    (hvalue : field.outcome (some value) = .ok ((written.get "metadata").get? name)) :
    kind.schema.read (raw.setMetadataField name value) = .ok written := by
  obtain ⟨source, md, hmd, hread, hmembers⟩ := read_metadata h
  rw [Json.get_of_get? hmd] at hvalue
  rw [set_metadata_congr hmembers]
  exact read_set_metadata_same h hmd (read_set_same isRecord_metadata hfield hvalue hread)

theorem read_drop_metadata_same (h : kind.schema.read raw = .ok written) {name : String}
    {field : Field Schema} (hfield : metadata.field? name = some field)
    (hoptional : field.presence = .optional)
    (hnone : (written.get "metadata").get? name = none) {members : Json.Members}
    (hobj : raw.get "metadata" = .obj members) :
    kind.schema.read (raw.set "metadata" ((raw.get "metadata").drop name)) = .ok written := by
  obtain ⟨source, md, hmd, hread, hmembers⟩ := read_metadata h
  obtain ⟨_, _, rfl, rfl, -⟩ := exists_members_of_read isRecord_metadata hread
  rw [hobj] at hmembers ⊢
  cases hmembers
  rw [Json.get_of_get? hmd] at hnone
  exact read_set_metadata_same h hmd
    (read_drop_same isRecord_metadata hfield hoptional hnone hread)

/-- A metadata field of a readable document may be given any value that comes to something. -/
theorem readable_setMetadataField (h : kind.schema.Readable raw) {name : String}
    {field : Field Schema} (hfield : metadata.field? name = some field) {value : Json}
    (hvalue : ∃ found, field.outcome (some value) = .ok found) :
    kind.schema.Readable (raw.setMetadataField name value) := by
  obtain ⟨written, hwritten⟩ := h
  obtain ⟨source, md, -, hread, hmembers⟩ := read_metadata hwritten
  rw [set_metadata_congr hmembers]
  exact readable_set_metadata ⟨written, hwritten⟩
    (readable_set isRecord_metadata hfield hvalue ⟨md, hread⟩)

theorem readable_setMetadataField_text (h : kind.schema.Readable raw) {name : String}
    (hname : name ∈ metadataTexts) {value : Json}
    (hvalue : value = .null ∨ ∃ text, value = .str text) :
    kind.schema.Readable (raw.setMetadataField name value) := by
  refine readable_setMetadataField h (field?_metadata_text hname) ?_
  rcases hvalue with rfl | ⟨text, rfl⟩
  · exact ⟨none, rfl⟩
  · exact ⟨some (.str text), rfl⟩

theorem readable_drop_metadata (h : kind.schema.Readable raw) {name : String}
    {field : Field Schema} (hfield : metadata.field? name = some field)
    (hoptional : field.presence = .optional) {md : Json.Members}
    (hmd : raw.get "metadata" = .obj md) :
    kind.schema.Readable (raw.set "metadata" ((raw.get "metadata").drop name)) := by
  obtain ⟨written, hwritten⟩ := h
  obtain ⟨source, found, -, hread, hmembers⟩ := read_metadata hwritten
  have hsource : Schema.Readable metadata source := ⟨found, hread⟩
  obtain ⟨members, rfl, -⟩ := (readable_record_iff (by decide) _ source).mp hsource
  rw [hmd] at hmembers ⊢
  cases hmembers
  exact readable_set_metadata ⟨written, hwritten⟩
    (readable_drop isRecord_metadata hfield hoptional hsource)

end Kind

namespace Json

theorem get_metadata_setMetadataField (raw : Json) (name : String) (value : Json) :
    (raw.setMetadataField name value).get "metadata" = (raw.get "metadata").set name value :=
  get_of_get? (get?_set_self _ _ _)

theorem metadataField_setMetadataField (raw : Json) (name : String) (value : Json) :
    (raw.setMetadataField name value).metadataField name = value := by
  simp [metadataField, setMetadataField, get]

theorem metadataField_setMetadataField_of_ne {name other : String} (h : other ≠ name)
    (raw value : Json) :
    (raw.setMetadataField name value).metadataField other = raw.metadataField other := by
  rw [metadataField, setMetadataField, get, get, get?_set_self, Option.getD_some,
    get?_set_of_ne h]
  rfl

theorem get?_setMetadataField_of_ne {name : String} (h : name ≠ "metadata") (raw : Json)
    (field : String) (value : Json) :
    (raw.setMetadataField field value).get? name = raw.get? name :=
  get?_set_of_ne h raw _

theorem isCanonical_setMetadataField {raw value : Json} (name : String)
    (h : raw.isCanonical = true) (hvalue : value.isCanonical = true) :
    (raw.setMetadataField name value).isCanonical = true :=
  isCanonical_set _ h (isCanonical_set _ (isCanonical_get _ h) hvalue)

theorem metadataField_merge {patch : Json} {field : String} {changes : Members} (live : Json)
    (hsorted : patch.isCanonical = true) (hchanges : patch.get? "metadata" = some (.obj changes))
    (hfield : changes.lookup field = none) :
    (merge live patch).metadataField field = live.metadataField field := by
  cases patch with
  | obj members =>
      have hlookup : members.lookup "metadata" = some (.obj changes) := hchanges
      have hmembers : Keyed.Sorted members := sorted_members hsorted
      have hinner : Keyed.Sorted changes := sorted_members (isCanonical_of_lookup hsorted hchanges)
      have hmd : (merge live (.obj members)).get "metadata" =
          merge (live.get "metadata") (.obj changes) := by
        refine get_of_get? ?_
        rw [get?_merge_obj live _ hmembers, hlookup]
        exact mergeMember_of_ne_null _ nofun
      rw [metadataField, hmd, get, get?_merge_obj _ _ hinner, hfield]
      rfl
  | _ => cases hchanges

/-- The metadata of a document has what a patch gives it. -/
theorem satisfies_metadata {raw patch : Json} {changes : Members}
    (hchanges : patch.get? "metadata" = some (.obj changes)) (h : raw.satisfies patch = true) :
    (raw.get "metadata").satisfies (.obj changes) = true := by
  obtain ⟨md, hmd, hsatisfied⟩ := get?_of_satisfies h hchanges nofun
  rwa [get_of_get? hmd]

theorem satisfies_set_metadata {raw patch md : Json} {changes : Members}
    (hchanges : patch.get? "metadata" = some (.obj changes)) (hsorted : Keyed.Sorted patch.members)
    (hmd : md.satisfies (.obj changes) = true) (h : raw.satisfies patch = true) :
    (raw.set "metadata" md).satisfies patch = true := by
  cases patch with
  | obj members =>
      refine satisfies_set h fun change hchange => ?_
      have hlookup := (Keyed.lookup_eq_some_iff_mem hsorted).mpr hchange
      cases Option.some.inj (hlookup.symm.trans hchanges)
      exact ⟨nofun, hmd⟩
  | _ => cases hchanges

theorem satisfies_setMetadataField {raw patch : Json} {name : String} {changes : Members}
    (value : Json) (hchanges : patch.get? "metadata" = some (.obj changes))
    (hname : changes.lookup name = none) (hsorted : Keyed.Sorted patch.members)
    (h : raw.satisfies patch = true) :
    (raw.setMetadataField name value).satisfies patch = true := by
  refine satisfies_set_metadata hchanges hsorted ?_ h
  refine satisfies_set (satisfies_metadata hchanges h) fun other hother => ?_
  obtain ⟨found, hfound⟩ := Keyed.exists_lookup_of_mem hother
  rw [hname] at hfound
  cases hfound

end Json

end ClusterKeeper
