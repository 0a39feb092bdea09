import ClusterKeeper.Manifest.Children
import ClusterKeeper.Proofs.Schema.Regular

/-!
The declared children are in written form: reading them by the schema of their kind gives them back.
-/

namespace ClusterKeeper

/-- The text that is written for a field whatever its record holds. -/
def Presence.fixedText? : Presence → Option String
  | .constant text | .stamped text => some text
  | _ => none

namespace Schema

def IsWritten (schema : Schema) (json : Json) : Prop := schema.read json = .ok json

theorem not_isWritten_null (schema : Schema) : ¬ schema.IsWritten .null := by
  intro h
  cases schema with
  | bytes => cases h
  | _ => cases h

/-- A value in written form is what its field comes to, unless the field fixes a text. -/
theorem outcome_of_isWritten {field : Field Schema} (hfree : field.presence.fixedText? = none)
    {value : Json} (h : field.schema.IsWritten value) :
    field.outcome (some value) = .ok (some value) := by
  obtain ⟨name, presence, schema⟩ := field
  cases presence with
  | optional | required default =>
      cases value with
      | null => exact absurd h schema.not_isWritten_null
      | _ => exact congrArg (Except.map some) h
  | defaulted default | mandatory => exact congrArg (Except.map some) h
  | constant text | stamped text => cases hfree

/-- A member of a record in written form. -/
def Writes (schema : Schema) (member : String × Json) : Prop :=
  ∃ field, schema.field? member.1 = some field ∧
    field.outcome (some member.2) = .ok (some member.2)

section Writes

variable {schema inner : Schema} {name : String} {value : Json}

theorem Writes.optional (hfield : schema.field? name = some (Field.optional name inner))
    (h : inner.IsWritten value) : schema.Writes (name, value) :=
  ⟨_, hfield, outcome_of_isWritten rfl h⟩

theorem Writes.required {default : Json}
    (hfield : schema.field? name = some (Field.required name inner default))
    (h : inner.IsWritten value) : schema.Writes (name, value) :=
  ⟨_, hfield, outcome_of_isWritten rfl h⟩

theorem Writes.constant {text : String}
    (hfield : schema.field? name = some (Field.constant name text)) :
    schema.Writes (name, .str text) := by
  refine ⟨_, hfield, ?_⟩
  exact (Field.outcome_constant rfl _ _).mpr ⟨rfl, .inr rfl⟩

end Writes

/-- A record is in written form if its members are, and if it lacks optional fields only. -/
theorem isWritten_record {title : String} {fields : List (Field Schema)} {members : Json.Members}
    (names : List String) (hnames : members.map Prod.fst = names)
    (hshape : Field.Ordered fields ∧ names.Pairwise (· < ·) ∧
      ∀ field ∈ fields, field.presence = .optional ∨ field.name ∈ names)
    (hmembers : ∀ member ∈ members, (record title fields []).Writes member) :
    (record title fields []).IsWritten (.obj members) := by
  obtain ⟨hordered, hnamesorted, hrequired⟩ := hshape
  have hsorted : Keyed.Sorted members := by
    rw [Keyed.Sorted, ← List.pairwise_map (f := Prod.fst) (R := (· < ·)), hnames]
    exact hnamesorted
  have habsent {field : Field Schema} (h : members.lookup field.name = none) :
      field.name ∉ names := by
    intro hname
    rw [← hnames] at hname
    obtain ⟨⟨_, value⟩, hmem, rfl⟩ := List.mem_map.mp hname
    obtain ⟨found, hfound⟩ := Keyed.exists_lookup_of_mem hmem
    rw [h] at hfound
    cases hfound
  refine (read_record_iff hordered title _ _).mpr
    ⟨members, members, rfl, rfl, ⟨hsorted, ?_, ?_⟩, ?_⟩
  · intro field hfield
    cases hfound : members.lookup field.name with
    | none =>
        rw [Field.outcome, (hrequired field hfield).resolve_right (habsent hfound)]
        rfl
    | some value =>
        obtain ⟨other, hother, houtcome⟩ := hmembers _ (Keyed.mem_of_lookup hfound)
        obtain ⟨hmem, hname⟩ := mem_of_field?_eq_some hother
        cases eq_of_name_eq hordered hmem hfield hname
        exact houtcome
  · intro name hname
    cases hfound : members.lookup name with
    | none => rfl
    | some value =>
        obtain ⟨field, hfield, -⟩ := hmembers _ (Keyed.mem_of_lookup hfound)
        obtain ⟨hmem, hfieldname⟩ := mem_of_field?_eq_some hfield
        exact absurd hfieldname (hname field hmem)
  · rw [missing?_eq_none_iff]
    intro field hfield hmandatory habs
    rcases hrequired field hfield with hoptional | hname
    · rw [hoptional] at hmandatory
      cases hmandatory
    · exact habsent habs hname

theorem isWritten_int32_iff {value : Int} :
    int32.IsWritten (.int value) ↔ -(twoTo 31 : Int) ≤ value ∧ value < twoTo 31 := by
  rw [IsWritten, Json.int, Schema.read, readInt]
  split <;> simp_all

theorem isWritten_list {α : Type} {item : Schema} {f : α → Json} (values : List α)
    (h : ∀ value ∈ values, item.IsWritten (f value)) :
    (list item).IsWritten (.arr (values.map f)) := by
  refine (read_list_iff _ _ _).mpr ⟨_, _, rfl, rfl, List.forall₂_same.mpr ?_⟩
  intro value hvalue
  obtain ⟨source, hsource, rfl⟩ := List.mem_map.mp hvalue
  exact h source hsource

theorem isWritten_textMap {value : Schema} (entries : List (String × String))
    (h : ∀ entry ∈ entries, value.IsWritten (.str entry.2)) :
    (dict value).IsWritten (Json.textMap entries) := by
  refine (read_dict_iff _ _ _).mpr ⟨_, _, rfl, rfl, List.forall₂_same.mpr ?_⟩
  intro member hmember
  obtain ⟨entry, hentry, rfl⟩ := List.mem_map.mp hmember
  exact ⟨rfl, h entry hentry⟩

end Schema

namespace Manifest

open Schema

theorem Metadata.toJson_eq (md : Metadata) :
    md.toJson = .obj ((("labels", Json.textMap md.labels) :: ("name", .str md.name) ::
      (md.ns.map fun ns => ("namespace", .str ns)).toList) ++
      [("ownerReferences", .arr (md.owners.map OwnerReference.toJson))]) := by
  obtain ⟨name, ns, labels, owners⟩ := md
  cases ns <;> rfl

theorem Metadata.isWritten (md : Metadata) : metadata.IsWritten md.toJson := by
  have howners : (list ownerReference).IsWritten (.arr (md.owners.map OwnerReference.toJson)) :=
    isWritten_list md.owners fun _ _ => rfl
  have hlabels : (dict text).IsWritten (Json.textMap md.labels) :=
    isWritten_textMap md.labels fun _ _ => rfl
  rw [md.toJson_eq]
  cases md.ns with
  | none =>
      refine isWritten_record ["labels", "name", "ownerReferences"] rfl (by decide) ?_
      simp only [Option.map_none, Option.toList_none, List.cons_append, List.nil_append,
        List.forall_mem_cons]
      exact ⟨.optional rfl hlabels, .optional rfl rfl, .optional rfl howners, nofun⟩
  | some ns =>
      refine isWritten_record ["labels", "name", "namespace", "ownerReferences"] rfl (by decide) ?_
      simp only [Option.map_some, Option.toList_some, List.cons_append, List.nil_append,
        List.forall_mem_cons]
      exact ⟨.optional rfl hlabels, .optional rfl rfl, .optional rfl rfl, .optional rfl howners,
        nofun⟩

theorem ServiceAccount.isWritten (account : ServiceAccount) :
    serviceAccount.IsWritten account.toJson := by
  refine isWritten_record ["apiVersion", "kind", "metadata"] rfl (by decide) ?_
  simp only [List.forall_mem_cons]
  exact ⟨.constant rfl, .constant rfl, .required rfl account.metadata.isWritten, nofun⟩

theorem ConfigMap.isWritten (configMap : ConfigMap) :
    Schema.configMap.IsWritten configMap.toJson := by
  refine isWritten_record ["apiVersion", "data", "kind", "metadata"] rfl (by decide) ?_
  simp only [List.forall_mem_cons]
  exact ⟨.constant rfl, .optional rfl (isWritten_textMap configMap.data fun _ _ => rfl),
    .constant rfl, .required rfl configMap.metadata.isWritten, nofun⟩

theorem Secret.isWritten (secret : Secret) : Schema.secret.IsWritten secret.toJson := by
  have hdata : (dict bytes).IsWritten (Json.textMap (secret.data.map fun entry =>
      (entry.1, Base64.encode entry.2))) := by
    refine isWritten_textMap _ fun entry hentry => ?_
    obtain ⟨source, -, rfl⟩ := List.mem_map.mp hentry
    rw [IsWritten, Schema.read, readBytes, Base64.decode_encode]
  refine isWritten_record ["apiVersion", "data", "kind", "metadata", "type"] rfl (by decide) ?_
  simp only [List.forall_mem_cons]
  exact ⟨.constant rfl, .optional rfl hdata, .constant rfl,
    .required rfl secret.metadata.isWritten, .optional rfl rfl, List.forall_mem_nil _⟩

theorem VolumeClaim.isWritten (claim : VolumeClaim) : volumeClaim.IsWritten claim.toJson := by
  have hmodes : (list text).IsWritten (Json.texts claim.accessModes) :=
    isWritten_list claim.accessModes fun _ _ => rfl
  refine isWritten_record ["apiVersion", "kind", "metadata", "spec"] rfl (by decide) ?_
  simp only [List.forall_mem_cons]
  refine ⟨.constant rfl, .constant rfl, .required rfl rfl, .optional rfl ?_, nofun⟩
  refine isWritten_record ["accessModes", "resources"] rfl (by decide) ?_
  simp only [List.forall_mem_cons]
  exact ⟨.optional rfl hmodes, .optional rfl rfl, nofun⟩

theorem Volume.isWritten {volume : Volume} (h : volume.defaultMode < twoTo 31) :
    Schema.volume.IsWritten volume.toJson := by
  have hmode : int32.IsWritten (.int volume.defaultMode) := isWritten_int32_iff.mpr (by omega)
  refine isWritten_record ["configMap", "name"] rfl (by decide) ?_
  simp only [List.forall_mem_cons]
  refine ⟨.optional rfl ?_, .required rfl rfl, nofun⟩
  refine isWritten_record ["defaultMode", "name"] rfl (by decide) ?_
  simp only [List.forall_mem_cons]
  exact ⟨.optional rfl hmode, .required rfl rfl, nofun⟩

theorem StatefulSet.isWritten {set : StatefulSet} (hreplicas : int32.IsWritten (.int set.replicas))
    (hpod : podTemplate.IsWritten set.pod.toJson) : Schema.statefulSet.IsWritten set.toJson := by
  have hselector : labelSelector.IsWritten (.obj [("matchLabels", Json.textMap set.selector)]) := by
    refine isWritten_record ["matchLabels"] rfl (by decide) ?_
    simp only [List.forall_mem_cons]
    exact ⟨.optional rfl (isWritten_textMap set.selector fun _ _ => rfl), nofun⟩
  have hclaims : (list volumeClaim).IsWritten (.arr (set.claims.map VolumeClaim.toJson)) :=
    isWritten_list set.claims fun claim _ => claim.isWritten
  refine isWritten_record ["apiVersion", "kind", "metadata", "spec"] rfl (by decide) ?_
  simp only [List.forall_mem_cons]
  refine ⟨.constant rfl, .constant rfl, .required rfl set.metadata.isWritten, .optional rfl ?_,
    nofun⟩
  refine isWritten_record
    ["replicas", "selector", "serviceName", "template", "volumeClaimTemplates"] rfl (by decide) ?_
  simp only [List.forall_mem_cons]
  exact ⟨.optional rfl hreplicas, .required rfl hselector, .optional rfl rfl, .required rfl hpod,
    .optional rfl hclaims, nofun⟩

end Manifest

namespace Cluster

open Schema

theorem isWritten_service (cluster : Cluster) : Schema.service.IsWritten cluster.service.toJson := by
  refine isWritten_record ["apiVersion", "kind", "metadata", "spec"] rfl (by decide) ?_
  simp only [List.forall_mem_cons]
  exact ⟨.constant rfl, .constant rfl, .required rfl cluster.service.metadata.isWritten,
    .optional rfl rfl, nofun⟩

theorem isWritten_pod (cluster : Cluster) (defaults : WorkloadDefaults) :
    podTemplate.IsWritten (cluster.pod defaults).toJson := by
  have hcontainers : (list container).IsWritten
      (.arr ((cluster.pod defaults).containers.map Manifest.Container.toJson)) := by
    refine isWritten_list _ ?_
    simp only [pod, List.forall_mem_cons]
    exact ⟨rfl, rfl, nofun⟩
  have hinit : (list container).IsWritten
      (.arr ((cluster.pod defaults).initContainers.map Manifest.Container.toJson)) := by
    refine isWritten_list _ ?_
    simp only [pod, List.forall_mem_cons]
    exact ⟨rfl, nofun⟩
  have hvolumes : (list volume).IsWritten
      (.arr ((cluster.pod defaults).volumes.map Manifest.Volume.toJson)) := by
    refine isWritten_list _ ?_
    simp only [pod, List.forall_mem_cons]
    exact ⟨Manifest.Volume.isWritten (show 0o755 < twoTo 31 by decide), nofun⟩
  refine isWritten_record ["metadata", "spec"] rfl (by decide) ?_
  simp only [List.forall_mem_cons]
  refine ⟨.optional rfl rfl, .optional rfl ?_, nofun⟩
  refine isWritten_record ["containers", "initContainers", "serviceAccountName", "volumes"] rfl
    (by decide) ?_
  simp only [List.forall_mem_cons]
  exact ⟨.required rfl hcontainers, .optional rfl hinit, .optional rfl rfl,
    .optional rfl hvolumes, nofun⟩

end Cluster

end ClusterKeeper
