import ClusterKeeper.Manifest.Children
import ClusterKeeper.Proofs.Encoding.Base64
import ClusterKeeper.Proofs.Json.Canonical

/-!
The declared objects are told apart by their written form: nothing that a declaration says is lost
when it is written.
-/

namespace ClusterKeeper

namespace Json

theorem textMap_injective : Function.Injective textMap := by
  intro left right heq
  refine List.map_injective_iff.mpr (fun a b hab => ?_) (obj.inj heq)
  obtain ⟨hname, htext⟩ := Prod.mk.inj hab
  exact Prod.ext hname (str.inj htext)

theorem texts_injective : Function.Injective texts := fun _ _ heq =>
  List.map_injective_iff.mpr (fun _ _ => str.inj) (arr.inj heq)

theorem int_natCast_injective : Function.Injective fun n : Nat => int n := fun _ _ heq =>
  Int.ofNat.inj (Number.int.inj (num.inj heq))

theorem listUnlessEmpty_injective : Function.Injective listUnlessEmpty := by
  intro left right heq
  cases left <;> cases right <;> simp_all [listUnlessEmpty]

/-- Fields of the same names are told apart by the object of those that are there. -/
theorem eq_of_ofFields_eq {left right : List (String × Option Json)}
    (hnames : left.map Prod.fst = right.map Prod.fst) (hnodup : (left.map Prod.fst).Nodup)
    (heq : ofFields left = ofFields right) : left = right := by
  -- the name of a member that is there is that of a field
  have name_mem {fields : List (String × Option Json)} (member : String × Json)
      (h : member ∈ fields.filterMap fun field => field.2.map (field.1, ·)) :
      member.1 ∈ fields.map Prod.fst := by
    obtain ⟨field, hfield, hvalue⟩ := List.mem_filterMap.mp h
    obtain ⟨_, -, rfl⟩ := Option.map_eq_some_iff.mp hvalue
    exact List.mem_map_of_mem hfield
  replace heq := obj.inj heq
  induction left generalizing right with
  | nil => exact (List.map_eq_nil_iff.mp hnames.symm).symm
  | cons field rest ih =>
      obtain ⟨name, value⟩ := field
      obtain ⟨⟨name', value'⟩, others, rfl, hname, hrest⟩ := List.map_eq_cons_iff.mp hnames.symm
      cases hname
      obtain ⟨hfresh, hdistinct⟩ := List.nodup_cons.mp hnodup
      cases value with
      | none =>
          cases value' with
          | none => rw [ih hrest.symm hdistinct heq]
          | some json =>
              refine absurd (name_mem (name, json) ?_) hfresh
              exact heq.symm ▸ List.mem_cons_self
      | some json =>
          cases value' with
          | none =>
              refine absurd (name_mem (name, json) ?_) (hrest ▸ hfresh)
              exact heq ▸ List.mem_cons_self
          | some json' =>
              obtain ⟨hjson, hothers⟩ := List.cons.inj heq
              rw [(Prod.mk.inj hjson).2, ih hrest.symm hdistinct hothers]

end Json

namespace Manifest

theorem OwnerReference.toJson_injective : Function.Injective toJson := by
  intro left right heq
  cases left; cases right
  simp_all [toJson]

theorem Metadata.toJson_injective : Function.Injective toJson := by
  intro left right heq
  rw [toJson, toJson] at heq
  have hfields := Json.eq_of_ofFields_eq (by rfl) (by simp) heq
  have hns : Function.Injective (Option.map Json.str) := Option.map_injective fun _ _ => Json.str.inj
  have howners := List.map_injective_iff.mpr OwnerReference.toJson_injective
  cases left; cases right
  simp_all [Json.textMap_injective.eq_iff, hns.eq_iff, howners.eq_iff]

theorem ServiceAccount.toJson_injective : Function.Injective toJson := by
  intro left right heq
  cases left; cases right
  simp_all [toJson, Metadata.toJson_injective.eq_iff]

theorem ServicePort.toJson_injective : Function.Injective toJson := by
  intro left right heq
  cases left; cases right
  simp_all [toJson, Json.int_natCast_injective.eq_iff]

theorem Service.toJson_injective : Function.Injective toJson := by
  intro left right heq
  have hports := List.map_injective_iff.mpr ServicePort.toJson_injective
  cases left; cases right
  simp_all [toJson, Metadata.toJson_injective.eq_iff, Json.textMap_injective.eq_iff, hports.eq_iff]

theorem ConfigMap.toJson_injective : Function.Injective toJson := by
  intro left right heq
  cases left; cases right
  simp_all [toJson, Metadata.toJson_injective.eq_iff, Json.textMap_injective.eq_iff]

theorem Secret.toJson_injective : Function.Injective toJson := by
  intro left right heq
  have hdata : Function.Injective (List.map fun entry : String × List UInt8 =>
      (entry.1, Base64.encode entry.2)) := by
    refine List.map_injective_iff.mpr fun a b hab => ?_
    obtain ⟨hname, hbytes⟩ := Prod.mk.inj hab
    exact Prod.ext hname (Base64.encode_injective hbytes)
  cases left; cases right
  simp_all [toJson, Metadata.toJson_injective.eq_iff, Json.textMap_injective.eq_iff, hdata.eq_iff]

theorem EnvVar.toJson_injective : Function.Injective toJson := by
  rintro ⟨name, source⟩ ⟨name', source'⟩ heq
  cases source <;> cases source' <;> simp_all [toJson, keyReference]

theorem ContainerPort.toJson_injective : Function.Injective toJson := by
  intro left right heq
  cases left; cases right
  simp_all [toJson, Json.int_natCast_injective.eq_iff]

theorem VolumeMount.toJson_injective : Function.Injective toJson := by
  intro left right heq
  cases left; cases right
  simp_all [toJson]

theorem Volume.toJson_injective : Function.Injective toJson := by
  intro left right heq
  cases left; cases right
  simp_all [toJson, Json.int_natCast_injective.eq_iff]

theorem VolumeClaim.toJson_injective : Function.Injective toJson := by
  intro left right heq
  cases left; cases right
  simp_all [toJson, Json.texts_injective.eq_iff]

theorem Container.toJson_injective : Function.Injective toJson := by
  intro left right heq
  rw [toJson, toJson] at heq
  have hfields := Json.eq_of_ofFields_eq (by rfl) (by simp) heq
  have items {α : Type} {f : α → Json} (h : Function.Injective f) :
      Function.Injective fun values : List α => Json.listUnlessEmpty (values.map f) :=
    Json.listUnlessEmpty_injective.comp (List.map_injective_iff.mpr h)
  have hcommand := items fun _ _ => Json.str.inj
  have henv := items EnvVar.toJson_injective
  have hports := items ContainerPort.toJson_injective
  have hmounts := items VolumeMount.toJson_injective
  cases left; cases right
  simp_all [hcommand.eq_iff, henv.eq_iff, hports.eq_iff, hmounts.eq_iff]

theorem Pod.toJson_injective : Function.Injective toJson := by
  intro left right heq
  have hcontainers := List.map_injective_iff.mpr Container.toJson_injective
  have hvolumes := List.map_injective_iff.mpr Volume.toJson_injective
  cases left; cases right
  simp_all [toJson, Json.textMap_injective.eq_iff, hcontainers.eq_iff, hvolumes.eq_iff]

theorem StatefulSet.toJson_injective : Function.Injective toJson := by
  intro left right heq
  have hclaims := List.map_injective_iff.mpr VolumeClaim.toJson_injective
  cases left; cases right
  simp_all [toJson, Json.int, Metadata.toJson_injective.eq_iff, Json.textMap_injective.eq_iff,
    Pod.toJson_injective.eq_iff, hclaims.eq_iff]

inductive Object where
  | serviceAccount (declared : ServiceAccount)
  | service (declared : Service)
  | configMap (declared : ConfigMap)
  | secret (declared : Secret)
  | statefulSet (declared : StatefulSet)
deriving DecidableEq, Repr

def Object.resource : Object → Resource
  | .serviceAccount declared => declared.resource
  | .service declared => declared.resource
  | .configMap declared => declared.resource
  | .secret declared => declared.resource
  | .statefulSet declared => declared.resource

theorem Object.resource_injective : Function.Injective resource := by
  intro left right heq
  obtain ⟨hkind, hbody⟩ := Resource.mk.inj heq
  cases left <;> cases right <;>
    first
      | exact congrArg serviceAccount (ServiceAccount.toJson_injective hbody)
      | exact congrArg service (Service.toJson_injective hbody)
      | exact congrArg configMap (ConfigMap.toJson_injective hbody)
      | exact congrArg secret (Secret.toJson_injective hbody)
      | exact congrArg statefulSet (StatefulSet.toJson_injective hbody)
      | cases hkind

end Manifest

end ClusterKeeper
