import ClusterKeeper.Schema.Basic

/-!
The form of the metadata that objects of every kind carry, and of what refers to other objects.
-/

namespace ClusterKeeper

namespace Field

def optional (name : String) (schema : Schema) : Field Schema := ⟨name, .optional, schema⟩

def required (name : String) (schema : Schema) (default : Json) : Field Schema :=
  ⟨name, .required default, schema⟩

def requiredText (name : String) : Field Schema := required name .text (.str "")

def requiredInt (name : String) : Field Schema := required name .int32 (.int 0)

def requiredRecord (name : String) (schema : Schema) : Field Schema := required name schema (.obj [])

def requiredList (name : String) (item : Schema) : Field Schema :=
  required name (.list item) (.arr [])

/-- A text that can have one value only. -/
def constant (name value : String) : Field Schema := ⟨name, .constant value, .text⟩

end Field

namespace Schema

open ClusterKeeper.Field

def ownerReference : Schema :=
  record "OwnerReference"
    [requiredText "apiVersion",
     optional "blockOwnerDeletion" flag,
     optional "controller" flag,
     requiredText "kind",
     requiredText "name",
     requiredText "uid"] []

def managedFields : Schema :=
  record "ManagedFieldsEntry"
    [optional "apiVersion" text,
     optional "fieldsType" text,
     optional "fieldsV1" fieldSet,
     optional "manager" text,
     optional "operation" text,
     optional "subresource" text,
     optional "time" time] []

def metadata : Schema :=
  record "ObjectMeta"
    [optional "annotations" (dict text),
     optional "creationTimestamp" time,
     optional "deletionGracePeriodSeconds" int64,
     optional "deletionTimestamp" time,
     optional "finalizers" (list text),
     optional "generateName" text,
     optional "generation" int64,
     optional "labels" (dict text),
     optional "managedFields" (list managedFields),
     optional "name" text,
     optional "namespace" text,
     optional "ownerReferences" (list ownerReference),
     optional "resourceVersion" text,
     optional "selfLink" text,
     optional "uid" text] []

def labelSelector : Schema :=
  record "LabelSelector"
    [optional "matchExpressions"
      (list (record "LabelSelectorRequirement"
        [requiredText "key",
         requiredText "operator",
         optional "values" (list text)] [])),
     optional "matchLabels" (dict text)] []

def localReference : Schema := record "LocalObjectReference" [requiredText "name"] []

def objectReference : Schema :=
  record "ObjectReference"
    [optional "apiVersion" text,
     optional "fieldPath" text,
     optional "kind" text,
     optional "name" text,
     optional "namespace" text,
     optional "resourceVersion" text,
     optional "uid" text] []

def condition : Schema :=
  record "Condition"
    [required "lastTransitionTime" time (.str "1970-01-01T00:00:00Z"),
     requiredText "message",
     optional "observedGeneration" int64,
     requiredText "reason",
     requiredText "status",
     requiredText "type"] []

end Schema

end ClusterKeeper
