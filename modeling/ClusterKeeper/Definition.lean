import ClusterKeeper.Schema.Kinds
import ClusterKeeper.Yaml

/-!
The definition by which a server learns of `Ipfs` objects: their names, their versions, and the
schema that their spec is checked against.
-/

namespace ClusterKeeper.Definition

def group : String := "cluster.ipfs.io"

def version : String := "v1alpha1"

def specDescription : String :=
  String.intercalate "\n"
    ["`Ipfs` declares an IPFS cluster.",
     "",
     "The operator derives a `ServiceAccount`, a `Service`, two `ConfigMaps`, a",
     "`Secret` and a `StatefulSet` from this spec, all owned by the `Ipfs` object",
     "and garbage-collected with it.",
     "",
     "# Example YAML",
     "",
     "```yaml",
     "apiVersion: cluster.ipfs.io/v1alpha1",
     "kind: Ipfs",
     "metadata:",
     "  name: ipfs-sample",
     "  namespace: demo",
     "spec:",
     "  replicas: 3",
     "  ipfsStorage: 100Gi",
     "  clusterStorage: 5Gi",
     "```"]

def textProperty (description : String) : Json :=
  Json.mk
    [("description", .str description),
     ("nullable", .bool true),
     ("type", .str "string")]

/-- A quantity, which may be given as a number. -/
def quantityProperty (default description : String) : Json :=
  Json.mk
    [("default", .str default),
     ("description", .str description),
     ("nullable", .bool true),
     ("x-kubernetes-int-or-string", .bool true)]

def imageProperty : Json :=
  Json.mk
    [("description", .str "Container image overrides."),
     ("nullable", .bool true),
     ("properties", Json.mk
       [("cluster", textProperty "ipfs-cluster image (e.g. \"ipfs/ipfs-cluster:v1.0.0\")"),
        ("imagePullPolicy",
          textProperty "Image pull policy\n\nExample: \"`IfNotPresent`\", \"Always\", \"Never\""),
        ("ipfs", textProperty "go-ipfs image (e.g. \"ipfs/go-ipfs:v0.12.2\")")]),
     ("type", .str "object")]

def replicasProperty : Json :=
  Json.mk
    [("default", .int 1),
     ("description", .str "Number of cluster peers. Values below 1 are treated as 1."),
     ("format", .str "int32"),
     ("type", .str "integer")]

def specProperty : Json :=
  Json.mk
    [("description", .str specDescription),
     ("properties", Json.mk
       [("clusterStorage", quantityProperty "5Gi"
          "Size of the volume claim backing each peer's ipfs-cluster state."),
        ("image", imageProperty),
        ("ipfsStorage", quantityProperty "10Gi"
          "Size of the volume claim backing each peer's IPFS datastore."),
        ("replicas", replicasProperty)]),
     ("type", .str "object")]

def objectSchema : Json :=
  Json.mk
    [("description", .str ("Ipfs represents an IPFS cluster. Each Ipfs object is reconciled " ++
        "into a StatefulSet of go-ipfs and ipfs-cluster peers sharing one cluster secret and " ++
        "one bootstrap peer identity.")),
     ("properties", Json.mk [("spec", specProperty)]),
     ("required", Json.texts ["spec"]),
     ("title", .str Kind.ipfs.name),
     ("type", .str "object")]

def versionEntry : Json :=
  Json.mk
    [("additionalPrinterColumns", .arr []),
     ("name", .str version),
     ("schema", Json.mk [("openAPIV3Schema", objectSchema)]),
     ("served", .bool true),
     ("storage", .bool true),
     ("subresources", .obj [])]

def document : Json :=
  Json.mk
    [("apiVersion", .str "apiextensions.k8s.io/v1"),
     ("kind", .str "CustomResourceDefinition"),
     ("metadata", Json.mk [("name", .str (Kind.ipfs.plural ++ "." ++ group))]),
     ("spec", Json.mk
       [("group", .str group),
        ("names", Json.mk
          [("categories", .arr []),
           ("kind", .str Kind.ipfs.name),
           ("plural", .str Kind.ipfs.plural),
           ("shortNames", .arr []),
           ("singular", .str "ipfs")]),
        ("scope", .str "Namespaced"),
        ("versions", .arr [versionEntry])])]

def text : String := Yaml.render document

end ClusterKeeper.Definition
