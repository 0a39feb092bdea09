import ClusterKeeper.Calendar
import ClusterKeeper.Encoding.Base64
import ClusterKeeper.Json.Printer
import ClusterKeeper.Text

/-!
Schemas of typed documents. Reading a JSON value by a schema gives its written form: fields the
schema does not know are dropped, an optional field that is null is absent, a required one that is
absent has its default.
-/

namespace ClusterKeeper

mutual

/-- Whether a value is a set of fields: an object that has another one under each name. -/
def Json.isFieldSet : Json → Bool
  | .obj members => Json.areFieldSets members
  | _ => false

def Json.areFieldSets : List (String × Json) → Bool
  | [] => true
  | (_, value) :: rest => value.isFieldSet && Json.areFieldSets rest

end

inductive ReadError where
  | wrongType (found : Json) (wanted : String)
  | outOfRange (value : Int) (wanted : String)
  | wrongText (found wanted : String)
  | missingField (name : String)
  | tooLong (length : Nat)
  | base64 (fault : Base64.Fault)
deriving DecidableEq, Repr

namespace ReadError

def describe : Json → String
  | .null => "null"
  | .bool value => if value then "boolean `true`" else "boolean `false`"
  | .num (.int value) => "integer `" ++ toString value ++ "`"
  | .num (.float bits) => "floating point `" ++ Decimal.pointed bits ++ "`"
  | .str text => "string " ++ Text.quoted text
  | .arr _ => "sequence"
  | .obj _ => "map"

def message : ReadError → String
  | .wrongType found wanted => "invalid type: " ++ describe found ++ ", expected " ++ wanted
  | .outOfRange value wanted =>
    "invalid value: integer `" ++ toString value ++ "`, expected " ++ wanted
  | .wrongText found wanted => "invalid value: string " ++ Text.quoted found ++ ", expected " ++ wanted
  | .missingField name => "missing field `" ++ name ++ "`"
  | .tooLong length =>
    "invalid length " ++ toString length ++ ", expected fewer elements in array"
  | .base64 fault => fault.message

end ReadError

/-- What happens to a field that is absent or null. -/
inductive Presence where
  /-- Absent and null both mean that there is no field. -/
  | optional
  /-- Absent and null both mean the default, which is then written. -/
  | required (default : Json)
  /-- Absent means the default; a null is read as a value. -/
  | defaulted (default : Json)
  /-- Absent is an error. -/
  | mandatory
  /-- Always written with this text; a field that is there has to be this text. -/
  | constant (text : String)
  /-- Always written with this text, whatever is there. -/
  | stamped (text : String)
deriving DecidableEq, Repr

structure Field (σ : Type) where
  name : String
  presence : Presence
  schema : σ

inductive Schema where
  | text
  | flag
  | int32
  | int64
  /-- Bytes as base64 text; null stands for no bytes. -/
  | bytes
  /-- A quantity: a text, or a number, which is read as its text. -/
  | quantity
  | intOrText
  /-- A time, which is written in UTC. -/
  | time
  | fieldSet
  | list (item : Schema)
  | dict (value : Schema)
  /-- A record of fields sorted by name. If `positions` names fields, an array that gives them in
  that order is a record as well. -/
  | record (title : String) (fields : List (Field Schema)) (positions : List String)

namespace Schema

def readInt (bits : Nat) (wanted : String) (json : Json) : Except ReadError Json :=
  match json with
  | .num (.int value) =>
    if -(twoTo (bits - 1) : Int) ≤ value ∧ value < twoTo (bits - 1) then .ok json
    else .error (.outOfRange value wanted)
  | found => .error (.wrongType found wanted)

def readBytes (json : Json) : Except ReadError Json :=
  match json with
  | .null => .ok (.str "")
  | .str value =>
    match Base64.decode value with
    | .ok _ => .ok json
    | .error fault => .error (.base64 fault)
  | found => .error (.wrongType found "a base64-encoded string")

def readQuantity (json : Json) : Except ReadError Json :=
  match json with
  | .str _ => .ok json
  | .num (.int value) => .ok (.str (toString value))
  | .num (.float bits) => .ok (.str (Decimal.positional bits))
  | found => .error (.wrongType found "Quantity")

def readIntOrText (json : Json) : Except ReadError Json :=
  match json with
  | .str _ => .ok json
  | .num (.int value) =>
    if -(twoTo 31 : Int) ≤ value ∧ value < twoTo 31 then .ok json
    else .error (.outOfRange value "a 32-bit integer")
  | found => .error (.wrongType found "enum IntOrString")

def readTime (json : Json) : Except ReadError Json :=
  match json with
  | .str value =>
    match Moment.read? value with
    | some moment => .ok (.str moment.text)
    | none => .error (.wrongText value "an RFC 3339 time")
  | found => .error (.wrongType found "a timestamp string")

end Schema

/-- What a field comes to: its written value, if it has one. -/
def Presence.outcome (presence : Presence) (read : Json → Except ReadError Json)
    (found : Option Json) : Except ReadError (Option Json) :=
  match presence, found with
  | .stamped text, _ => .ok (some (.str text))
  | .constant text, none => .ok (some (.str text))
  | .constant text, some (.str value) =>
    if value = text then .ok (some (.str text)) else .error (.wrongText value text)
  | .constant _, some value => .error (.wrongType value "a string")
  | .optional, none => .ok none
  | .optional, some .null => .ok none
  | .optional, some value => (read value).map some
  | .required default, none => .ok (some default)
  | .required default, some .null => .ok (some default)
  | .required _, some value => (read value).map some
  | .defaulted default, none => .ok (some default)
  | .defaulted _, some value => (read value).map some
  | .mandatory, none => .ok none
  | .mandatory, some value => (read value).map some

abbrev Outcomes := List (String × Except ReadError (Option Json))

/-- The members that the outcomes come to, or the first error among them. -/
def Outcomes.gather : Outcomes → Except ReadError Json.Members
  | [] => .ok []
  | (_, .error e) :: _ => .error e
  | (_, .ok none) :: rest => Outcomes.gather rest
  | (name, .ok (some value)) :: rest => (Outcomes.gather rest).map ((name, value) :: ·)

/-- The outcomes of the named fields, in the order of the names. -/
def Outcomes.select (names : List String) (outcomes : Outcomes) : Outcomes :=
  names.filterMap fun name => (outcomes.lookup name).map (name, ·)

/-- The first mandatory field that the members lack. -/
def Field.missing? {σ : Type} (fields : List (Field σ)) (members : Json.Members) : Option String :=
  (fields.find? fun field =>
    field.presence = .mandatory && (members.lookup field.name).isNone).map (·.name)

namespace Schema

mutual

def read : Schema → Json → Except ReadError Json
  | .text, json =>
    match json with
    | .str value => .ok (.str value)
    | found => .error (.wrongType found "a string")
  | .flag, json =>
    match json with
    | .bool value => .ok (.bool value)
    | found => .error (.wrongType found "a boolean")
  | .int32, json => readInt 32 "i32" json
  | .int64, json => readInt 64 "i64" json
  | .bytes, json => readBytes json
  | .quantity, json => readQuantity json
  | .intOrText, json => readIntOrText json
  | .time, json => readTime json
  | .fieldSet, json =>
    if json.isFieldSet then .ok json else .error (.wrongType json "a set of fields")
  | .list item, json =>
    match json with
    | .arr items => (items.mapM fun value => item.read value).map .arr
    | found => .error (.wrongType found "a sequence")
  | .dict value, json =>
    match json with
    | .obj members =>
      (members.mapM fun member => (value.read member.2).map (member.1, ·)).map .obj
    | found => .error (.wrongType found "a map")
  | .record title fields positions, json =>
    match json, positions with
    | .obj members, _ => do
      let written ← (readFields fields members).gather
      match Field.missing? fields members with
      | some name => .error (.missingField name)
      | none => .ok (.obj written)
    | .arr items, name :: names => do
      let outcomes := readFields fields ((name :: names).zip items)
      let _ ← (outcomes.select (name :: names)).gather
      if (name :: names).length < items.length then .error (.tooLong items.length)
      else outcomes.gather.map .obj
    | found, _ => .error (.wrongType found title)

/-- What the fields of a record come to, given its members. -/
def readFields : List (Field Schema) → Json.Members → Outcomes
  | [], _ => []
  | ⟨name, presence, schema⟩ :: rest, members =>
    (name, presence.outcome (fun value => schema.read value) (members.lookup name)) ::
      readFields rest members

end

end Schema

end ClusterKeeper
