import ClusterKeeper.Json.Basic

/-!
Finding a part of a value by a pointer, and changing parts of it by a merge patch.
-/

namespace ClusterKeeper.Json

/-! ### JSON pointers (RFC 6901)

Steps after slashes, with `~1` for a slash and `~0` for a tilde. -/

/-- The steps of a pointer; a pointer that is not empty starts with a slash. -/
def pointerSteps (pointer : String) : Option (List String) :=
  match (pointer.splitOn "/") with
  | [""] => some []
  | "" :: steps => some (steps.map fun step => (step.replace "~1" "/").replace "~0" "~")
  | _ => none

/-- An array index: digits without a leading zero. -/
def indexOfStep? (step : String) : Option Nat :=
  let digits := step.toList
  if digits.all Char.isDigit && (digits.length = 1 || digits.head? ≠ some '0') then step.toNat?
  else none

def child? (json : Json) (step : String) : Option Json :=
  match json with
  | .obj members => members.lookup step
  | .arr items => (indexOfStep? step).bind (items[·]?)
  | _ => none

def pointer? (json : Json) (pointer : String) : Option Json :=
  (pointerSteps pointer).bind fun steps => steps.foldlM child? json

/-! ### Merge patches (RFC 7386)

An object patch is merged member by member, a null drops a member, any other patch replaces the value.
`satisfies` states when a value already is what the patch asks for. -/

mutual

def merge (live : Json) : Json → Json
  | .obj patch => .obj (mergeMembers live.members patch)
  | patch => patch

def mergeMembers (live : Members) : List (String × Json) → Members
  | [] => live
  | (name, patch) :: rest =>
    match patch with
    | .null => mergeMembers (Keyed.erase name live) rest
    | patch => mergeMembers (Keyed.insert name (merge ((live.lookup name).getD .null) patch) live) rest

end

/-- Whether sending the patch would alter the value. -/
def patchChanges (live patch : Json) : Bool := !(merge live patch).same live

mutual

/-- Whether the value has what the patch gives and lacks what it drops. -/
def satisfies (live : Json) : Json → Bool
  | .obj patch =>
    match live with
    | .obj members => satisfiesMembers members patch
    | _ => false
  | patch => patch.same live

def satisfiesMembers (live : Members) : List (String × Json) → Bool
  | [] => true
  | (name, patch) :: rest =>
    (match patch, live.lookup name with
      | .null, found => found.isNone
      | patch, some value => satisfies value patch
      | _, none => false) && satisfiesMembers live rest

end

end ClusterKeeper.Json
