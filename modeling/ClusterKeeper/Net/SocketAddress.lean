import ClusterKeeper.Decimal.Binary64

/-!
Socket addresses: reading an IPv4 or IPv6 address with its port, and the canonical text of RFC 5952,
in which the longest run of zero groups is `::`.
-/

namespace ClusterKeeper

inductive SocketAddress where
  /-- Four octets and a port. -/
  | v4 (octets : List Nat) (port : Nat)
  /-- Eight groups of 16 bits, the zone of a local address, and a port. -/
  | v6 (groups : List Nat) (zone : Nat) (port : Nat)
deriving DecidableEq, Repr

namespace SocketAddress

abbrev Reader (α : Type) := List Char → Option (α × List Char)

def digitValue? (radix : Nat) (c : Char) : Option Nat :=
  let value? :=
    if '0' ≤ c && c ≤ '9' then some (c.toNat - '0'.toNat)
    else if 'a' ≤ c && c ≤ 'f' then some (c.toNat - 'a'.toNat + 10)
    else if 'A' ≤ c && c ≤ 'F' then some (c.toNat - 'A'.toNat + 10)
    else none
  value?.filter (· < radix)

structure NumeralForm where
  radix : Nat
  maxDigits : Option Nat
  leadingZeros : Bool
  /-- The value is below this. -/
  bound : Nat

namespace NumeralForm

def octet : NumeralForm := ⟨10, some 3, false, twoTo 8⟩

def group : NumeralForm := ⟨16, some 4, true, twoTo 16⟩

def port : NumeralForm := ⟨10, none, true, twoTo 16⟩

def zone : NumeralForm := ⟨10, none, true, twoTo 32⟩

end NumeralForm

/-- Reads all digits that come next; they have to be of the form. -/
def readNumber (form : NumeralForm) : Reader Nat := fun text =>
  let digits := text.takeWhile fun c => (digitValue? form.radix c).isSome
  let value := digits.foldl (fun n c => n * form.radix + (digitValue? form.radix c).getD 0) 0
  if digits = [] then none
  else if form.maxDigits.any (· < digits.length) then none
  else if !form.leadingZeros && 1 < digits.length && digits.head? = some '0' then none
  else if value < form.bound then some (value, text.drop digits.length)
  else none

def readChar (c : Char) : Reader Unit
  | [] => none
  | d :: rest => if d = c then some ((), rest) else none

/-- Reads what a reader reads, after a separator unless it is the first of its sort. -/
def readSeparated {α : Type} (separator : Char) (first : Bool) (reader : Reader α) : Reader α :=
  fun text =>
    if first then reader text
    else (readChar separator text).bind fun (_, text) => reader text

def readOctets : Nat → Bool → Reader (List Nat)
  | 0, _ => fun text => some ([], text)
  | count + 1, first => fun text => do
    let (octet, text) ← readSeparated '.' first (readNumber .octet) text
    let (rest, text) ← readOctets count false text
    return (octet :: rest, text)

def groupsOfOctets : List Nat → List Nat
  | [a, b, c, d] => [a * 256 + b, c * 256 + d]
  | _ => []

/-- What a row of groups came to: the groups, whether they end in an IPv4 address, and the rest. -/
structure GroupRow where
  groups : List Nat
  endsInOctets : Bool
  rest : List Char

/-- Reads up to so many groups; an IPv4 address counts as two and ends the row. -/
def readGroups : Nat → Bool → List Char → GroupRow
  | 0, _, text => ⟨[], false, text⟩
  | limit + 1, first, text =>
    let octets? := if limit = 0 then none else readSeparated ':' first (readOctets 4 true) text
    match octets? with
    | some (octets, rest) => ⟨groupsOfOctets octets, true, rest⟩
    | none =>
      match readSeparated ':' first (readNumber .group) text with
      | none => ⟨[], false, text⟩
      | some (group, rest) =>
        let row := readGroups limit false rest
        { row with groups := group :: row.groups }

/-- Reads eight groups, of which `::` may leave out one or more that are zero. -/
def readV6 : Reader (List Nat) := fun text => do
  let head := readGroups 8 true text
  if head.groups.length = 8 then return (head.groups, head.rest)
  -- an IPv4 address can only stand at the end
  if head.endsInOctets then none
  let (_, rest) ← readChar ':' head.rest
  let (_, rest) ← readChar ':' rest
  let tail := readGroups (7 - head.groups.length) true rest
  let zeros := List.replicate (8 - head.groups.length - tail.groups.length) 0
  return (head.groups ++ zeros ++ tail.groups, tail.rest)

def readPort : Reader Nat := fun text => do
  let (_, text) ← readChar ':' text
  readNumber .port text

/-- Reads the zone after a percent sign; without one it is zero. -/
def readZone (text : List Char) : Nat × List Char :=
  ((readChar '%' text).bind fun (_, text) => readNumber .zone text).getD (0, text)

def readSocketV4 : Reader SocketAddress := fun text => do
  let (octets, text) ← readOctets 4 true text
  let (port, text) ← readPort text
  return (.v4 octets port, text)

def readSocketV6 : Reader SocketAddress := fun text => do
  let (_, text) ← readChar '[' text
  let (groups, text) ← readV6 text
  let (zone, text) := readZone text
  let (_, text) ← readChar ']' text
  let (port, text) ← readPort text
  return (.v6 groups zone port, text)

def ofText? (text : String) : Option SocketAddress :=
  match readSocketV4 text.toList <|> readSocketV6 text.toList with
  | some (address, []) => some address
  | _ => none

structure Run where
  start : Nat
  length : Nat

/-- The longest run of zeros from index `i` on, the first of equals; `current` is the run that ends
before `i`. -/
def longestRun : Nat → Run → Run → List Nat → Run
  | _, _, longest, [] => longest
  | i, current, longest, group :: rest =>
    if group = 0 then
      let current := if current.length = 0 then ⟨i, 1⟩ else ⟨current.start, current.length + 1⟩
      longestRun (i + 1) current (if longest.length < current.length then current else longest) rest
    else longestRun (i + 1) ⟨0, 0⟩ longest rest

def octetsText (octets : List Nat) : String := String.intercalate "." (octets.map toString)

def groupsText (groups : List Nat) : String :=
  String.intercalate ":" (groups.map fun group => String.ofList (Nat.toDigits 16 group))

/-- The text of an IPv6 address; one that stands for an IPv4 address shows its octets. -/
def v6Text (groups : List Nat) : String :=
  match groups with
  | [0, 0, 0, 0, 0, 0xFFFF, high, low] =>
    "::ffff:" ++ octetsText [high / 256, high % 256, low / 256, low % 256]
  | _ =>
    let run := longestRun 0 ⟨0, 0⟩ ⟨0, 0⟩ groups
    if 1 < run.length then
      groupsText (groups.take run.start) ++ "::" ++ groupsText (groups.drop (run.start + run.length))
    else groupsText groups

def text : SocketAddress → String
  | .v4 octets port => octetsText octets ++ ":" ++ toString port
  | .v6 groups zone port =>
    "[" ++ v6Text groups ++ (if zone = 0 then "" else "%" ++ toString zone) ++ "]:" ++ toString port

end SocketAddress

end ClusterKeeper
