import ClusterKeeper.Json.Basic

/-!
The compact text of a JSON value: no blanks, members in their order, characters beyond the control
range as they are.
-/

namespace ClusterKeeper.Json

def hexDigit (n : Nat) : Char := ("0123456789abcdef".toList)[n]?.getD '0'

def escapedChar (c : Char) : List Char :=
  if c = '"' then ['\\', '"']
  else if c = '\\' then ['\\', '\\']
  else if c = '\n' then ['\\', 'n']
  else if c = '\r' then ['\\', 'r']
  else if c = '\t' then ['\\', 't']
  else if c.toNat = 8 then ['\\', 'b']
  else if c.toNat = 12 then ['\\', 'f']
  else if c.toNat < 32 then ['\\', 'u', '0', '0', hexDigit (c.toNat / 16), hexDigit (c.toNat % 16)]
  else [c]

def quoted (text : String) : String :=
  "\"" ++ String.ofList (text.toList.flatMap escapedChar) ++ "\""

/-- Integers in decimal, doubles with their fewest digits and always a point. -/
def renderNumber : Number → String
  | .int value => toString value
  | .float bits => Decimal.pointed bits

mutual

def render : Json → String
  | .null => "null"
  | .bool value => if value then "true" else "false"
  | .num value => renderNumber value
  | .str value => quoted value
  | .arr items => "[" ++ renderItems items ++ "]"
  | .obj members => "\x7b" ++ renderMembers members ++ "\x7d"

def renderItems : List Json → String
  | [] => ""
  | [item] => render item
  | item :: next :: rest => render item ++ "," ++ renderItems (next :: rest)

def renderMembers : List (String × Json) → String
  | [] => ""
  | [(name, value)] => quoted name ++ ":" ++ render value
  | (name, value) :: next :: rest =>
    quoted name ++ ":" ++ render value ++ "," ++ renderMembers (next :: rest)

end

end ClusterKeeper.Json
