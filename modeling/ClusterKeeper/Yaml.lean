import ClusterKeeper.Json.Printer

/-!
Block YAML of a JSON value: members and items on lines of their own, text of several lines as a
literal block, other text plain where that reads back as the same text.
-/

namespace ClusterKeeper.Yaml

inductive Layout where
  /-- On the line of its name. -/
  | inline (text : String)
  /-- A literal block of lines. -/
  | literal (lines : List String)
  /-- Members, which stand deeper than the name. -/
  | members (lines : List String)
  /-- Items, whose dashes stand at the depth of the name. -/
  | items (lines : List String)
deriving DecidableEq, Repr

/-- A line one step deeper; an empty one stays empty. -/
def indent (line : String) : String := if line = "" then "" else "  " ++ line

def indicators : List Char := "-?:,[]\x7b\x7d#&*!|>'\"%@`".toList

/-- Whether the characters could be those of a number. -/
def isNumeric (text : String) : Bool :=
  let numeric (extra : String) : Bool :=
    text.toList.all fun c => c.isDigit || extra.toList.contains c
  numeric "+-.eE_" ||
    (text.toList.head? = some '0' && numeric "xobabcdefABCDEF_")

def isAmbiguous (text : String) : Bool :=
  ["", "~", "null", "true", "false", "yes", "no", "on", "off", "y", "n",
    ".inf", "-.inf", "+.inf", ".nan"].contains text.toLower || isNumeric text

/-- Whether a text stands for itself without quotation marks. -/
def isPlain (text : String) : Bool :=
  let chars := text.toList
  !isAmbiguous text && !(chars.head?.any fun c => indicators.contains c || c = ' ') &&
    !(chars.getLast?.any fun c => c = ':' || c = ' ') &&
    (text.splitOn ": ").length = 1 && (text.splitOn " #").length = 1 &&
    chars.all fun c => 32 ≤ c.toNat && c.toNat ≠ 127

/-- Whether a text is written as a literal block: it has several lines and ends in a full one. -/
def isBlock (text : String) : Bool :=
  let lines := text.splitOn "\n"
  1 < lines.length && lines.getLast? ≠ some "" &&
    !((lines.headD "").toList.head?.any fun c => c = ' ') &&
    text.toList.all fun c => 32 ≤ c.toNat || c = '\n'

def layoutText (text : String) : Layout :=
  if isBlock text then .literal (text.splitOn "\n")
  else if isPlain text then .inline text
  else .inline (Json.quoted text)

namespace Layout

def member (name : String) : Layout → List String
  | .inline text => [name ++ ": " ++ text]
  | .literal lines => (name ++ ": |-") :: lines.map indent
  | .members lines => (name ++ ":") :: lines.map indent
  | .items lines => (name ++ ":") :: lines

def dashed : List String → List String
  | [] => []
  | first :: rest => ("- " ++ first) :: rest.map indent

def item : Layout → List String
  | .inline text => ["- " ++ text]
  | .literal lines => "- |-" :: lines.map indent
  | .members lines => dashed lines
  | .items lines => dashed lines

def document : Layout → List String
  | .inline text => [text]
  | .literal lines => "|-" :: lines.map indent
  | .members lines => lines
  | .items lines => lines

end Layout

mutual

def layout : Json → Layout
  | .null => .inline "null"
  | .bool value => .inline (if value then "true" else "false")
  | .num value => .inline (Json.renderNumber value)
  | .str text => layoutText text
  | .arr items => if items.isEmpty then .inline "[]" else .items (itemLines items)
  | .obj members => if members.isEmpty then .inline "\x7b\x7d" else .members (memberLines members)

def itemLines : List Json → List String
  | [] => []
  | item :: rest => (layout item).item ++ itemLines rest

def memberLines : List (String × Json) → List String
  | [] => []
  | (name, value) :: rest => (layout value).member name ++ memberLines rest

end

def render (json : Json) : String := String.join ((layout json).document.map (· ++ "\n"))

end ClusterKeeper.Yaml
