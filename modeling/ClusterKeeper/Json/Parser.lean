import ClusterKeeper.Json.Basic
import ClusterKeeper.Decimal.Binary64

/-!
Reading JSON text. A fault names what was expected and the line and column where the reader stood;
columns count bytes. Arrays and objects nest less than 128 deep.
-/

namespace ClusterKeeper.Json

inductive SyntaxFault where
  | endInValue
  | endInList
  | endInObject
  | endInString
  | expectedColon
  | expectedListSeparator
  | expectedObjectSeparator
  | expectedIdent
  | expectedValue
  | invalidEscape
  | invalidNumber
  | numberOutOfRange
  | controlCharacter
  | nameNotText
  | loneSurrogate
  | trailingComma
  | trailingCharacters
  | tooDeep
deriving DecidableEq, Repr

def SyntaxFault.text : SyntaxFault → String
  | .endInValue => "EOF while parsing a value"
  | .endInList => "EOF while parsing a list"
  | .endInObject => "EOF while parsing an object"
  | .endInString => "EOF while parsing a string"
  | .expectedColon => "expected `:`"
  | .expectedListSeparator => "expected `,` or `]`"
  | .expectedObjectSeparator => "expected `,` or `\x7d`"
  | .expectedIdent => "expected ident"
  | .expectedValue => "expected value"
  | .invalidEscape => "invalid escape"
  | .invalidNumber => "invalid number"
  | .numberOutOfRange => "number out of range"
  | .controlCharacter => "control character (\\u0000-\\u001F) found while parsing a string"
  | .nameNotText => "key must be a string"
  | .loneSurrogate => "lone leading surrogate in hex escape"
  | .trailingComma => "trailing comma"
  | .trailingCharacters => "trailing characters"
  | .tooDeep => "recursion limit exceeded"

structure SyntaxError where
  fault : SyntaxFault
  line : Nat
  column : Nat
deriving DecidableEq, Repr

def SyntaxError.message (e : SyntaxError) : String :=
  e.fault.text ++ " at line " ++ toString e.line ++ " column " ++ toString e.column

structure Cursor where
  rest : List Char
  line : Nat
  column : Nat

namespace Cursor

def start (text : String) : Cursor := ⟨text.toList, 1, 0⟩

def next? (c : Cursor) : Option (Char × Cursor) :=
  match c.rest with
  | [] => none
  | '\n' :: rest => some ('\n', ⟨rest, c.line + 1, 0⟩)
  | ch :: rest => some (ch, ⟨rest, c.line, c.column + ch.utf8Size⟩)

def peek? (c : Cursor) : Option Char := c.rest.head?

def advance (c : Cursor) : Cursor := (c.next?.map (·.2)).getD c

def fault {α : Type} (c : Cursor) (f : SyntaxFault) : Except SyntaxError α :=
  .error ⟨f, c.line, c.column⟩

def faultAhead {α : Type} (c : Cursor) (f : SyntaxFault) : Except SyntaxError α :=
  c.advance.fault f

def isBlank (ch : Char) : Bool := ch = ' ' || ch = '\n' || ch = '\t' || ch = '\r'

def skipBlanksFrom : List Char → Nat → Nat → Cursor
  | ch :: rest, line, column =>
    if ch = '\n' then skipBlanksFrom rest (line + 1) 0
    else if isBlank ch then skipBlanksFrom rest line (column + 1)
    else ⟨ch :: rest, line, column⟩
  | [], line, column => ⟨[], line, column⟩

def skipBlanks (c : Cursor) : Cursor := skipBlanksFrom c.rest c.line c.column

end Cursor

abbrev Reader (α : Type) := Cursor → Except SyntaxError (α × Cursor)

def readIdent : List Char → Reader Unit
  | [], c => .ok ((), c)
  | ch :: rest, c =>
    match c.next? with
    | none => c.fault .endInValue
    | some (found, after) => if found = ch then readIdent rest after else after.fault .expectedIdent

def hexValue? (ch : Char) : Option Nat :=
  if ch.isDigit then some (ch.toNat - '0'.toNat)
  else if 'a' ≤ ch ∧ ch ≤ 'f' then some (ch.toNat - 'a'.toNat + 10)
  else if 'A' ≤ ch ∧ ch ≤ 'F' then some (ch.toNat - 'A'.toNat + 10)
  else none

def readHex : Nat → Nat → Reader Nat
  | 0, value, c => .ok (value, c)
  | count + 1, value, c =>
    match c.next? with
    | none => c.fault .endInString
    | some (ch, after) =>
      match hexValue? ch with
      | some digit => readHex count (value * 16 + digit) after
      | none => after.fault .invalidEscape

/-- Reads what follows a backslash and `u`; two escapes make one character beyond 16 bits. -/
def readUnicodeEscape (c : Cursor) : Except SyntaxError (Char × Cursor) := do
  let (high, c) ← readHex 4 0 c
  if 0xDC00 ≤ high ∧ high ≤ 0xDFFF then c.fault .loneSurrogate
  else if high < 0xD800 ∨ 0xDBFF < high then .ok (Char.ofNat high, c)
  else
    match c.next? with
    | some ('\\', c) =>
      match c.next? with
      | some ('u', c) =>
        let (low, c) ← readHex 4 0 c
        if low < 0xDC00 ∨ 0xDFFF < low then c.fault .loneSurrogate
        else .ok (Char.ofNat (0x10000 + (high - 0xD800) * 0x400 + (low - 0xDC00)), c)
      | _ => c.fault .loneSurrogate
    | _ => c.fault .loneSurrogate

def readEscape (c : Cursor) : Except SyntaxError (Char × Cursor) :=
  match c.next? with
  | none => c.fault .endInString
  | some (ch, after) =>
    match ch with
    | '"' => .ok ('"', after)
    | '\\' => .ok ('\\', after)
    | '/' => .ok ('/', after)
    | 'b' => .ok (Char.ofNat 8, after)
    | 'f' => .ok (Char.ofNat 12, after)
    | 'n' => .ok ('\n', after)
    | 'r' => .ok ('\r', after)
    | 't' => .ok ('\t', after)
    | 'u' => readUnicodeEscape after
    | _ => after.fault .invalidEscape

/-- Reads up to the closing quotation mark; `found` holds the characters so far, last first. -/
def readTextFrom : Nat → List Char → Reader String
  | 0, _, c => c.fault .endInString
  | fuel + 1, found, c =>
    match c.next? with
    | none => c.fault .endInString
    | some (ch, after) =>
      if ch = '"' then .ok (String.ofList found.reverse, after)
      else if ch = '\\' then
        match readEscape after with
        | .ok (ch, after) => readTextFrom fuel (ch :: found) after
        | .error e => .error e
      else if ch.toNat < 32 then after.fault .controlCharacter
      else readTextFrom fuel (ch :: found) after

def readText (c : Cursor) : Except SyntaxError (String × Cursor) :=
  readTextFrom (c.rest.length + 1) [] c

def readDigits : List Char → Nat → Nat → List Nat × Cursor
  | ch :: rest, line, column =>
    if ch.isDigit then
      let (digits, after) := readDigits rest line (column + 1)
      ((ch.toNat - '0'.toNat) :: digits, after)
    else ([], ⟨ch :: rest, line, column⟩)
  | [], line, column => ([], ⟨[], line, column⟩)

def readSomeDigits : Reader (List Nat) := fun c =>
  match readDigits c.rest c.line c.column with
  | ([], after) => after.faultAhead .invalidNumber
  | (digits, after) => .ok (digits, after)

def readExponent : Reader (Option Int) := fun c =>
  match c.next? with
  | some (ch, after) =>
    if ch = 'e' ∨ ch = 'E' then
      let (negative, after) :=
        match after.next? with
        | some ('-', after) => (true, after)
        | some ('+', after) => (false, after)
        | _ => (false, after)
      match readSomeDigits after with
      | .ok (digits, after) =>
        let value := digits.foldl (fun (n : Nat) d => n * 10 + d) 0
        .ok (some (if negative then -(value : Int) else value), after)
      | .error e => .error e
    else .ok (none, c)
  | none => .ok (none, c)

/-- A run of digits as a number of 64 bits, and how many digits at its end did not fit. -/
structure Significand where
  value : Nat
  left : Nat

/-- Continues a number by digits as long as it fits in 64 bits. -/
def Significand.extend (value : Nat) : List Nat → Significand
  | [] => ⟨value, 0⟩
  | digit :: rest =>
    if value * 10 + digit < twoTo 64 then extend (value * 10 + digit) rest
    else ⟨value, rest.length + 1⟩

/-- The number of a numeral without point and exponent: an integer in the range of 64 bits, signed
or not, else a double. A zero with a sign is a double. -/
def integerNumber? (negative : Bool) (whole : List Nat) : Option Number :=
  let ⟨value, left⟩ := Significand.extend 0 whole
  if left = 0 ∧ !negative then some (.int value)
  else if left = 0 ∧ value ≠ 0 ∧ value ≤ twoTo 63 then some (.int (-(value : Int)))
  else (Decimal.scaledBits? negative value left).map .float

/-- The double of a numeral with point or exponent. Digits that do not fit count as zeros before the
point and not at all after it. -/
def decimalNumber? (negative : Bool) (whole fraction : List Nat) (exponent : Int) :
    Option Number :=
  let head := Significand.extend 0 whole
  let all := Significand.extend head.value fraction
  let places : Int := fraction.length - all.left
  (Decimal.scaledBits? negative all.value (head.left - places + exponent)).map .float

def readFraction : Reader (Option (List Nat)) := fun c =>
  match c.next? with
  | some ('.', after) => (readSomeDigits after).map fun found => (some found.1, found.2)
  | _ => .ok (none, c)

def readNumber (c : Cursor) : Except SyntaxError (Number × Cursor) := do
  let (negative, c) := match c.next? with
    | some ('-', after) => (true, after)
    | _ => (false, c)
  let (whole, afterWhole) ← readSomeDigits c
  -- the fault is at the digit that follows a leading zero
  if whole.head? = some 0 ∧ 1 < whole.length then c.advance.faultAhead .invalidNumber
  let (fraction?, afterFraction) ← readFraction afterWhole
  let (exponent?, c) ← readExponent afterFraction
  let number? := match fraction?, exponent? with
    | none, none => integerNumber? negative whole
    | _, _ => decimalNumber? negative whole (fraction?.getD []) (exponent?.getD 0)
  match number? with
  | some number => .ok (number, c)
  | none => c.fault .numberOutOfRange

def readItems (readValue : Reader Json) : Nat → Bool → Reader (List Json)
  | 0, _, c => c.fault .endInList
  | fuel + 1, first, c => do
    let c := c.skipBlanks
    let item (c : Cursor) : Except SyntaxError (List Json × Cursor) := do
      let (value, c) ← readValue c
      let (rest, c) ← readItems readValue fuel false c
      .ok (value :: rest, c)
    match c.peek? with
    | none => c.faultAhead .endInList
    | some ']' => .ok ([], c.advance)
    | some ',' =>
      if first then item c
      else
        let c := c.advance.skipBlanks
        match c.peek? with
        | none => c.faultAhead .endInValue
        | some ']' => c.faultAhead .trailingComma
        | some _ => item c
    | some _ => if first then item c else c.faultAhead .expectedListSeparator

/-- Reads the members of an object up to the closing brace; of two with one name the last counts. -/
def readMembers (readValue : Reader Json) : Nat → Bool → Members → Reader Members
  | 0, _, _, c => c.fault .endInObject
  | fuel + 1, first, found, c => do
    let c := c.skipBlanks
    let member (c : Cursor) : Except SyntaxError (Members × Cursor) := do
      let (name, c) ← readText c.advance
      let c := c.skipBlanks
      match c.peek? with
      | none => c.faultAhead .endInObject
      | some ':' =>
        let (value, c) ← readValue c.advance
        readMembers readValue fuel false (Keyed.insert name value found) c
      | some _ => c.faultAhead .expectedColon
    match c.peek? with
    | none => c.faultAhead .endInObject
    | some '\x7d' => .ok (found, c.advance)
    | some ',' =>
      if first then c.faultAhead .nameNotText
      else
        let c := c.advance.skipBlanks
        match c.peek? with
        | none => c.faultAhead .endInValue
        | some '"' => member c
        | some '\x7d' => c.faultAhead .trailingComma
        | some _ => c.faultAhead .nameNotText
    | some '"' => if first then member c else c.faultAhead .expectedObjectSeparator
    | some _ =>
      if first then c.faultAhead .nameNotText else c.faultAhead .expectedObjectSeparator

/-- Reads a value that nests at most `depth` deep. -/
def readValue : Nat → Reader Json
  | depth, c => do
    let c := c.skipBlanks
    match c.peek? with
    | none => c.faultAhead .endInValue
    | some ch =>
      if ch = 'n' then
        let (_, c) ← readIdent ['u', 'l', 'l'] c.advance
        .ok (.null, c)
      else if ch = 't' then
        let (_, c) ← readIdent ['r', 'u', 'e'] c.advance
        .ok (.bool true, c)
      else if ch = 'f' then
        let (_, c) ← readIdent ['a', 'l', 's', 'e'] c.advance
        .ok (.bool false, c)
      else if ch = '-' ∨ ch.isDigit then
        let (number, c) ← readNumber c
        .ok (.num number, c)
      else if ch = '"' then
        let (text, c) ← readText c.advance
        .ok (.str text, c)
      else if ch = '[' ∨ ch = '\x7b' then
        match depth with
        | 0 => c.faultAhead .tooDeep
        | depth + 1 =>
          let c := c.advance
          if ch = '[' then
            let (items, c) ← readItems (readValue depth) (c.rest.length + 1) true c
            .ok (.arr items, c)
          else
            let (members, c) ← readMembers (readValue depth) (c.rest.length + 1) true [] c
            .ok (.obj members, c)
      else c.faultAhead .expectedValue

def parse (text : String) : Except SyntaxError Json := do
  let (value, c) ← readValue 127 (Cursor.start text)
  let c := c.skipBlanks
  match c.peek? with
  | none => .ok value
  | some _ => c.faultAhead .trailingCharacters

end ClusterKeeper.Json
