/-!
Points in time as RFC 3339 writes them. A time with any offset is kept in UTC, to the second: what
it says of fractions of a second is dropped, and a leap second is the second before it.
-/

namespace ClusterKeeper

def isLeap (year : Nat) : Bool := year % 4 = 0 && (year % 100 ≠ 0 || year % 400 = 0)

def monthLength (year month : Nat) : Nat :=
  if month = 2 then if isLeap year then 29 else 28
  else if month ∈ [4, 6, 9, 11] then 30
  else 31

/-- A day of the Gregorian calendar in a year of at most four digits. -/
structure Date where
  year : Nat
  month : Nat
  day : Nat
  year_lt : year < 10000
  month_mem : 1 ≤ month ∧ month ≤ 12
  day_mem : 1 ≤ day ∧ day ≤ monthLength year month
deriving DecidableEq, Repr

namespace Date

def of? (year month day : Nat) : Option Date :=
  if h : year < 10000 ∧ (1 ≤ month ∧ month ≤ 12) ∧ 1 ≤ day ∧ day ≤ monthLength year month then
    some ⟨year, month, day, h.1, h.2.1, h.2.2⟩
  else none

def next? (date : Date) : Option Date :=
  if date.day < monthLength date.year date.month then of? date.year date.month (date.day + 1)
  else if date.month < 12 then of? date.year (date.month + 1) 1
  else of? (date.year + 1) 1 1

def previous? (date : Date) : Option Date :=
  if 1 < date.day then of? date.year date.month (date.day - 1)
  else if 1 < date.month then
    of? date.year (date.month - 1) (monthLength date.year (date.month - 1))
  else if 0 < date.year then of? (date.year - 1) 12 31
  else none

end Date

/-- A second of a day in UTC. -/
structure Moment where
  date : Date
  second : Nat
  second_lt : second < 86400
deriving DecidableEq, Repr

namespace Moment

/-- The moment of that second of the date, counted where clocks are so many seconds ahead of UTC. -/
def ofLocal? (date : Date) (second : Nat) (ahead : Int) : Option Moment :=
  let utc := (second : Int) - ahead
  let date? := if utc < 0 then date.previous? else if utc < 86400 then some date else date.next?
  date?.map (⟨·, (utc % 86400).toNat, by omega⟩)

/-! ### Reading -/

def readDigits : Nat → List Char → Option (Nat × List Char)
  | 0, text => some (0, text)
  | count + 1, text => do
    match ← readDigits count text with
    | (value, c :: rest) => if c.isDigit then some (value * 10 + (c.toNat - 48), rest) else none
    | (_, []) => none

def readMark (marks : List Char) : List Char → Option (List Char)
  | c :: rest => if c ∈ marks then some rest else none
  | [] => none

def readDate (text : List Char) : Option (Date × List Char) := do
  let (year, text) ← readDigits 4 text
  let text ← readMark ['-'] text
  let (month, text) ← readDigits 2 text
  let text ← readMark ['-'] text
  let (day, text) ← readDigits 2 text
  let date ← Date.of? year month day
  return (date, text)

def readMinutes (text : List Char) : Option (Nat × List Char) := do
  let (hour, text) ← readDigits 2 text
  let text ← readMark [':'] text
  let (minute, text) ← readDigits 2 text
  if hour < 24 ∧ minute < 60 then some (hour * 60 + minute, text) else none

/-- What follows the fraction of a second, if there is one; it has at least one digit. -/
def readFraction : List Char → Option (List Char)
  | '.' :: text => do
    let (_, _) ← readDigits 1 text
    return text.dropWhile Char.isDigit
  | text => some text

def readClock (text : List Char) : Option (Nat × List Char) := do
  let (minutes, text) ← readMinutes text
  let text ← readMark [':'] text
  let (second, text) ← readDigits 2 text
  let text ← readFraction text
  if second ≤ 60 then some (minutes * 60 + min second 59, text) else none

def readOffset : List Char → Option (Int × List Char)
  | [] => none
  | c :: text =>
    if c ∈ ['Z', 'z'] then some (0, text)
    else do
      let (minutes, rest) ← readMinutes text
      if c = '+' then some (minutes * 60, rest)
      else if c = '-' then some (-(minutes * 60), rest)
      else none

def read? (text : String) : Option Moment := do
  let (date, rest) ← readDate text.toList
  let rest ← readMark ['T', 't', ' '] rest
  let (second, rest) ← readClock rest
  let (ahead, rest) ← readOffset rest
  if rest = [] then ofLocal? date second ahead else none

/-! ### Writing -/

/-- The last digits of a number, so many of them. -/
def digits : Nat → Nat → List Char
  | 0, _ => []
  | count + 1, n => digits count (n / 10) ++ [Char.ofNat (48 + n % 10)]

def dateChars (date : Date) : List Char :=
  digits 4 date.year ++ '-' :: (digits 2 date.month ++ '-' :: digits 2 date.day)

def clockChars (second : Nat) : List Char :=
  digits 2 (second / 3600) ++ ':' :: (digits 2 (second / 60 % 60) ++ ':' :: digits 2 (second % 60))

def text (moment : Moment) : String :=
  String.ofList (dateChars moment.date ++ 'T' :: (clockChars moment.second ++ ['Z']))

end Moment

end ClusterKeeper
