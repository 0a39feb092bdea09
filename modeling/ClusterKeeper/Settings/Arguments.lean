import ClusterKeeper.Settings.Basic

/-!
Settings from a command line and an environment. Arguments are taken from left to right; a value
after its flag is looked at when the next flag comes, and a variable only if its flag is not given.
-/

namespace ClusterKeeper

inductive UsageError where
  /-- Help is asked for. -/
  | displayHelp
  | displayVersion
  /-- No such flag, or something that is no flag. -/
  | unknownArgument
  /-- A flag without its value. -/
  | invalidValue
  /-- A value that has not the form of its setting. -/
  | valueValidation
  /-- A flag that is given twice. -/
  | argumentConflict
  /-- A value for a flag that takes none. -/
  | tooManyValues
deriving DecidableEq, Repr

def UsageError.name : UsageError → String
  | .displayHelp => "DisplayHelp"
  | .displayVersion => "DisplayVersion"
  | .unknownArgument => "UnknownArgument"
  | .invalidValue => "InvalidValue"
  | .valueValidation => "ValueValidation"
  | .argumentConflict => "ArgumentConflict"
  | .tooManyValues => "TooManyValues"

/-- Whether a text is asked for, so that nothing is wrong with the arguments. -/
def UsageError.isRequest : UsageError → Bool
  | .displayHelp => true
  | .displayVersion => true
  | _ => false

namespace Arguments

/-- What an argument looks like. -/
inductive Token where
  /-- The two dashes that end the flags. -/
  | stop
  | long (name : String) (value? : Option String)
  /-- The letters after a single dash. -/
  | short (first : Char)
  | plain (text : String)
deriving DecidableEq, Repr

def Token.ofText (text : String) : Token :=
  match text.toList with
  | ['-', '-'] => .stop
  | '-' :: '-' :: rest =>
    let name := String.ofList (rest.takeWhile (· ≠ '='))
    match rest.dropWhile (· ≠ '=') with
    | [] => .long name none
    | _ :: value => .long name (some (String.ofList value))
  | '-' :: first :: _ => .short first
  | _ => .plain text

structure Progress where
  settings : Settings
  given : List Setting
  /-- The flag that came last without `=`, and the value after it. -/
  pending : Option (Setting × Option String)
  /-- Whether the flags have ended. -/
  stopped : Bool

namespace Progress

def start : Progress := ⟨.default, [], none, false⟩

/-- Gives a setting the value of its flag. -/
def give (p : Progress) (setting : Setting) (value : String) : Except UsageError Progress :=
  if p.given.contains setting then .error .argumentConflict
  else
    match p.settings.assign? setting value with
    | none => .error .valueValidation
    | some settings => .ok { p with settings, given := setting :: p.given }

def settle (p : Progress) : Except UsageError Progress :=
  match p.pending with
  | none => .ok p
  | some (_, none) => .error .invalidValue
  | some (setting, some value) => { p with pending := none }.give setting value

def display (p : Progress) (request : UsageError) : Except UsageError Progress :=
  p.settle.bind fun _ => .error request

def request? : String → Option UsageError
  | "help" => some .displayHelp
  | "version" => some .displayVersion
  | _ => none

def takeLong (p : Progress) (name : String) (value? : Option String) : Except UsageError Progress :=
  match Setting.ofFlag? name, request? name, value? with
  | some setting, _, some value => p.settle.bind (·.give setting value)
  | some setting, _, none => p.settle.map fun p => { p with pending := some (setting, none) }
  -- a flag that is not known is reported before the value that still waits is looked at
  | none, some request, none => p.display request
  | none, some _, some _ => .error .tooManyValues
  | none, none, _ => .error .unknownArgument

def takeShort (p : Progress) (first : Char) : Except UsageError Progress :=
  if first = 'h' then p.display .displayHelp
  else if first = 'V' then p.display .displayVersion
  else .error .unknownArgument

/-- A text that is no flag is the value of the flag before it, or nothing known. -/
def takePlain (p : Progress) (text : String) : Except UsageError Progress :=
  match p.pending with
  | some (setting, none) => .ok { p with pending := some (setting, some text) }
  | _ => .error .unknownArgument

def take (p : Progress) (argument : String) : Except UsageError Progress :=
  if p.stopped then .error .unknownArgument
  else
    match Token.ofText argument with
    | .stop => .ok { p with stopped := true }
    | .long name value? => p.takeLong name value?
    | .short first => p.takeShort first
    | .plain text => p.takePlain text

/-- Gives a setting whose flag is not there the value of its variable. -/
def takeVariable (environment : List (String × String)) (p : Progress) (setting : Setting) :
    Except UsageError Progress :=
  match environment.lookup setting.variableName with
  | none => .ok p
  | some value => if p.given.contains setting then .ok p else p.give setting value

end Progress

end Arguments

open Arguments in
def Settings.ofArguments (arguments : List String) (environment : List (String × String)) :
    Except UsageError Settings := do
  let taken ← arguments.foldlM Progress.take .start
  let settled ← taken.settle
  let complete ← Setting.all.foldlM (Progress.takeVariable environment) settled
  return complete.settings

/-- The line of the help text for a setting: its flag, and the variable that stands in for it. -/
def Setting.help (setting : Setting) : String :=
  "  --" ++ setting.flag ++ " <VALUE>  [env: " ++ setting.variableName ++ "]"

def UsageError.text : UsageError → String
  | .displayHelp =>
    String.intercalate "\n"
      ("IPFS Cluster Operator for Kubernetes" :: "" :: "Options:" :: Setting.all.map Setting.help)
  | .displayVersion => "ipfs-operator 0.1.0"
  | e => "error: " ++ e.name

end ClusterKeeper
