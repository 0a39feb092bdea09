import ClusterKeeper.Definition
import ClusterKeeper.Settings.Arguments

/-!
The command line: prints the settings that the arguments and the environment give, and the
definition of the kind that is kept under them, as two YAML documents.
-/

namespace ClusterKeeper.CommandLine

def output (arguments : List String) (environment : List (String × String)) :
    Except UsageError String :=
  (Settings.ofArguments arguments environment).map fun settings =>
    Yaml.render settings.document ++ "---\n" ++ Definition.text

def environment : IO (List (String × String)) :=
  Setting.all.filterMapM fun setting => do
    let value? ← IO.getEnv setting.variableName
    return value?.map (setting.variableName, ·)

end ClusterKeeper.CommandLine

open ClusterKeeper in
/-- Exits with 0 if settings or a text are asked for, and with 2 if the arguments are wrong. -/
def main (arguments : List String) : IO UInt32 := do
  match CommandLine.output arguments (← CommandLine.environment) with
  | .ok text =>
    IO.print text
    return 0
  | .error e =>
    if e.isRequest then
      IO.println e.text
      return 0
    else
      IO.eprintln e.text
      return 2
