import Outbound.Config.KeyPath

/-!
# Environment variables

Variables whose names begin with a marker set a configuration. Two underscores in a name lead to
a table inside: with the marker `APP`, the variable `APP__LOG__LEVEL` sets `log.level`. Names are
taken without regard to case.
-/

namespace Outbound

/-- Variables by name, in the order in which they were set. -/
abbrev Environment := List (String × String)

namespace Environment

def get? (env : Environment) (name : String) : Option String :=
  env.lookup name

/-- Sets a variable, unless it is set. -/
def define (env : Environment) (name value : String) : Environment :=
  if (env.get? name).isSome then env else env ++ [(name, value)]

/-- What messages call the place that variables come from. -/
def place : String := "the environment"

private def setting (v : String) : Setting :=
  .scalar (.str v) (some place)

/-- The key that a variable sets, if its name begins with the marker. -/
def key? (marker name : String) : Option String :=
  ((Text.lowercase name).dropPrefix? (Text.lowercase marker ++ "__")).map fun rest ↦
    rest.toString.replace "__" "."

/-- What variables with a marker set. Of two variables for one key the later one counts. -/
def settings (env : Environment) (marker : String) : List (String × Setting) :=
  Setting.lastOfEach (env.filterMap fun (name, value) ↦
    (key? marker name).map fun key ↦ (key, setting value))

end Environment

end Outbound
