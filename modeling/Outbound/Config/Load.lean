import Outbound.Config.EnvFile
import Outbound.Config.Ini
import Outbound.Config.Ron
import Outbound.Config.Toml
import Outbound.Config.Yaml
import Outbound.Error

/-!
# Loading a configuration

A configuration comes from a file and from the environment, whose variables win. The kind of a
file is told by the ending of its name; a name without the ending is tried with each of them. If
no file is asked for, `configuration` with some ending is used if it is there. Variables may stand
in a file of their own, which is read first.
-/

namespace Outbound

namespace Config

/-- Files by name, with their texts. -/
abbrev Files := List (String × String)

inductive FileKind where
  | toml
  | json
  | yaml
  | ini
  | ron
  | json5
deriving Repr, DecidableEq

namespace FileKind

def all : List FileKind :=
  [toml, json, yaml, ini, ron, json5]

def endings : FileKind → List String
  | toml => ["toml"]
  | json => ["json"]
  | yaml => ["yaml", "yml"]
  | ini => ["ini"]
  | ron => ["ron"]
  | json5 => ["json5"]

def ofEnding? (ending : String) : Option FileKind :=
  all.find? fun kind ↦ kind.endings.contains ending

end FileKind

/-- The ending of a file's name. -/
private def ending (path : String) : String :=
  let name := (path.splitOn "/").getLastD ""
  match name.splitOn "." with
  | [_] => ""
  | parts => if parts.dropLast.all String.isEmpty then "" else parts.getLastD ""

/-- The path without steps that lead nowhere. -/
private def direct (path : String) : String :=
  "/".intercalate ((path.splitOn "/").filter fun part ↦ !part.isEmpty && part != ".")

/-- A file that was found. -/
structure Found where
  name : String
  kind : FileKind
  text : String

/-- The file that a path means. -/
def find (files : Files) (path : String) : Outcome Found :=
  let path' := direct path
  match files.lookup path' with
  | some text =>
    match FileKind.ofEnding? (ending path') with
    | some kind => .ok ⟨path', kind, text⟩
    | none =>
      .error (.config ("configuration file \"" ++ path' ++ "\" is not of a registered file format"))
  | none =>
    let candidates := FileKind.all.flatMap fun kind ↦
      kind.endings.filterMap fun ending ↦
        let name := path' ++ "." ++ ending
        (files.lookup name).map fun text ↦ ⟨name, kind, text⟩
    match candidates with
    | found :: _ => .ok found
    | [] => .error (.config ("configuration file \"" ++ path ++ "\" not found"))

/-- What a message calls a value that is no table. -/
private def describeRoot : Setting → String
  | .list _ _ => "sequence"
  | .table _ _ => "map"
  | .scalar (.int n) _ => "64-bit integer \x60" ++ toString n ++ "\x60"
  | .scalar (.float x) _ => "floating point \x60" ++ floatPlain x ++ "\x60"
  | .scalar .null _ => "unit value"
  | .scalar v _ => v.describe

private def rootTable (origin : String) : Setting → Except String (List (String × Setting))
  | .table members _ => .ok members
  | v => .error (ShapeError.unfit (describeRoot v) "a map" none (some origin)).message

/-- The settings of a file. -/
def Found.settings (file : Found) : Outcome (List (String × Setting)) :=
  let origin := some file.name
  let text := if file.text.startsWith "\ufeff" then (file.text.drop 1).toString else file.text
  let read : Except String (List (String × Setting)) :=
    match file.kind with
    | .toml => Toml.read origin text
    | .ini => Ini.read origin text
    | .yaml => do rootTable file.name (← Yaml.read origin text)
    | .json =>
      match Json.parse text with
      | .error e => .error e.message
      | .ok v => rootTable file.name (Setting.ofJson origin v.canonical)
    | .json5 => do rootTable file.name (Setting.ofJson origin (← Json5.read text))
    | .ron => do rootTable file.name (Setting.ofJson origin (← Ron.read text))
  match read with
  | .ok members => .ok members
  | .error text => .error (.config (text ++ " in " ++ file.name))

/-- The name of the file with variables. -/
def variablesFile : String := ".env"

/-- The environment with the variables of the file. -/
def withVariables (files : Files) (env : Environment) : Environment :=
  match files.lookup variablesFile with
  | some text => EnvFile.run text env
  | none => env

/-- The settings of a file, or of the usual one if it is there. -/
private def fileSettings (files : Files) : Option String → Outcome (List (String × Setting))
  | some path => do (← find files path).settings
  | none =>
    match find files "configuration" with
    | .ok found => found.settings
    | .error _ => .ok []

/-- Loads the settings that files and variables make together. -/
def load (files : Files) (env : Environment) (path : Option String) : Outcome Setting := do
  let file ← fileSettings files path
  return (Setting.empty.putAll file).putAll (env.settings "APP")

/-- The error of settings that do not have the shape asked for. -/
def shaped {α : Type} : Shaped α → Outcome α
  | .ok a => .ok a
  | .error e => .error (.config e.message)

end Config

end Outbound
