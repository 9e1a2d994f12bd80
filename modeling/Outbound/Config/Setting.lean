import Outbound.Json.Shape
import Outbound.Text.Lowercase
import Outbound.Text.Number

/-!
# Settings

A setting is a scalar, a list or a table, and knows the place it was read from. Scalars are
converted as far as this makes sense: the text `5` is read as a number and `yes` as a truth
value. Where settings have to be told apart before they are read, there are no conversions.
-/

namespace Outbound

/-- A value of a configuration. The origins name the file or the environment. -/
inductive Setting where
  | scalar (v : Json) (origin : Option String)
  | list (items : List Setting) (origin : Option String)
  | table (members : List (String × Setting)) (origin : Option String)
deriving Inhabited

namespace Setting

def empty : Setting :=
  table [] none

def origin : Setting → Option String
  | scalar _ origin => origin
  | list _ origin => origin
  | table _ origin => origin

/-- Entries without those that a later one of the same key takes the place of. -/
def lastOfEach (entries : List (String × Setting)) : List (String × Setting) :=
  entries.foldl (fun done (key, v) ↦ done.filter (·.1 != key) ++ [(key, v)]) []

/-- The value without lists and tables being looked into. -/
def surface : Setting → Json
  | scalar v _ => v
  | list _ _ => .arr []
  | table _ _ => .obj []

mutual

/-- The setting as JSON. What is no number becomes null. -/
def toJson : Setting → Json
  | scalar (.float x) _ => if x.isFinite then .float x else .null
  | scalar v _ => v
  | list items _ => .arr (itemsToJson items)
  | table members _ => .ofMembers (membersToJson members)

def itemsToJson : List Setting → List Json
  | [] => []
  | v :: rest => toJson v :: itemsToJson rest

def membersToJson : List (String × Setting) → List (String × Json)
  | [] => []
  | (key, v) :: rest => (key, toJson v) :: membersToJson rest

end

/-! ## Conversions -/

/-- What a message calls a setting that cannot be converted. -/
private def describe (s : Setting) : String :=
  match s.surface with
  | .null => "unit value"
  | .int n => "64-bit integer \x60" ++ toString n ++ "\x60"
  | .float x => "floating point \x60" ++ floatPlain x ++ "\x60"
  | v => v.describe

private def unfit {α : Type} (s : Setting) (expected : String) : Shaped α :=
  .error (.unfit s.describe expected none s.origin)

/-- A word that stands for a truth value. -/
private def truthWord? : String → Option Bool
  | "true" | "on" | "yes" => some true
  | "false" | "off" | "no" => some false
  | _ => none

def toBool (s : Setting) : Shaped Bool :=
  match s.surface with
  | .bool b => .ok b
  | .int n => .ok (n != 0)
  | .float x => .ok (x != 0)
  | .str text =>
    match Text.lowercase text with
    | "1" => .ok true
    | "0" => .ok false
    | word =>
      match truthWord? word with
      | some b => .ok b
      | none => .error (.unfit ("string " ++ Text.quoted word) "a boolean" none s.origin)
  | _ => s.unfit "a boolean"

/-- A whole number below `2 ^ 64`. Fractions are rounded, half a unit away from zero. -/
def toUnsigned (s : Setting) : Shaped Nat :=
  match s.surface with
  | .int n => if 0 ≤ n then .ok n.toNat else s.unfit "an unsigned 64 bit or less integer"
  | .float x => .ok x.round.toUInt64.toNat
  | .bool b => .ok b.toNat
  | .str text =>
    match truthWord? (Text.lowercase text) with
    | some b => .ok b.toNat
    | none =>
      match Text.unsigned? text with
      | some n => if fitsUnsigned n then .ok n else s.unfit "an integer"
      | none => s.unfit "an integer"
  | _ => s.unfit "an integer"

def toFloat (s : Setting) : Shaped Float :=
  match s.surface with
  | .float x => .ok x
  | .int n => .ok (Float.ofInt n)
  | .bool b => .ok (if b then 1 else 0)
  | .str text =>
    match truthWord? (Text.lowercase text) with
    | some b => .ok (if b then 1 else 0)
    | none =>
      match Text.float? text with
      | some x => .ok x
      | none => s.unfit "a floating point"
  | _ => s.unfit "a floating point"

def toText (s : Setting) : Shaped String :=
  match s.surface with
  | .str text => .ok text
  | .bool b => .ok (toString b)
  | .int n => .ok (toString n)
  | .float x => .ok (floatPlain x)
  | _ => s.unfit "a string"

/-! ## Sources of records -/

/-- The error of a value that is not converted. -/
private def wrongType {α : Type} (s : Setting) (expected : String) : Shaped α :=
  match s.surface with
  | .null => .error (.wrongType "unit value" expected)
  | v => v.wrongType expected

private def strict {α : Type} (read : Json → Shaped α) (s : Setting) : Shaped α :=
  match read s.surface with
  | .error (.wrongType _ expected) => s.wrongType expected
  | result => result

private def present? (s : Setting) : Option Setting :=
  if s.surface.isNull then none else some s

private def itemsOf : Setting → Shaped (List Setting)
  | .list items _ => .ok items
  | s => s.wrongType "a sequence"

private def entriesOf : Setting → Shaped (List (String × Setting))
  | .table members _ => .ok members
  | s => s.wrongType "a map"

private def membersOf (name : String) : Setting → Shaped (Members Setting)
  | .table members _ => .ok (.named members)
  | .list items _ => .ok (.positional items)
  | s => s.wrongType ("struct " ++ name)

/-- Settings as a source of records. -/
def format : Format Setting where
  bool := toBool
  unsigned _ := toUnsigned
  float := toFloat
  text := toText
  present := present?
  items := itemsOf
  entries := entriesOf
  members := membersOf

/-- Settings that are not converted as a source of records. -/
def strictFormat : Format Setting where
  bool := strict Json.toBool
  unsigned name := strict (Json.toUnsigned name)
  float := strict Json.toFloat
  text := strict Json.toText
  present := present?
  items := itemsOf
  entries := entriesOf
  members := membersOf

end Setting

end Outbound
