import Outbound.Json
import Outbound.Decimal.Shortest
import Outbound.Text.Quoted

/-!
# Values of an expected shape

Reading a JSON value as a number, a text, a list or a record either succeeds or says what was
found and what was expected. A record is read from an object by the names of its fields, or from
an array by their order.
-/

namespace Outbound

/-- Why a value does not have the shape asked for. -/
inductive ShapeError where
  | wrongType (found expected : String)
  | wrongValue (found expected : String)
  | wrongLength (length : Nat) (expected : String)
  | missingField (name : String)
  /-- A value that cannot be converted, with the path to it and the place it comes from. -/
  | unfit (found expected : String) (path : Option String) (origin : Option String)
  | other (text : String)
deriving Repr, DecidableEq

def ShapeError.message : ShapeError → String
  | wrongType found expected => "invalid type: " ++ found ++ ", expected " ++ expected
  | wrongValue found expected => "invalid value: " ++ found ++ ", expected " ++ expected
  | wrongLength n expected => "invalid length " ++ toString n ++ ", expected " ++ expected
  | missingField name => "missing field \x60" ++ name ++ "\x60"
  | unfit found expected path origin =>
    "invalid type: " ++ found ++ ", expected " ++ expected ++
      path.elim "" (fun p ↦ " for key \x60" ++ p ++ "\x60") ++ origin.elim "" (" in " ++ ·)
  | other text => text

abbrev Shaped (α : Type) := Except ShapeError α

/-- The error of a part that lies under a key or, as `[0]`, at an index. -/
def ShapeError.under (segment : String) : ShapeError → ShapeError
  | unfit found expected path origin =>
    let rest := path.getD ""
    let dot := if rest.isEmpty || rest.startsWith "[" then "" else "."
    .unfit found expected (some (segment ++ dot ++ rest)) origin
  | e => e


namespace Json

/-- What a message calls a value. -/
def describe : Json → String
  | null => "null"
  | bool b => "boolean \x60" ++ toString b ++ "\x60"
  | int n => "integer \x60" ++ toString n ++ "\x60"
  | float x => "floating point \x60" ++ floatNatural x ++ "\x60"
  | str s => "string " ++ Text.quoted s
  | arr _ => "sequence"
  | obj _ => "map"

def wrongType {α : Type} (v : Json) (expected : String) : Shaped α :=
  .error (.wrongType v.describe expected)

/-- A whole number that fits a range; `name` is what a message calls the range. -/
def toRange (fits : Int → Bool) (name : String) (v : Json) : Shaped Int :=
  match v with
  | int n => if fits n then .ok n else .error (.wrongValue v.describe name)
  | _ => v.wrongType name

def toUnsigned (name : String) (v : Json) : Shaped Nat :=
  Int.toNat <$> v.toRange fitsUnsigned name

def toByte (v : Json) : Shaped UInt8 :=
  (fun n ↦ UInt8.ofNat n.toNat) <$> v.toRange (fun n ↦ 0 ≤ n && n < 256) "u8"

def toFloat (v : Json) : Shaped Float :=
  match v with
  | float x => .ok x
  | int n => .ok (Float.ofInt n)
  | _ => v.wrongType "f64"

def toText (v : Json) : Shaped String :=
  match v with
  | str s => .ok s
  | _ => v.wrongType "a string"

def toBool (v : Json) : Shaped Bool :=
  match v with
  | bool b => .ok b
  | _ => v.wrongType "a boolean"

end Json

/-- The parts of a record as its source gives them. -/
inductive Members (σ : Type) where
  | named (members : List (String × σ))
  | positional (items : List σ)

/-- One field of a record `ρ` that is read from data `σ`. -/
structure Field (σ ρ : Type) where
  name : String
  required : Bool := false
  set : ρ → σ → Shaped ρ

namespace Field

variable {σ ρ : Type}

/-- Sets the fields that members name, in the order of the members. Members without a field are
passed over. -/
def setNamed (fields : List (Field σ ρ)) : List (String × σ) → ρ → Shaped ρ
  | [], record => .ok record
  | (key, v) :: rest, record =>
    match fields.find? (·.name == key) with
    | none => setNamed fields rest record
    | some field =>
      match (field.set record v).mapError (ShapeError.under key) with
      | .error e => .error e
      | .ok record => setNamed fields rest record

/-- Sets fields one after the other. Where the items end, the remaining fields have to be
optional; `expected` describes the whole record and `done` counts the fields set. -/
def setPositional (expected : String) :
    List (Field σ ρ) → List σ → Nat → ρ → Shaped ρ
  | [], [], _, record => .ok record
  | [], items, done, _ => .error (.wrongLength (done + items.length) "fewer elements in array")
  | field :: fields, [], done, record =>
    if field.required then .error (.wrongLength done expected)
    else setPositional expected fields [] (done + 1) record
  | field :: fields, v :: items, done, record =>
    match (field.set record v).mapError (ShapeError.under ("[" ++ toString done ++ "]")) with
    | .error e => .error e
    | .ok record => setPositional expected fields items (done + 1) record

/-- Reads a record over `start`, which holds the values of absent fields. -/
def read (name : String) (fields : List (Field σ ρ)) (start : ρ) : Members σ → Shaped ρ
  | .named members =>
    match setNamed fields members start with
    | .error e => .error e
    | .ok record =>
      match fields.find? fun f ↦ f.required && !members.any fun m ↦ m.1 == f.name with
      | some field => .error (.missingField field.name)
      | none => .ok record
  | .positional items =>
    let count := toString fields.length
    let elements := if fields.length = 1 then " element" else " elements"
    setPositional ("struct " ++ name ++ " with " ++ count ++ elements) fields items 0 start

end Field

/-- A kind of data that records are read from. -/
structure Format (σ : Type) where
  bool : σ → Shaped Bool
  /-- A whole number below `2 ^ 64`, under the name that messages give its range. -/
  unsigned : String → σ → Shaped Nat
  float : σ → Shaped Float
  text : σ → Shaped String
  /-- None stands for null. -/
  present : σ → Option σ
  items : σ → Shaped (List σ)
  entries : σ → Shaped (List (String × σ))
  /-- The parts of a record of that name. -/
  members : String → σ → Shaped (Members σ)

namespace Format

variable {σ : Type} (format : Format σ)

def texts (v : σ) : Shaped (List String) := do
  (← format.items v).zipIdx.mapM fun (v, i) ↦
    (format.text v).mapError (ShapeError.under ("[" ++ toString i ++ "]"))

def textEntries (v : σ) : Shaped (List (String × String)) := do
  (← format.entries v).mapM fun (k, v) ↦ do
    return (k, ← (format.text v).mapError (ShapeError.under k))

def optionalText (v : σ) : Shaped (Option String) :=
  match format.present v with
  | none => .ok none
  | some v => some <$> format.text v

def record {ρ : Type} (name : String) (fields : List (Field σ ρ)) (start : ρ) (v : σ) :
    Shaped ρ := do
  Field.read name fields start (← format.members name v)

end Format

/-- JSON as a source of records. -/
def Json.format : Format Json where
  bool := Json.toBool
  unsigned := Json.toUnsigned
  float := Json.toFloat
  text := Json.toText
  present v := if v.isNull then none else some v
  items v :=
    match v with
    | .arr items => .ok items
    | _ => v.wrongType "a sequence"
  entries v :=
    match v with
    | .obj members => .ok members
    | _ => v.wrongType "a map"
  members name v :=
    match v with
    | .obj members => .ok (.named members)
    | .arr items => .ok (.positional items)
    | _ => v.wrongType ("struct " ++ name)

end Outbound
