import Outbound.Json.Printer
import Outbound.Json.Shape

/-!
# Values with their places

A value that is read from a line of text knows how many bytes of the line lie before it and up to
its end. A value of the wrong shape is reported with the column where reading stopped: behind a
scalar, but before an array or an object, which is not entered.
-/

namespace Outbound

inductive Located where
  | scalar (v : Json) (column : Nat)
  | list (column : Nat) (items : List Located)
  | record (column : Nat) (members : List (String × Located))

namespace Located

mutual

/-- Locates a value that starts behind so many bytes; the bytes up to its end come with it. -/
def ofJson (start : Nat) : Json → Located × Nat
  | .arr items =>
    let (located, stop) := ofItems (start + 1) items
    (.list start located, stop)
  | .obj members =>
    let (located, stop) := ofMembers (start + 1) members
    (.record start located, stop)
  | v =>
    let stop := start + v.print.utf8ByteSize
    (.scalar v stop, stop)

/-- Each element is followed by one byte. An empty list is followed by one byte, too. -/
def ofItems (start : Nat) : List Json → List Located × Nat
  | [] => ([], start + 1)
  | [v] =>
    let (located, stop) := ofJson start v
    ([located], stop + 1)
  | v :: rest =>
    let (located, stop) := ofJson start v
    let (others, stop) := ofItems (stop + 1) rest
    (located :: others, stop)

def ofMembers (start : Nat) : List (String × Json) → List (String × Located) × Nat
  | [] => ([], start + 1)
  | [(key, v)] =>
    let (located, stop) := ofJson (start + (Json.str key).print.utf8ByteSize + 1) v
    ([(key, located)], stop + 1)
  | (key, v) :: rest =>
    let (located, stop) := ofJson (start + (Json.str key).print.utf8ByteSize + 1) v
    let (others, stop) := ofMembers (stop + 1) rest
    ((key, located) :: others, stop)

end

/-- The places in a value that is a whole line. -/
def ofLine (v : Json) : Located :=
  (ofJson 0 v).1

def column : Located → Nat
  | scalar _ column => column
  | list column _ => column
  | record column _ => column

/-- The value itself as far as a message tells it. -/
private def value : Located → Json
  | scalar v _ => v
  | list _ _ => .arr []
  | record _ _ => .obj []

/-- Adds the place of a value to the error of reading it. -/
def locate {α : Type} (v : Located) : Shaped α → Shaped α
  | .ok a => .ok a
  | .error e =>
    .error (.other (e.message ++ " at line 1 column " ++ toString v.column))

private def reading {α : Type} (read : Json → Shaped α) (v : Located) : Shaped α :=
  v.locate (read v.value)

/-- A line of JSON as a source of records. -/
def format : Format Located where
  bool := reading Json.toBool
  unsigned name := reading (Json.toUnsigned name)
  float := reading Json.toFloat
  text := reading Json.toText
  present v := if v.value.isNull then none else some v
  items v :=
    match v with
    | .list _ items => .ok items
    | _ => v.locate (v.value.wrongType "a sequence")
  entries v :=
    match v with
    | .record _ members => .ok members
    | _ => v.locate (v.value.wrongType "a map")
  members name v :=
    match v with
    | .record _ members => .ok (.named members)
    | .list _ items => .ok (.positional items)
    | .scalar found _ => v.locate (found.wrongType ("struct " ++ name))

end Located

end Outbound
