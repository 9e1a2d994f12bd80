import Outbound.Config.Setting

/-!
# Key paths

A key of the outermost table may lead to a place further inside: `log.level` is the key `level`
of the table `log`, and `addrs[1]` the second item of a list. What is missing on the way is made.
Keys are in small letters, and a table is joined with one that is already there.
-/

namespace Outbound

/-- A step from a place in a configuration to one inside it. -/
inductive KeyStep where
  | child (key : String)
  /-- A negative index counts from the end. -/
  | index (i : Int)
deriving Repr, DecidableEq

/-- A key, and steps from what it stands for. -/
structure KeyPath where
  key : String
  steps : List KeyStep := []
deriving Repr, DecidableEq

namespace KeyPath

private def isKeyChar (c : Char) : Bool :=
  c.isAlphanum || c == ' ' || c == '_' || c == '-'

private def index? (cs : List Char) : Option Int :=
  match cs.dropWhile Char.isWhitespace with
  | '-' :: digits => (Text.digits? digits).map fun n ↦ -(n : Int)
  | digits => (Text.digits? digits).map Int.ofNat

/-- The steps that a text consists of, if it is well-formed. The fuel bounds their number. -/
private def stepsOf : Nat → List Char → Option (List KeyStep)
  | _, [] => some []
  | 0, _ => none
  | fuel + 1, '.' :: rest =>
    let key := rest.takeWhile isKeyChar
    if key.isEmpty then none
    else
      (stepsOf fuel (rest.dropWhile isKeyChar)).map fun steps ↦
        .child (String.ofList key) :: steps
  | fuel + 1, '[' :: rest =>
    match rest.dropWhile (· != ']') with
    | [] => none
    | _ :: later => do
      let i ← index? (rest.takeWhile (· != ']'))
      return .index i :: (← stepsOf fuel later)
  | _ + 1, _ :: _ => none

/-- The path that a text writes. A text that is no path is a key as it stands. -/
def ofText (s : String) : KeyPath :=
  let cs := s.toList
  let key := cs.takeWhile isKeyChar
  if key.isEmpty then ⟨s, []⟩
  else
    match stepsOf cs.length (cs.dropWhile isKeyChar) with
    | some steps => ⟨String.ofList key, steps⟩
    | none => ⟨s, []⟩

end KeyPath

namespace Setting

private def membersOrNone : Setting → List (String × Setting)
  | table members _ => members
  | _ => []

private def itemsOrNone : Setting → List Setting
  | list items _ => items
  | _ => []

/-- A value without a place it comes from. -/
private def missing : Setting :=
  scalar .null none

private def putMember (key : String) (v : Setting) :
    List (String × Setting) → List (String × Setting)
  | [] => [(key, v)]
  | (k, old) :: rest => if k = key then (key, v) :: rest else (k, old) :: putMember key v rest

/-- Changes the member of a key. The place becomes a table if it is none. -/
private def atKey (key : String) (change : Setting → Setting) (place : Setting) : Setting :=
  let members := place.membersOrNone
  table (putMember key (change ((members.lookup key).getD missing)) members) none

/-- Changes an item, with as many items made as this needs. -/
private def atIndex (i : Int) (change : Setting → Setting) (place : Setting) : Setting :=
  let items := place.itemsOrNone
  let n := if 0 ≤ i then i.toNat else items.length - i.natAbs
  let items := items ++ List.replicate (n + 1 - items.length) missing
  list (items.modify n change) none

mutual

/-- Puts a value in the place of another. A table is joined with what is there. -/
def overlay (place : Setting) : Setting → Setting
  | table members _ =>
    if members.isEmpty then
      match place with
      | scalar .null none => empty
      | place => place
    else overlayMembers place members
  | v => v

/-- Puts members into a table, which is made if there is none. -/
def overlayMembers (place : Setting) : List (String × Setting) → Setting
  | [] => place
  | (key, v) :: rest =>
    overlayMembers (atKey (Text.lowercase key) (fun old ↦ overlay old v) place) rest

end

/-- Goes down a path and puts a value at its end. -/
private def putAt (v : Setting) : KeyPath → Setting → Setting
  | ⟨key, steps⟩, root => go key steps root
where
  go (key : String) : List KeyStep → Setting → Setting
    | [], place => overlayMembers place [(key, v)]
    | .child next :: rest, place => atKey key (go next rest) place
    | .index i :: rest, place => atKey key (within i rest) place
  within (i : Int) : List KeyStep → Setting → Setting
    | [], place => atIndex i (fun _ ↦ v) place
    | .child next :: rest, place => atIndex i (go next rest) place
    | .index j :: rest, place => atIndex i (within j rest) place

/-- Puts a value where a key of the outermost table leads. -/
def put (root : Setting) (key : String) (v : Setting) : Setting :=
  putAt v (.ofText key) root

/-- Puts the values of a source over what is there. -/
def putAll (root : Setting) (source : List (String × Setting)) : Setting :=
  source.foldl (fun root (key, v) ↦ root.put key v) root

end Setting

end Outbound
