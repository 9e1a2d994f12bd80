import Outbound.Width

/-!
# JSON values

Whole numbers keep their exact value and are apart from fractions. Members of an object are
pairs in the order they were written; `canonical` sorts them by key and lets the last one of a
repeated key win, which is the form the rest of the library works with.
-/

namespace Outbound

inductive Json where
  | null
  | bool (b : Bool)
  | int (n : Int)
  | float (x : Float)
  | str (s : String)
  | arr (items : List Json)
  | obj (members : List (String × Json))
deriving Inhabited

namespace Json

/-- Puts a member into a list sorted by key, replacing one of the same key. -/
def insertMember (key : String) (value : Json) : List (String × Json) → List (String × Json)
  | [] => [(key, value)]
  | (k, v) :: rest =>
    if key < k then (key, value) :: (k, v) :: rest
    else if key = k then (key, value) :: rest
    else (k, v) :: insertMember key value rest

/-- An object with its members sorted by key, the last one of a repeated key winning. -/
def ofMembers (members : List (String × Json)) : Json :=
  obj (members.foldl (fun sorted (k, v) ↦ insertMember k v sorted) [])

mutual

/-- The value with every object sorted by key and free of repeated keys. -/
def canonical : Json → Json
  | arr items => arr (canonicalItems items)
  | obj members => ofMembers (canonicalMembers members)
  | v => v

def canonicalItems : List Json → List Json
  | [] => []
  | v :: rest => canonical v :: canonicalItems rest

def canonicalMembers : List (String × Json) → List (String × Json)
  | [] => []
  | (k, v) :: rest => (k, canonical v) :: canonicalMembers rest

end

/-- The member of that key, if the value is an object that has one. -/
def get? (v : Json) (key : String) : Option Json :=
  match v with
  | obj members => members.lookup key
  | _ => none

/-- The element at that index, if the value is an array that has one. -/
def item? (v : Json) (i : Nat) : Option Json :=
  match v with
  | arr items => items[i]?
  | _ => none

def str? : Json → Option String
  | str s => some s
  | _ => none

def bool? : Json → Option Bool
  | bool b => some b
  | _ => none

def int? : Json → Option Int
  | int n => some n
  | _ => none

/-- The value as a whole number below `2 ^ 64`. -/
def unsigned? : Json → Option Nat
  | int n => if fitsUnsigned n then some n.toNat else none
  | _ => none

def arr? : Json → Option (List Json)
  | arr items => some items
  | _ => none

def obj? : Json → Option (List (String × Json))
  | obj members => some members
  | _ => none

def isNull : Json → Bool
  | null => true
  | _ => false

end Json

end Outbound
