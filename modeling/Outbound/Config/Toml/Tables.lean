import Outbound.Config.Setting

/-!
# Tables of TOML

A document builds its tables piece by piece, and no piece is given twice. A table is given by a
header, by keys with dots in them, or only by headers of tables inside it; a list of tables gets
another one with each of its headers.
-/

namespace Outbound.Toml

/-- How a table came to be. -/
inductive Making where
  /-- On the way to a table inside it. -/
  | passed
  | header
  | dotted
deriving DecidableEq

inductive Node where
  | value (v : Setting)
  | table (making : Making) (members : List (String × Node))
  /-- A list of tables, the last of them first. -/
  | tables (items : List (List (String × Node)))
deriving Inhabited

abbrev Nodes := List (String × Node)

/-- Why a key cannot be given. -/
inductive Clash where
  /-- It is there already; perhaps with the keys of the table that it is in. -/
  | repeated (key : String) (table : Option (List String))
  /-- The keys lead to a value of a kind that has nothing inside. -/
  | extended (keys : List String) (kind : String)

def Clash.message : Clash → String
  | repeated key none => "duplicate key \x60" ++ key ++ "\x60"
  | repeated key (some []) => "duplicate key \x60" ++ key ++ "\x60 in document root"
  | repeated key (some table) =>
    "duplicate key \x60" ++ key ++ "\x60 in table \x60" ++ ".".intercalate table ++ "\x60"
  | extended keys kind =>
    "dotted key \x60" ++ ".".intercalate keys ++ "\x60 attempted to extend non-table type (" ++
      kind ++ ")"

/-- The kind of a value, as it is called in messages. -/
def kindName : Setting → String
  | .scalar (.str _) _ => "string"
  | .scalar (.int _) _ => "integer"
  | .scalar (.float _) _ => "float"
  | .scalar _ _ => "boolean"
  | .list _ _ => "array"
  | .table _ _ => "inline table"

namespace Nodes

private def put (key : String) (node : Node) : Nodes → Nodes
  | [] => [(key, node)]
  | (k, old) :: rest => if k = key then (key, node) :: rest else (k, old) :: put key node rest

/-- Changes the members of the table that keys lead to; `making` says how missing tables on the
way come to be, and `done` are the keys that led here. -/
def within (making : Making) (change : Nodes → Except Clash Nodes) (done : List String) :
    List String → Nodes → Except Clash Nodes
  | [], members => change members
  | key :: rest, members =>
    let go (inner : Nodes) : Except Clash Nodes :=
      within making change (done ++ [key]) rest inner
    match members.lookup key with
    | none => do return put key (.table making (← go [])) members
    | some (.table found inner) =>
      if making = .dotted ∧ (found = .header ∨ (found = .passed ∧ rest = [])) then .error (.repeated key none)
      else do return put key (.table found (← go inner)) members
    | some (.tables (last :: earlier)) =>
      do return put key (.tables ((← go last) :: earlier)) members
    | some (.tables []) => .error (.repeated key none)
    | some (.value v) => .error (.extended (done ++ [key]) (kindName v))

/-- Gives a key a value; `table` are the keys of the table in use. -/
def addValue (table : Option (List String)) (key : String) (v : Setting) (members : Nodes) :
    Except Clash Nodes :=
  if (members.lookup key).isSome then .error (.repeated key table)
  else .ok (members ++ [(key, .value v)])

/-- Begins the table of a header; `table` are the keys on the way to it. -/
def openTable (table : List String) (key : String) (members : Nodes) : Except Clash Nodes :=
  match members.lookup key with
  | none => .ok (members ++ [(key, .table .header [])])
  | some (.table .passed inner) => .ok (put key (.table .header inner) members)
  | some _ => .error (.repeated key (some table))

/-- Begins the next table of a list. -/
def openItem (table : List String) (key : String) (members : Nodes) : Except Clash Nodes :=
  match members.lookup key with
  | none => .ok (members ++ [(key, .tables [[]])])
  | some (.tables items) => .ok (put key (.tables ([] :: items)) members)
  | some _ => .error (.repeated key (some table))

end Nodes

mutual

def Node.setting (origin : Option String) : Node → Setting
  | .value v => v
  | .table _ members => .table (membersSetting origin members) origin
  | .tables items => .list (itemsSetting origin items []) origin

def membersSetting (origin : Option String) : List (String × Node) → List (String × Setting)
  | [] => []
  | (key, node) :: rest => (key, node.setting origin) :: membersSetting origin rest

/-- Puts the last one first into order. -/
def itemsSetting (origin : Option String) :
    List (List (String × Node)) → List Setting → List Setting
  | [], done => done
  | members :: rest, done =>
    itemsSetting origin rest (.table (membersSetting origin members) origin :: done)

end

end Outbound.Toml
