import Outbound.Config.Toml.Scalar
import Outbound.Config.Toml.Tables

/-!
# TOML files

A document is a list of lines, each with a key and its value or with the header of a table. A
fault is reported with the line it is in and a mark below the place.
-/

namespace Outbound

namespace Toml

/-! ## Keys -/

private def isKeyChar (c : Char) : Bool :=
  c.isAlphanum || c == '-' || c == '_'

private def simpleKey (cs : List Char) : Reading String :=
  match lineString? cs with
  | some r => r
  | none =>
    let key := cs.takeWhile isKeyChar
    if key.isEmpty then fail cs "invalid key"
    else .ok (String.ofList key, cs.dropWhile isKeyChar)

/-- Keys with dots between them. The fuel bounds their number. -/
private def dottedKey : Nat → List Char → Except Fault (List String × List Char)
  | 0, cs => fail cs "invalid key"
  | fuel + 1, cs => do
    let (key, rest) ← simpleKey (cs.dropWhile isBlank)
    match rest.dropWhile isBlank with
    | '.' :: rest => do
      let (keys, rest) ← dottedKey fuel rest
      return (key :: keys, rest)
    | rest => return ([key], rest)

private def keyOf (cs : List Char) : Reading (List String) :=
  dottedKey (cs.length + 1) cs

/-! ## Values -/

/-- Passes over blanks, ends of lines and comments. -/
private def skipSpace : Nat → List Char → List Char
  | 0, cs => cs
  | fuel + 1, cs =>
    match cs.dropWhile fun c ↦ isBlank c || c == '\n' || c == '\r' with
    | '#' :: rest => skipSpace fuel (rest.dropWhile (· != '\n'))
    | cs => cs

private def space (cs : List Char) : List Char :=
  skipSpace (cs.length + 1) cs

/-- A clash is reported at the place where the line or the list of entries begins. -/
private def clash {α : Type} (start : List Char) (what : String) (c : Clash) : Reading α :=
  fail start (what ++ c.message)

/-- Gives a value to a key that may have dots. -/
private def assign (table : Option (List String)) (keys : List String) (v : Setting) :
    Nodes → Except Clash Nodes :=
  Nodes.within .dotted (Nodes.addValue table (keys.getLastD "") v) [] keys.dropLast

mutual

/-- A value. The fuel bounds how much of the text it takes. -/
private def value (origin : Option String) (fuel : Nat) (cs : List Char) : Reading Setting :=
  match fuel, cs with
  | 0, cs => fail cs "invalid value"
  | fuel + 1, '[' :: rest => (items origin fuel [] (space rest)).map fun (items, rest) ↦
    (.list items origin, rest)
  | fuel + 1, '\x7b' :: rest =>
    match rest.dropWhile isBlank with
    | '\x7d' :: rest => .ok (.table [] origin, rest)
    | rest => (entries origin fuel rest [] rest).map fun (members, rest) ↦
      (.table (membersSetting origin members) origin, rest)
  | _ + 1, cs => (scalar cs).map fun (v, rest) ↦ (.scalar v origin, rest)
termination_by structural fuel

/-- The rest of a list. -/
private def items (origin : Option String) (fuel : Nat) (done : List Setting) (cs : List Char) :
    Reading (List Setting) :=
  match fuel, cs with
  | 0, cs => fail cs "invalid array"
  | _ + 1, ']' :: rest => .ok (done, rest)
  | _ + 1, [] => expected "array" ["]"] []
  | fuel + 1, cs =>
    match value origin fuel cs with
    | .error e => .error e
    | .ok (v, rest) =>
      match space rest with
      | ',' :: rest => items origin fuel (done ++ [v]) (space rest)
      | ']' :: rest => .ok (done ++ [v], rest)
      | rest => expected "array" ["]"] rest
termination_by structural fuel

/-- The rest of a table that is written on one line; `start` is where its first entry stands. -/
private def entries (origin : Option String) (fuel : Nat) (start : List Char) (done : Nodes)
    (cs : List Char) : Reading Nodes :=
  match fuel with
  | 0 => fail cs "invalid inline table"
  | fuel + 1 =>
    match keyOf cs with
    | .error e => .error e
    | .ok (keys, '=' :: rest) =>
      match value origin fuel (rest.dropWhile isBlank) with
      | .error e => .error e
      | .ok (v, rest) =>
        match assign none keys v done with
        | .error c => clash start "" c
        | .ok done =>
          match rest.dropWhile isBlank with
          | ',' :: rest => entries origin fuel start done (rest.dropWhile isBlank)
          | '\x7d' :: rest => .ok (done, rest)
          | rest => expected "inline table" ["\x7d"] rest
    | .ok (_, rest) => expected "inline table" [".", "="] rest
termination_by structural fuel

end

/-! ## Documents -/

/-- What has been read: the tables, and the way to the one that lines add to. -/
private structure Document where
  root : Nodes := []
  current : List String := []

/-- A place behind what stood on a line. Only a comment may follow. -/
private def lineEnd (cs : List Char) : Except Fault (List Char) :=
  match cs.dropWhile isBlank with
  | [] => .ok []
  | '\n' :: rest => .ok rest
  | '\r' :: '\n' :: rest => .ok rest
  | '#' :: rest =>
    match rest.dropWhile fun c ↦ isPlain c with
    | [] => .ok []
    | '\n' :: rest => .ok rest
    | '\r' :: '\n' :: rest => .ok rest
    | rest => .error { rest, text := "invalid comment" }
  | rest => .error { rest, text := "expected newline, \x60#\x60" }

/-- What a report says first of a fault in a header. -/
private def inHeader : String :=
  "invalid table header\n"

private def header (isItem : Bool) (start cs : List Char) (d : Document) :
    Except Fault (Document × List Char) := do
  let (keys, rest) ← keyOf cs
  let after :=
    match isItem, rest with
    | true, ']' :: ']' :: rest => some rest
    | false, ']' :: rest => some rest
    | _, _ => none
  match after with
  | none =>
    let close := if isItem then "]]" else "]"
    (expected "table header" [".", close] rest : Reading Unit).bind fun _ ↦ .ok (d, rest)
  | some rest =>
    let change :=
      (if isItem then Nodes.openItem else Nodes.openTable) keys.dropLast (keys.getLastD "")
    match d.root.within .passed change [] keys.dropLast with
    | .error c => clash start inHeader c
    | .ok root => return ({ root, current := keys }, rest)

/-- A line of the table in use. The tables of headers on the way are there already. -/
private def line (origin : Option String) (cs : List Char) (d : Document) :
    Except Fault (Document × List Char) := do
  let (keys, rest) ← keyOf cs
  match rest with
  | '=' :: rest =>
    let (v, rest) ← value origin (rest.length + 1) (rest.dropWhile isBlank)
    match d.root.within .passed (assign (some d.current) keys v) [] d.current with
    | .error c => clash cs "" c
    | .ok root => return ({ d with root }, rest)
  | rest => (expected "" [".", "="] rest : Reading Unit).bind fun _ ↦ .ok (d, rest)

private def lines (origin : Option String) : Nat → List Char → Document → Except Fault Document
  | 0, _, d => .ok d
  | fuel + 1, cs, d =>
    match cs.dropWhile isBlank with
    | [] => .ok d
    | '[' :: rest =>
      let read :=
        match rest with
        | '[' :: inner => header true ('[' :: rest) inner d
        | rest => header false ('[' :: rest) rest d
      match read with
      | .error e => .error e
      | .ok (d, rest) =>
        match lineEnd rest with
        | .error e => .error { e with text := inHeader ++ e.text }
        | .ok rest => lines origin fuel rest d
    | c :: rest =>
      if c == '#' || c == '\n' || c == '\r' then
        match lineEnd (c :: rest) with
        | .error e => .error e
        | .ok rest => lines origin fuel rest d
      else
        match line origin (c :: rest) d with
        | .error e => .error e
        | .ok (d, rest) =>
          match lineEnd rest with
          | .error e => .error e
          | .ok rest => lines origin fuel rest d

/-- The report of a fault in a text. -/
def Fault.report (text : String) (f : Fault) : String :=
  let cs := text.toList
  let before := cs.take (cs.length - f.rest.length)
  let after := cs.drop before.length
  -- behind the last character, the place is counted from that character
  let (before, after, extra) :=
    match after, before.getLast? with
    | [], some c => (before.dropLast, [c], 1)
    | _, _ => (before, after, 0)
  let number := toString (before.count '\n' + 1)
  let lead := (before.reverse.takeWhile (· != '\n')).reverse
  let column := lead.length + extra
  let content := lead ++ after.takeWhile (· != '\n')
  let gutter := String.ofList (List.replicate (number.length + 1) ' ') ++ "|"
  "TOML parse error at line " ++ number ++ ", column " ++ toString (column + 1) ++ "\n" ++
    gutter ++ "\n" ++
    number ++ " | " ++ String.ofList content ++ "\n" ++
    gutter ++ String.ofList (List.replicate (column + 1) ' ') ++ "^\n" ++ f.text ++ "\n"

/-- The settings of a document. -/
def read (origin : Option String) (text : String) : Except String (List (String × Setting)) :=
  match lines origin (text.length + 1) text.toList {} with
  | .ok d => .ok (membersSetting origin d.root)
  | .error f => .error (f.report text)

end Toml

end Outbound
