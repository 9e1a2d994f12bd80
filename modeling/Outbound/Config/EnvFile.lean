import Outbound.Config.Environment

/-!
# Files of variables

Each line of such a file sets a variable, as in `NAME=value`. A value may be quoted, may refer to
other variables, and may go on over further lines while a quote is open. Lines are carried out
one after the other, and a line that cannot be read ends the file; a variable that is set already
keeps its value.
-/

namespace Outbound

namespace EnvFile

/-! ## Lines -/

/-- What is open at a place in a line. -/
private inductive Mark where
  | none
  | blank
  | escape
  | double
  | doubleEscape
  | single
  | singleEscape
deriving DecidableEq

private def Mark.outside (c : Char) : Mark :=
  if c == '\\' then .escape
  else if c == '"' then .double
  else if c == '\'' then .single
  else .none

private def isBlankChar (c : Char) : Bool :=
  c.isWhitespace && c != '\n' && c != '\r'

/-- Goes over a line. A comment ends it early; its text is left out then. -/
private def scanLine (mark : Mark) : List Char → List Char × Option Mark
  | [] => ([], some mark)
  | c :: rest =>
    if mark = .blank && c == '#' then ([], none)
    else
      let next : Mark :=
        match mark with
        | .none => if isBlankChar c then .blank else .outside c
        | .blank => .outside c
        | .escape => .none
        | .double => if c == '\\' then .doubleEscape else if c == '"' then .none else .double
        | .doubleEscape => .double
        | .single => if c == '\\' then .singleEscape else if c == '\'' then .none else .single
        | .singleEscape => .single
      let (text, last) := scanLine next rest
      (c :: text, last)

/-- The lines of a text with the characters that end them. -/
private def physicalLines : List Char → List (List Char)
  | [] => []
  | '\n' :: rest => ['\n'] :: physicalLines rest
  | c :: rest =>
    match physicalLines rest with
    | line :: lines => (c :: line) :: lines
    | [] => [[c]]

private def withoutEnd (line : List Char) : List Char :=
  match line.reverse with
  | '\n' :: '\r' :: cs => cs.reverse
  | '\n' :: cs => cs.reverse
  | _ => line

/-- Joins lines while something is open. None stands for an end that comes too early. -/
private def joinLines : List Char → Mark → List (List Char) → List (Option (List Char))
  | _, mark, [] => if mark = .none then [] else [none]
  | before, mark, line :: lines =>
    if (before ++ line).dropWhile Char.isWhitespace |>.head? |> (· == some '#') then
      some [] :: joinLines [] .none lines
    else
      match scanLine mark line with
      | (text, none) => some (before ++ text) :: joinLines [] .none lines
      | (_, some .none) => some (withoutEnd (before ++ line)) :: joinLines [] .none lines
      | (_, some open') => joinLines (before ++ line) open' lines

/-! ## Values -/

/-- Where references to variables are looked up. -/
structure Names where
  env : Environment
  /-- The variables that earlier lines of the file gave a value. -/
  given : List (String × String) := []

private def Names.value (names : Names) (name : List Char) : List Char :=
  let name := String.ofList name
  (((names.env.get? name).orElse fun _ ↦ names.given.lookup name).getD "").toList

/-- What is open at a place in a value. -/
private structure Reader where
  single : Bool := false
  double : Bool := false
  escaped : Bool := false
  /-- Only a comment may follow. -/
  ended : Bool := false
  /-- The name of a variable so far, and whether it stands in braces. -/
  reference : Option (List Char × Bool) := none
  /-- The value so far, last character first. -/
  output : List Char := []

namespace Reader

private def push (r : Reader) (c : Char) : Reader :=
  { r with output := c :: r.output }

private def resolve (names : Names) (name : List Char) (r : Reader) : Reader :=
  { r with output := (names.value name).reverse ++ r.output, reference := none }

/-- The next character outside of references; none if it cannot stand there. -/
private def plain (r : Reader) (c : Char) : Option Reader :=
  if r.ended then if c == ' ' || c == '\t' then some r else none
  else if r.escaped then
    if "\\'\"$ ".toList.contains c then some { r.push c with escaped := false }
    else if c == 'n' then some { r.push '\n' with escaped := false }
    else none
  else if r.single then
    some (if c == '\'' then { r with single := false } else r.push c)
  else if c == '$' then some { r with reference := some ([], false) }
  else if r.double then
    some (if c == '"' then { r with double := false }
      else if c == '\\' then { r with escaped := true }
      else r.push c)
  else if c == '\'' then some { r with single := true }
  else if c == '"' then some { r with double := true }
  else if c == '\\' then some { r with escaped := true }
  else if c == ' ' || c == '\t' then some { r with ended := true }
  else some (r.push c)

/-- The next character after a dollar sign. -/
private def refer (names : Names) (name : List Char) (braced : Bool) (r : Reader) (c : Char) :
    Reader :=
  if c.isAlphanum then { r with reference := some (name ++ [c], braced) }
  else if braced then
    if c == '\x7d' then resolve names name r
    else { r with reference := some (name ++ [c], true) }
  else if c == '\x7b' && name.isEmpty then { r with reference := some ([], true) }
  else
    let r := resolve names name r
    if c == '$' then { r with reference := some ([], false) } else r.push c

private def run (names : Names) : List Char → Reader → Option Reader
  | [], r => some r
  | c :: rest, r =>
    if r.ended && c == '#' then some r
    else
      match r.reference with
      | some (name, braced) => run names rest (refer names name braced r c)
      | none => (plain r c).bind (run names rest)

end Reader

/-- The value that a text writes. -/
def value? (names : Names) (cs : List Char) : Option String := do
  let r ← Reader.run names cs {}
  if r.single || r.double then none
  else
    match r.reference with
    | some (_, true) => none
    | some (name, false) => some (String.ofList (r.resolve names name).output.reverse)
    | none => some (String.ofList r.output.reverse)

/-! ## Assignments -/

private def trim (cs : List Char) : List Char :=
  cs.dropWhile Char.isWhitespace

private def isNameChar (c : Char) : Bool :=
  c.isAlphanum || c == '_' || c == '.'

/-- The name at the beginning of a text. -/
private def name? (cs : List Char) : Option (String × List Char) :=
  match cs with
  | c :: _ =>
    if c.isAlpha || c == '_' then
      some (String.ofList (cs.takeWhile isNameChar), trim (cs.dropWhile isNameChar))
    else none
  | [] => none

private def afterEqual? : List Char → Option (List Char)
  | '=' :: rest => some (trim rest)
  | _ => none

/-- A name and what follows its equals sign. The word `export` may stand before it. -/
private def assignment? (cs : List Char) : Option (String × List Char) := do
  let (name, rest) ← name? cs
  match afterEqual? rest with
  | some text => some (name, text)
  | none =>
    if name != "export" then none
    else
      let (name, rest) ← name? rest
      return (name, ← afterEqual? rest)

/-- Carries out a line; none if it cannot be read. -/
def runLine (line : List Char) (names : Names) : Option Names := do
  let cs := trim line
  if cs.isEmpty || cs.head? == some '#' then return names
  let (name, text) ← assignment? cs
  if text.isEmpty || text.head? == some '#' then
    return { names with
      env := names.env.define name ""
      given := names.given.filter (·.1 != name) }
  else
    let value ← value? names text
    return { env := names.env.define name value
             given := (name, value) :: names.given.filter (·.1 != name) }

/-- Carries out lines up to the first that cannot be read. -/
private def runLines : List (Option (List Char)) → Names → Names
  | [], names => names
  | none :: _, names => names
  | some line :: rest, names =>
    match runLine line names with
    | some names => runLines rest names
    | none => names

/-- The variables that are set after a file. -/
def run (text : String) (env : Environment) : Environment :=
  (runLines (joinLines [] .none (physicalLines text.toList)) { env }).env

end EnvFile

end Outbound
