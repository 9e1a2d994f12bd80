import Outbound.Config.Json5

/-!
# Object notation with records

Records stand in parentheses, perhaps behind a name, and maps in braces. A value may be optional.
-/

namespace Outbound.Ron

open Json5 (space isNameChar quoted? word?)

/-- What stands in parentheses: fields, or values in order. -/
private inductive Group where
  | fields (members : List (String × Json))
  | items (items : List Json)

private def Group.value : Group → Json
  | .fields members => .obj members
  | .items [] => .null
  | .items vs => .arr vs

private def keyText? : Json → Option String
  | .str s => some s
  | .int n => some (toString n)
  | .bool b => some (toString b)
  | .float x => some (floatPlain x)
  | _ => none

private def char? : List Char → Option (Json × List Char)
  | '\'' :: '\\' :: c :: '\'' :: rest => some (.str (String.singleton c), rest)
  | '\'' :: c :: '\'' :: rest => some (.str (String.singleton c), rest)
  | _ => none

/-- A field's name with its colon. -/
private def field? (cs : List Char) : Option (String × List Char) :=
  let name := cs.takeWhile isNameChar
  match name, space (cs.dropWhile isNameChar) with
  | _ :: _, ':' :: rest => some (String.ofList name, space rest)
  | _, _ => none

mutual

/-- A value. The fuel bounds how much of the text it takes. -/
private def value? (fuel : Nat) (cs : List Char) : Option (Json × List Char) :=
  match fuel, cs with
  | 0, _ => none
  | fuel + 1, '[' :: rest =>
    (items? fuel ']' [] (space rest)).map fun (items, rest) ↦ (.arr items, rest)
  | fuel + 1, '\x7b' :: rest =>
    (entries? fuel [] (space rest)).map fun (members, rest) ↦ (.obj members, rest)
  | fuel + 1, '(' :: rest =>
    (group? fuel (space rest)).map fun (group, rest) ↦ (group.value, rest)
  | fuel + 1, cs =>
    match (quoted? cs).map (fun (s, rest) ↦ (Json.str s, rest)) <|> char? cs <|> word? cs with
    | some r => some r
    | none =>
      let name := cs.takeWhile isNameChar
      let rest := cs.dropWhile isNameChar
      match name, space rest with
      | [], _ => none
      | _, '(' :: inside => do
        let (group, rest) ← group? fuel (space inside)
        match String.ofList name, group with
        | "Some", .items [v] => some (v, rest)
        | _, group => some (group.value, rest)
      | name, _ => if String.ofList name = "None" then some (.null, rest) else none
termination_by structural fuel

/-- What is left of parentheses. -/
private def group? (fuel : Nat) (cs : List Char) : Option (Group × List Char) :=
  match fuel with
  | 0 => none
  | fuel + 1 =>
    if (field? cs).isSome then
      (fields? fuel [] cs).map fun (members, rest) ↦ (.fields members, rest)
    else (items? fuel ')' [] cs).map fun (items, rest) ↦ (.items items, rest)
termination_by structural fuel

private def items? (fuel : Nat) (close : Char) (done : List Json) (cs : List Char) :
    Option (List Json × List Char) :=
  match fuel with
  | 0 => none
  | fuel + 1 =>
    if cs.head? == some close then some (done, cs.tail)
    else do
      let (v, rest) ← value? fuel cs
      match space rest with
      | ',' :: rest => items? fuel close (done ++ [v]) (space rest)
      | c :: rest => if c = close then some (done ++ [v], rest) else none
      | [] => none
termination_by structural fuel

private def fields? (fuel : Nat) (done : List (String × Json)) (cs : List Char) :
    Option (List (String × Json) × List Char) :=
  match fuel, cs with
  | 0, _ => none
  | _ + 1, ')' :: rest => some (done, rest)
  | fuel + 1, cs => do
    let (key, rest) ← field? cs
    let (v, rest) ← value? fuel rest
    match space rest with
    | ',' :: rest => fields? fuel (done ++ [(key, v)]) (space rest)
    | ')' :: rest => some (done ++ [(key, v)], rest)
    | _ => none
termination_by structural fuel

private def entries? (fuel : Nat) (done : List (String × Json)) (cs : List Char) :
    Option (List (String × Json) × List Char) :=
  match fuel, cs with
  | 0, _ => none
  | _ + 1, '\x7d' :: rest => some (done, rest)
  | fuel + 1, cs => do
    let (key, rest) ← value? fuel cs
    let key ← keyText? key
    match space rest with
    | ':' :: rest => do
      let (v, rest) ← value? fuel (space rest)
      match space rest with
      | ',' :: rest => entries? fuel (done ++ [(key, v)]) (space rest)
      | '\x7d' :: rest => some (done ++ [(key, v)], rest)
      | _ => none
    | _ => none
termination_by structural fuel

end

/-- The value of a text. -/
def read (text : String) : Except String Json :=
  let cs := space text.toList
  match value? (2 * cs.length + 2) cs with
  | some (v, rest) => if (space rest).isEmpty then .ok v.canonical else .error "trailing characters"
  | none => .error "expected value"

end Outbound.Ron
