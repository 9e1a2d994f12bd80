import Outbound.Config.Setting
import Outbound.Json.Parser

/-!
# JSON files

Besides strict JSON there is a relaxed kind with comments, names without quotes, strings in single
quotes, trailing commas and more ways to write a number.
-/

namespace Outbound

mutual

/-- The settings in a value. A whole number that is too large becomes a fraction. -/
def Setting.ofJson (origin : Option String) : Json → Setting
  | .arr items => .list (Setting.ofJsonItems origin items) origin
  | .obj members => .table (Setting.ofJsonMembers origin members) origin
  | .int n =>
    if fitsSigned n then .scalar (.int n) origin
    else .scalar (.float (Float.ofInt n)) origin
  | v => .scalar v origin

def Setting.ofJsonItems (origin : Option String) : List Json → List Setting
  | [] => []
  | v :: rest => Setting.ofJson origin v :: Setting.ofJsonItems origin rest

def Setting.ofJsonMembers (origin : Option String) :
    List (String × Json) → List (String × Setting)
  | [] => []
  | (key, v) :: rest => (key, Setting.ofJson origin v) :: Setting.ofJsonMembers origin rest

end

namespace Json5

private def isSpace (c : Char) : Bool :=
  c.isWhitespace || c == '\x0b' || c == '\x0c' || c == '\u00a0' || c == '\ufeff'

private def skipBlockComment : List Char → List Char
  | '*' :: '/' :: rest => rest
  | _ :: rest => skipBlockComment rest
  | [] => []

/-- Passes over blanks and comments. -/
private def skipSpace : Nat → List Char → List Char
  | 0, cs => cs
  | fuel + 1, cs =>
    match cs.dropWhile isSpace with
    | '/' :: '/' :: rest => skipSpace fuel (rest.dropWhile (· != '\n'))
    | '/' :: '*' :: rest => skipSpace fuel (skipBlockComment rest)
    | cs => cs

/-- What follows blanks and comments. -/
def space (cs : List Char) : List Char :=
  skipSpace (cs.length + 1) cs

/-- Characters of a name without quotes. -/
def isNameChar (c : Char) : Bool :=
  c.isAlphanum || c == '_' || c == '$' || 0x80 ≤ c.toNat

private def codeOf? (count : Nat) (cs : List Char) : Option (Char × List Char) := do
  let values ← (cs.take count).mapM hexValue?
  let n := values.foldl (fun n d ↦ 16 * n + d) 0
  if values.length = count ∧ n.isValidChar then some (Char.ofNat n, cs.drop count) else none
where
  hexValue? (c : Char) : Option Nat := Json.hexValue? c

private def escapeOf : Char → Char
  | 'b' => '\x08'
  | 'f' => '\x0c'
  | 'n' => '\n'
  | 'r' => '\r'
  | 't' => '\t'
  | 'v' => '\x0b'
  | '0' => '\x00'
  | c => c

/-- A string behind its first quote. -/
private def string? (quote : Char) : Nat → List Char → Option (List Char × List Char)
  | 0, _ => none
  | _ + 1, [] => none
  | fuel + 1, '\\' :: c :: rest =>
    match c with
    | '\n' => string? quote fuel rest
    | 'u' => do
      let (c, rest) ← codeOf? 4 rest
      let (text, rest) ← string? quote fuel rest
      return (c :: text, rest)
    | 'x' => do
      let (c, rest) ← codeOf? 2 rest
      let (text, rest) ← string? quote fuel rest
      return (c :: text, rest)
    | c => (string? quote fuel rest).map fun (text, rest) ↦ (escapeOf c :: text, rest)
  | fuel + 1, c :: rest =>
    if c = quote then some ([], rest)
    else if c == '\n' then none
    else (string? quote fuel rest).map fun (text, rest) ↦ (c :: text, rest)

/-- A string in quotes. -/
def quoted? (cs : List Char) : Option (String × List Char) :=
  match cs with
  | c :: rest =>
    if c == '"' || c == '\'' then
      (string? c (rest.length + 1) rest).map fun (text, rest) ↦ (String.ofList text, rest)
    else none
  | [] => none

private def based? (base : Nat) (cs : List Char) : Option Nat := do
  let values ← cs.mapM Json.hexValue?
  if values.isEmpty then none else some (values.foldl (fun n d ↦ base * n + d) 0)

private def number? (word : List Char) : Option Json :=
  let (negative, digits) :=
    match word with
    | '-' :: digits => (true, digits)
    | '+' :: digits => (false, digits)
    | digits => (false, digits)
  let whole : Option Nat :=
    match digits with
    | '0' :: 'x' :: digits => based? 16 digits
    | '0' :: 'X' :: digits => based? 16 digits
    | digits => Text.digits? digits
  match whole with
  | some n => some (.int (if negative then -n else n))
  | none =>
    match String.ofList digits with
    | "Infinity" => some (.float (if negative then -1 / 0 else 1 / 0))
    | "NaN" => some (.float (0 / 0))
    | text =>
      if digits.head?.any fun c ↦ c.isDigit || c == '.' then
        (Text.float? text).map fun x ↦ .float (if negative then -x else x)
      else none

/-- A number, a truth value or null. -/
def word? (cs : List Char) : Option (Json × List Char) :=
  let isWordChar (c : Char) : Bool := isNameChar c || c == '+' || c == '-' || c == '.'
  let word := cs.takeWhile isWordChar
  let rest := cs.dropWhile isWordChar
  match String.ofList word with
  | "null" => some (.null, rest)
  | "true" => some (.bool true, rest)
  | "false" => some (.bool false, rest)
  | _ => (number? word).map fun v ↦ (v, rest)

private def name? (cs : List Char) : Option (String × List Char) :=
  (quoted? cs).orElse fun _ ↦
    let name := cs.takeWhile isNameChar
    if name.isEmpty || name.head?.any Char.isDigit then none
    else some (String.ofList name, cs.dropWhile isNameChar)

mutual

/-- A value. The fuel bounds how much of the text it takes. -/
private def value? (fuel : Nat) (cs : List Char) : Option (Json × List Char) :=
  match fuel, cs with
  | 0, _ => none
  | fuel + 1, '[' :: rest => (items? fuel [] (space rest)).map fun (items, rest) ↦ (.arr items, rest)
  | fuel + 1, '\x7b' :: rest =>
    (members? fuel [] (space rest)).map fun (members, rest) ↦ (.obj members, rest)
  | _ + 1, cs =>
    match quoted? cs with
    | some (s, rest) => some (.str s, rest)
    | none => word? cs
termination_by structural fuel

private def items? (fuel : Nat) (done : List Json) (cs : List Char) :
    Option (List Json × List Char) :=
  match fuel, cs with
  | 0, _ => none
  | _ + 1, ']' :: rest => some (done, rest)
  | fuel + 1, cs => do
    let (v, rest) ← value? fuel cs
    match space rest with
    | ',' :: rest => items? fuel (done ++ [v]) (space rest)
    | ']' :: rest => some (done ++ [v], rest)
    | _ => none
termination_by structural fuel

private def members? (fuel : Nat) (done : List (String × Json)) (cs : List Char) :
    Option (List (String × Json) × List Char) :=
  match fuel, cs with
  | 0, _ => none
  | _ + 1, '\x7d' :: rest => some (done, rest)
  | fuel + 1, cs => do
    let (key, rest) ← name? cs
    match space rest with
    | ':' :: rest => do
      let (v, rest) ← value? fuel (space rest)
      match space rest with
      | ',' :: rest => members? fuel (done ++ [(key, v)]) (space rest)
      | '\x7d' :: rest => some (done ++ [(key, v)], rest)
      | _ => none
    | _ => none
termination_by structural fuel

end

/-- The value of a text of the relaxed kind. -/
def read (text : String) : Except String Json :=
  let cs := space text.toList
  match value? (cs.length + 1) cs with
  | some (v, rest) => if (space rest).isEmpty then .ok v.canonical else .error "expected EOI"
  | none => .error "expected value"

end Json5

end Outbound
