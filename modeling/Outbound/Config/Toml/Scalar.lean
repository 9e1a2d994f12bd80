import Outbound.Config.Setting
import Outbound.Text.Hex

/-!
# Scalars of TOML

Strings in four kinds of quotes, whole numbers in four bases, fractions, dates and truth values.
Everything is read from the front of a text, and the rest of the text comes with it.
-/

namespace Outbound.Toml

/-- Why a text is no TOML: what was left of it at that place, and what is wrong there. -/
structure Fault where
  rest : List Char
  text : String

abbrev Reading (α : Type) := Except Fault (α × List Char)

def fail {α : Type} (rest : List Char) (text : String) : Reading α :=
  .error { rest, text }

/-- A fault that speaks of characters that could stand there. -/
def expected {α : Type} (what : String) (cs : List String) (rest : List Char) : Reading α :=
  let quoted := cs.map fun c ↦ "\x60" ++ c ++ "\x60"
  let lead := if what.isEmpty then "" else "invalid " ++ what ++ "\n"
  fail rest (lead ++ "expected " ++ ", ".intercalate quoted)

def isBlank (c : Char) : Bool :=
  c == ' ' || c == '\t'

/-- Characters that may stand in strings and comments. -/
def isPlain (c : Char) : Bool :=
  c == '\t' || (' ' ≤ c && c != '\x7f')

/-! ## Strings -/

private def codeOf? (count : Nat) (cs : List Char) : Option (Char × List Char) := do
  let digits ← (cs.take count).mapM Hex.value?
  let n := digits.foldl (fun n d ↦ 16 * n + d) 0
  if digits.length = count ∧ n.isValidChar then some (Char.ofNat n, cs.drop count) else none

/-- The character that an escape writes. -/
private def escape? : List Char → Option (Char × List Char)
  | 'b' :: rest => some ('\x08', rest)
  | 't' :: rest => some ('\t', rest)
  | 'n' :: rest => some ('\n', rest)
  | 'f' :: rest => some ('\x0c', rest)
  | 'r' :: rest => some ('\r', rest)
  | '"' :: rest => some ('"', rest)
  | '\\' :: rest => some ('\\', rest)
  | 'u' :: rest => codeOf? 4 rest
  | 'U' :: rest => codeOf? 8 rest
  | _ => none

private def escapeFault (what : String) (rest : List Char) : Fault where
  rest := rest
  text := "invalid escape sequence\nexpected \x60b\x60, \x60f\x60, \x60n\x60, \x60r\x60, \x60t\x60, \x60u\x60, \x60U\x60, \x60\\\x60, \x60\"\x60" ++ what

private def cons (c : Char) (r : Reading (List Char)) : Reading (List Char) :=
  r.map fun (cs, rest) ↦ (c :: cs, rest)

/-- A string in double quotes, behind the first of them. -/
private def basic : Nat → List Char → Reading (List Char)
  | 0, cs => fail cs "invalid basic string"
  | _ + 1, '"' :: rest => .ok ([], rest)
  | fuel + 1, '\\' :: rest =>
    match escape? rest with
    | some (c, rest) => cons c (basic fuel rest)
    | none => .error (escapeFault "" rest)
  | fuel + 1, c :: rest =>
    if isPlain c then cons c (basic fuel rest) else fail (c :: rest) "invalid basic string"
  | _ + 1, [] => fail [] "invalid basic string"

/-- A string in single quotes, behind the first of them. -/
private def literal : List Char → Reading (List Char)
  | '\'' :: rest => .ok ([], rest)
  | c :: rest => if isPlain c then cons c (literal rest) else fail (c :: rest) "invalid literal string"
  | [] => fail [] "invalid literal string"

private def dropLineEnd : List Char → List Char
  | '\n' :: rest => rest
  | '\r' :: '\n' :: rest => rest
  | cs => cs

private def isLineChar (c : Char) : Bool :=
  isBlank c || c == '\n' || c == '\r'

/-- Quotes that stand before the three that end a string belong to the string. -/
private def closing (q : Char) (cs : List Char) : Option (List Char × List Char) :=
  let quotes := cs.takeWhile (· == q)
  if quotes.length < 3 then none
  else
    let inside := min (quotes.length - 3) 2
    some (List.replicate inside q, cs.drop (inside + 3))

/-- A string over several lines in double quotes, behind the first three. -/
private def basicLines : Nat → List Char → Reading (List Char)
  | 0, cs => fail cs "invalid multiline basic string"
  | _ + 1, [] => fail [] "invalid multiline basic string"
  | fuel + 1, c :: rest =>
    if c == '"' then
      match closing '"' (c :: rest) with
      | some r => .ok r
      | none => cons c (basicLines fuel rest)
    else if c == '\\' then
      match escape? rest with
      | some (c, rest) => cons c (basicLines fuel rest)
      | none =>
        match rest.dropWhile isBlank with
        | '\n' :: rest => basicLines fuel (rest.dropWhile isLineChar)
        | '\r' :: '\n' :: rest => basicLines fuel (rest.dropWhile isLineChar)
        | _ => .error (escapeFault "" rest)
    else if isPlain c || c == '\n' || c == '\r' then cons c (basicLines fuel rest)
    else fail (c :: rest) "invalid multiline basic string"

/-- A string over several lines in single quotes, behind the first three. -/
private def literalLines : Nat → List Char → Reading (List Char)
  | 0, cs => fail cs "invalid multiline literal string"
  | _ + 1, [] => fail [] "invalid multiline literal string"
  | fuel + 1, c :: rest =>
    if c == '\'' then
      match closing '\'' (c :: rest) with
      | some r => .ok r
      | none => cons c (literalLines fuel rest)
    else if isPlain c || c == '\n' || c == '\r' then cons c (literalLines fuel rest)
    else fail (c :: rest) "invalid multiline literal string"

private def asText (r : Reading (List Char)) : Reading String :=
  r.map fun (cs, rest) ↦ (String.ofList cs, rest)

/-- A string that ends on its line. -/
def lineString? : List Char → Option (Reading String)
  | '"' :: rest => some (asText (basic (rest.length + 1) rest))
  | '\'' :: rest => some (asText (literal rest))
  | _ => none

/-- A string of any kind. -/
def string? : List Char → Option (Reading String)
  | '"' :: '"' :: '"' :: rest =>
    let rest := dropLineEnd rest
    some (asText (basicLines (rest.length + 1) rest))
  | '\'' :: '\'' :: '\'' :: rest =>
    let rest := dropLineEnd rest
    some (asText (literalLines (rest.length + 1) rest))
  | cs => lineString? cs

/-! ## Numbers -/

/-- Digits with single underscores between them. -/
private def digitsWith (isDigit : Char → Bool) : List Char → List Char × List Char
  | c :: '_' :: d :: rest =>
    if isDigit c then
      if isDigit d then
        let (cs, rest) := digitsWith isDigit (d :: rest)
        (c :: cs, rest)
      else ([c], '_' :: d :: rest)
    else ([], c :: '_' :: d :: rest)
  | c :: rest =>
    if isDigit c then
      let (cs, rest) := digitsWith isDigit rest
      (c :: cs, rest)
    else ([], c :: rest)
  | [] => ([], [])

private def inBase (base : Nat) (cs : List Char) : Option (Nat × List Char) :=
  let (digits, rest) := digitsWith (fun c ↦ (Hex.value? c).any (· < base)) cs
  if digits.isEmpty then none
  else some (digits.foldl (fun n c ↦ base * n + ((Hex.value? c).getD 0)) 0, rest)

/-- The digits of a whole number without zeros in front. -/
private def whole? (cs : List Char) : Option (List Char × List Char) :=
  match cs with
  | '0' :: rest => some (['0'], rest)
  | cs =>
    let (digits, rest) := digitsWith Char.isDigit cs
    if digits.isEmpty then none else some (digits, rest)

private def fraction : List Char → List Char × List Char
  | '.' :: rest =>
    let (digits, after) := digitsWith Char.isDigit rest
    if digits.isEmpty then ([], '.' :: rest) else ('.' :: digits, after)
  | cs => ([], cs)

private def exponent (cs : List Char) : List Char × List Char :=
  match cs with
  | e :: rest =>
    if e == 'e' || e == 'E' then
      let (sign, after) :=
        match rest with
        | '+' :: after => (['+'], after)
        | '-' :: after => (['-'], after)
        | after => ([], after)
      let (digits, after) := digitsWith Char.isDigit after
      if digits.isEmpty then ([], cs) else (e :: sign ++ digits, after)
    else ([], cs)
  | [] => ([], cs)

private def signedFloat (negative : Bool) (x : Float) : Json :=
  .float (if negative then -x else x)

/-- A number without its sign. -/
private def magnitude (negative : Bool) (start cs : List Char) : Reading Json :=
  match cs with
  | 'i' :: 'n' :: 'f' :: rest => .ok (signedFloat negative (1 / 0), rest)
  | 'n' :: 'a' :: 'n' :: rest => .ok (signedFloat negative (0 / 0), rest)
  | _ =>
    match whole? cs with
    | none => fail cs "invalid integer\nexpected digit"
    | some (digits, rest) =>
      let (places, after) := fraction rest
      let (power, after) := exponent after
      let text := String.ofList (digits ++ places ++ power)
      if places.isEmpty && power.isEmpty then
        let n : Int := (Text.digits? digits).getD 0
        let n := if negative then -n else n
        if fitsSigned n then .ok (.int n, rest)
        else fail start "number too large to fit in target type"
      else
        match Text.float? text with
        | some x => .ok (signedFloat negative x, after)
        | none => fail start "invalid floating-point number"

/-! ## Dates -/

private def allDigits (count : Nat) (cs : List Char) : Bool :=
  (cs.take count).length = count && (cs.take count).all Char.isDigit

private def startsTime (cs : List Char) : Bool :=
  allDigits 2 cs && (cs.drop 2).head? == some ':'

private def startsDate (cs : List Char) : Bool :=
  allDigits 4 cs && (cs.drop 4).head? == some '-'

private def isDateChar (c : Char) : Bool :=
  c.isDigit || c == '-' || c == ':' || c == '.' || c == '+' || c == 'Z' || c == 'z' ||
    c == 'T' || c == 't'

private def capital (c : Char) : Char :=
  if c == 't' then 'T' else if c == 'z' then 'Z' else c

/-- A date, a time or both. -/
private def date (cs : List Char) : Json × List Char :=
  let first := cs.takeWhile isDateChar
  let rest := cs.dropWhile isDateChar
  match rest with
  | ' ' :: more =>
    if first.length = 10 && startsTime more then
      (.str (String.ofList ((first ++ 'T' :: more.takeWhile isDateChar).map capital)),
        more.dropWhile isDateChar)
    else (.str (String.ofList (first.map capital)), rest)
  | _ => (.str (String.ofList (first.map capital)), rest)

/-- A number or a date. -/
private def number (cs : List Char) : Reading Json :=
  match cs with
  | '0' :: 'x' :: rest => based 16 rest
  | '0' :: 'o' :: rest => based 8 rest
  | '0' :: 'b' :: rest => based 2 rest
  | '-' :: rest => magnitude true cs rest
  | '+' :: rest => magnitude false cs rest
  | _ => if startsDate cs || startsTime cs then .ok (date cs) else magnitude false cs cs
where
  based (base : Nat) (rest : List Char) : Reading Json :=
    match inBase base rest with
    | some (n, rest) =>
      if fitsSigned n then .ok (.int n, rest) else fail cs "number too large to fit in target type"
    | none => fail rest "invalid integer\nexpected digit"

/-- A scalar. -/
def scalar (cs : List Char) : Reading Json :=
  match string? cs with
  | some r => r.map fun (s, rest) ↦ (.str s, rest)
  | none =>
    match cs with
    | 't' :: 'r' :: 'u' :: 'e' :: rest => .ok (.bool true, rest)
    | 'f' :: 'a' :: 'l' :: 's' :: 'e' :: rest => .ok (.bool false, rest)
    | 'i' :: 'n' :: 'f' :: rest => .ok (signedFloat false (1 / 0), rest)
    | 'n' :: 'a' :: 'n' :: rest => .ok (signedFloat false (0 / 0), rest)
    | c :: _ =>
      if c.isDigit || c == '+' || c == '-' then number cs
      else expected "string" ["\"", "'"] cs
    | [] => expected "string" ["\"", "'"] cs

end Outbound.Toml
