import Outbound.Json

/-!
# Reading JSON

`Json.parse` reads one value and refuses anything after it. A refusal names its cause and the
place in the text, counted in lines and in bytes of the line. Objects come back with their
members as written; `Json.canonical` sorts them.
-/

namespace Outbound.Json

/-- Why a text is no JSON. -/
inductive Fault where
  | endInList
  | endInObject
  | endInString
  | endInValue
  | expectedColon
  | expectedListSeparator
  | expectedObjectSeparator
  | expectedIdent
  | expectedValue
  | invalidEscape
  | invalidNumber
  | numberOutOfRange
  | controlCharacter
  | keyNotString
  | loneSurrogate
  | trailingComma
  | trailingCharacters
  | unexpectedEndOfEscape
  | tooDeep
deriving Repr, DecidableEq

def Fault.message : Fault → String
  | endInList => "EOF while parsing a list"
  | endInObject => "EOF while parsing an object"
  | endInString => "EOF while parsing a string"
  | endInValue => "EOF while parsing a value"
  | expectedColon => "expected \x60:\x60"
  | expectedListSeparator => "expected \x60,\x60 or \x60]\x60"
  | expectedObjectSeparator => "expected \x60,\x60 or \x60\x7d\x60"
  | expectedIdent => "expected ident"
  | expectedValue => "expected value"
  | invalidEscape => "invalid escape"
  | invalidNumber => "invalid number"
  | numberOutOfRange => "number out of range"
  | controlCharacter => "control character (\\u0000-\\u001F) found while parsing a string"
  | keyNotString => "key must be a string"
  | loneSurrogate => "lone leading surrogate in hex escape"
  | trailingComma => "trailing comma"
  | trailingCharacters => "trailing characters"
  | unexpectedEndOfEscape => "unexpected end of hex escape"
  | tooDeep => "recursion limit exceeded"

/-- A fault and where it was met. -/
structure SyntaxError where
  fault : Fault
  line : Nat
  column : Nat
deriving Repr, DecidableEq

def SyntaxError.message (e : SyntaxError) : String :=
  e.fault.message ++ " at line " ++ toString e.line ++ " column " ++ toString e.column

/-- What is left of a text, and the place reached in it. -/
structure Cursor where
  rest : List Char
  line : Nat
  column : Nat

namespace Cursor

/-- The place after one more character. -/
def advance (here : Cursor) : Cursor :=
  match here.rest with
  | [] => here
  | c :: rest =>
    if c = '\n' then ⟨rest, here.line + 1, 0⟩ else ⟨rest, here.line, here.column + c.utf8Size⟩

/-- A fault at the place reached. -/
def fail {α : Type} (here : Cursor) (fault : Fault) : Except SyntaxError α :=
  .error ⟨fault, here.line, here.column⟩

/-- A fault at the first byte of the next character. -/
def failNext {α : Type} (here : Cursor) (fault : Fault) : Except SyntaxError α :=
  match here.rest with
  | [] => .error ⟨fault, here.line, here.column⟩
  | c :: _ =>
    if c = '\n' then .error ⟨fault, here.line + 1, 0⟩
    else .error ⟨fault, here.line, here.column + 1⟩

end Cursor

/-- A result and the place after it. -/
abbrev Reading (α : Type) := Except SyntaxError (α × Cursor)

def isBlank (c : Char) : Bool :=
  c == ' ' || c == '\n' || c == '\t' || c == '\r'

private def skipBlanksAux : List Char → Nat → Nat → Cursor
  | [], line, column => ⟨[], line, column⟩
  | c :: rest, line, column =>
    if c = '\n' then skipBlanksAux rest (line + 1) 0
    else if isBlank c then skipBlanksAux rest line (column + 1)
    else ⟨c :: rest, line, column⟩

def skipBlanks (here : Cursor) : Cursor :=
  skipBlanksAux here.rest here.line here.column

/-- The digits that come next, and what follows them. -/
def takeDigits : List Char → List Char × List Char
  | [] => ([], [])
  | c :: rest =>
    if c.isDigit then
      let (digits, after) := takeDigits rest
      (c :: digits, after)
    else ([], c :: rest)

private def Cursor.past (here : Cursor) (digits rest : List Char) : Cursor :=
  ⟨rest, here.line, here.column + digits.length⟩

/-- Folds digits into a number as long as it stays below `2 ^ 64`. Gives the number and how many
digits were left over. -/
def significand (start : Nat) : List Char → Nat × Nat
  | [] => (start, 0)
  | c :: rest =>
    let next := start * 10 + (c.toNat - 48)
    if fitsUnsigned next then significand next rest else (start, rest.length + 1)

/-- `n * 10 ^ exponent` in doubles: one multiplication or division by a power of ten, after
divisions by `10 ^ 308` where the exponent is below the range. None if the result is infinite. -/
def scaled (n : Float) (exponent : Int) (fuel : Nat) : Option Float :=
  match fuel with
  | 0 => some n
  | fuel + 1 =>
    if exponent.natAbs ≤ 308 then
      let power := Float.ofScientific 1 false exponent.natAbs
      if 0 ≤ exponent then
        let x := n * power
        if x.isInf then none else some x
      else some (n / power)
    else if n == 0.0 then some n
    else if 0 ≤ exponent then none
    else scaled (n / Float.ofScientific 1 false 308) (exponent + 308) fuel

private def finishFloat (positive : Bool) (sig : Nat) (exponent : Int) (here : Cursor) :
    Reading Json :=
  match scaled (Float.ofNat sig) exponent ((exponent.natAbs / 308) + 2) with
  | none => here.fail .numberOutOfRange
  | some x => .ok (.float (if positive then x else -x), here)

/-- The part of a number from its exponent mark on. -/
def parseExponent (positive : Bool) (sig : Nat) (exponent : Int) (here : Cursor) : Reading Json :=
  let mark := here.advance
  let (positiveExponent, start) :=
    match mark.rest with
    | '+' :: _ => (true, mark.advance)
    | '-' :: _ => (false, mark.advance)
    | _ => (true, mark)
  match start.rest with
  | [] => start.fail .endInValue
  | c :: _ =>
    if !c.isDigit then start.advance.fail .invalidNumber
    else
      let (digits, after) := takeDigits start.rest
      let size : Nat := digits.foldl (fun n d ↦ n * 10 + (d.toNat - 48)) 0
      let stop := start.past digits after
      if size < 0x80000000 then
        let shift : Int := if positiveExponent then size else -(size : Int)
        finishFloat positive sig (exponent + shift) stop
      else if sig ≠ 0 ∧ positiveExponent then stop.fail .numberOutOfRange
      else .ok (.float (if positive then 0.0 else -0.0), stop)

private def finishFraction (positive : Bool) (sig : Nat) (exponent : Int) (here : Cursor) :
    Reading Json :=
  match here.rest with
  | 'e' :: _ => parseExponent positive sig exponent here
  | 'E' :: _ => parseExponent positive sig exponent here
  | _ => finishFloat positive sig exponent here

/-- The part of a number from its point on. Digits past the range of the significand are
dropped. -/
def parseFraction (positive : Bool) (sig : Nat) (exponent : Int) (here : Cursor) : Reading Json :=
  let start := here.advance
  let (digits, after) := takeDigits start.rest
  if digits.isEmpty then
    match start.rest with
    | [] => start.failNext .endInValue
    | _ => start.failNext .invalidNumber
  else
    let (sig, dropped) := significand sig digits
    finishFraction positive sig (exponent - (digits.length - dropped : Nat))
      (start.past digits after)

/-- A number whose sign has been read. -/
def parseNumber (positive : Bool) (here : Cursor) : Reading Json :=
  match here.rest with
  | [] => here.fail .endInValue
  | c :: more =>
    if !c.isDigit then here.advance.fail .invalidNumber
    else if c = '0' ∧ (more.head?.any Char.isDigit) then here.advance.failNext .invalidNumber
    else
      let (digits, after) := takeDigits here.rest
      let (sig, dropped) := significand 0 digits
      let stop := here.past digits after
      match after with
      | '.' :: _ => parseFraction positive sig dropped stop
      | 'e' :: _ => parseExponent positive sig dropped stop
      | 'E' :: _ => parseExponent positive sig dropped stop
      | _ =>
        if dropped ≠ 0 then finishFloat positive sig dropped stop
        else if positive then .ok (.int sig, stop)
        else if sig = 0 ∨ !fitsSigned (-sig) then .ok (.float (-(Float.ofNat sig)), stop)
        else .ok (.int (-(sig : Int)), stop)

def hexValue? (c : Char) : Option Nat :=
  if '0' ≤ c ∧ c ≤ '9' then some (c.toNat - 48)
  else if 'a' ≤ c ∧ c ≤ 'f' then some (c.toNat - 87)
  else if 'A' ≤ c ∧ c ≤ 'F' then some (c.toNat - 55)
  else none

/-- Four hexadecimal digits. A text that ends within the next four bytes has ended in a string. -/
def parseHex4 (here : Cursor) : Reading Nat :=
  match here.rest with
  | a :: b :: c :: d :: rest =>
    match hexValue? a, hexValue? b, hexValue? c, hexValue? d with
    | some a, some b, some c, some d =>
      .ok (((a * 16 + b) * 16 + c) * 16 + d, ⟨rest, here.line, here.column + 4⟩)
    | _, _, _, _ => refuse
  | _ => refuse
where
  refuse : Reading Nat :=
    let size := here.rest.foldl (fun n c ↦ n + c.utf8Size) 0
    if size < 4 then .error ⟨.endInString, here.line, here.column + size⟩
    else .error ⟨.invalidEscape, here.line, here.column + 4⟩

/-- The character of an escape that names it by number, in one unit or as a surrogate pair. -/
def parseCodeEscape (here : Cursor) : Reading Char :=
  match parseHex4 here with
  | .error e => .error e
  | .ok (high, next) =>
    if 0xDC00 ≤ high ∧ high ≤ 0xDFFF then next.fail .loneSurrogate
    else if high < 0xD800 ∨ 0xDFFF < high then .ok (Char.ofNat high, next)
    else
      match next.rest with
      | [] => next.fail .endInString
      | ['\\'] => next.advance.fail .endInString
      | '\\' :: 'u' :: _ =>
        match parseHex4 next.advance.advance with
        | .error e => .error e
        | .ok (low, last) =>
          if low < 0xDC00 ∨ 0xDFFF < low then last.fail .loneSurrogate
          else .ok (Char.ofNat (0x10000 + (high - 0xD800) * 0x400 + (low - 0xDC00)), last)
      | '\\' :: _ => next.advance.failNext .unexpectedEndOfEscape
      | _ => next.failNext .unexpectedEndOfEscape

/-- The character that a backslash introduces. -/
def parseEscape (here : Cursor) : Reading Char :=
  match here.rest with
  | [] => here.fail .endInString
  | c :: _ =>
    match c with
    | '"' => .ok ('"', here.advance)
    | '\\' => .ok ('\\', here.advance)
    | '/' => .ok ('/', here.advance)
    | 'b' => .ok (Char.ofNat 8, here.advance)
    | 'f' => .ok (Char.ofNat 12, here.advance)
    | 'n' => .ok ('\n', here.advance)
    | 'r' => .ok ('\r', here.advance)
    | 't' => .ok ('\t', here.advance)
    | 'u' => parseCodeEscape here.advance
    | _ => here.failNext .invalidEscape

/-- The rest of a string whose opening quote has been read, appended to `text`. -/
def parseString (text : String) (here : Cursor) (fuel : Nat) : Reading String :=
  match fuel with
  | 0 => here.fail .endInString
  | fuel + 1 =>
    match here.rest with
    | [] => here.fail .endInString
    | c :: _ =>
      if c = '"' then .ok (text, here.advance)
      else if c = '\\' then
        match parseEscape here.advance with
        | .error e => .error e
        | .ok (c, next) => parseString (text.push c) next fuel
      else if c.toNat < 32 then here.failNext .controlCharacter
      else parseString (text.push c) here.advance fuel

/-- The letters of a literal after its first one. -/
def parseLiteral (letters : List Char) (value : Json) (here : Cursor) : Reading Json :=
  match letters with
  | [] => .ok (value, here)
  | letter :: more =>
    match here.rest with
    | [] => here.fail .endInValue
    | c :: _ =>
      if c = letter then parseLiteral more value here.advance
      else here.advance.fail .expectedIdent

mutual

/-- One value; `depth` bounds how many arrays and objects may still be opened. -/
def parseValue (depth : Nat) (here : Cursor) (fuel : Nat) : Reading Json :=
  match fuel with
  | 0 => here.fail .tooDeep
  | fuel + 1 =>
    let here := skipBlanks here
    match here.rest with
    | [] => here.failNext .endInValue
    | c :: rest =>
      match c with
      | 'n' => parseLiteral ['u', 'l', 'l'] .null here.advance
      | 't' => parseLiteral ['r', 'u', 'e'] (.bool true) here.advance
      | 'f' => parseLiteral ['a', 'l', 's', 'e'] (.bool false) here.advance
      | '-' => parseNumber false here.advance
      | '"' =>
        match parseString "" here.advance (rest.length + 1) with
        | .error e => .error e
        | .ok (s, next) => .ok (.str s, next)
      | '[' =>
        if depth ≤ 1 then here.failNext .tooDeep
        else parseItems (depth - 1) [] here.advance fuel
      | '\x7b' =>
        if depth ≤ 1 then here.failNext .tooDeep
        else parseMembers (depth - 1) [] here.advance fuel
      | _ =>
        if c.isDigit then parseNumber true here else here.failNext .expectedValue
termination_by structural fuel

/-- The rest of an array, given the elements read so far, last first. -/
def parseItems (depth : Nat) (done : List Json) (here : Cursor) (fuel : Nat) : Reading Json :=
  match fuel with
  | 0 => here.fail .tooDeep
  | fuel + 1 =>
    let here := skipBlanks here
    match here.rest with
    | [] => here.failNext .endInList
    | ']' :: _ => .ok (.arr done.reverse, here.advance)
    | c :: _ =>
      if done.isEmpty then
        match parseValue depth here fuel with
        | .error e => .error e
        | .ok (v, next) => parseItems depth [v] next fuel
      else if c ≠ ',' then here.failNext .expectedListSeparator
      else
        let here := skipBlanks here.advance
        match here.rest with
        | [] => here.failNext .endInValue
        | ']' :: _ => here.failNext .trailingComma
        | _ =>
          match parseValue depth here fuel with
          | .error e => .error e
          | .ok (v, next) => parseItems depth (v :: done) next fuel
termination_by structural fuel

/-- The rest of an object, given the members read so far, last first. -/
def parseMembers (depth : Nat) (done : List (String × Json)) (here : Cursor) (fuel : Nat) :
    Reading Json :=
  match fuel with
  | 0 => here.fail .tooDeep
  | fuel + 1 =>
    let here := skipBlanks here
    match here.rest with
    | [] => here.failNext .endInObject
    | '\x7d' :: _ => .ok (.obj done.reverse, here.advance)
    | c :: _ =>
      if done.isEmpty then
        if c ≠ '"' then here.failNext .keyNotString else parseMember depth done here fuel
      else if c ≠ ',' then here.failNext .expectedObjectSeparator
      else
        let here := skipBlanks here.advance
        match here.rest with
        | [] => here.failNext .endInValue
        | '"' :: _ => parseMember depth done here fuel
        | '\x7d' :: _ => here.failNext .trailingComma
        | _ => here.failNext .keyNotString
termination_by structural fuel

/-- One member, from its opening quote on, and then the rest of the object. -/
def parseMember (depth : Nat) (done : List (String × Json)) (here : Cursor) (fuel : Nat) :
    Reading Json :=
  match fuel with
  | 0 => here.fail .tooDeep
  | fuel + 1 =>
    match parseString "" here.advance (here.rest.length + 1) with
    | .error e => .error e
    | .ok (key, next) =>
      let colon := skipBlanks next
      match colon.rest with
      | [] => colon.failNext .endInObject
      | ':' :: _ =>
        match parseValue depth colon.advance fuel with
        | .error e => .error e
        | .ok (v, next) => parseMembers depth ((key, v) :: done) next fuel
      | _ => colon.failNext .expectedColon
termination_by structural fuel

end

/-- Reads a text that holds one value, with at most 127 arrays and objects inside each other. -/
def parse (text : String) : Except SyntaxError Json :=
  let chars := text.toList
  match parseValue 128 ⟨chars, 1, 0⟩ (3 * chars.length + 3) with
  | .error e => .error e
  | .ok (v, next) =>
    let next := skipBlanks next
    if next.rest.isEmpty then .ok v else next.failNext .trailingCharacters

end Outbound.Json
