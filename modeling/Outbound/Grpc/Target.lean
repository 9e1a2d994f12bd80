/-!
# Targets of gRPC channels

A target is a scheme with an authority and perhaps a path, an authority alone, or a path alone.
Only its form is looked at.
-/

namespace Outbound.Grpc

/-- Why a text is no target. -/
inductive TargetError where
  | empty
  | character
  | authority
  | form
deriving Repr, DecidableEq

def TargetError.message : TargetError → String
  | empty => "empty string"
  | character => "invalid uri character"
  | authority => "invalid authority"
  | form => "invalid format"

/-- Characters that stand for themselves in a target. -/
private def isUriChar (c : Char) : Bool :=
  c.isAlphanum || "!#$&'()*+,-./:;=?@[]_~".toList.contains c

/-- What has been seen of an authority. -/
private structure Authority where
  colons : Nat := 0
  opened : Bool := false
  closed : Bool := false
  percent : Bool := false
  /-- The last character was an `@`. -/
  atSign : Bool := false

/-- Goes over an authority and returns what follows it, if it is valid. Colons and percent signs
before an `@` or inside brackets do not count. -/
private def skipAuthority (a : Authority) : List Char → Except TargetError (List Char)
  | [] => finish a []
  | c :: rest =>
    if c == '/' || c == '?' || c == '#' then finish a (c :: rest)
    else
      let a' := { a with atSign := false }
      if c == ':' then
        if 8 ≤ a.colons then .error .authority
        else skipAuthority { a' with colons := a.colons + 1 } rest
      else if c == '[' then
        if a.percent || a.opened then .error .authority
        else skipAuthority { a' with opened := true } rest
      else if c == ']' then
        if !a.opened || a.closed then .error .authority
        else skipAuthority { a' with closed := true, colons := 0, percent := false } rest
      else if c == '@' then skipAuthority { a' with colons := 0, percent := false, atSign := true } rest
      else if c == '%' then skipAuthority { a' with percent := true } rest
      else if isUriChar c then skipAuthority a' rest
      else .error .character
where
  finish (a : Authority) (rest : List Char) : Except TargetError (List Char) :=
    if a.opened != a.closed || 1 < a.colons || a.atSign || a.percent then .error .authority
    else .ok rest

/-- Characters of a query: all but blanks, controls, quotes and angle brackets. -/
private def isQueryChar (c : Char) : Bool :=
  let n := c.toNat
  n = 0x21 || (0x24 ≤ n && n ≤ 0x3b) || n = 0x3d || 0x3f ≤ n

private def isPathChar (c : Char) : Bool :=
  (isQueryChar c && c != '?' && c != '\x60') || c == '"'

private def isQuery : List Char → Bool
  | [] => true
  | c :: rest => c == '#' || (isQueryChar c && isQuery rest)

private def isPath : List Char → Bool
  | [] => true
  | c :: rest =>
    if c == '?' then isQuery rest else c == '#' || (isPathChar c && isPath rest)

/-- What follows a scheme and its slashes, if the text begins with one. -/
private def afterScheme : Nat → List Char → Option (List Char)
  | 0, _ => none
  | _ + 1, [] => none
  | fuel + 1, c :: rest =>
    if c == ':' then
      match rest with
      | '/' :: '/' :: rest => some rest
      | _ => none
    else if c.isAlphanum || c == '+' || c == '-' || c == '.' then afterScheme fuel rest
    else none

/-- The longest scheme. -/
private def maxScheme : Nat := 64

private def checkPath (cs : List Char) : Except TargetError Unit :=
  if isPath cs then .ok () else .error .character

/-- Looks whether a text has the form of a target. -/
def checkTarget (s : String) : Except TargetError Unit :=
  match s.toList with
  | [] => .error .empty
  | ['*'] => .ok ()
  | '/' :: cs => checkPath ('/' :: cs)
  | cs =>
    match afterScheme (maxScheme + 1) cs with
    | none => do
      if (← skipAuthority {} cs).isEmpty then .ok () else .error .form
    | some rest => do
      let path ← skipAuthority {} rest
      if path.length < rest.length then checkPath path else .error .form

def isTarget (s : String) : Bool :=
  (checkTarget s).toBool

end Outbound.Grpc
