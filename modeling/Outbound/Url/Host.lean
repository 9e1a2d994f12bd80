import Outbound.Text.Hex
import Outbound.Text.Lowercase
import Outbound.Url.Percent
import Outbound.Url.Punycode

/-!
# Hosts

A host is a name or an address. Names of special URLs are domains: they are compared without
regard to case, and a label that is not ASCII is written in Punycode. A name that ends in a
number has to be an address.
-/

namespace Outbound

/-- Why a text is no URL. -/
inductive UrlError where
  | emptyHost
  | invalidDomain
  | invalidPort
  | invalidIpv4
  | invalidIpv6
  | invalidDomainCharacter
  | noBase
  | opaqueBase
deriving Repr, DecidableEq

def UrlError.message : UrlError → String
  | emptyHost => "empty host"
  | invalidDomain => "invalid international domain name"
  | invalidPort => "invalid port number"
  | invalidIpv4 => "invalid IPv4 address"
  | invalidIpv6 => "invalid IPv6 address"
  | invalidDomainCharacter => "invalid domain character"
  | noBase => "relative URL without a base"
  | opaqueBase => "relative URL with a cannot-be-a-base base"

inductive Host where
  | domain (name : String)
  | ipv4 (address : Nat)
  /-- Eight pieces of sixteen bits. -/
  | ipv6 (pieces : List Nat)
deriving Repr, DecidableEq

/-- The parts of a list between elements of a kind; one more than there are such elements. -/
def splitAtAll {α : Type} (p : α → Bool) : List α → List (List α)
  | [] => [[]]
  | a :: rest =>
    if p a then [] :: splitAtAll p rest
    else
      match splitAtAll p rest with
      | [] => [[a]]
      | part :: parts => (a :: part) :: parts

namespace Host

/-! ## Addresses of four bytes -/

private def number (radix : Nat) : List Char → Option Nat
  | cs => cs.foldlM (fun n c ↦ do
      let d ← Hex.value? c
      if d < radix then some (n * radix + d) else none) 0

/-- A number in decimal, after `0` in octal, and after `0x` in hexadecimal digits. -/
def ipv4Number? : List Char → Option Nat
  | [] => none
  | '0' :: 'x' :: cs => number 16 cs
  | '0' :: 'X' :: cs => number 16 cs
  | '0' :: c :: cs => number 8 (c :: cs)
  | cs => number 10 cs

/-- The parts between dots, without an empty one at the end. -/
private def ipv4Parts (cs : List Char) : List (List Char) :=
  let parts := splitAtAll (· == '.') cs
  if parts.length > 1 && parts.getLast? == some [] then parts.dropLast else parts

def endsInNumber (cs : List Char) : Bool :=
  match (ipv4Parts cs).getLast? with
  | none => false
  | some part => (!part.isEmpty && part.all Char.isDigit) || (ipv4Number? part).isSome

/-- Numbers below 256 in front, and a last number that fills the bytes that are left. -/
def parseIpv4 (cs : List Char) : Except UrlError Host :=
  let parts := ipv4Parts cs
  match parts.mapM ipv4Number? with
  | none => .error .invalidIpv4
  | some numbers =>
    let front := numbers.dropLast
    let last := (numbers.getLast?).getD 0
    if parts.length > 4 || front.any (255 < ·) || Nat.pow 256 (4 - front.length) ≤ last then
      .error .invalidIpv4
    else
      let high := front.foldl (fun n part ↦ n * 256 + part) 0
      .ok (.ipv4 (high * Nat.pow 256 (4 - front.length) + last))

def ipv4Text (address : Nat) : String :=
  ".".intercalate (([3, 2, 1, 0] : List Nat).map fun i ↦ toString (address / Nat.pow 256 i % 256))

/-! ## Addresses of eight pieces -/

private def piece? (cs : List Char) : Option Nat :=
  if cs.isEmpty || cs.length > 4 then none else number 16 cs

private def byte? (cs : List Char) : Option Nat :=
  if cs.isEmpty || (cs.length > 1 && cs.head? == some '0') || !cs.all Char.isDigit then none
  else do
    let n ← number 10 cs
    if n < 256 then some n else none

/-- The pieces of a part without `::`; the last place may hold an address of four bytes. -/
private def pieces? (cs : List Char) : Option (List Nat) :=
  if cs.isEmpty then some []
  else
    let parts := splitAtAll (· == ':') cs
    let last := (parts.getLast?).getD []
    if last.contains '.' then do
      let front ← parts.dropLast.mapM piece?
      match ← (splitAtAll (· == '.') last).mapM byte? with
      | [a, b, c, d] => some (front ++ [a * 256 + b, c * 256 + d])
      | _ => none
    else parts.mapM piece?

/-- The text before and after the first `::`. -/
private def splitCompressed : List Char → Option (List Char × List Char)
  | ':' :: ':' :: rest => some ([], rest)
  | [] => none
  | c :: rest => (splitCompressed rest).map fun (before, after) ↦ (c :: before, after)

def parseIpv6 (cs : List Char) : Except UrlError Host :=
  let pieces : Option (List Nat) :=
    match splitCompressed cs with
    | none => pieces? cs
    | some (before, after) => do
      if before.contains '.' then none
      else
        let front ← pieces? before
        let back ← pieces? after
        let missing := 8 - (front.length + back.length)
        if missing = 0 then none else some (front ++ List.replicate missing 0 ++ back)
  match pieces with
  | some pieces => if pieces.length = 8 then .ok (.ipv6 pieces) else .error .invalidIpv6
  | none => .error .invalidIpv6

/-- The number of zeros in front. -/
private def zeros : List Nat → Nat
  | 0 :: rest => zeros rest + 1
  | _ => 0

/-- The place and length of the first longest run of zeros. -/
private def longestRun : List Nat → Nat → Nat × Nat
  | [], place => (place, 0)
  | n :: rest, place =>
    let here := zeros (n :: rest)
    let (later, length) := longestRun rest (place + 1)
    if length ≤ here then (place, here) else (later, length)

private def piecesText (pieces : List Nat) : String :=
  ":".intercalate (pieces.map fun n ↦ String.ofList (Hex.digits n))

/-- The first longest run of at least two zeros is left out. -/
def ipv6Text (pieces : List Nat) : String :=
  let (place, length) := longestRun pieces 0
  if length < 2 then piecesText pieces
  else piecesText (pieces.take place) ++ "::" ++ piecesText (pieces.drop (place + length))

/-! ## Domains -/

/-- Characters that never stand in a domain. -/
def isForbidden (c : Char) : Bool :=
  c.toNat ≤ 32 || c.toNat = 127 || "#%/:<>?@[\\]^|".toList.contains c

/-- Characters of a domain that are left out. -/
private def isIgnored (n : Nat) : Bool :=
  n = 0xad || n = 0x200b || n = 0x2060 || n = 0xfeff || (0xfe00 ≤ n && n ≤ 0xfe0f)

/-- Characters that are no part of any name. -/
private def isUnfit (n : Nat) : Bool :=
  (0x80 ≤ n && n ≤ 0xa0) || (0x2000 ≤ n && n ≤ 0x200f) || (0x2028 ≤ n && n ≤ 0x202f) ||
    n = 0x3000 || (0xe000 ≤ n && n ≤ 0xf8ff) || (0xfff0 ≤ n && n ≤ 0xffff) || 0xe0000 ≤ n

/-- The small letter of a capital letter, and the plain form of a wide character. -/
private def foldPoint (n : Nat) : Nat :=
  let n := Text.lowerPoint n
  if 0xff01 ≤ n && n ≤ 0xff5e then n - 0xfee0
  else if n = 0x3002 || n = 0xff61 then 0x2e
  else n

/-- Whether a character stands for itself in a name that is written out. -/
private def isSettled (c : Char) : Bool :=
  !isForbidden c && !isUnfit c.toNat && !isIgnored c.toNat && foldPoint c.toNat = c.toNat

private def labelText (label : List Char) : Except UrlError (List Char) :=
  match label with
  | 'x' :: 'n' :: '-' :: '-' :: rest =>
    match Punycode.decode? rest with
    | some decoded =>
      if decoded.all (·.toNat < 128) || !decoded.all isSettled then .error .invalidDomain
      else .ok label
    | none => .error .invalidDomain
  | _ =>
    if label.all (·.toNat < 128) then .ok label
    else .ok ("xn--".toList ++ Punycode.encode label)

/-- A domain in small letters and ASCII. -/
def domainText (cs : List Char) : Except UrlError (List Char) := do
  let folded := (cs.filter fun c ↦ !isIgnored c.toNat).map fun c ↦ Char.ofNat (foldPoint c.toNat)
  if folded.any fun c ↦ isForbidden c || isUnfit c.toNat then .error .invalidDomain
  else
    let labels ← (splitAtAll (· == '.') folded).mapM labelText
    return (['.'].intercalate labels)

/-- The text between brackets, if the text begins with one. -/
private def bracketed (cs : List Char) : Option (Except UrlError Host) :=
  match cs with
  | '[' :: rest =>
    some (if rest.getLast? == some ']' then parseIpv6 rest.dropLast else .error .invalidIpv6)
  | _ => none

/-- The host of a special URL. -/
def parseSpecial (cs : List Char) : Except UrlError Host :=
  match bracketed cs with
  | some host => host
  | none =>
    match Percent.decodeText? (String.ofList cs) with
    | none => .error .invalidDomain
    | some decoded => do
      let name ← domainText decoded.toList
      if name.isEmpty then .error .emptyHost
      else if endsInNumber name then parseIpv4 name
      else .ok (.domain (String.ofList name))

/-- The host of any other URL: a text that is kept but for control characters. -/
def parseOpaque (cs : List Char) : Except UrlError Host :=
  match bracketed cs with
  | some host => host
  | none =>
    if cs.any fun c ↦ c == '\x00' || c == ' ' || "#/:<>?@[\\]^|".toList.contains c then
      .error .invalidDomainCharacter
    else .ok (.domain (Percent.encode Percent.inControls cs))

/-- The host alone; an address of eight pieces without brackets. -/
def bare : Host → String
  | domain name => name
  | ipv4 address => ipv4Text address
  | ipv6 pieces => ipv6Text pieces

/-- The host as part of a URL. -/
def text : Host → String
  | ipv6 pieces => "[" ++ ipv6Text pieces ++ "]"
  | host => host.bare

end Host

end Outbound
