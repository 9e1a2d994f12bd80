import Outbound.Text.Hex

/-!
# Percent encoding

Bytes outside a set of plain characters are written as `%` and two upper-case digits. Each part
of a URL has a set of its own.
-/

namespace Outbound

namespace Percent

/-- Control characters, and everything that is not ASCII. -/
def inControls (c : Char) : Bool :=
  c.toNat < 32 || 126 < c.toNat

def inFragment (c : Char) : Bool :=
  inControls c || " \"<>\x60".toList.contains c

def inQuery (c : Char) : Bool :=
  inControls c || " \"#<>".toList.contains c

/-- The query of a special URL. -/
def inSpecialQuery (c : Char) : Bool :=
  inQuery c || c == '\''

def inPath (c : Char) : Bool :=
  inFragment c || c == '#' || c == '?' || c == '\x7b' || c == '\x7d'

def inUserinfo (c : Char) : Bool :=
  inPath c || "/:;=@[\\]^|".toList.contains c

private def byte (b : UInt8) : List Char :=
  '%' :: (Hex.encode [b]).map Char.toUpper

private def encodeChar (mustEncode : Char → Bool) (c : Char) : List Char :=
  if mustEncode c then c.toString.toUTF8.toList.flatMap byte else [c]

/-- The text with every character of a set encoded. -/
def encode (mustEncode : Char → Bool) (cs : List Char) : String :=
  String.ofList (cs.flatMap (encodeChar mustEncode))

/-- The bytes of a text in which `%` with two digits stands for a byte. -/
def decode : List Char → List UInt8
  | [] => []
  | '%' :: a :: b :: rest =>
    match Hex.value? a, Hex.value? b with
    | some high, some low => UInt8.ofNat (high * 16 + low) :: decode rest
    | _, _ => 37 :: decode (a :: b :: rest)
  | c :: rest => c.toString.toUTF8.toList ++ decode rest

/-- The text that percent-encoded text stands for, if it is UTF-8. -/
def decodeText? (s : String) : Option String :=
  String.fromUTF8? ⟨(decode s.toList).toArray⟩

end Percent

end Outbound
