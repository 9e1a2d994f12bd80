import Outbound.Json
import Outbound.Decimal.Shortest

/-!
# Writing JSON

The compact form: no blanks, every character as it is except quotes, backslashes and control
characters.
-/

namespace Outbound.Json

private def hexDigit (n : Nat) : Char :=
  Char.ofNat (if n < 10 then 48 + n else 87 + n)

/-- A character as it stands inside a quoted string. -/
def escapeChar (c : Char) : String :=
  match c with
  | '"' => "\\\""
  | '\\' => "\\\\"
  | '\n' => "\\n"
  | '\r' => "\\r"
  | '\t' => "\\t"
  | _ =>
    if c = Char.ofNat 8 then "\\b"
    else if c = Char.ofNat 12 then "\\f"
    else if c.toNat < 32 then
      String.ofList ['\\', 'u', '0', '0', hexDigit (c.toNat / 16), hexDigit (c.toNat % 16)]
    else c.toString

/-- A string between quotes. -/
def quote (s : String) : String :=
  s.foldl (fun text c ↦ text ++ escapeChar c) "\"" ++ "\""

mutual

/-- Appends the compact form of a value to a text. -/
def write (text : String) : Json → String
  | null => text ++ "null"
  | bool true => text ++ "true"
  | bool false => text ++ "false"
  | int n => text ++ toString n
  | float x => text ++ (if x.isFinite then floatNatural x else "null")
  | str s => text ++ quote s
  | arr [] => text ++ "[]"
  | arr (v :: rest) => writeItems (write (text ++ "[") v) rest ++ "]"
  | obj [] => text ++ "\x7b\x7d"
  | obj ((k, v) :: rest) => writeMembers (write (text ++ "\x7b" ++ quote k ++ ":") v) rest ++ "\x7d"

def writeItems (text : String) : List Json → String
  | [] => text
  | v :: rest => writeItems (write (text ++ ",") v) rest

def writeMembers (text : String) : List (String × Json) → String
  | [] => text
  | (k, v) :: rest => writeMembers (write (text ++ "," ++ quote k ++ ":") v) rest

end

/-- The compact form of a value. -/
def print (v : Json) : String :=
  write "" v

end Outbound.Json
