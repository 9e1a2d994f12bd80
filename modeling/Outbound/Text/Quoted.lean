import Outbound.Text.Hex
import Outbound.Text.Invisible

/-!
# Quoted text

A text between double quotes in which quotes, backslashes and characters without a shape are
escaped, so that a message that cites it stays on one line.
-/

namespace Outbound.Text

/-- A character as it stands in a quoted text. -/
def escaped (c : Char) : String :=
  if c = '"' then "\\\""
  else if c = '\\' then "\\\\"
  else if c = '\n' then "\\n"
  else if c = '\r' then "\\r"
  else if c = '\t' then "\\t"
  else if c.toNat = 0 then "\\0"
  else if isInvisible c then "\\u\x7b" ++ String.ofList (Hex.digits c.toNat) ++ "\x7d"
  else c.toString

def quoted (s : String) : String :=
  s.foldl (fun text c ↦ text ++ escaped c) "\"" ++ "\""

end Outbound.Text
