/-!
# Lengths of time in text

A length of time is shown in the largest unit of which it has at least one, with the rest as a
fraction.
-/

namespace Outbound.Text

/-- Three digits of a fraction, without zeros at the end. -/
private def thousandths (n : Nat) : String :=
  let ds := [n / 100 % 10, n / 10 % 10, n % 10]
  let shown := (ds.reverse.dropWhile (· == 0)).reverse
  if shown.isEmpty then "" else "." ++ "".intercalate (shown.map toString)

/-- A number of milliseconds. -/
def millis (ms : Nat) : String :=
  if ms = 0 then "0ns"
  else if ms < 1000 then toString ms ++ "ms"
  else toString (ms / 1000) ++ thousandths (ms % 1000) ++ "s"

end Outbound.Text
