/-!
# Numbers in text

Numbers in decimal digits, with an optional sign in front and nothing around them.
-/

namespace Outbound.Text

/-- The number that digits go on to write after `n`. -/
def digitsFrom? : Nat → List Char → Option Nat
  | n, [] => some n
  | n, c :: rest => if c.isDigit then digitsFrom? (n * 10 + (c.toNat - 48)) rest else none

def digits? (cs : List Char) : Option Nat :=
  if cs.isEmpty then none else digitsFrom? 0 cs

/-- Digits, perhaps after a plus sign. -/
def unsigned? (s : String) : Option Nat :=
  match s.toList with
  | '+' :: cs => digits? cs
  | cs => digits? cs

/-- Digits, perhaps after a sign. -/
def signed? (s : String) : Option Int :=
  match s.toList with
  | '-' :: cs => (digits? cs).map fun n ↦ -(n : Int)
  | '+' :: cs => (digits? cs).map Int.ofNat
  | cs => (digits? cs).map Int.ofNat

/-- The digits at the beginning, and the rest. -/
private def leading (cs : List Char) : List Char × List Char :=
  (cs.takeWhile Char.isDigit, cs.dropWhile Char.isDigit)

private def exponent? : List Char → Option Int
  | [] => some 0
  | c :: rest => if c == 'e' || c == 'E' then signed? (String.ofList rest) else none

private def unsignedFloat? (cs : List Char) : Option Float :=
  match (String.ofList cs).toLower with
  | "inf" | "infinity" => some (1 / 0)
  | "nan" => some (0 / 0)
  | _ => do
    let (whole, rest) := leading cs
    let (fraction, rest) :=
      match rest with
      | '.' :: rest => leading rest
      | _ => ([], rest)
    let digits ← digits? (whole ++ fraction)
    let places ← exponent? rest
    let shift := places - fraction.length
    if digits = 0 ∨ shift + (whole.length + fraction.length : Nat) < -400 then some 0
    else if 400 < shift then some (1 / 0)
    else some (.ofScientific digits (shift < 0) shift.natAbs)

/-- A fraction with an optional exponent, infinity, or what is no number. -/
def float? (s : String) : Option Float :=
  match s.toList with
  | '-' :: cs => (unsignedFloat? cs).map fun x ↦ -x
  | '+' :: cs => unsignedFloat? cs
  | cs => unsignedFloat? cs

end Outbound.Text
