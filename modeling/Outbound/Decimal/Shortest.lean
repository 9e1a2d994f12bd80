/-!
# Shortest decimals

A finite double is a whole number of powers of two, and many decimals read back as it.
`Decimal.ofFloat` picks the one with the fewest digits, and of those the nearest, by exact
arithmetic on the bits. The two layouts below write such a decimal with a point or with an
exponent.
-/

namespace Outbound

/-- The number `digits * 10 ^ exponent`. -/
structure Decimal where
  digits : Nat
  exponent : Int
deriving Repr, DecidableEq

namespace Decimal

/-- The same number with no trailing zero among its digits. -/
def normalize (d : Decimal) (fuel : Nat) : Decimal :=
  match fuel with
  | 0 => d
  | fuel + 1 =>
    if d.digits ≠ 0 ∧ d.digits % 10 = 0 then
      normalize ⟨d.digits / 10, d.exponent + 1⟩ fuel
    else d

/-- Factors that bring `d * 10 ^ k` and `x * 2 ^ r` to one scale: the first is to the second as
`d * (scale k r).1` is to `x * (scale k r).2`. -/
def scale (k r : Int) : Nat × Nat :=
  (Nat.pow 10 k.toNat <<< (-r).toNat, Nat.pow 10 (-k).toNat <<< r.toNat)

/-- The largest `p` with `10 ^ p ≤ num / den`, for positive `num` and `den`. -/
def floorLog (num den : Nat) : Int :=
  if den ≤ num then ((toString (num / den)).length : Int) - 1
  else
    let j := (toString (den / num)).length - 1
    if den ≤ num * Nat.pow 10 j then -(j : Int) else -(j + 1 : Int)

/-- The reals that round to one double, in quarters of its last binary place. -/
structure Rounding where
  low : Nat
  value : Nat
  high : Nat
  closed : Bool
  power : Int

/-- The rounding interval of `m * 2 ^ q`; `narrow` says that the neighbour below is closer. -/
def Rounding.of (m : Nat) (q : Int) (narrow : Bool) : Rounding where
  low := 4 * m - (if narrow then 1 else 2)
  value := 4 * m
  high := 4 * m + 2
  closed := m % 2 == 0
  power := q - 2

/-- The grid point nearest to the value among its two neighbours at `10 ^ k`, if one of them
lies in the interval. -/
def Rounding.gridPoint? (r : Rounding) (k : Int) : Option Decimal :=
  let (a, b) := scale k r.power
  let inside (d : Nat) : Bool :=
    let x := d * a
    if r.closed then r.low * b ≤ x && x ≤ r.high * b else r.low * b < x && x < r.high * b
  let below := r.value * b / a
  let gapBelow := r.value * b - below * a
  let gapAbove := (below + 1) * a - r.value * b
  match inside below, inside (below + 1) with
  | true, true =>
    some ⟨if gapBelow < gapAbove || (gapBelow == gapAbove && below % 2 == 0) then below
      else below + 1, k⟩
  | true, false => some ⟨below, k⟩
  | false, true => some ⟨below + 1, k⟩
  | false, false => none

/-- The fewest digits that read back as `m * 2 ^ q`, where `m` is positive. Seventeen digits
always do. -/
def shortest (m : Nat) (q : Int) (narrow : Bool) : Decimal :=
  let r := Rounding.of m q narrow
  let (a, b) := scale 0 q
  let top := floorLog (m * b) a
  let found := (List.range 17).findSome? fun (n : Nat) ↦ r.gridPoint? (top - n)
  (found.getD ⟨0, 0⟩).normalize 20

/-- The magnitude of a finite double as its shortest decimal. -/
def ofFloat (x : Float) : Decimal :=
  let bits := x.toBits.toNat
  let hidden : Nat := 1 <<< 52
  let fraction := bits % hidden
  let biased := bits / hidden % 0x800
  if biased = 0 then
    if fraction = 0 then ⟨0, 0⟩ else shortest fraction (-1074) false
  else shortest (hidden + fraction) ((biased : Int) - 1075) (fraction == 0 && biased != 1)

/-- Whether the sign bit of a double is set, as it is for `-0.0`. -/
def signed (x : Float) : Bool :=
  x.toBits.toNat ≥ 0x8000000000000000

private def zeros (n : Nat) : String :=
  String.ofList (List.replicate n '0')

/-- The digits with the point moved `places` to the left. -/
def pointed (digits : String) (places : Nat) : String :=
  if places < digits.length then
    let whole := digits.length - places
    (digits.take whole).toString ++ "." ++ (digits.drop whole).toString
  else "0." ++ zeros (places - digits.length) ++ digits

/-- All digits are written out, with a point only before a fraction. -/
def plain (d : Decimal) : String :=
  let s := toString d.digits
  if 0 ≤ d.exponent then (if d.digits = 0 then s else s ++ zeros d.exponent.toNat)
  else pointed s (-d.exponent).toNat

/-- A point or an exponent is always present. The point is used where it falls at most sixteen
places right of the first digit, and at most five left of it. -/
def natural (d : Decimal) : String :=
  let s := toString d.digits
  let place : Int := s.length + d.exponent
  if d.digits = 0 then "0.0"
  else if 0 ≤ d.exponent ∧ place ≤ 16 then s ++ zeros d.exponent.toNat ++ ".0"
  else if -5 < place ∧ place ≤ 16 then pointed s (-d.exponent).toNat
  else
    let mantissa := if s.length = 1 then s else pointed s (s.length - 1)
    mantissa ++ (if 0 ≤ place - 1 then "e+" else "e") ++ toString (place - 1)

end Decimal

/-- A finite double with its sign, laid out by `Decimal.natural`. -/
def floatNatural (x : Float) : String :=
  (if Decimal.signed x then "-" else "") ++ (Decimal.ofFloat x).natural

/-- A double written without exponent, and with a point only before a fraction. -/
def floatPlain (x : Float) : String :=
  let sign := if Decimal.signed x then "-" else ""
  if x.isNaN then "NaN"
  else if x.isInf then sign ++ "inf"
  else sign ++ (Decimal.ofFloat x).plain

end Outbound
