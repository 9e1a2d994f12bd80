/-!
# Hexadecimal text

Bytes as pairs of digits and whole numbers as digits without leading zeros, both in lower case.
-/

namespace Outbound.Hex

/-- The digit of a number below sixteen, in lower case. -/
def digit (n : Nat) : Char :=
  Char.ofNat (if n < 10 then 48 + n else 87 + n)

/-- The number of a digit of either case. -/
def value? (c : Char) : Option Nat :=
  if '0' ≤ c ∧ c ≤ '9' then some (c.toNat - 48)
  else if 'a' ≤ c ∧ c ≤ 'f' then some (c.toNat - 87)
  else if 'A' ≤ c ∧ c ≤ 'F' then some (c.toNat - 55)
  else none

/-- Two digits for each byte. -/
def encode : List UInt8 → List Char
  | [] => []
  | b :: rest => digit (b.toNat / 16) :: digit (b.toNat % 16) :: encode rest

/-- The bytes of pairs of digits; none if a digit is missing or is no digit. -/
def decode? : List Char → Option (List UInt8)
  | [] => some []
  | [_] => none
  | a :: b :: rest => do
    let high ← value? a
    let low ← value? b
    let bytes ← decode? rest
    return UInt8.ofNat (high * 16 + low) :: bytes

/-- The digits of a number, most significant first; a single zero for zero. -/
def digits (n : Nat) : List Char :=
  if n < 16 then [digit n] else digits (n / 16) ++ [digit (n % 16)]
termination_by n

/-- The digits of a number after `0x`. -/
def quantity (n : Nat) : String :=
  "0x" ++ String.ofList (digits n)

/-- The digits of some bytes after `0x`. -/
def data (bytes : List UInt8) : String :=
  "0x" ++ String.ofList (encode bytes)

end Outbound.Hex
