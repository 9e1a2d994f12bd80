import Outbound.Text.Hex

/-!
# Hexadecimal numerals

Which texts write a whole number in base sixteen, in digits of either case or in the plain form
that each number has once, and the number that digits write, whatever its size.
-/

namespace Outbound.Hex

/-- The digits in lower case, each at the index that is its value. -/
def lowerDigits : List Char :=
  ['0', '1', '2', '3', '4', '5', '6', '7', '8', '9', 'a', 'b', 'c', 'd', 'e', 'f']

/-- The digits in upper case, each at the index that is its value. -/
def upperDigits : List Char :=
  ['0', '1', '2', '3', '4', '5', '6', '7', '8', '9', 'A', 'B', 'C', 'D', 'E', 'F']

/-- The character is the digit of that value in one of the two cases. -/
def IsDigit (c : Char) (d : Nat) : Prop :=
  lowerDigits[d]? = some c ∨ upperDigits[d]? = some c

/-- One or more digits that write a number, each worth sixteen times as much as it would be in the
place to its right. -/
inductive Numeral : List Char → Nat → Prop where
  | digit {c : Char} {d : Nat} (hd : IsDigit c d) : Numeral [c] d
  | snoc {cs : List Char} {n : Nat} {c : Char} {d : Nat} (h : Numeral cs n) (hd : IsDigit c d) :
    Numeral (cs ++ [c]) (n * 16 + d)

/-- Digits in lower case that write a number without leading zeros. -/
structure PlainNumeral (cs : List Char) (n : Nat) : Prop where
  numeral : Numeral cs n
  lower : ∀ c ∈ cs, c ∈ lowerDigits
  unpadded : cs.head? = some '0' → cs = ['0']

/-- The text is `0x` with a numeral of the number after it. -/
def IsQuantity (text : String) (n : Nat) : Prop :=
  ∃ cs, text = "0x" ++ String.ofList cs ∧ Numeral cs n

/-- The text is `0x` with the plain numeral of the number after it. -/
def IsPlainQuantity (text : String) (n : Nat) : Prop :=
  ∃ cs, text = "0x" ++ String.ofList cs ∧ PlainNumeral cs n

/-- The number that digits go on to write after `n`. -/
def numberFrom? (n : Nat) : List Char → Option Nat
  | [] => some n
  | c :: rest => (value? c).bind fun d ↦ numberFrom? (n * 16 + d) rest

/-- The number that one or more digits write. -/
def number? (cs : List Char) : Option Nat :=
  if cs.isEmpty then none else numberFrom? 0 cs

end Outbound.Hex
