import Outbound.Error
import Outbound.Eth.CallMsg
import Outbound.Json.Printer
import Outbound.Json.Shape

/-!
# Reading node replies

Bytes come as hexadecimal text or as an array of numbers, quantities as digits after `0x`.
-/

namespace Outbound.Eth

def bytesExpectation : String :=
  "a variable number of bytes represented as a hex string, an array of u8, or raw bytes"

/-- The text without a leading `0x` or `0X`. -/
def stripMark : List Char → List Char
  | '0' :: 'x' :: rest => rest
  | '0' :: 'X' :: rest => rest
  | cs => cs

def shapedBytes (v : Json) : Shaped (List UInt8) :=
  match v with
  | .str s =>
    match Hex.decode? (stripMark s.toList) with
    | some bytes => .ok bytes
    | none => .error (.wrongValue v.describe "a valid hex string")
  | .arr items => items.mapM Json.toByte
  | _ => v.wrongType bytesExpectation

def decodeBytes (v : Json) : Outcome (List UInt8) :=
  match shapedBytes v with
  | .ok bytes => .ok bytes
  | .error e => .error (.decode e.message)

/-- What is wrong with the digits of a quantity. -/
inductive QuantityFault where
  | noQuantity
  | invalidDigit
  | tooLarge
  | invalidDigitAt (c : Char)
  | doesNotFit
deriving Repr, DecidableEq

def QuantityFault.message (shown : String) : QuantityFault → String
  | noQuantity => "expected hex quantity, got " ++ shown
  | invalidDigit => "invalid quantity " ++ shown ++ ": invalid digit found in string"
  | tooLarge => "invalid quantity " ++ shown ++ ": number too large to fit in target type"
  | invalidDigitAt c => "invalid quantity " ++ shown ++ ": invalid digit: " ++ c.toString
  | doesNotFit =>
    "invalid quantity " ++ shown ++ ": the value is too large to fit the target type"

/-- The characters after the mark `0x`, of which there is at least one. -/
def quantityDigits : Json → Except QuantityFault (List Char)
  | .str s =>
    match s.toList with
    | '0' :: 'x' :: c :: rest => .ok (c :: rest)
    | _ => .error .noQuantity
  | _ => .error .noQuantity

/-- Reads digits from the left into a number below `2 ^ 64`; the first fault met is reported. -/
def readWord (n : Nat) : List Char → Except QuantityFault Nat
  | [] => .ok n
  | c :: rest =>
    match Hex.value? c with
    | none => .error .invalidDigit
    | some d => if fitsUnsigned (n * 16 + d) then readWord (n * 16 + d) rest else .error .tooLarge

/-- A plus sign in front of at least one more character says nothing. -/
def dropPlus : List Char → List Char
  | '+' :: c :: rest => c :: rest
  | cs => cs

/-- Reads digits from the right, the next one worth `weight`, into a number below `2 ^ 256`.
Underscores are passed over; the first fault met is reported. -/
def readWide (n weight : Nat) : List Char → Except QuantityFault Nat
  | [] => .ok n
  | c :: rest =>
    if c = '_' then readWide n weight rest
    else
      match Hex.value? c with
      | none => .error (.invalidDigitAt c)
      | some d =>
        if n + d * weight < Nat.pow 2 256 then readWide (n + d * weight) (weight * 16) rest
        else .error .doesNotFit

/-- What is told of a reading of a value. -/
def report {α : Type} (v : Json) : Except QuantityFault α → Outcome α
  | .ok a => .ok a
  | .error fault => .error (.decode (fault.message v.print))

/-- A quantity below `2 ^ 64`. -/
def decodeQuantity (v : Json) : Outcome Nat :=
  report v do readWord 0 (dropPlus (← quantityDigits v))

/-- A quantity below `2 ^ 256`. -/
def decodeWide (v : Json) : Outcome Nat :=
  report v do readWide 0 1 (← quantityDigits v).reverse

end Outbound.Eth
