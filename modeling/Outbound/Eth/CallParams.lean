import Outbound.Eth.Reply
import Outbound.Text.Numeral

/-!
# Call parameters read back

What the protocol of a node lets stand for a block, and the message and the block reference that
call parameters were made of.
-/

namespace Outbound.Eth

namespace BlockRef

/-- What can stand for a block in a request: one of five tags, or a plain quantity. -/
def IsParameter (text : String) : Prop :=
  text ∈ ["latest", "earliest", "pending", "finalized", "safe"] ∨ ∃ n, Hex.IsPlainQuantity text n

/-- A number below zero that is no tag. -/
def IsUntagged (n : Int) : Prop :=
  n < 0 ∧ n ≠ pending ∧ n ≠ finalized ∧ n ≠ safe

instance (n : Int) : Decidable (IsUntagged n) :=
  inferInstanceAs (Decidable (n < 0 ∧ n ≠ pending ∧ n ≠ finalized ∧ n ≠ safe))

/-- The number that is written as a quantity, perhaps with a minus sign before it. -/
def ofNumber? : List Char → Option BlockRef
  | '0' :: 'x' :: cs => (Hex.number? cs).map fun n ↦ some (Int.ofNat n)
  | '-' :: '0' :: 'x' :: cs => (Hex.number? cs).map fun n ↦ some (-Int.ofNat n)
  | _ => none

/-- The block reference with that tag. -/
def ofTag? (text : String) : Option BlockRef :=
  if text = "latest" then some none
  else if text = "pending" then some (some pending)
  else if text = "finalized" then some (some finalized)
  else if text = "safe" then some (some safe)
  else ofNumber? text.toList

end BlockRef

/-- Exactly so many bytes. -/
def vector? (length : Nat) (bytes : List UInt8) : Option (Vector UInt8 length) :=
  if h : bytes.toArray.size = length then some ⟨bytes.toArray, h⟩ else none

/-- The bytes that a value writes. -/
def readBytes? (v : Json) : Option (List UInt8) :=
  (decodeBytes v).toOption

def readAddress? (v : Json) : Option Address :=
  (readBytes? v).bind (vector? 20)

def readU256? (v : Json) : Option U256 :=
  (decodeWide v).toOption.map (.ofNat 256)

def readGas? (v : Json) : Option UInt64 :=
  (decodeQuantity v).toOption.map .ofNat

namespace CallMsg

/-- Reads a member that may be absent. -/
def readMember? {α : Type} (read : Json → Option α) (arg : Json) (key : String) :
    Option (Option α) :=
  match arg.get? key with
  | none => some none
  | some v => (read v).map some

/-- The message with that JSON form. -/
def ofArg? (arg : Json) : Option CallMsg := do
  return {
    sender := ← readMember? readAddress? arg "from"
    target := ← readMember? readAddress? arg "to"
    data := (← readMember? readBytes? arg "data").getD []
    value := ← readMember? readU256? arg "value"
    gas := (← readMember? readGas? arg "gas").getD 0
    gasPrice := ← readMember? readU256? arg "gasPrice" }

end CallMsg

/-- The message and the block that parameters were made of. -/
def readCallParams? : Json → Option (CallMsg × BlockRef)
  | .arr [arg, .str tag] => do return (← CallMsg.ofArg? arg, ← BlockRef.ofTag? tag)
  | _ => none

end Outbound.Eth
