import Outbound.Json
import Outbound.Text.Hex

/-!
# Call parameters

The message of a contract call and the block it is asked of, with their JSON forms: an object of
the fields that are set, and a tag or a number.
-/

namespace Outbound.Eth

abbrev Address := Vector UInt8 20

abbrev Word := Vector UInt8 32

abbrev U256 := BitVec 256

/-- Parameters of a contract call. Gas zero means that none is given. -/
structure CallMsg where
  sender : Option Address := none
  target : Option Address := none
  data : List UInt8 := []
  value : Option U256 := none
  gas : UInt64 := 0
  gasPrice : Option U256 := none
deriving DecidableEq

/-- A block by number, or a tag below zero; none is the latest block. -/
abbrev BlockRef := Option Int

namespace BlockRef

def pending : Int := -1

def finalized : Int := -3

def safe : Int := -4

/-- The tag of a block reference. A number without a tag is written in digits after `0x`, with
its sign in front. -/
def tag : BlockRef → String
  | none => "latest"
  | some n =>
    if n = pending then "pending"
    else if n = finalized then "finalized"
    else if n = safe then "safe"
    else if n < 0 then "-" ++ Hex.quantity n.natAbs
    else Hex.quantity n.natAbs

end BlockRef

def addressText (a : Address) : String :=
  Hex.data a.toList

def wordText (w : Word) : String :=
  Hex.data w.toList

namespace CallMsg

/-- The members of the JSON form, in the order of the fields. -/
def members (m : CallMsg) : List (String × Json) :=
  (m.sender.toList.map fun a ↦ ("from", .str (addressText a))) ++
  (m.target.toList.map fun a ↦ ("to", .str (addressText a))) ++
  (if m.data.isEmpty then [] else [("data", .str (Hex.data m.data))]) ++
  (m.value.toList.map fun v ↦ ("value", .str (Hex.quantity v.toNat))) ++
  (if m.gas = 0 then [] else [("gas", .str (Hex.quantity m.gas.toNat))]) ++
  (m.gasPrice.toList.map fun v ↦ ("gasPrice", .str (Hex.quantity v.toNat)))

/-- The JSON form: an object of the fields that are set. -/
def arg (m : CallMsg) : Json :=
  .ofMembers m.members

end CallMsg

/-- The parameters of a contract call at a block. -/
def callParams (m : CallMsg) (block : BlockRef) : Json :=
  .arr [m.arg, .str block.tag]

end Outbound.Eth
