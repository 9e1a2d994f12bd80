import Outbound.Error
import Outbound.Eth.CallMsg
import Outbound.Json.Parser
import Outbound.Json.Printer

/-!
# Notation of rehearsals

A rehearsal drives the clients through a script and reports what could be observed. Scripts and
reports are JSON; this module holds the notation they share. A field that is missing from a
script stands for null, false or zero.
-/

namespace Outbound

namespace Json

/-- The member of that key, or null. -/
def member (v : Json) (key : String) : Json :=
  (v.get? key).getD .null

def nat (v : Json) (key : String) : Nat :=
  ((v.member key).unsigned?).getD 0

def nat? (v : Json) (key : String) : Option Nat :=
  (v.member key).unsigned?

def text (v : Json) (key : String) : String :=
  ((v.member key).str?).getD ""

def text? (v : Json) (key : String) : Option String :=
  (v.member key).str?

def flag (v : Json) (key : String) : Bool :=
  ((v.member key).bool?).getD false

/-- Whether a member is absent or not false. -/
def flagUnlessFalse (v : Json) (key : String) : Bool :=
  ((v.member key).bool?).getD true

def list (v : Json) (key : String) : List Json :=
  ((v.member key).arr?).getD []

def has (v : Json) (key : String) : Bool :=
  !(v.member key).isNull

def ofNat (n : Nat) : Json := .int n

def ofOption {α : Type} (f : α → Json) : Option α → Json
  | none => .null
  | some a => f a

def ofList {α : Type} (f : α → Json) (xs : List α) : Json :=
  .arr (xs.map f)

end Json

namespace Rehearsal

/-- The name of an error's kind. -/
def kindOf : Error → String
  | .closed => "Closed"
  | .ended .canceled => "Canceled"
  | .ended .deadlineExceeded => "DeadlineExceeded"
  | .abandoned => "Abandoned"
  | .transport _ => "Transport"
  | .http _ => "Http"
  | .rpc _ _ => "Rpc"
  | .missingResponse _ => "MissingResponse"
  | .decode _ => "Decode"
  | .redis _ => "Redis"
  | .config _ => "Config"

def reasonName : Reason → String
  | .canceled => "Canceled"
  | .deadlineExceeded => "DeadlineExceeded"

private def faultReport : HttpFault → String × Json
  | .status code => ("status", .int code)
  | .timeout => ("timeout", .null)
  | .connect => ("connect", .null)
  | .decode => ("decode", .null)
  | .builder => ("builder", .null)
  | .body => ("body", .null)
  | .request => ("request", .null)

/-- An error as kind and text, or for an HTTP exchange as class and status. -/
def errorReport : Error → Json
  | .http fault =>
    let (kind, status) := faultReport fault
    .ofMembers [("error", .str "Http"), ("class", .str kind), ("status", status)]
  | e => .ofMembers [("error", .str (kindOf e)), ("message", .str e.message)]

def outcomeReport {α : Type} (f : α → Json) : Outcome α → Json
  | .ok a => .ofMembers [("ok", f a)]
  | .error e => errorReport e

/-- A Redis error from its notation. -/
def redisError? (v : Json) : Option Redis.Error :=
  match v.text? "io" with
  | some name => some (.io ((Redis.IoKind.ofName? name).getD .other) (v.text? "text"))
  | none => do
    let kind ← Redis.ReplyKind.ofName? (v.text "kind")
    return .reply kind (v.text "desc") (v.text? "detail")

/-- An error from its notation: the name of a kind, or an object with the parts of one. -/
def error? (v : Json) : Option Error :=
  let kind := (v.str?).getD (v.text "kind")
  match kind with
  | "Closed" => some .closed
  | "Canceled" => some (.ended .canceled)
  | "DeadlineExceeded" => some (.ended .deadlineExceeded)
  | "Abandoned" => some .abandoned
  | "Transport" => some (.transport (v.text "message"))
  | "Rpc" => some (.rpc (((v.member "code").int?).getD 0) (v.text "message"))
  | "MissingResponse" => some (.missingResponse (v.nat "id"))
  | "Decode" => some (.decode (v.text "message"))
  | "Redis" => .redis <$> redisError? (v.member "redis")
  | "Config" => some (.config (v.text "message"))
  | "Json" =>
    match Json.parse (v.text "message") with
    | .error e => some (.decode e.message)
    | .ok _ => none
  | _ => none

private def natOfDigits (cs : List Char) : Nat :=
  cs.foldl (fun n c ↦ if c.isDigit then n * 10 + (c.toNat - 48) else n) 0

/-- A whole number of any size, with an optional sign. -/
def integer (s : String) : Int :=
  match s.toList with
  | '-' :: cs => -(natOfDigits cs : Int)
  | '+' :: cs => natOfDigits cs
  | cs => natOfDigits cs

def bytes (s : String) : List UInt8 :=
  (Hex.decode? s.toList).getD []

/-- Exactly `n` bytes. -/
def byteVector? (n : Nat) (s : String) : Option (Vector UInt8 n) :=
  let data := (bytes s).toArray
  if h : data.size = n then some ⟨data, h⟩ else none

def blockRef (v : Json) : Eth.BlockRef :=
  (v.str?).map integer

private def word? (v : Json) (key : String) : Option Eth.U256 :=
  (v.text? key).map fun s ↦ BitVec.ofInt 256 (integer s)

/-- A call message from its notation. -/
def callMsg (v : Json) : Eth.CallMsg where
  sender := (v.text? "from").bind (byteVector? 20)
  target := (v.text? "to").bind (byteVector? 20)
  data := bytes (v.text "data")
  value := word? v "value"
  gas := UInt64.ofNat (integer (v.text "gas")).toNat
  gasPrice := word? v "gas_price"

/-- A script that cannot be read. -/
def badInput : Json :=
  .ofMembers [("error", .str "BadInput")]

end Rehearsal

end Outbound
