import Outbound.Eth.Reply

/-!
# Client of a node

Requests without a block go to the primary endpoint, requests that name a block to the archive
endpoint; one endpoint may serve both. A request is a method with parameters, and its reply is
read by the kind of the request.
-/

namespace Outbound.Eth

/-- The two parts a node plays. -/
inductive Role where
  | primary
  | archive
deriving Repr, DecidableEq

/-- A method with its parameters. -/
structure Call where
  method : String
  params : Json

/-- A client; `shared` says that one endpoint serves both roles. -/
structure Client where
  shared : Bool
deriving Repr, DecidableEq

namespace Client

/-- The endpoint for a block reference. -/
def endpoint (client : Client) (block : BlockRef) : Role :=
  if client.shared ∨ block.isNone then .primary else .archive

def debugText (client : Client) : String :=
  "EthClient \x7b shared_archive: " ++ toString client.shared ++ " \x7d"

end Client

/-- What is asked of a node. -/
inductive Query where
  | callContract (msg : CallMsg) (block : BlockRef)
  | balance (account : Address) (block : BlockRef)
  | code (account : Address) (block : BlockRef)
  | nonce (account : Address) (block : BlockRef)
  | storage (account : Address) (key : Word) (block : BlockRef)
  | blockNumber

/-- What a node answers: bytes or a number. -/
inductive Answer where
  | bytes (data : List UInt8)
  | number (n : Nat)
deriving Repr, DecidableEq

namespace Query

private def accountParams (account : Address) (block : BlockRef) : Json :=
  .arr [.str (addressText account), .str block.tag]

def call : Query → Call
  | callContract msg block => ⟨"eth_call", callParams msg block⟩
  | balance account block => ⟨"eth_getBalance", accountParams account block⟩
  | code account block => ⟨"eth_getCode", accountParams account block⟩
  | nonce account block => ⟨"eth_getTransactionCount", accountParams account block⟩
  | storage account key block =>
    ⟨"eth_getStorageAt", .arr [.str (addressText account), .str (wordText key), .str block.tag]⟩
  | blockNumber => ⟨"eth_blockNumber", .arr []⟩

def block : Query → BlockRef
  | callContract _ block => block
  | balance _ block => block
  | code _ block => block
  | nonce _ block => block
  | storage _ _ block => block
  | blockNumber => none

/-- Reads the reply to a query. -/
def readReply (q : Query) (v : Json) : Outcome Answer :=
  match q with
  | balance _ _ => .number <$> decodeWide v
  | nonce _ _ => .number <$> decodeQuantity v
  | blockNumber => .number <$> decodeQuantity v
  | _ => .bytes <$> decodeBytes v

/-- The answer to a query, given what the transport replied. -/
def answer (q : Query) (reply : Outcome Json) : Outcome Answer := do
  q.readReply (← reply)

end Query

end Outbound.Eth
