import Outbound.Eth.Client
import Outbound.Json.Shape
import Outbound.Log
import Outbound.Url.Parser

/-!
# Endpoints of a node

Two addresses are configured, one for the primary and one for the archive role. If only one of
them can be used, it serves both.
-/

namespace Outbound

namespace Eth

structure Settings where
  url : String := ""
  archiveUrl : String := ""
  timeoutMs : Nat := 30000

/-- The endpoints in use. -/
structure Endpoints where
  primary : Url
  /-- None if the primary endpoint serves both roles. -/
  archive : Option Url

namespace Endpoints

def client (endpoints : Endpoints) : Client :=
  ⟨endpoints.archive.isNone⟩

/-- The endpoint that plays a role. -/
def url (endpoints : Endpoints) : Role → Url
  | .primary => endpoints.primary
  | .archive => endpoints.archive.getD endpoints.primary

theorem url_endpoint (endpoints : Endpoints) (block : BlockRef) :
    endpoints.url (endpoints.client.endpoint block) =
      if block.isNone then endpoints.primary else endpoints.archive.getD endpoints.primary := by
  obtain ⟨primary, archive⟩ := endpoints
  cases block <;> cases archive <;> rfl

end Endpoints

/-- Checks the address of an endpoint. Nothing is sent. -/
def dialEndpoint (address : String) : Outcome Url :=
  match Url.parse address with
  | .error e =>
    .error (.config ("invalid rpc url " ++ Text.quoted address ++ ": " ++ e.message))
  | .ok url =>
    if url.scheme == "http" || url.scheme == "https" then .ok url
    else
      .error (.config ("unsupported rpc url scheme " ++ Text.quoted url.scheme ++ " in " ++ url.text))

def endpointDebugText (url : Url) : String :=
  "HttpRpcClient \x7b url: " ++ Text.quoted url.text ++ ", .. \x7d"

/-- Why one of two endpoints is not used. -/
inductive Fallback where
  | archiveUnusable (e : Error)
  | primaryUnusable (e : Error)

namespace Settings

def fields {σ : Type} (format : Format σ) : List (Field σ Settings) :=
  [{ name := "url", required := true, set := fun r v ↦ do
      return { r with url := ← format.text v } },
    { name := "archive_url", set := fun r v ↦ do
      return { r with archiveUrl := ← format.text v } },
    { name := "timeout_ms", set := fun r v ↦ do
      return { r with timeoutMs := ← format.unsigned "u64" v } }]

def read {σ : Type} (format : Format σ) (v : σ) : Shaped Settings :=
  format.record "EthCfg" (fields format) {} v

/-- The endpoints, and why one of them is not used. If neither can be used, the error is that of
the primary address. -/
def dial (s : Settings) : Outcome (Endpoints × Option Fallback) :=
  match dialEndpoint s.url, dialEndpoint s.archiveUrl with
  | .ok primary, .ok archive => .ok (⟨primary, some archive⟩, none)
  | .ok primary, .error e => .ok (⟨primary, none⟩, some (.archiveUnusable e))
  | .error e, .ok archive => .ok (⟨archive, none⟩, some (.primaryUnusable e))
  | .error e, .error _ => .error e

def debugText (s : Settings) (connected : Bool) : String :=
  "EthCfg \x7b timeout_ms: " ++ toString s.timeoutMs ++ ", connected: " ++ toString connected ++
    ", .. \x7d"

end Settings

end Eth

namespace LogEvent

private def ethTarget : String := "service_kit::client::eth"

def endpointFallback : Eth.Fallback → LogEvent
  | .archiveUnusable e =>
    ⟨.debug, ethTarget, "archive endpoint unusable, using primary for both",
      [("error", .str e.message)]⟩
  | .primaryUnusable e =>
    ⟨.warn, ethTarget, "primary endpoint unusable, using archive for both",
      [("error", .str e.message)]⟩

def ethDialFailed (e : Error) : LogEvent :=
  ⟨.error, ethTarget, "failed to dial eth endpoints", [("error", .str e.message)]⟩

end LogEvent

end Outbound
