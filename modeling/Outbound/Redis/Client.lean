import Outbound.Redis.Reply
import Outbound.Refresh

/-!
# Self-healing Redis client

Each instance connects when it is first used and keeps its connection. A command that fails
because the connection is lost makes the client replace its instance.
-/

namespace Outbound.Redis

/-- One instance, with its connection once it has one. -/
structure Instance (κ : Type) where
  connection : Option κ := none

namespace Instance

variable {α κ : Type}

/-- Runs a command, on a new connection if there is none yet. -/
def use (dial : Except Error κ) (send : κ → Except Error α) (i : Instance κ) :
    Except Error α × Instance κ :=
  match i.connection with
  | some connection => (send connection, i)
  | none =>
    match dial with
    | .error e => (.error e, i)
    | .ok connection => (send connection, ⟨some connection⟩)

end Instance

/-- What a command came to: its result, the client after it, and the refresh it called for. -/
structure Executed (α κ : Type) where
  result : Except Error α
  client : Refreshable (Instance κ)
  refresh : Option RefreshOutcome := none

/-- Looks at the error of a command. A lost connection calls for a refresh. -/
def observe {κ : Type} (client : Refreshable (Instance κ)) (now : Time) (e : Error) :
    Option RefreshOutcome × Refreshable (Instance κ) :=
  if e.isLost then
    let refreshed := client.refresh now (.ok {} : Except Error (Instance κ))
    (some refreshed.outcome, refreshed.wrapper)
  else (none, client)

/-- The end of a command. -/
def conclude {α κ : Type} (client : Refreshable (Instance κ)) (now : Time)
    (result : Except Error α) : Executed α κ :=
  match result with
  | .ok a => { result := .ok a, client }
  | .error e =>
    let (refresh, client) := observe client now e
    { result := .error e, client, refresh }

/-- Runs a command on the current instance. -/
def execute {α κ : Type} (client : Refreshable (Instance κ)) (now : Time)
    (dial : Except Error κ) (send : κ → Except Error α) : Executed α κ :=
  let (result, current) := client.current.use dial send
  conclude { client with current } now result

end Outbound.Redis
