import Outbound.Agenda

/-!
# Reloading

A configuration is replaced while others use it. Whoever loads it keeps the value that was in
force at that moment. A new value is prepared with a look at the one it replaces, and what the
replaced value owned is retired after a while.
-/

namespace Outbound

/-- How long the clients of a replaced configuration are kept. -/
def clientCloseDelay : Time := 60000

/-- How values of a configuration are made ready. -/
structure Reloadable (τ ρ : Type) where
  /-- Prepares a value, given the one it replaces, and says what the latter leaves to be
  retired. -/
  prepare : Option τ → τ → τ × List ρ

/-- A value is built by itself, and the one it replaces leaves what it owned. -/
def Reloadable.building {τ ρ : Type} (build : τ → τ) (leftovers : τ → List ρ) :
    Reloadable τ ρ where
  prepare old value := (build value, old.elim [] leftovers)

/-- A configuration with the value in force. -/
structure LiveConfig (τ : Type) where
  current : τ

namespace LiveConfig

variable {τ ρ : Type}

/-- The value in force. -/
def load (live : LiveConfig τ) : τ :=
  live.current

/-- A configuration that starts with a value. -/
def new (hook : Reloadable τ ρ) (value : τ) : LiveConfig τ × List ρ :=
  let (value, retired) := hook.prepare none value
  (⟨value⟩, retired)

/-- Puts a new value in force. -/
def update (live : LiveConfig τ) (hook : Reloadable τ ρ) (value : τ) : LiveConfig τ × List ρ :=
  let (value, retired) := hook.prepare (some live.load) value
  (⟨value⟩, retired)

/-- The first value of a configuration, or its next one. -/
def publish (hook : Reloadable τ ρ) (value : τ) : Option (LiveConfig τ) → LiveConfig τ × List ρ
  | none => new hook value
  | some live => live.update hook value

end LiveConfig

end Outbound
