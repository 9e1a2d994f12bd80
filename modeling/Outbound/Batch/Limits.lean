import Outbound.Agenda
import Outbound.Json.Shape

/-!
# Window limits

How many items a window holds at most and how long it stays open. Zero stands for the default.
-/

namespace Outbound

structure BatchLimits where
  maxWait : Time := 0
  maxCount : Nat := 0
deriving Repr, DecidableEq

namespace BatchLimits

def default : BatchLimits := ⟨10, 100⟩

/-- The limits with defaults in place of zeros. -/
def normalized (limits : BatchLimits) : BatchLimits where
  maxWait := if limits.maxWait = 0 then default.maxWait else limits.maxWait
  maxCount := if limits.maxCount = 0 then default.maxCount else limits.maxCount

def fields {σ : Type} (format : Format σ) : List (Field σ BatchLimits) :=
  [{ name := "max_wait_ms", set := fun r v ↦ do
      return { r with maxWait := ← format.unsigned "u64" v } },
    { name := "max_count", set := fun r v ↦ do
      return { r with maxCount := ← format.unsigned "usize" v } }]

/-- Reads limits as they were written, zeros included. -/
def read {σ : Type} (format : Format σ) (v : σ) : Shaped BatchLimits :=
  format.record "BatchConfig" (fields format) {} v

/-- Whether room for a full window of items of that many bytes can be asked for at once. -/
def reservable (limits : BatchLimits) (itemBytes : Nat) : Bool :=
  fitsSigned (limits.maxCount * itemBytes)

end BatchLimits

end Outbound
