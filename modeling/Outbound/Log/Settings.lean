import Outbound.Json.Shape

/-!
# Settings of logging and tracing
-/

namespace Outbound

structure LogSettings where
  serviceName : String := "service-kit"
  level : String := "info"
  /-- Where spans are sent to. -/
  otlpEndpoint : Option String := none

namespace LogSettings

def fields {σ : Type} (format : Format σ) : List (Field σ LogSettings) :=
  [{ name := "service_name", set := fun r v ↦ do
      return { r with serviceName := ← format.text v } },
    { name := "level", set := fun r v ↦ do return { r with level := ← format.text v } },
    { name := "otlp_endpoint", set := fun r v ↦ do
      return { r with otlpEndpoint := ← format.optionalText v } }]

def read {σ : Type} (format : Format σ) (v : σ) : Shaped LogSettings :=
  format.record "LogConfig" (fields format) {} v

end LogSettings

end Outbound
