import Outbound.Json

/-!
# Log events

An event has a level, the place it comes from, a message and further fields by name.
-/

namespace Outbound

/-- From the most to the least urgent. -/
inductive Level where
  | error
  | warn
  | info
  | debug
  | trace
deriving Repr, DecidableEq

namespace Level

def name : Level → String
  | error => "ERROR"
  | warn => "WARN"
  | info => "INFO"
  | debug => "DEBUG"
  | trace => "TRACE"

/-- One for the most urgent level, five for the least. -/
def rank : Level → Nat
  | error => 1
  | warn => 2
  | info => 3
  | debug => 4
  | trace => 5

end Level

structure LogEvent where
  level : Level
  target : String
  message : String
  fields : List (String × Json) := []

end Outbound
