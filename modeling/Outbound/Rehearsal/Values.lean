import Outbound.Rehearsal.Notation

/-!
# Single values

Rehearsals of one value: an error with its text, a call message, a block reference and a Redis
error with its classes.
-/

namespace Outbound.Rehearsal

def errorValue (script : Json) : Json :=
  match error? (script.member "of") with
  | none => badInput
  | some e =>
    .ofMembers [("kind", .str (kindOf e)), ("message", .str e.message),
      ("context", .bool e.isContextError), ("source", .ofOption .str e.source?)]

def callArg (script : Json) : Json :=
  .ofMembers [("arg", (callMsg (script.member "msg")).arg)]

def blockArg (script : Json) : Json :=
  .ofMembers [("arg", .str (blockRef (script.member "block")).tag)]

def redisErrorValue (script : Json) : Json :=
  match redisError? (script.member "of") with
  | none => badInput
  | some e =>
    .ofMembers [("refused", .bool e.isRefused), ("lost", .bool e.isLost),
      ("message", .str e.message), ("wrapped", .str (Error.redis e).message)]

end Outbound.Rehearsal
