import Outbound.Proofs.Eth.Attempts
import Outbound.Proofs.Eth.Correlation
import Outbound.Proofs.Eth.Preservation

/-!
# Runs in which nodes answer

When each endpoint is a node that answers every request, the first attempt at a batch succeeds.
All calls of a batch go to the endpoint of each of them, and the context of a batch never ends, so
the outcome of a batch is what that node makes of each of its calls.
-/

namespace Outbound.Eth

open Rpc (Verdict)

variable {ι : Type} [DecidableEq ι]

/-- What an attempt at a batch comes to when its node answers: what is read from the reply, unless
the context of the batch has ended before. -/
inductive CallBatch.FromNode (verdicts : Role → Verdict) (now : Time) (tokens : Tokens)
    (batch : CallBatch ι) : BatchOutcome → Prop where
  | reply {first : UInt64} {exchange : Exchange}
    (h : (verdicts batch.endpoint).AnswersAll (Rpc.batchJson first batch.requests) exchange) :
    FromNode verdicts now tokens batch (Rpc.readBatch first batch.requests.length exchange)
  | ended {reason : Reason} (h : batch.ctx.endedBy tokens now reason = true) :
    FromNode verdicts now tokens batch (.error (.ended reason))

/-- All calls of the batch go where the batch goes, and nothing can end its context. -/
structure CallBatch.Placed (client : Client) (detached : List Nat) (batch : CallBatch ι) : Prop where
  endpoint : ∀ call ∈ batch.calls, batch.endpoint = client.endpoint call.block
  token : batch.ctx.token ∈ detached
  deadline : batch.ctx.deadline = none

/-- What nodes make of the calls of a batch. -/
def CallBatch.served (verdicts : Role → Verdict) (batch : CallBatch ι) : BatchOutcome :=
  .ok (batch.requests.map (verdicts batch.endpoint).outcome)

def BatchJob.Served (verdicts : Role → Verdict) (client : Client) (detached : List Nat)
    (job : BatchJob ι) : Prop :=
  match job.phase with
  | .checking _ => True
  | .ready batch _ => batch.Placed client detached
  | .sent batch => batch.Placed client detached
  | .delivering batch outcome _ => batch.Placed client detached ∧ outcome = batch.served verdicts
  | .done (some (batch, outcome)) =>
    batch.Placed client detached ∧ outcome = batch.served verdicts
  | .done none => True

section

variable {client : Client} {detached detached' : List Nat}

omit [DecidableEq ι] in
theorem CallBatch.Placed.mono {batch : CallBatch ι} (h : batch.Placed client detached)
    (hsub : detached ⊆ detached') : batch.Placed client detached' :=
  { h with token := hsub h.token }

omit [DecidableEq ι] in
theorem BatchJob.Served.mono {verdicts : Role → Verdict} {job : BatchJob ι}
    (h : job.Served verdicts client detached) (hsub : detached ⊆ detached') :
    job.Served verdicts client detached' := by
  unfold Served at h ⊢
  split at h
  · trivial
  · exact h.mono hsub
  · exact h.mono hsub
  · exact ⟨h.1.mono hsub, h.2⟩
  · exact ⟨h.1.mono hsub, h.2⟩
  · trivial

/-- One lane goes to one endpoint. -/
theorem endpoint_eq_of_lane (client : Client) {b b' : BlockRef}
    (h : Lane.ofBlock b = Lane.ofBlock b') : client.endpoint b = client.endpoint b' := by
  have hnone : b.isNone = b'.isNone := by
    cases b <;> cases b' <;> first | rfl | cases h
  rw [Client.endpoint, Client.endpoint, hnone]

end

namespace BatchingClient

def Event.FromNodes (verdicts : Role → Verdict) (now : Time) (s : BatchingClient ι) :
    Event ι → Prop
  | .reply k outcome _ => ∀ job batch, s.jobs[k]? = some job → job.phase = .sent batch →
      batch.FromNode verdicts now s.tokens outcome
  | _ => True

inductive NodeRun (verdicts : Role → Verdict) (x : Time × BatchingClient ι) :
    List (Event ι) → Time × BatchingClient ι → Prop where
  | refl : NodeRun verdicts x [] x
  | wait {events : List (Event ι)} {now later : Time} {s : BatchingClient ι}
    (run : NodeRun verdicts x events (now, s)) (h : now ≤ later) :
    NodeRun verdicts x events (later, s)
  | event {events : List (Event ι)} {now : Time} {s s' : BatchingClient ι}
    (run : NodeRun verdicts x events (now, s)) (e : Event ι) (h : s.step now e = some s')
    (n : e.FromNodes verdicts now s) : NodeRun verdicts x (events ++ [e]) (now, s')

/-- The batches of the jobs are in the right places, and nobody has canceled a batch. -/
structure Served (verdicts : Role → Verdict) (s : BatchingClient ι) : Prop where
  detached : ∀ t ∈ s.detached, s.tokens.nodes[t]? = some ⟨none, false⟩
  jobs : ∀ job ∈ s.jobs, job.Served verdicts s.client s.detached

theorem NodeRun.run {verdicts : Role → Verdict} {x y : Time × BatchingClient ι}
    {events : List (Event ι)} (h : NodeRun verdicts x events y) : Run x events y := by
  induction h with
  | refl => exact .refl
  | wait run h ih => exact .wait ih h
  | event run e h n ih => exact .event ih e h

variable {verdicts : Role → Verdict} {limits : BatchLimits} {now : Time}
  {s s' : BatchingClient ι}

theorem Booked.length_window_le (h : Booked limits now s) {job : BatchJob ι}
    (hjob : job ∈ s.jobs) : job.window.length ≤ limits.normalized.maxCount := by
  obtain ⟨w, hw, heq⟩ := Option.map_eq_some_iff.1 (h.windows job hjob)
  rw [← heq]
  exact ((h.lanes job.lane).sizes w (List.mem_of_getElem? hw)).2

theorem normalized_maxCount_le (hcount : limits.maxCount < 2 ^ 64) :
    limits.normalized.maxCount ≤ 2 ^ 64 := by
  simp only [BatchLimits.normalized]
  split
  · decide
  · exact hcount.le

theorem Served.eq_served (h : Served verdicts s) (hs : Sound limits now s)
    (hcount : limits.maxCount < 2 ^ 64) {job : BatchJob ι} {batch : CallBatch ι}
    {outcome : BatchOutcome} (hjob : job ∈ s.jobs) (hphase : job.phase = .sent batch)
    (hnode : batch.FromNode verdicts now s.tokens outcome) : outcome = batch.served verdicts := by
  have hplaced := h.jobs job hjob
  simp only [BatchJob.Served, hphase] at hplaced
  cases hnode with
  | reply hanswers =>
    have hshaped := hs.shaped job hjob
    simp only [BatchJob.Shaped, hphase] at hshaped
    have hlength : batch.requests.length ≤ 2 ^ 64 := by
      rw [CallBatch.requests, List.length_map, hshaped]
      exact (job.kept_sublist.length_le.trans (hs.length_window_le hjob)).trans
        (normalized_maxCount_le hcount)
    exact Rpc.readBatch_of_answers hlength hanswers
  | @ended reason hended =>
    cases reason with
    | canceled =>
      simp [Context.endedBy, Tokens.isCanceled, h.detached _ hplaced.token] at hended
    | deadlineExceeded =>
      simp [Context.endedBy, Context.expired, hplaced.deadline] at hended

theorem Served.next (h : Served verdicts s) (hs : Sound limits now s)
    (hcount : limits.maxCount < 2 ^ 64) {k : Nat} {job job' : BatchJob ι} {e : Event ι}
    (hk : e.job? = some k) (hjob : s.jobs[k]? = some job) (hact : JobAct now s k job e s')
    (hnext : JobNext now s job e job') (hnode : e.FromNodes verdicts now s)
    (hsub : s.detached ⊆ s'.detached) : job'.Served verdicts s.client s'.detached := by
  have hmem := List.mem_of_getElem? hjob
  have hjobServed := h.jobs job hmem
  cases hnext with
  | check hphase => trivial
  | unsent hphase => trivial
  | @assemble n batch tokens hphase hbatch =>
    obtain ⟨hcalls, -, ⟨first, hfirst, hendpoint⟩, -, hdeadline, -, -⟩ :=
      CallBatch.ofWindow?_eq_some hbatch
    have hlane {call : PendingCall ι} (hcall : call ∈ batch.calls) :
        Lane.ofBlock call.block = job.lane := by
      rw [hcalls] at hcall
      exact (hs.call_known hmem (List.mem_of_mem_filter hcall)).1
    refine ⟨fun call hcall ↦ ?_, detached_assemble hbatch hact, hdeadline⟩
    rw [hendpoint]
    exact endpoint_eq_of_lane s.client ((hlane hfirst).trans (hlane hcall).symm)
  | attempt hphase =>
    simp only [BatchJob.Served, hphase] at hjobServed
    exact hjobServed.mono hsub
  | again hphase hnext =>
    cases hk
    cases h.eq_served hs hcount hmem hphase (hnode job _ hjob hphase)
  | conclude hphase hlast =>
    simp only [BatchJob.Served, hphase] at hjobServed
    cases hk
    exact ⟨hjobServed.mono hsub,
      h.eq_served hs hcount hmem hphase (hnode job _ hjob hphase)⟩
  | deliver hphase =>
    simp only [BatchJob.Served, hphase] at hjobServed
    exact ⟨hjobServed.1.mono hsub, hjobServed.2⟩
  | finish hphase =>
    simp only [BatchJob.Served, hphase] at hjobServed
    exact ⟨hjobServed.1.mono hsub, hjobServed.2⟩

theorem Served.step (h : Served verdicts s) (hs : Sound limits now s)
    (hcount : limits.maxCount < 2 ^ 64) {e : Event ι} (hstep : s.step now e = some s')
    (hnode : e.FromNodes verdicts now s) : Served verdicts s' := by
  obtain ⟨hsub, hdetached⟩ := detached_step hstep h.detached
  have hclient := (settings_step hstep).1
  have hold {job : BatchJob ι} (hjob : job ∈ s.jobs) :
      job.Served verdicts s'.client s'.detached :=
    hclient ▸ (h.jobs job hjob).mono hsub
  refine ⟨hdetached, fun job' hjob' ↦ ?_⟩
  rcases jobs_step hstep with ⟨-, hjobs⟩ | ⟨-, lane, number, window, hjobs⟩ |
    ⟨k, job, next, hk, hjob, hact, hnext, hjobs⟩
  · rw [hjobs] at hjob'
    exact hold hjob'
  · rw [hjobs] at hjob'
    rcases List.mem_append.1 hjob' with hjob' | hjob'
    · exact hold hjob'
    · rw [List.mem_singleton.1 hjob']
      trivial
  · rw [hjobs] at hjob'
    rcases List.mem_or_eq_of_mem_set hjob' with hjob' | rfl
    · exact hold hjob'
    · rw [hclient]
      exact h.next hs hcount hk hjob hact hnext hnode hsub

end BatchingClient

end Outbound.Eth
