import Outbound.Proofs.Eth.Completion
import Outbound.Proofs.Eth.Resending

/-!
# What becomes of a call that was taken

A call that was taken returns because its context has ended, or it was sent to the endpoint of its
block and returns what its own place in the last attempt came to. When no task can act any more,
every call has returned whose caller has not left.
-/

namespace Outbound.Eth

variable {ι : Type}

/-- The batch of the job was sent, and no other attempt is to come yet. -/
def BatchJob.isSent (job : BatchJob ι) : Bool :=
  match job.phase with
  | .sent _ => true
  | .delivering _ _ _ => true
  | .done result => result.isSome
  | _ => false

theorem BatchJob.isSent_of_result {job : BatchJob ι} {result : CallBatch ι × BatchOutcome}
    (h : job.result? = some result) : job.isSent = true := by
  unfold result? at h
  unfold isSent
  split at h
  · rename_i hphase
    rw [hphase]
  · rename_i hphase
    rw [hphase, h]
    rfl
  · cases h

namespace BatchingClient

variable [DecidableEq ι] {client : Client} {policy : BackoffPolicy} {limits : BatchLimits}
  {start now : Time} {s : BatchingClient ι} {journal : List (Entry ι)}

/-- A job gets past an attempt only by making it. -/
theorem sentBy_ne_nil {y : Time × BatchingClient ι}
    (run : Journaled (start, new client policy limits) journal y) {k : Nat} {job : BatchJob ι}
    (hjob : y.2.jobs[k]? = some job) (hsent : job.isSent = true) : sentBy k journal ≠ [] := by
  induction run generalizing job with
  | refl => cases hjob
  | wait run h ih => exact ih hjob hsent
  | @event journal now s s' run e hs ih =>
    have hold {old : BatchJob ι} (hjob : s.jobs[k]? = some old) (hsent : old.isSent = true) :
        sentBy k (journal ++ (s.noted? e).toList) ≠ [] := by
      rw [sentBy_append]
      exact List.append_ne_nil_of_left_ne_nil (ih hjob hsent) _
    rcases getElem?_jobs_step hs hjob with ⟨-, hsame⟩ | ⟨-, -, lane, number, window, rfl⟩ |
      ⟨old, hk, hbefore, -, hnext⟩
    · exact hold hsame hsent
    · cases hsent
    · cases hnext with
      | attempt hphase =>
        cases hk
        simp [sentBy_append, noted?, hbefore, hphase, Entry.sent?]
      | conclude hphase hlast => exact hold hbefore (by rw [BatchJob.isSent, hphase])
      | deliver hphase => exact hold hbefore (by rw [BatchJob.isSent, hphase])
      | finish hphase => exact hold hbefore (by rw [BatchJob.isSent, hphase])
      | _ => cases hsent

/-- The call was sent in a batch to the endpoint of its block, and that is what its own place in the
batch came to. -/
def AnsweredBy (s : BatchingClient ι) (journal : List (Entry ι)) (call : PendingCall ι)
    (r : Outcome (List UInt8)) : Prop :=
  ∃ (k : Nat) (job : BatchJob ι) (batch : CallBatch ι) (outcome : BatchOutcome) (i : Nat),
    s.jobs[k]? = some job ∧ job.result? = some (batch, outcome) ∧
      batch.calls[i]? = some call ∧ r = outcomeAt outcome i ∧
      ∃ a ∈ sentBy k journal, call.request ∈ a.requests ∧
        a.endpoint = s.client.endpoint call.block

/-- A call that was taken returns that its context has ended, or what was sent for it came to. -/
theorem answeredBy_of_returned
    (run : Journaled (start, new client policy limits) journal (now, s)) {id : ι} {c : Caller}
    (hc : s.callers id = some c) (haccepted : c.accepted = true) {t : Time}
    {r : Outcome (List UInt8)} (hreturned : c.returned = some (t, r)) :
    (∃ reason, r = .error (.ended reason) ∧ c.ctx.endedBy s.tokens now reason = true) ∨
      s.AnsweredBy journal (c.call id) r := by
  have h := sound_of_run run.moves (sound_new client policy limits start)
  refine (h.position_of_returned hc haccepted hreturned).imp_right ?_
  rintro ⟨job, hjob, batch, outcome, i, hresult, hcall, rfl⟩
  obtain ⟨k, hk⟩ := List.getElem?_of_mem hjob
  have hrecorded := (recorded_of_run run).1 k job hk
  obtain ⟨a, ha⟩ := List.exists_mem_of_ne_nil _
    (sentBy_ne_nil run hk (BatchJob.isSent_of_result hresult))
  obtain ⟨batch', hbatch', rfl⟩ := hrecorded.sent a ha
  have hshaped := h.shaped job hjob
  have hmem : c.call id ∈ batch'.calls := by
    rw [hshaped.calls_eq hbatch']
    exact List.mem_of_getElem? hcall
  have hlane {call : PendingCall ι} (hcall : call ∈ batch'.calls) :
      Lane.ofBlock call.block = job.lane := by
    rw [hshaped.calls_eq hbatch'] at hcall
    exact (h.call_known hjob (job.kept_sublist.subset hcall)).1
  obtain ⟨first, hfirst, hendpoint⟩ := ((hrecorded.batch batch' hbatch').2).endpoint
  refine ⟨k, job, batch, outcome, i, hk, hresult, ?_, rfl, _, ha, List.mem_map_of_mem hmem, ?_⟩
  · rw [hshaped.kept_of_result hresult]
    exact hcall
  · rw [(settings_run run.moves).1]
    exact hendpoint.trans (endpoint_eq_of_lane client ((hlane hfirst).trans (hlane hmem).symm))

/-- When no task can act any more, a call that was taken has returned, unless its caller has left. -/
theorem returned_of_quiet {events : List (Event ι)}
    (run : Run (start, new client policy limits) events (now, s)) (hq : s.Quiet) {id : ι}
    {c : Caller} (hc : s.callers id = some c) (haccepted : c.accepted = true)
    (hstays : .leave id ∉ events) : ∃ t r, c.returned = some (t, r) := by
  have h := sound_of_run run.moves (sound_new client policy limits start)
  have hreturned := (returned_or_left run hc (h.waiterGone_of_quiet hq hc haccepted)).resolve_right
    hstays
  obtain ⟨⟨t, r⟩, hr⟩ := Option.isSome_iff_exists.1 hreturned
  exact ⟨t, r, hr⟩

end BatchingClient

end Outbound.Eth
