import Outbound.Proofs.Eth.Attempts
import Outbound.Proofs.Eth.Correlation
import Outbound.Proofs.Eth.Preservation

/-!
# Every call that is not left out is answered once, with its own element

The calls of a batch are those of its window that somebody still waited for, and each of them is
given one result: what the last attempt came to in its own position. So no call returns the
element of another one, and none returns that its task was dropped.
-/

namespace Outbound.Eth

open Relation

variable {ι : Type} [DecidableEq ι]

namespace BatchJob

theorem Shaped.kept_of_result {job : BatchJob ι} (h : job.Shaped) {batch : CallBatch ι}
    {outcome : BatchOutcome} (hresult : job.result? = some (batch, outcome)) :
    batch.calls = job.kept := by
  unfold Shaped at h
  unfold result? at hresult
  split at hresult
  · rename_i hphase
    rw [hphase] at h
    cases hresult
    exact h.1
  · rename_i result hphase
    rw [hphase, hresult] at h
    exact h
  · cases hresult

omit [DecidableEq ι] in
/-- What a job gives is what its last attempt came to for the call in that position. -/
theorem exists_of_mem_resolved {job : BatchJob ι} {id : ι} {r : Outcome (List UInt8)}
    (h : (id, r) ∈ job.resolved) :
    ∃ batch outcome i call, job.result? = some (batch, outcome) ∧
      batch.calls[i]? = some call ∧ call.caller = id ∧ r = outcomeAt outcome i := by
  have hanswers {batch : CallBatch ι} {outcome : BatchOutcome}
      (hmem : (id, r) ∈ answers batch.calls outcome) :
      ∃ i call, batch.calls[i]? = some call ∧ call.caller = id ∧ r = outcomeAt outcome i := by
    obtain ⟨i, call, hcall, heq⟩ := mem_answers.1 hmem
    cases heq
    exact ⟨i, call, hcall, rfl, rfl⟩
  unfold resolved at h
  split at h
  · rename_i batch outcome left hphase
    obtain ⟨i, call, hrest⟩ := hanswers (List.mem_of_mem_take h)
    exact ⟨batch, outcome, i, call, by simp [result?, hphase], hrest⟩
  · rename_i batch outcome hphase
    obtain ⟨i, call, hrest⟩ := hanswers h
    exact ⟨batch, outcome, i, call, by simp [result?, hphase], hrest⟩
  · cases h

end BatchJob

namespace BatchingClient

variable {limits : BatchLimits} {now : Time} {s s' : BatchingClient ι}

namespace Sound

theorem given_nodup (h : Sound limits now s) : (s.given.map Prod.fst).Nodup := by
  have hkeys := (h.given.map Prod.fst).nodup_iff.2 h.resolved_nodup
  rw [List.map_map] at hkeys
  exact hkeys

/-- A result that a job has given is the only one that was ever given to its caller. -/
theorem given_once (h : Sound limits now s) {id : ι} {r : Outcome (List UInt8)}
    (hmem : (id, r) ∈ s.resolved) :
    (s.given.filter fun g ↦ g.1 = id) = [(id, r, true)] := by
  obtain ⟨⟨id', r', first⟩, hg, heq⟩ := List.mem_map.1 (h.given.mem_iff.2 hmem)
  cases heq
  have hfirst : first = true := h.first _ hg
  rw [hfirst] at hg
  exact filter_fst_eq_singleton h.given_nodup hg

theorem not_given_of_gone (h : Sound limits now s) {job : BatchJob ι} (hjob : job ∈ s.jobs)
    {id : ι} (hid : id ∈ job.gone) : ∀ g ∈ s.given, g.1 ≠ id := by
  rintro ⟨id', r, first⟩ hg rfl
  have hmem : (id', r) ∈ s.resolved := h.given.mem_iff.1 (List.mem_map_of_mem hg)
  obtain ⟨other, hother, hr⟩ := List.mem_flatMap.1 hmem
  have hkept := (h.shaped other hother).resolved_sublist.subset (List.mem_map_of_mem hr)
  obtain ⟨call, hcall, hcaller⟩ := List.mem_map.1 hkept
  have hwindow := (h.gone job hjob id' hid).1
  have hsame := h.job_unique hother hjob
    (List.mem_map.2 ⟨call, other.kept_sublist.subset hcall, hcaller⟩) hwindow
  subst hsame
  have hgone := (List.mem_filter.1 hcall).2
  rw [hcaller] at hgone
  simp [hid] at hgone

end Sound

/-- What has become of the calls of a window, given the attempts at its batch. -/
structure FannedOut (policy : BackoffPolicy) (attempts : List Attempted) (s : BatchingClient ι)
    (job : BatchJob ι) : Prop where
  /-- Nobody waited for the calls that were left out, and nobody ever does. -/
  left_out : ∀ id ∈ job.gone, id ∈ job.window.map (·.caller) ∧ s.isAbandoned id = true ∧
    ∀ g ∈ s.given, g.1 ≠ id
  /-- The batch has the other calls, and its outcome is that of the last attempt. -/
  outcome : job.result?.map (fun r ↦ (r.1.calls, r.2)) =
    (lastOutcome? policy.maxRetries policy.start attempts).map fun outcome ↦ (job.kept, outcome)
  answered : ∀ batch outcome, job.phase = .done (some (batch, outcome)) →
    ∀ i call, job.kept[i]? = some call →
      (s.given.filter fun g ↦ g.1 = call.caller) = [(call.caller, outcomeAt outcome i, true)]
  unsent : job.phase = .done none → job.kept = []

theorem Sound.fannedOut (h : Sound limits now s) {job : BatchJob ι} (hjob : job ∈ s.jobs)
    {policy : BackoffPolicy} {attempts : List Attempted} (htried : job.Tried policy attempts) :
    FannedOut policy attempts s job := by
  have hshaped := h.shaped job hjob
  refine ⟨fun id hid ↦ ?_, ?_, fun batch outcome hphase i call hcall ↦ ?_, fun hphase ↦ ?_⟩
  · obtain ⟨hwindow, habandoned⟩ := h.gone job hjob id hid
    exact ⟨hwindow, habandoned, h.not_given_of_gone hjob hid⟩
  · rw [← htried.outcome, Option.map_map]
    cases hresult : job.result? with
    | none => rfl
    | some r =>
      obtain ⟨batch, outcome⟩ := r
      have hcalls := hshaped.kept_of_result hresult
      simp [hcalls]
  · simp only [BatchJob.Shaped, hphase] at hshaped
    refine h.given_once (List.mem_flatMap.2 ⟨job, hjob, ?_⟩)
    simp only [BatchJob.resolved, hphase]
    rw [hshaped]
    exact mem_answers.2 ⟨i, call, hcall, rfl⟩
  · simp only [BatchJob.Shaped, hphase] at hshaped
    exact hshaped

theorem Sound.position_of_resolved (h : Sound limits now s) {id : ι} {r : Outcome (List UInt8)}
    (hmem : (id, r) ∈ s.resolved) :
    ∃ job ∈ s.jobs, ∃ batch outcome i call, job.result? = some (batch, outcome) ∧
      job.kept[i]? = some call ∧ call.caller = id ∧ r = outcomeAt outcome i := by
  obtain ⟨job, hjob, hr⟩ := List.mem_flatMap.1 hmem
  obtain ⟨batch, outcome, i, call, hresult, hcall, hcaller, heq⟩ :=
    BatchJob.exists_of_mem_resolved hr
  rw [(h.shaped job hjob).kept_of_result hresult] at hcall
  exact ⟨job, hjob, batch, outcome, i, call, hresult, hcall, hcaller, heq⟩

/-- A call that was taken returns that its context has ended or what its own position came to. -/
theorem Sound.position_of_returned (h : Sound limits now s) {id : ι} {c : Caller} {t : Time}
    {r : Outcome (List UInt8)} (hc : s.callers id = some c) (haccepted : c.accepted = true)
    (hreturned : c.returned = some (t, r)) :
    (∃ reason, r = .error (.ended reason) ∧ c.ctx.endedBy s.tokens now reason = true) ∨
      ∃ job ∈ s.jobs, ∃ batch outcome i, job.result? = some (batch, outcome) ∧
        job.kept[i]? = some (c.call id) ∧ r = outcomeAt outcome i := by
  rcases (h.fine id c hc).returned t r hreturned with hresult | hended | ⟨hrejected, -⟩
  · right
    obtain ⟨job, hjob, batch, outcome, i, call, hbatch, hcall, rfl, heq⟩ :=
      h.position_of_resolved ((h.result_iff id c hc r).1 hresult)
    obtain ⟨-, d, hd, -, hdcall⟩ :=
      h.call_known hjob (job.kept_sublist.subset (List.mem_of_getElem? hcall))
    rw [hc] at hd
    cases hd
    rw [← hdcall] at hcall
    exact ⟨job, hjob, batch, outcome, i, hbatch, hcall, heq⟩
  · exact .inl hended
  · rw [haccepted] at hrejected
    cases hrejected

/-- The next caller of a window can be asked, and is left out if it does not wait. -/
theorem exists_step_check {k : Nat} {job : BatchJob ι} {call : PendingCall ι} {rest : List (PendingCall ι)}
    (hjob : s.jobs[k]? = some job) (hphase : job.phase = .checking (call :: rest)) :
    ∃ s' job', s.step now (.check k) = some s' ∧ s'.jobs[k]? = some job' ∧
      job'.phase = .checking rest ∧
      job'.gone = job.gone ++ if s.isAbandoned call.caller then [call.caller] else [] := by
  have hact : JobAct now s k job (.check k) (s.check k job call rest) := .check hphase
  obtain ⟨job', hnext, hjobs⟩ := jobs_jobAct hact
  refine ⟨_, job', step_of_jobAct rfl hjob hact, ?_, ?_⟩
  · rw [hjobs]
    exact getElem?_setJob hjob job'
  · cases hnext with
    | check hphase' =>
      rw [hphase] at hphase'
      cases hphase'
      exact ⟨rfl, rfl⟩

/-- Whatever callers, lanes, the transport and the policy did so far: each window has become a
batch of those calls whose callers waited when they were asked, and once the attempts at it have
come to an end, each of these calls is given one result, the outcome of the last attempt in its
own position. Nothing else is given to anybody. So a call that was taken returns what its own
position came to, unless its context has ended, and it returns that its task was dropped only if
the transport says so, which no reply of a node makes it do. -/
theorem every_waiting_call_answered_once {client : Client} {policy : BackoffPolicy}
    {limits : BatchLimits} {start now : Time} {s : BatchingClient ι} {events : List (Event ι)}
    (run : Run (start, new client policy limits) events (now, s)) :
    (∀ k job, s.jobs[k]? = some job → FannedOut policy (attemptsOf k events) s job) ∧
      (∀ k job call rest, s.jobs[k]? = some job → job.phase = .checking (call :: rest) →
        ∃ s' job', s.step now (.check k) = some s' ∧ s'.jobs[k]? = some job' ∧
          job'.phase = .checking rest ∧
          job'.gone = job.gone ++ if s.isAbandoned call.caller then [call.caller] else []) ∧
      (∀ k job attempts outcome, s.jobs[k]? = some job →
        lastOutcome? policy.maxRetries policy.start (attemptsOf k events ++ attempts) =
          some outcome → Finishes k now s outcome) ∧
      (s.given.map Prod.fst).Nodup ∧
      (∀ g ∈ s.given, ∃ job ∈ s.jobs, ∃ batch outcome i call,
        job.result? = some (batch, outcome) ∧ job.kept[i]? = some call ∧
        g = (call.caller, outcomeAt outcome i, true)) ∧
      (∀ id c t r, s.callers id = some c → c.accepted = true → c.returned = some (t, r) →
        (∃ reason, r = .error (.ended reason) ∧ c.ctx.endedBy s.tokens now reason = true) ∨
          ∃ job ∈ s.jobs, ∃ batch outcome i, job.result? = some (batch, outcome) ∧
            job.kept[i]? = some (c.call id) ∧ r = outcomeAt outcome i) ∧
      (∀ id c t, s.callers id = some c → c.accepted = true →
        c.returned = some (t, .error .abandoned) →
        ∃ k, ∃ attempt ∈ attemptsOf k events, attempt.1.reports .abandoned) ∧
      ∀ first count exchange, ¬BatchOutcome.reports (Rpc.readBatch first count exchange) .abandoned := by
  have h := sound_of_run run.moves (sound_new client policy limits start)
  obtain ⟨htried, -⟩ := tried_of_run run
  have hpolicy : s.policy = policy := (settings_run run.moves).2
  refine ⟨fun k job hjob ↦ h.fannedOut (List.mem_of_getElem? hjob) (htried k job hjob),
    fun k job call rest hjob hphase ↦ exists_step_check hjob hphase, fun k job attempts outcome hjob hlast ↦ ?_,
    h.given_nodup, ?_, fun id c t r hc ↦ h.position_of_returned hc, ?_,
    Rpc.readBatch_not_abandoned⟩
  · subst hpolicy
    exact finishes_of_tried hjob (htried k job hjob) hlast
  · rintro ⟨id, r, first⟩ hg
    have hfirst : first = true := h.first _ hg
    have hmem : (id, r) ∈ s.resolved := h.given.mem_iff.1 (List.mem_map_of_mem hg)
    obtain ⟨job, hjob, batch, outcome, i, call, hresult, hcall, rfl, rfl⟩ :=
      h.position_of_resolved hmem
    exact ⟨job, hjob, batch, outcome, i, call, hresult, hcall, by rw [hfirst]⟩
  · intro id c t hc haccepted hreturned
    rcases h.position_of_returned hc haccepted hreturned with
      ⟨reason, heq, -⟩ | ⟨job, hjob, batch, outcome, i, hresult, -, heq⟩
    · cases heq
    · obtain ⟨k, hk⟩ := List.getElem?_of_mem hjob
      have hlast := (htried k job hk).outcome
      rw [hresult] at hlast
      have hmem := mem_of_lastOutcome? hlast.symm
      obtain ⟨attempt, hattempt, rfl⟩ := List.mem_map.1 hmem
      exact ⟨k, attempt, hattempt, reports_of_outcomeAt heq.symm⟩

/-- Three calls fill a window, one of the callers leaves, the first attempt fails, and the reply to
the second one is too short. -/
theorem short_reply_answered_once :
    ∃ events, ∃ s : BatchingClient Nat,
      Run (0, new ⟨false⟩ {} ⟨5, 3⟩) events (7, s) ∧
        s.jobs.map (·.gone) = [[1]] ∧
        (s.given.filter fun g ↦ g.1 = 0) = [(0, decodeBytes (.str "0x07"), true)] ∧
        (s.given.filter fun g ↦ g.1 = 2) =
          [(2, .error (.decode "batch response shorter than request"), true)] := by
  have run : Run (0, (new ⟨false⟩ {} ⟨5, 3⟩ : BatchingClient Nat)) _ (7, _) :=
    .event (e := .finish 0) (h := rfl) <|
    .event (e := .deliver 0) (h := rfl) <|
    .event (e := .deliver 0) (h := rfl) <|
    .event (e := .reply 0 (.ok [.ok (.str "0x07")]) fun _ ↦ none) (h := rfl) <|
    .event (e := .attempt 0) (h := rfl) <|
    .wait (h := by decide) <|
    .event (e := .reply 0 (.error (.http .timeout)) fun _ ↦ some (0, 0)) (h := rfl) <|
    .event (e := .attempt 0) (h := rfl) <|
    .event (e := .assemble 0) (h := rfl) <|
    .event (e := .check 0) (h := rfl) <|
    .event (e := .check 0) (h := rfl) <|
    .event (e := .check 0) (h := rfl) <|
    .event (e := .lane .latest (.handOver 0)) (h := rfl) <|
    .event (e := .leave 1) (h := rfl) <|
    .event (e := .call 2 {} none ⟨0, none, none⟩) (h := rfl) <|
    .event (e := .call 1 {} none ⟨0, none, none⟩) (h := rfl) <|
    .event (e := .call 0 {} none ⟨0, none, none⟩) (h := rfl) <|
    .event (e := .derive none) (h := rfl) .refl
  obtain ⟨hfanned, -⟩ := every_waiting_call_answered_once run
  have h := hfanned 0 _ rfl
  exact ⟨_, _, run, rfl, h.answered _ _ rfl 0 _ rfl, h.answered _ _ rfl 1 _ rfl⟩

end BatchingClient

end Outbound.Eth
