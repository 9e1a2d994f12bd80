import Outbound.Eth.Journal
import Outbound.Proofs.Eth.NodeRuns
import Outbound.Proofs.Eth.Preservation

/-!
# All attempts at a batch are the same

A job asks the callers of its window one after the other, and what it sends from then on is
settled: the calls of those who still waited, in the order of their lane, to the endpoint of their
blocks, under a context that has a token of its own and no deadline. Whatever callers do between two
attempts changes nothing about the next one.
-/

namespace Outbound.Eth

open Relation BatchingClient

variable {ι : Type}

def stillWaiting (asked : List (PendingCall ι × Bool)) : List (PendingCall ι) :=
  (asked.filter fun x ↦ !x.2).map Prod.fst

/-- When callers differ, leaving out those who had gone leaves those who waited. -/
theorem filter_gone_eq_stillWaiting [DecidableEq ι] {asked : List (PendingCall ι × Bool)}
    (hnodup : (asked.map fun x ↦ x.1.caller).Nodup) :
    ((asked.map Prod.fst).filter fun call ↦
      !((asked.filter (·.2)).map (·.1.caller)).contains call.caller) = stillWaiting asked := by
  rw [stillWaiting, List.filter_map]
  congr 1
  apply List.filter_congr
  intro x hx
  have hmem : x.1.caller ∈ (asked.filter (·.2)).map (·.1.caller) ↔ x.2 = true := by
    constructor
    · intro hgone
      obtain ⟨y, hy, hsame⟩ := List.mem_map.1 hgone
      obtain ⟨hy, hgone⟩ := List.mem_filter.1 hy
      rwa [← List.inj_on_of_nodup_map hnodup hy hx hsame]
    · intro hgone
      exact List.mem_map.2 ⟨x, List.mem_filter.2 ⟨hx, hgone⟩, rfl⟩
  rw [Function.comp_apply, Bool.eq_iff_iff]
  simp [hmem]

namespace JobPhase

def batch? : JobPhase ι → Option (CallBatch ι)
  | checking _ => none
  | ready batch _ => some batch
  | sent batch => some batch
  | delivering batch _ _ => some batch
  | done result => result.map Prod.fst

def unasked : JobPhase ι → List (PendingCall ι)
  | checking rest => rest
  | _ => []

end JobPhase

namespace BatchJob

theorem Shaped.calls_eq [DecidableEq ι] {job : BatchJob ι} (h : job.Shaped) {batch : CallBatch ι}
    (hbatch : job.phase.batch? = some batch) : batch.calls = job.kept := by
  unfold Shaped at h
  split at h <;> rename_i hphase <;> rw [hphase] at hbatch <;> cases hbatch
  · exact h
  · exact h
  · exact h.1
  · exact h

/-- Where a batch goes, and under which context. -/
structure Bound (client : Client) (detached : List Nat) (batch : CallBatch ι) : Prop where
  endpoint : ∃ first ∈ batch.calls, batch.endpoint = client.endpoint first.block
  token : batch.ctx.token ∈ detached
  deadline : batch.ctx.deadline = none
  requestId : batch.calls.getLast?.map (·.ctx.requestId) = some batch.ctx.requestId

/-- What a job knows and sends is what the journal says. -/
structure Recorded (client : Client) (detached : List Nat) (asked : List (PendingCall ι × Bool))
    (sent : List Sending) (job : BatchJob ι) : Prop where
  gone : job.gone = (asked.filter (·.2)).map (·.1.caller)
  window : asked.map Prod.fst ++ job.phase.unasked = job.window
  sent : ∀ a ∈ sent, ∃ batch, job.phase.batch? = some batch ∧ a = batch.sending
  batch : ∀ batch, job.phase.batch? = some batch → job.phase.unasked = [] ∧ Bound client detached batch

end BatchJob

namespace BatchingClient

variable {now : Time} {s s' : BatchingClient ι}

/-- What the job of that number has found out, by the journal. -/
def askedBy (k : Nat) (journal : List (Entry ι)) : List (PendingCall ι × Bool) :=
  journal.filterMap (Entry.asked? k)

/-- What the job of that number has sent, by the journal. -/
def sentBy (k : Nat) (journal : List (Entry ι)) : List Sending :=
  journal.filterMap (Entry.sent? k)

theorem Journaled.moves [DecidableEq ι] {x y : Time × BatchingClient ι} {journal : List (Entry ι)}
    (run : Journaled x journal y) : ReflTransGen Move x y := by
  induction run with
  | refl => exact .refl
  | wait run h ih => exact .tail ih (.wait h)
  | event run e h ih => exact .tail ih (.event e h)

theorem exists_journal [DecidableEq ι] {x y : Time × BatchingClient ι} (run : ReflTransGen Move x y) :
    ∃ journal, Journaled x journal y := by
  induction run with
  | refl => exact ⟨[], .refl⟩
  | tail _ hm ih =>
    obtain ⟨journal, run⟩ := ih
    cases hm with
    | wait h => exact ⟨_, run.wait h⟩
    | event e h => exact ⟨_, run.event e h⟩

/-- Entries are about the job whose act it is. -/
theorem entry_of_other {k : Nat} {e : Event ι} (hk : e.job? ≠ some k) :
    (s.noted? e).toList.filterMap (Entry.asked? k) = [] ∧
      (s.noted? e).toList.filterMap (Entry.sent? k) = [] := by
  cases e with
  | check n =>
    have hn : n ≠ k := fun heq ↦ hk (congrArg some heq)
    simp only [noted?]
    split <;> simp [Entry.asked?, Entry.sent?, hn]
  | attempt n =>
    have hn : n ≠ k := fun heq ↦ hk (congrArg some heq)
    simp only [noted?]
    split <;> simp [Entry.asked?, Entry.sent?, hn]
  | _ => exact ⟨rfl, rfl⟩

theorem askedBy_append (k : Nat) (journal more : List (Entry ι)) :
    askedBy k (journal ++ more) = askedBy k journal ++ more.filterMap (Entry.asked? k) :=
  List.filterMap_append

theorem sentBy_append (k : Nat) (journal more : List (Entry ι)) :
    sentBy k (journal ++ more) = sentBy k journal ++ more.filterMap (Entry.sent? k) :=
  List.filterMap_append

end BatchingClient

namespace BatchJob.Recorded

variable {now : Time} {s s' : BatchingClient ι} {client : Client} {k : Nat}
  {job job' : BatchJob ι} {detached : List Nat} {asked : List (PendingCall ι × Bool)}
  {sent : List Sending} {batch batch' : CallBatch ι}

theorem mono (h : job.Recorded client detached asked sent) {detached' : List Nat}
    (hsub : detached ⊆ detached') : job.Recorded client detached' asked sent where
  gone := h.gone
  window := h.window
  sent := h.sent
  batch b hb :=
    have hbound := (h.batch b hb).2
    ⟨(h.batch b hb).1, hbound.endpoint, hsub hbound.token, hbound.deadline, hbound.requestId⟩

theorem of_batch (h : job.Recorded client detached asked sent)
    (hbatch : job.phase.batch? = some batch) (hbatch' : job'.phase.batch? = some batch')
    (hcalls : batch'.calls = batch.calls) (hendpoint : batch'.endpoint = batch.endpoint)
    (hctx : batch'.ctx = batch.ctx) (hgone : job'.gone = job.gone)
    (hwindow : job'.window = job.window) (hunasked : job'.phase.unasked = []) :
    job'.Recorded client detached asked sent := by
  obtain ⟨hall, hbound⟩ := h.batch batch hbatch
  refine ⟨hgone.trans h.gone, ?_, fun a ha ↦ ?_, fun b hb ↦ ⟨hunasked, ?_⟩⟩
  · rw [hunasked, hwindow, ← h.window, hall]
  · obtain ⟨b, hb, rfl⟩ := h.sent a ha
    rw [hbatch] at hb
    cases hb
    refine ⟨batch', hbatch', ?_⟩
    rw [CallBatch.sending, CallBatch.sending, CallBatch.requests, CallBatch.requests, hcalls,
      hendpoint, hctx]
  · rw [hbatch'] at hb
    cases hb
    refine ⟨?_, ?_, ?_, ?_⟩
    · rw [hcalls, hendpoint]
      exact hbound.endpoint
    · rw [hctx]
      exact hbound.token
    · rw [hctx]
      exact hbound.deadline
    · rw [hcalls, hctx]
      exact hbound.requestId

theorem send (h : job.Recorded client detached asked sent)
    (hbatch : job.phase.batch? = some batch) :
    job.Recorded client detached asked (sent ++ [batch.sending]) where
  gone := h.gone
  window := h.window
  sent a ha := by
    rcases List.mem_append.1 ha with ha | ha
    · exact h.sent a ha
    · exact ⟨batch, hbatch, List.mem_singleton.1 ha⟩
  batch := h.batch

theorem not_sent (h : job.Recorded client detached asked sent) (hnone : job.phase.batch? = none) :
    sent = [] := by
  rw [List.eq_nil_iff_forall_not_mem]
  intro a ha
  obtain ⟨batch, hbatch, -⟩ := h.sent a ha
  rw [hnone] at hbatch
  cases hbatch

variable [DecidableEq ι]

theorem next (h : job.Recorded s.client s.detached asked sent) {e : Event ι}
    (hk : e.job? = some k) (hjob : s.jobs[k]? = some job) (hact : JobAct now s k job e s')
    (hnext : JobNext now s job e job') (hsub : s.detached ⊆ s'.detached) :
    job'.Recorded s.client s'.detached
      (asked ++ (s.noted? e).toList.filterMap (Entry.asked? k))
      (sent ++ (s.noted? e).toList.filterMap (Entry.sent? k)) := by
  have hold := h.mono hsub
  have quiet (hentry : s.noted? e = none) (h : job'.Recorded s.client s'.detached asked sent) :
      job'.Recorded s.client s'.detached
        (asked ++ (s.noted? e).toList.filterMap (Entry.asked? k))
        (sent ++ (s.noted? e).toList.filterMap (Entry.sent? k)) := by
    simpa [hentry] using h
  cases hnext with
  | @check n call rest hphase =>
    cases hk
    have hsent := h.not_sent (by rw [hphase]; rfl)
    have hwindow := h.window
    rw [hphase] at hwindow
    have hentry : s.noted? (.check k) = some (.asked k call (s.isAbandoned call.caller)) := by
      simp [noted?, hjob, hphase]
    have hasked : (s.noted? (.check k)).toList.filterMap (Entry.asked? k) =
        [(call, s.isAbandoned call.caller)] := by
      simp [hentry, Entry.asked?]
    have hnone : (s.noted? (.check k)).toList.filterMap (Entry.sent? k) = [] := by
      simp [hentry, Entry.sent?]
    rw [hasked, hnone, hsent]
    refine ⟨?_, ?_, fun a ha ↦ (nomatch ha), fun batch hbatch ↦ nomatch hbatch⟩
    · rw [List.filter_append, List.map_append, ← h.gone]
      cases s.isAbandoned call.caller <;> rfl
    · rw [List.map_append, List.append_assoc]
      exact hwindow
  | @unsent n hphase =>
    have hsent := h.not_sent (by rw [hphase]; rfl)
    have hwindow := h.window
    rw [hphase] at hwindow
    refine quiet rfl ⟨h.gone, hwindow, fun a ha ↦ ?_, fun batch hbatch ↦ nomatch hbatch⟩
    rw [hsent] at ha
    cases ha
  | @assemble n batch tokens hphase hbatch =>
    have hsent := h.not_sent (by rw [hphase]; rfl)
    have hwindow := h.window
    rw [hphase] at hwindow
    obtain ⟨-, -, hendpoint, -, hdeadline, -, -⟩ := CallBatch.ofWindow?_eq_some hbatch
    refine quiet rfl ⟨h.gone, hwindow, fun a ha ↦ ?_, ?_⟩
    · rw [hsent] at ha
      cases ha
    · rintro _ ⟨⟩
      exact ⟨rfl, hendpoint, detached_assemble hbatch hact, hdeadline,
        CallBatch.requestId_ofWindow? hbatch⟩
  | @attempt n batch due hphase =>
    cases hk
    have hentry : s.noted? (.attempt k) = some (.sent k batch.sending) := by
      simp [noted?, hjob, hphase]
    have hasked : (s.noted? (.attempt k)).toList.filterMap (Entry.asked? k) = [] := by
      simp [hentry, Entry.asked?]
    have hsending : (s.noted? (.attempt k)).toList.filterMap (Entry.sent? k) =
        [batch.sending] := by
      simp [hentry, Entry.sent?]
    rw [hasked, hsending, List.append_nil]
    have hbatch : job.phase.batch? = some batch := by rw [hphase]; rfl
    have hkept : ({ job with phase := .sent batch } : BatchJob ι).Recorded s.client s'.detached
        asked sent := hold.of_batch hbatch rfl rfl rfl rfl rfl rfl rfl
    exact hkept.send rfl
  | @again n batch e next? wait attempts hphase hnext =>
    have hbatch : job.phase.batch? = some batch := by rw [hphase]; rfl
    exact quiet rfl (hold.of_batch hbatch rfl rfl rfl rfl rfl rfl rfl)
  | @conclude n batch outcome next? hphase hlast =>
    have hbatch : job.phase.batch? = some batch := by rw [hphase]; rfl
    exact quiet rfl (hold.of_batch hbatch rfl rfl rfl rfl rfl rfl rfl)
  | @deliver n batch outcome x left hphase =>
    have hbatch : job.phase.batch? = some batch := by rw [hphase]; rfl
    exact quiet rfl (hold.of_batch hbatch rfl rfl rfl rfl rfl rfl rfl)
  | @finish n batch outcome hphase =>
    have hbatch : job.phase.batch? = some batch := by rw [hphase]; rfl
    exact quiet rfl (hold.of_batch hbatch rfl rfl rfl rfl rfl rfl rfl)

end BatchJob.Recorded

namespace BatchingClient

variable [DecidableEq ι] {client : Client} {policy : BackoffPolicy} {limits : BatchLimits}
  {start now : Time} {s : BatchingClient ι} {journal : List (Entry ι)}

theorem detached_of_run {y : Time × BatchingClient ι}
    (run : ReflTransGen Move (start, new client policy limits) y) :
    ∀ t ∈ y.2.detached, y.2.tokens.nodes[t]? = some ⟨none, false⟩ := by
  induction run with
  | refl => exact fun t ht ↦ nomatch ht
  | tail _ hm ih =>
    cases hm with
    | wait _ => exact ih
    | event e hs => exact (detached_step hs ih).2

omit [DecidableEq ι] in
theorem recorded_new (client : Client) (detached : List Nat) (lane : Lane) (number : Nat)
    (window : List (PendingCall ι)) :
    ({ lane, number, window, phase := .checking window } : BatchJob ι).Recorded client detached
      [] [] where
  gone := rfl
  window := rfl
  sent _ ha := nomatch ha
  batch _ hb := nomatch hb

theorem recorded_of_run {y : Time × BatchingClient ι}
    (run : Journaled (start, new client policy limits) journal y) :
    (∀ k (job : BatchJob ι), y.2.jobs[k]? = some job →
        job.Recorded client y.2.detached (askedBy k journal) (sentBy k journal)) ∧
      ∀ k, y.2.jobs.length ≤ k → askedBy k journal = [] ∧ sentBy k journal = [] := by
  induction run with
  | refl => exact ⟨fun k job hjob ↦ (nomatch hjob), fun k _ ↦ ⟨rfl, rfl⟩⟩
  | wait run h ih => exact ih
  | @event journal now s s' run e hs ih =>
    obtain ⟨hrecorded, hnone⟩ := ih
    have hclient : s.client = client := (settings_run run.moves).1
    have hsub : s.detached ⊆ s'.detached := (detached_step hs (detached_of_run run.moves)).1
    have hother {k : Nat} (hk : e.job? ≠ some k) :
        askedBy k (journal ++ (s.noted? e).toList) = askedBy k journal ∧
          sentBy k (journal ++ (s.noted? e).toList) = sentBy k journal := by
      obtain ⟨hasked, hsent⟩ := entry_of_other (s := s) hk
      rw [askedBy_append, sentBy_append, hasked, hsent, List.append_nil, List.append_nil]
      exact ⟨rfl, rfl⟩
    refine ⟨fun k job hjob ↦ ?_, fun k hk ↦ ?_⟩
    · rcases getElem?_jobs_step hs hjob with ⟨hk, hold⟩ | ⟨hk, hlength, lane, number, window, rfl⟩ |
        ⟨old, hk, hold, hact, hnext⟩
      · obtain ⟨hasked, hsent⟩ := hother hk
        rw [hasked, hsent]
        exact (hrecorded k job hold).mono hsub
      · obtain ⟨hasked, hsent⟩ := hother hk
        obtain ⟨hasked', hsent'⟩ := hnone k hlength
        rw [hasked, hsent, hasked', hsent']
        exact recorded_new client s'.detached lane number window
      · rw [askedBy_append, sentBy_append, ← hclient]
        exact (hclient ▸ hrecorded k old hold).next hk hold hact hnext hsub
    · obtain ⟨hle, hk⟩ := length_jobs_step hs hk
      obtain ⟨hasked, hsent⟩ := hother hk
      rw [hasked, hsent]
      exact hnone k hle

/-- What was sent for a window, given what its job found when it asked the callers. -/
structure Resent (s : BatchingClient ι) (job : BatchJob ι) (asked : List (PendingCall ι × Bool))
    (sent : List Sending) : Prop where
  window : (s.lane job.lane).batch? job.number = some job.window
  /-- The callers are asked in order. -/
  in_turn : asked.map Prod.fst <+: job.window
  order : (stillWaiting asked).Sublist ((s.lane job.lane).accepted.map (·.2))
  /-- Nothing is sent before all have been asked, or if nobody waits. -/
  complete : sent ≠ [] → asked.map Prod.fst = job.window ∧ stillWaiting asked ≠ []
  same : ∀ a ∈ sent, ∀ b ∈ sent, a = b
  requests : ∀ a ∈ sent, a.requests = (stillWaiting asked).map fun call ↦
    ⟨"eth_call", callParams call.msg call.block⟩
  endpoint : ∀ a ∈ sent, ∀ call ∈ stillWaiting asked,
    Lane.ofBlock call.block = job.lane ∧ a.endpoint = s.client.endpoint call.block
  primary : ∀ a ∈ sent, a.endpoint = .primary ↔
    s.client.shared = true ∨ ∀ call ∈ stillWaiting asked, call.block = none
  requestId : ∀ a ∈ sent,
    (stillWaiting asked).getLast?.map (·.ctx.requestId) = some a.ctx.requestId
  endless : ∀ a ∈ sent, a.ctx.deadline = none ∧ ∀ later, a.ctx.err s.tokens later = none

omit [DecidableEq ι] in
/-- Of calls of one lane that go to the primary endpoint, none has a block, unless the endpoints are
one. -/
theorem endpoint_eq_primary_iff {calls : List (PendingCall ι)} {lane : Lane}
    (hlane : ∀ call ∈ calls, Lane.ofBlock call.block = lane) {first : PendingCall ι}
    (hfirst : first ∈ calls) :
    client.endpoint first.block = .primary ↔
      client.shared = true ∨ ∀ call ∈ calls, call.block = none := by
  constructor
  · intro h
    by_cases hshared : client.shared = true
    · exact .inl hshared
    · have hnone : first.block.isNone = true := by
        by_contra hsome
        simp [Client.endpoint, hshared, hsome] at h
      have hlatest : lane = .latest := by
        rw [← hlane first hfirst, Lane.ofBlock, if_pos hnone]
      refine .inr fun call hcall ↦ ?_
      have hcallLane := hlane call hcall
      rw [hlatest] at hcallLane
      cases hblock : call.block with
      | none => rfl
      | some b =>
        rw [hblock] at hcallLane
        cases hcallLane
  · rintro (hshared | hnone)
    · simp [Client.endpoint, hshared]
    · simp [Client.endpoint, hnone first hfirst]

omit [DecidableEq ι] in
theorem stillWaiting_sublist (asked : List (PendingCall ι × Bool)) :
    (stillWaiting asked).Sublist (asked.map Prod.fst) :=
  List.filter_sublist.map _

theorem Sound.resent (h : Sound limits now s) {job : BatchJob ι} (hjob : job ∈ s.jobs)
    (hdetached : ∀ t ∈ s.detached, s.tokens.nodes[t]? = some ⟨none, false⟩)
    {asked : List (PendingCall ι × Bool)} {sent : List Sending}
    (hrecorded : job.Recorded s.client s.detached asked sent) : Resent s job asked sent := by
  have hprefix : asked.map Prod.fst <+: job.window := ⟨_, hrecorded.window⟩
  have hsub : (stillWaiting asked).Sublist job.window :=
    (stillWaiting_sublist asked).trans hprefix.sublist
  have hlane (call : PendingCall ι) (hcall : call ∈ stillWaiting asked) :
      Lane.ofBlock call.block = job.lane :=
    (h.call_known hjob (hsub.subset hcall)).1
  -- Once something is sent there is a batch, and it holds those who were found waiting.
  have hbatch (a : Sending) (ha : a ∈ sent) : ∃ batch, job.phase.batch? = some batch ∧
      a = batch.sending ∧ asked.map Prod.fst = job.window ∧
      batch.calls = stillWaiting asked ∧ BatchJob.Bound s.client s.detached batch := by
    obtain ⟨batch, hphase, rfl⟩ := hrecorded.sent a ha
    obtain ⟨hall, hbound⟩ := hrecorded.batch batch hphase
    have hwindow := hrecorded.window
    rw [hall, List.append_nil] at hwindow
    have hnodup := h.window_nodup hjob
    rw [← hwindow, List.map_map] at hnodup
    refine ⟨batch, hphase, rfl, hwindow, ?_, hbound⟩
    rw [(h.shaped job hjob).calls_eq hphase, BatchJob.kept, ← hwindow, hrecorded.gone]
    exact filter_gone_eq_stillWaiting hnodup
  refine ⟨h.windows job hjob, hprefix, hsub.trans ((h.lanes _).batch_sublist (h.windows job hjob)),
    fun hsent ↦ ?_, fun a ha b hb ↦ ?_, fun a ha ↦ ?_, fun a ha call hcall ↦ ?_, fun a ha ↦ ?_,
    fun a ha ↦ ?_, fun a ha ↦ ?_⟩
  · obtain ⟨a, ha⟩ := List.exists_mem_of_ne_nil sent hsent
    obtain ⟨batch, -, -, hwindow, hcalls, hbound⟩ := hbatch a ha
    obtain ⟨first, hfirst, -⟩ := hbound.endpoint
    exact ⟨hwindow, List.ne_nil_of_mem (hcalls ▸ hfirst)⟩
  · obtain ⟨batch, hphase, rfl, -⟩ := hbatch a ha
    obtain ⟨batch', hphase', rfl, -⟩ := hbatch b hb
    rw [hphase] at hphase'
    cases hphase'
    rfl
  · obtain ⟨batch, -, rfl, -, hcalls, -⟩ := hbatch a ha
    rw [← hcalls]
    rfl
  · obtain ⟨batch, -, rfl, -, hcalls, hbound⟩ := hbatch a ha
    obtain ⟨first, hfirst, hendpoint⟩ := hbound.endpoint
    refine ⟨hlane call hcall, hendpoint.trans (endpoint_eq_of_lane s.client ?_)⟩
    rw [hlane call hcall, hlane first (hcalls ▸ hfirst)]
  · obtain ⟨batch, -, rfl, -, hcalls, hbound⟩ := hbatch a ha
    obtain ⟨first, hfirst, hendpoint⟩ := hbound.endpoint
    change batch.endpoint = .primary ↔ _
    rw [hendpoint]
    exact endpoint_eq_primary_iff hlane (hcalls ▸ hfirst)
  · obtain ⟨batch, -, rfl, -, hcalls, hbound⟩ := hbatch a ha
    rw [← hcalls]
    exact hbound.requestId
  · obtain ⟨batch, -, rfl, -, -, hbound⟩ := hbatch a ha
    have hlive : s.tokens.isCanceled batch.ctx.token = false := by
      simp [Tokens.isCanceled, hdetached _ hbound.token]
    refine ⟨hbound.deadline, fun later ↦ ?_⟩
    simp [CallBatch.sending, Context.err, Context.expired, hlive, hbound.deadline]

/-- Whatever callers do, and however often attempts fail: what is sent for a window is the same each
time. It has exactly the calls whose callers were found waiting when they were asked, in the order
in which they were submitted, it goes to the endpoint of their lane, and its context carries the
request id of the last of them and never ends. If nobody was found waiting, nothing is sent. -/
theorem attempts_send_one_batch
    (run : Journaled (start, new client policy limits) journal (now, s)) :
    s.client = client ∧
      (∀ k job, s.jobs[k]? = some job → Resent s job (askedBy k journal) (sentBy k journal)) ∧
      ∀ k, s.jobs[k]? = none → sentBy k journal = [] := by
  have hclient : s.client = client := (settings_run run.moves).1
  have h := sound_of_run run.moves (sound_new client policy limits start)
  obtain ⟨hrecorded, hnone⟩ := recorded_of_run run
  refine ⟨hclient, fun k job hjob ↦ ?_, fun k hk ↦ (hnone k (List.getElem?_eq_none_iff.1 hk)).2⟩
  exact h.resent (List.mem_of_getElem? hjob) (detached_of_run run.moves)
    (hclient.symm ▸ hrecorded k job hjob)

/-- One of three callers leaves before it is asked. The first attempt fails, and before the next one
the other two leave as well and the context of all three is canceled. -/
theorem second_attempt_resends_batch :
    ∃ journal, ∃ s : BatchingClient Nat,
      Journaled (0, new ⟨false⟩ {} ⟨5, 3⟩) journal (7, s) ∧ s.tokens.isCanceled 0 = true ∧
        ∃ a, sentBy 0 journal = [a, a] ∧
          a.requests = List.replicate 2 ⟨"eth_call", callParams {} none⟩ ∧
          a.endpoint = .primary ∧ a.ctx.requestId = some "third" ∧
          ∀ later, a.ctx.err s.tokens later = none := by
  have run : Journaled (0, (new ⟨false⟩ {} ⟨5, 3⟩ : BatchingClient Nat)) _ (7, _) :=
    .event (e := .attempt 0) (h := rfl) <|
    .wait (h := by decide) <|
    .event (e := .cancel 0) (h := rfl) <|
    .event (e := .leave 2) (h := rfl) <|
    .event (e := .leave 0) (h := rfl) <|
    .event (e := .reply 0 (.error (.http .timeout)) fun _ ↦ some (0, 0)) (h := rfl) <|
    .event (e := .attempt 0) (h := rfl) <|
    .event (e := .assemble 0) (h := rfl) <|
    .event (e := .check 0) (h := rfl) <|
    .event (e := .check 0) (h := rfl) <|
    .event (e := .check 0) (h := rfl) <|
    .event (e := .lane .latest (.handOver 0)) (h := rfl) <|
    .event (e := .leave 1) (h := rfl) <|
    .event (e := .call 2 {} none ⟨0, none, some "third"⟩) (h := rfl) <|
    .event (e := .call 1 {} none ⟨0, none, some "second"⟩) (h := rfl) <|
    .event (e := .call 0 {} none ⟨0, none, some "first"⟩) (h := rfl) <|
    .event (e := .derive none) (h := rfl) .refl
  obtain ⟨-, hjobs, -⟩ := attempts_send_one_batch run
  have h := hjobs 0 _ rfl
  have hsent := h.requests _ List.mem_cons_self
  have hendpoint := (h.endpoint _ List.mem_cons_self _ List.mem_cons_self).2
  have hid := h.requestId _ List.mem_cons_self
  exact ⟨_, _, run, rfl, _, rfl, hsent, hendpoint, (Option.some.inj hid).symm,
    (h.endless _ List.mem_cons_self).2⟩

end BatchingClient

end Outbound.Eth
