import Outbound.Proofs.Cancellation
import Outbound.Proofs.Eth.Bookkeeping

/-!
# Every act keeps the books

One lemma for each kind of act, and from them what holds in every state that a client comes to.
-/

namespace Outbound

namespace Eth

variable {ι : Type} [DecidableEq ι]

omit [DecidableEq ι] in
theorem Caller.Fine.mono {c : Caller} {tokens tokens' : Tokens} {now later : Time}
    (h : c.Fine tokens now)
    (htokens : ∀ i, tokens.isCanceled i = true → tokens'.isCanceled i = true)
    (hle : now ≤ later) : c.Fine tokens' later := by
  refine { h with returned := fun t r hr ↦ ?_ }
  rcases h.returned t r hr with hresult | ⟨reason, rfl, hended⟩ | hclosed
  · exact .inl hresult
  · exact .inr (.inl ⟨reason, rfl, Context.endedBy_mono htokens hle hended⟩)
  · exact .inr (.inr hclosed)

omit [DecidableEq ι] in
theorem Caller.Fine.resolve {c : Caller} {tokens : Tokens} {now : Time} (h : c.Fine tokens now)
    (hempty : c.slot.result = none) (r : Outcome (List UInt8)) :
    Caller.Fine tokens now { c with slot := { c.slot with result := some r } } := by
  refine ⟨fun _ _ ↦ rfl, h.rejected, fun t r' hr ↦ ?_⟩
  rcases h.returned t r' hr with hsome | hother
  · rw [hempty] at hsome
    cases hsome
  · exact .inr hother

namespace BatchingClient.Sound

variable {limits : BatchLimits} {now : Time} {s s' : BatchingClient ι}

theorem wait (h : Sound limits now s) {later : Time} (hle : now ≤ later) :
    Sound limits later s :=
  { h with fine := fun id c hc ↦ (h.fine id c hc).mono (fun _ hi ↦ hi) hle }

theorem setTokens (h : Sound limits now s) {tokens : Tokens} (detached : List Nat)
    (htokens : ∀ i, s.tokens.isCanceled i = true → tokens.isCanceled i = true) :
    Sound limits now { s with tokens, detached } :=
  { h with fine := fun id c hc ↦ (h.fine id c hc).mono htokens (Nat.le_refl _) }

theorem setMetrics (h : Sound limits now s) (metrics : Metrics) :
    Sound limits now { s with metrics } :=
  { h with }

/-! ## Callers -/

theorem not_mem_of_new (h : Sound limits now s) {id : ι} (hnew : s.callers id = none) :
    (∀ r, (id, r) ∉ s.resolved) ∧ ∀ job ∈ s.jobs, id ∉ job.gone := by
  refine ⟨fun r hr ↦ ?_, fun job hjob hid ↦ ?_⟩
  · obtain ⟨c, hc, -⟩ := h.caller_of_resolved hr
    rw [hnew] at hc
    cases hc
  · obtain ⟨call, hcall, rfl⟩ := List.mem_map.1 (h.gone job hjob id hid).1
    obtain ⟨-, c, hc, -⟩ := h.call_known hjob hcall
    rw [hnew] at hc
    cases hc

theorem caller_ne_of_new (h : Sound limits now s) {id : ι} (hnew : s.callers id = none) {l : Lane}
    {x : Time × PendingCall ι} (hx : x ∈ (s.lane l).accepted) : x.2.caller ≠ id := by
  rintro rfl
  obtain ⟨-, d, hd, -⟩ := h.known l x hx
  rw [hnew] at hd
  cases hd

/-- What a new caller without a result leaves as it was. -/
theorem new_caller (h : Sound limits now s) {id : ι} {c : Caller} (hnew : s.callers id = none)
    (hresult : c.slot.result = none) (hfine : c.Fine s.tokens now) :
    (∀ job ∈ s.jobs, ∀ id' ∈ job.gone,
      id' ∈ job.window.map (·.caller) ∧ (s.setCaller id c).isAbandoned id' = true) ∧
    (∀ id' d, (s.setCaller id c).callers id' = some d →
      ∀ r, d.slot.result = some r ↔ (id', r) ∈ s.resolved) ∧
    ∀ id' d, (s.setCaller id c).callers id' = some d → d.Fine s.tokens now := by
  obtain ⟨hresolved, hgone⟩ := h.not_mem_of_new hnew
  refine ⟨fun job hjob id' hid ↦ ⟨(h.gone job hjob id' hid).1, ?_⟩, fun id' d hd r ↦ ?_,
    fun id' d hd ↦ ?_⟩
  · have hne : id' ≠ id := fun heq ↦ hgone job hjob (heq ▸ hid)
    rw [isAbandoned, callers_setCaller_of_ne s hne]
    exact (h.gone job hjob id' hid).2
  · rcases setCaller_cases hd with ⟨rfl, rfl⟩ | ⟨-, hd⟩
    · rw [hresult]
      exact iff_of_false (fun hr ↦ by cases hr) (hresolved r)
    · exact h.result_iff id' d hd r
  · rcases setCaller_cases hd with ⟨-, rfl⟩ | ⟨-, hd⟩
    · exact hfine
    · exact h.fine id' d hd

theorem reject (h : Sound limits now s) {id : ι} {c : Caller} (hnew : s.callers id = none)
    (hclosed : (s.lane (.ofBlock c.block)).batcher.closed = true) (haccepted : c.accepted = false)
    (hresult : c.slot.result = none) (hfine : c.Fine s.tokens now) :
    Sound limits now (s.setCaller id c) := by
  obtain ⟨hgone, hresults, hfines⟩ := h.new_caller hnew hresult hfine
  refine { h with
    known := fun l x hx ↦ ?_
    listed := fun id' d hd hacc ↦ ?_
    rejecting := fun id' d hd hacc ↦ ?_
    gone := hgone
    result_iff := hresults
    fine := hfines }
  · obtain ⟨hl, d, hd, hacc, hdx⟩ := h.known l x hx
    exact ⟨hl, d, (callers_setCaller_of_ne s (h.caller_ne_of_new hnew hx) c).trans hd, hacc, hdx⟩
  · rcases setCaller_cases hd with ⟨rfl, rfl⟩ | ⟨-, hd⟩
    · rw [haccepted] at hacc
      cases hacc
    · exact h.listed id' d hd hacc
  · rcases setCaller_cases hd with ⟨rfl, rfl⟩ | ⟨-, hd⟩
    · exact hclosed
    · exact h.rejecting id' d hd hacc

/-! ## Lanes -/

/-- A lane goes on while the windows that were handed over stay as they are. -/
theorem lanes_of_step (h : Sound limits now s) {live : LiveBatcher (PendingCall ι)} {l : Lane}
    (hsound : live.Sound limits) (hwindows : ∃ windows, live.windows = (s.lane l).windows ++ windows) :
    (∀ l', ((s.setLane live l).lane l').Sound limits) ∧
      ∀ job ∈ s.jobs, ((s.setLane live l).lane job.lane).batch? job.number = some job.window := by
  refine ⟨fun l' ↦ ?_, fun job hjob ↦ ?_⟩
  · rw [lane_setLane]
    split
    · exact hsound
    · exact h.lanes l'
  · have hwindow := h.windows job hjob
    rw [lane_setLane]
    split
    · rename_i heq
      obtain ⟨windows, hwindows⟩ := hwindows
      rw [heq] at hwindow
      obtain ⟨w, hw, -⟩ := Option.map_eq_some_iff.1 hwindow
      rw [LiveBatcher.batch?_of_lt hwindows (List.getElem?_eq_some_iff.1 hw).1]
      exact hwindow
    · exact hwindow

/-- A lane goes on without accepting anything, and some of its windows become jobs. -/
theorem setLane (h : Sound limits now s) {live : LiveBatcher (PendingCall ι)} {l : Lane}
    {jobs : List (BatchJob ι)} (hsound : live.Sound limits)
    (haccepted : live.accepted = (s.lane l).accepted)
    (hwindows : ∃ windows, live.windows = (s.lane l).windows ++ windows)
    (hclosed : (s.lane l).batcher.closed = true → live.batcher.closed = true)
    (hhanded : live.handed.map (·.2) = (s.lane l).handed.map (·.2) ++ jobs.map (·.number))
    (hnew : ∀ job ∈ jobs, job.lane = l ∧ live.batch? job.number = some job.window ∧
      job.Shaped ∧ job.gone = [] ∧ job.resolved = []) :
    Sound limits now { s.setLane live l with jobs := s.jobs ++ jobs } := by
  have hlanes := h.lanes_of_step hsound hwindows
  have hsameAccepted := map_lane_setLane (·.accepted) haccepted
  have hlane := lane_cases s live l
  obtain ⟨latest, archive, heq⟩ := setLane_eq s live l
  rw [heq] at hlanes hsameAccepted hlane ⊢
  have hresolved : ({ s with latest, archive, jobs := s.jobs ++ jobs } :
      BatchingClient ι).resolved = s.resolved := by
    have hnil : jobs.flatMap BatchJob.resolved = [] := by
      rw [List.flatMap_eq_nil_iff]
      exact fun job hjob ↦ (hnew job hjob).2.2.2.2
    simp only [BatchingClient.resolved, List.flatMap_append, hnil, List.append_nil]
  refine { h with
    lanes := hlanes.1
    known := fun l' ↦ ?_
    listed := fun id c hc hacc ↦ ?_
    rejecting := fun id c hc hacc ↦ ?_
    distinct := fun l' ↦ ?_
    numbered := fun l' ↦ ?_
    windows := fun job hjob ↦ ?_
    shaped := fun job hjob ↦ ?_
    gone := fun job hjob ↦ ?_
    result_iff := ?_
    given := ?_ }
  · intro x hx
    exact h.known l' x ((hsameAccepted l') ▸ hx)
  · have hlisted := h.listed id c hc hacc
    rw [← hsameAccepted] at hlisted
    exact hlisted
  · have hwas := h.rejecting id c hc hacc
    rcases hlane (.ofBlock c.block) with ⟨-, hl⟩ | ⟨hl', hl⟩
    · rw [← hl] at hwas
      exact hwas
    · rw [hl'] at hwas
      have hnow := hclosed hwas
      rw [← hl] at hnow
      exact hnow
  · have hdistinct := h.distinct l'
    rw [← hsameAccepted] at hdistinct
    exact hdistinct
  · rw [List.filter_append, List.map_append, h.numbered l',
      BatchJob.filter_lane fun job hjob ↦ (hnew job hjob).1]
    rcases hlane l' with ⟨hne, hl⟩ | ⟨rfl, hl⟩
    · rw [if_neg hne, List.map_nil, List.append_nil]
      exact congrArg (fun live ↦ live.handed.map (·.2)) hl.symm
    · rw [if_pos rfl, ← hhanded]
      exact congrArg (fun live ↦ live.handed.map (·.2)) hl.symm
  · rcases List.mem_append.1 hjob with hjob | hjob
    · exact hlanes.2 job hjob
    · obtain ⟨rfl, hbatch, -⟩ := hnew job hjob
      rcases hlane job.lane with ⟨hne, -⟩ | ⟨-, hl⟩
      · exact absurd rfl hne
      · rw [← hl] at hbatch
        exact hbatch
  · rcases List.mem_append.1 hjob with hjob | hjob
    · exact h.shaped job hjob
    · exact (hnew job hjob).2.2.1
  · rcases List.mem_append.1 hjob with hjob | hjob
    · exact h.gone job hjob
    · rw [(hnew job hjob).2.2.2.1]
      exact fun id hid ↦ (List.not_mem_nil hid).elim
  · rw [hresolved]
    exact h.result_iff
  · rw [hresolved]
    exact h.given

theorem accept (h : Sound limits now s) {id : ι} {c : Caller} (hnew : s.callers id = none)
    (hacc : c.accepted = true) (hresult : c.slot.result = none) (hfine : c.Fine s.tokens now)
    {live : LiveBatcher (PendingCall ι)} (hsound : live.Sound limits)
    (haccepted : live.accepted = (s.lane (.ofBlock c.block)).accepted ++ [(now, c.call id)])
    (hhanded : live.handed = (s.lane (.ofBlock c.block)).handed)
    (hwindows : ∃ windows, live.windows = (s.lane (.ofBlock c.block)).windows ++ windows)
    (hopen : (s.lane (.ofBlock c.block)).batcher.closed = false) :
    Sound limits now ((s.setLane live (.ofBlock c.block)).setCaller id c) := by
  obtain ⟨hlanes, hjobs⟩ := h.lanes_of_step hsound hwindows
  obtain ⟨hgone, hresults, hfines⟩ := h.new_caller hnew hresult hfine
  have hsameHanded := map_lane_setLane (·.handed) hhanded
  have hmem := mem_accepted_setLane haccepted
  have hlane := lane_cases s live (.ofBlock c.block)
  obtain ⟨latest, archive, heq⟩ := setLane_eq s live (.ofBlock c.block)
  rw [heq] at hlanes hjobs hsameHanded hlane ⊢
  simp only [heq] at hmem
  refine { h with
    lanes := hlanes
    known := fun l x hx ↦ ?_
    listed := fun id' d hd hdacc ↦ ?_
    rejecting := fun id' d hd hdacc ↦ ?_
    distinct := fun l ↦ ?_
    numbered := fun l ↦ ?_
    windows := hjobs
    gone := hgone
    result_iff := hresults
    fine := hfines }
  · rcases (hmem l x).1 hx with hx | ⟨rfl, rfl⟩
    · obtain ⟨hl, d, hd, hdacc, hdx⟩ := h.known l x hx
      exact ⟨hl, d, (callers_setCaller_of_ne s (h.caller_ne_of_new hnew hx) c).trans hd, hdacc, hdx⟩
    · exact ⟨rfl, c, callers_setCaller_self s id c, hacc, rfl⟩
  · rcases setCaller_cases hd with ⟨rfl, rfl⟩ | ⟨-, hd⟩
    · exact List.mem_map.2 ⟨_, (hmem _ _).2 (.inr ⟨rfl, rfl⟩), rfl⟩
    · obtain ⟨x, hx, hxd⟩ := List.mem_map.1 (h.listed id' d hd hdacc)
      exact List.mem_map.2 ⟨x, (hmem _ x).2 (.inl hx), hxd⟩
  · rcases setCaller_cases hd with ⟨rfl, rfl⟩ | ⟨-, hd⟩
    · rw [hacc] at hdacc
      cases hdacc
    · have hclosed := h.rejecting id' d hd hdacc
      rcases hlane (.ofBlock d.block) with ⟨-, hl⟩ | ⟨hl', -⟩
      · rw [← hl] at hclosed
        exact hclosed
      · rw [hl', hopen] at hclosed
        cases hclosed
  · rcases hlane l with ⟨-, hl⟩ | ⟨rfl, hl⟩
    · have hdistinct := h.distinct l
      rw [← hl] at hdistinct
      exact hdistinct
    · rw [show (({ s with latest, archive } : BatchingClient ι).setCaller id c).lane
        (.ofBlock c.block) = live from hl, haccepted, List.map_append]
      refine List.nodup_append.2 ⟨h.distinct _, List.nodup_singleton _, fun a ha b hb heq ↦ ?_⟩
      obtain ⟨x, hx, rfl⟩ := List.mem_map.1 ha
      rw [List.mem_singleton.1 hb] at heq
      exact h.caller_ne_of_new hnew hx heq
  · exact (h.numbered l).trans (congrArg (List.map (·.2)) (hsameHanded l).symm)

/-! ## Jobs -/

/-- A caller that is asked and does not wait any more is left out, and lets go of its producer. -/
theorem check (h : Sound limits now s) {k : Nat} {job : BatchJob ι} {call : PendingCall ι}
    {rest : List (PendingCall ι)} (hjob : s.jobs[k]? = some job)
    (hphase : job.phase = .checking (call :: rest)) :
    Sound limits now (s.check k job call rest) := by
  have hmem := List.mem_of_getElem? hjob
  have hshaped := h.shaped job hmem
  simp only [BatchJob.Shaped, hphase] at hshaped
  have hcall : call ∈ job.window := hshaped.subset List.mem_cons_self
  have hrest : rest <:+ job.window := (List.suffix_cons call rest).trans hshaped
  have hresolved : job.resolved = [] := by simp [BatchJob.resolved, hphase]
  simp only [BatchingClient.check]
  split
  · rename_i habandoned
    refine (h.setJob hjob { job with gone := _, phase := .checking rest } rfl rfl rfl hrest ?_
      fun id hid ↦ ?_).release fun other hother ↦ ?_
    · rw [hresolved]
      rfl
    · rcases List.mem_append.1 hid with hid | hid
      · exact h.gone job hmem id hid
      · rw [List.mem_singleton.1 hid]
        exact ⟨List.mem_map_of_mem hcall, habandoned⟩
    · rw [List.mem_singleton.1 hother]
      exact habandoned
  · refine h.setJob hjob { job with phase := .checking rest } rfl rfl rfl hrest ?_
      (h.gone job hmem)
    rw [hresolved]
    rfl

theorem assemble (h : Sound limits now s) {k : Nat} {job : BatchJob ι}
    (hjob : s.jobs[k]? = some job) (hphase : job.phase = .checking []) :
    Sound limits now (s.assemble now k job) := by
  have hmem := List.mem_of_getElem? hjob
  have hresolved : job.resolved = [] := by simp [BatchJob.resolved, hphase]
  simp only [BatchingClient.assemble]
  split
  · rename_i hnone
    refine h.setJob hjob { job with phase := .done none } rfl rfl rfl
      (CallBatch.ofWindow?_eq_none hnone) ?_ (h.gone job hmem)
    rw [hresolved]
    rfl
  · rename_i batch tokens hsome
    obtain ⟨hcalls, -, -, -, -, -, rfl⟩ := CallBatch.ofWindow?_eq_some hsome
    refine (h.setJob hjob { job with phase := .ready batch now } rfl rfl rfl hcalls ?_
      (h.gone job hmem)).setTokens _ fun i hi ↦ ?_
    · rw [hresolved]
      rfl
    · exact (Tokens.isCanceled_root _ _).trans hi

theorem attempt (h : Sound limits now s) {k : Nat} {job : BatchJob ι} {batch : CallBatch ι}
    {due : Time} (hjob : s.jobs[k]? = some job) (hphase : job.phase = .ready batch due) :
    Sound limits now (s.setJob k { job with phase := .sent batch }) := by
  have hmem := List.mem_of_getElem? hjob
  have hshaped := h.shaped job hmem
  simp only [BatchJob.Shaped, hphase] at hshaped
  refine h.setJob hjob { job with phase := .sent batch } rfl rfl rfl hshaped ?_
    (h.gone job hmem)
  simp [BatchJob.resolved, hphase]

/-- Whatever an attempt comes to: the answers are at hand, or the same batch is sent again. -/
theorem reply (h : Sound limits now s) {k : Nat} {job : BatchJob ι} {batch : CallBatch ι}
    (hjob : s.jobs[k]? = some job) (hphase : job.phase = .sent batch) (outcome : BatchOutcome)
    (maxRetries : Option Nat) (next? : Nanos → Option (Nanos × Nanos)) :
    Sound limits now (s.conclude now k job batch outcome
      (batch.afterAttempt maxRetries next? outcome)) := by
  have hmem := List.mem_of_getElem? hjob
  have hshaped := h.shaped job hmem
  simp only [BatchJob.Shaped, hphase] at hshaped
  have hresolved : job.resolved = [] := by simp [BatchJob.resolved, hphase]
  have hdelivering : Sound limits now (s.setJob k { job with
      phase := .delivering batch outcome (answers batch.calls outcome) }) := by
    refine h.setJob hjob _ rfl rfl rfl ⟨hshaped, List.suffix_rfl⟩ ?_ (h.gone job hmem)
    rw [hresolved]
    simp [BatchJob.resolved]
  rcases batch.afterAttempt_cases maxRetries next? outcome with
    ⟨_, -, heq⟩ | ⟨e, -, -, heq⟩ | ⟨e, wait, attempts, -, -, heq⟩
  · rw [heq]
    exact hdelivering
  · rw [heq]
    exact hdelivering.setMetrics _
  · rw [heq]
    refine (h.setJob hjob { job with
      failures := job.failures ++ [e]
      phase := .ready { batch with attempts } (now + wait.ticks) } rfl rfl rfl hshaped ?_
      (h.gone job hmem)).setMetrics _
    rw [hresolved]
    rfl

theorem finish (h : Sound limits now s) {k : Nat} {job : BatchJob ι} {batch : CallBatch ι}
    {outcome : BatchOutcome} (hjob : s.jobs[k]? = some job)
    (hphase : job.phase = .delivering batch outcome []) :
    Sound limits now ((s.setJob k { job with
      phase := .done (some (batch, outcome)) }).release batch.calls) := by
  have hmem := List.mem_of_getElem? hjob
  have hshaped := h.shaped job hmem
  simp only [BatchJob.Shaped, hphase] at hshaped
  have hresolved : job.resolved = answers batch.calls outcome := by
    simp only [BatchJob.resolved, hphase, List.length_nil, Nat.sub_zero]
    rw [← length_answers batch.calls outcome, List.take_length]
  refine (h.setJob hjob { job with phase := .done (some (batch, outcome)) } rfl rfl rfl
    hshaped.1 hresolved.symm (h.gone job hmem)).release fun call hcall ↦ ?_
  obtain ⟨i, hi, rfl⟩ := List.getElem_of_mem hcall
  have hgiven : (batch.calls[i].caller, outcomeAt outcome i) ∈ s.resolved := by
    refine List.mem_flatMap.2 ⟨job, hmem, ?_⟩
    rw [hresolved]
    exact mem_answers.2 ⟨i, _, List.getElem?_eq_getElem hi, rfl⟩
  obtain ⟨c, hc, -, hresult⟩ := h.caller_of_resolved hgiven
  rw [isAbandoned_of_some (s := s.setJob k _) hc]
  simp [Slot.isAbandoned, hresult]

/-- The results of the callers after one more was given, to a caller that had none. -/
theorem result_iff_of_resolve (h : Sound limits now s) {id : ι} {c : Caller}
    {r : Outcome (List UInt8)} (hnone : ∀ r, (id, r) ∉ s.resolved) {id' : ι} {d : Caller}
    (hd : (s.setCaller id { c with slot := { c.slot with result := some r } }).callers id' = some d)
    (r' : Outcome (List UInt8)) :
    d.slot.result = some r' ↔ (id', r') ∈ s.resolved ++ [(id, r)] := by
  rw [List.mem_append, List.mem_singleton]
  rcases setCaller_cases hd with ⟨rfl, rfl⟩ | ⟨hne, hd⟩
  · constructor
    · intro hr
      cases hr
      exact .inr rfl
    · rintro (hr | hr)
      · exact absurd hr (hnone r')
      · cases hr
        rfl
  · rw [h.result_iff id' d hd r']
    refine ⟨.inl, ?_⟩
    rintro (hr | hr)
    · exact hr
    · cases hr
      exact absurd rfl hne

theorem deliver (h : Sound limits now s) {k : Nat} {job : BatchJob ι} {batch : CallBatch ι}
    {outcome : BatchOutcome} {id : ι} {result : Outcome (List UInt8)}
    {left : List (ι × Outcome (List UInt8))} (hjob : s.jobs[k]? = some job)
    (hphase : job.phase = .delivering batch outcome ((id, result) :: left)) :
    Sound limits now ((s.setJob k { job with
      phase := .delivering batch outcome left }).give id result) := by
  have hmem := List.mem_of_getElem? hjob
  have hshaped := h.shaped job hmem
  simp only [BatchJob.Shaped, hphase] at hshaped
  obtain ⟨hcalls, hleft⟩ := hshaped
  let job' : BatchJob ι := { job with phase := .delivering batch outcome left }
  have hbooked : Booked limits now (s.setJob k job') :=
    h.toBooked.setJob hjob job' rfl rfl rfl ⟨hcalls, (List.suffix_cons _ _).trans hleft⟩
      (h.gone job hmem)
  have hperm : (s.setJob k job').resolved.Perm (s.resolved ++ [(id, result)]) :=
    flatMap_set_append hjob (BatchJob.resolved_deliver hphase hleft)
  -- The caller has no result yet, since no caller is given two.
  have hnone : ∀ r, (id, r) ∉ s.resolved := by
    intro r hr
    have hnodup := (hperm.map Prod.fst).nodup_iff.1 hbooked.resolved_nodup
    rw [List.map_append] at hnodup
    exact (List.nodup_append.1 hnodup).2.2 id (List.mem_map_of_mem hr) id List.mem_cons_self rfl
  obtain ⟨c, hc, haccepted⟩ := hbooked.caller_of_resolved
    (hperm.mem_iff.2 (List.mem_append_right _ List.mem_cons_self))
  have hempty : c.slot.result = none := by
    cases hr : c.slot.result with
    | none => rfl
    | some r => exact absurd ((h.result_iff id c hc r).1 hr) (hnone r)
  have hbooked' : Booked limits now ((s.setJob k job').setCaller id
      { c with slot := { c.slot with result := some result } }) :=
    hbooked.setCaller hc rfl rfl (fun _ ↦ rfl) ((h.fine id c hc).resolve hempty result)
  rw [give_of_empty (s := s.setJob k job') hc hempty]
  refine { hbooked' with
    result_iff := fun id' d hd r ↦ ?_
    given := ?_
    first := fun g hg ↦ ?_ }
  · exact (h.result_iff_of_resolve hnone hd r).trans hperm.mem_iff.symm
  · rw [List.map_append]
    exact (h.given.append_right _).trans hperm.symm
  · rcases List.mem_append.1 hg with hg | hg
    · exact h.first g hg
    · rw [List.mem_singleton.1 hg]

/-! ## Whole steps -/

theorem submit (h : Sound limits now s) {id : ι} (msg : CallMsg) (block : BlockRef)
    (ctx : Context) (hnew : s.callers id = none) :
    Sound limits now (s.submit now id msg block ctx) := by
  simp only [BatchingClient.submit]
  split
  · rename_i e herror
    obtain ⟨rfl, hclosed⟩ := Batcher.submit_error herror
    refine h.reject hnew hclosed rfl rfl ⟨fun hacc ↦ ?_, fun _ ↦ rfl, fun t r hr ↦ ?_⟩
    · cases hacc
    · cases hr
      exact .inr (.inr ⟨rfl, rfl⟩)
  · rename_i result hok
    refine h.accept (c := { msg, block, ctx }) hnew rfl rfl ⟨fun _ hgone ↦ ?_, fun hacc ↦ ?_,
      fun t r hr ↦ ?_⟩ ((h.lanes _).submit hok) (LiveBatcher.accepted_apply _ _ _)
      (LiveBatcher.handed_apply _ _ _) (LiveBatcher.windows_apply _ _ _)
      (Batcher.submit_cases hok).1
    · cases hgone
    · cases hacc
    · cases hr

/-- A caller that looks finds the result given to it or that its context has ended. A producer
that is gone without a result is not among what it can find. -/
theorem look (h : Sound limits now s) {id : ι} {seen : Option Reason} {c : Caller}
    {r : Outcome (List UInt8)} (hanswer : s.answer? now id seen = some (c, r)) :
    Sound limits now (s.setCaller id
      { c with slot := c.slot.dropWaiter, returned := some (now, r) }) := by
  obtain ⟨hc, hwaits, hseen, hpoll⟩ := answer?_eq_some.1 hanswer
  have hfine := h.fine id c hc
  refine h.setCaller hc rfl rfl rfl (fun _ ↦ ?_) ⟨fun _ _ ↦ ?_, fun _ ↦ rfl, fun t r' hr ↦ ?_⟩
  · simp [Slot.isAbandoned, Slot.dropWaiter]
  · simp [Slot.isAbandoned, Slot.dropWaiter]
  · cases hr
    cases hresult : c.slot.result with
    | some first =>
      rw [Slot.poll_of_result hresult] at hpoll
      exact .inl (hresult.trans hpoll)
    | none =>
      have hproducer : c.slot.producerGone = false := by
        by_contra hgone
        cases hacc : c.accepted with
        | true =>
          have habandoned := hfine.produced hacc (by simpa using hgone)
          simp [Slot.isAbandoned, hresult, hwaits] at habandoned
        | false =>
          have hwaiter := hfine.rejected hacc
          rw [hwaits] at hwaiter
          cases hwaiter
      simp only [Slot.poll, hresult, hproducer, Bool.false_eq_true, if_false,
        Option.map_eq_some_iff] at hpoll
      obtain ⟨reason, hreason, rfl⟩ := hpoll
      exact .inr (.inl ⟨reason, rfl, hseen reason hreason⟩)

theorem leave (h : Sound limits now s) {id : ι} {c : Caller} (hc : s.callers id = some c) :
    Sound limits now (s.setCaller id { c with slot := c.slot.dropWaiter }) := by
  have hfine := h.fine id c hc
  refine h.setCaller hc rfl rfl rfl (fun _ ↦ ?_) ⟨fun _ _ ↦ ?_, fun _ ↦ rfl, hfine.returned⟩
  · simp [Slot.isAbandoned, Slot.dropWaiter]
  · simp [Slot.isAbandoned, Slot.dropWaiter]

/-- A lane does something that takes no call and hands nothing over. -/
theorem stepLane (h : Sound limits now s) {l : Lane} {e : LiveBatcher.Event (PendingCall ι)}
    {live : LiveBatcher (PendingCall ι)} (hlive : (s.lane l).step now e = some live)
    (hsubmit : ∀ call, e ≠ .submit call) (hhand : ∀ number, e ≠ .handOver number) :
    Sound limits now (s.setLane live l) := by
  obtain ⟨haccepted, hhanded, hwindows⟩ := LiveBatcher.step_frame hlive
  have hset := @setLane _ _ _ _ _ h _ _ [] ((h.lanes l).step hlive) (haccepted hsubmit) hwindows
    (LiveBatcher.closed_of_step hlive)
    (by rw [hhanded hhand, List.map_nil, List.append_nil])
    fun _ hjob ↦ (List.not_mem_nil hjob).elim
  obtain ⟨latest, archive, heq⟩ := setLane_eq s live l
  rw [heq, List.append_nil] at hset
  rw [heq]
  exact hset

theorem handOver (h : Sound limits now s) {l : Lane} {number : Nat}
    {live : LiveBatcher (PendingCall ι)} {window : List (PendingCall ι)}
    (hlive : (s.lane l).step now (.handOver number) = some live)
    (hwindow : live.batch? number = some window) :
    Sound limits now { s.setLane live l with
      jobs := s.jobs ++ [{ lane := l, number, window, phase := .checking window }] } := by
  obtain ⟨-, -, hwindows⟩ := LiveBatcher.step_frame hlive
  have hclosed := LiveBatcher.closed_of_step hlive
  have hsound := (h.lanes l).step hlive
  obtain ⟨-, ⟨⟩⟩ := Option.ite_none_right_eq_some.1 hlive
  refine h.setLane hsound rfl hwindows hclosed ?_ fun job hjob ↦ ?_
  · exact List.map_append
  · rw [List.mem_singleton.1 hjob]
    exact ⟨rfl, hwindow, List.suffix_rfl, rfl, rfl⟩

theorem jobAct (h : Sound limits now s) {k : Nat} {job : BatchJob ι} {e : Event ι}
    (hjob : s.jobs[k]? = some job) (hact : JobAct now s k job e s') : Sound limits now s' := by
  cases hact with
  | check hphase => exact h.check hjob hphase
  | assemble hphase => exact h.assemble hjob hphase
  | attempt hphase hdue => exact h.attempt hjob hphase
  | reply hphase => exact h.reply hjob hphase _ _ _
  | deliver hphase => exact h.deliver hjob hphase
  | finish hphase => exact h.finish hjob hphase

theorem step (h : Sound limits now s) {e : Event ι} (hs : s.step now e = some s') :
    Sound limits now s' := by
  cases act_of_step hs with
  | root => exact h.setTokens s.detached fun i hi ↦ (Tokens.isCanceled_root _ _).trans hi
  | child hfree => exact h.setTokens s.detached fun i hi ↦ Tokens.isCanceled_of_append hi
  | cancel hfree => exact h.setTokens s.detached fun i hi ↦ Tokens.isCanceled_cancel _ hi
  | call hnew hlt hfree => exact h.submit _ _ _ hnew
  | look hanswer => exact h.look hanswer
  | leave hc hwaits => exact h.leave hc
  | handOver hlive hwindow => exact (h.handOver hlive hwindow).setMetrics _
  | @free l live hlive =>
    have hset := h.stepLane hlive (fun _ heq ↦ nomatch heq) fun _ heq ↦ nomatch heq
    obtain ⟨⟨-, htimers⟩, -⟩ := Option.ite_none_right_eq_some.1 hlive
    rw [(h.lanes l).items_eq_nil_of_timers_eq_nil htimers]
    exact hset.release fun _ hcall ↦ (List.not_mem_nil hcall).elim
  | lane hlive hsubmit hhand => exact h.stepLane hlive hsubmit hhand
  | job hk hjob hact => exact h.jobAct hjob hact

end BatchingClient.Sound

namespace BatchingClient

theorem Move.sound {limits : BatchLimits} {x y : Time × BatchingClient ι} (hm : Move x y)
    (h : Sound limits x.1 x.2) : Sound limits y.1 y.2 := by
  cases hm with
  | wait hle => exact h.wait hle
  | event e hs => exact h.step hs

theorem sound_of_run {limits : BatchLimits} {x y : Time × BatchingClient ι}
    (run : Relation.ReflTransGen Move x y) (h : Sound limits x.1 x.2) : Sound limits y.1 y.2 := by
  induction run with
  | refl => exact h
  | tail _ hm ih => exact hm.sound ih

end BatchingClient

end Eth

end Outbound
