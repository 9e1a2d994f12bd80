import Outbound.Proofs.Cancellation
import Outbound.Proofs.Eth.Answers
import Outbound.Proofs.Lookup

/-!
# What an act can do

Each act of a caller, a lane or a job, with all that it changes. The endpoints and the policy are
changed by none.
-/

namespace Outbound.Eth

variable {ι : Type} [DecidableEq ι]

namespace BatchingClient

/-! ## What a part of a step leaves alone -/

omit [DecidableEq ι] in
theorem lane_setLane (s : BatchingClient ι) (live : LiveBatcher (PendingCall ι)) (l l' : Lane) :
    (s.setLane live l).lane l' = if l' = l then live else s.lane l' := by
  cases l <;> cases l' <;> rfl

omit [DecidableEq ι] in
theorem lane_cases (s : BatchingClient ι) (live : LiveBatcher (PendingCall ι)) (l l' : Lane) :
    l' ≠ l ∧ (s.setLane live l).lane l' = s.lane l' ∨
      l' = l ∧ (s.setLane live l).lane l' = live := by
  rw [lane_setLane]
  split
  · exact .inr ⟨‹_›, rfl⟩
  · exact .inl ⟨‹_›, rfl⟩

omit [DecidableEq ι] in
/-- What is the same in the old and the new lane is the same in all lanes. -/
theorem map_lane_setLane {α : Type} (f : LiveBatcher (PendingCall ι) → α) {s : BatchingClient ι}
    {live : LiveBatcher (PendingCall ι)} {l : Lane} (h : f live = f (s.lane l)) (l' : Lane) :
    f ((s.setLane live l).lane l') = f (s.lane l') := by
  rcases lane_cases s live l l' with ⟨-, hl⟩ | ⟨rfl, hl⟩
  · rw [hl]
  · rw [hl, h]

omit [DecidableEq ι] in
theorem mem_accepted_setLane {s : BatchingClient ι} {live : LiveBatcher (PendingCall ι)} {l : Lane}
    {x : Time × PendingCall ι} (haccepted : live.accepted = (s.lane l).accepted ++ [x])
    (l' : Lane) (y : Time × PendingCall ι) : y ∈ ((s.setLane live l).lane l').accepted ↔
      y ∈ (s.lane l').accepted ∨ l' = l ∧ y = x := by
  rcases lane_cases s live l l' with ⟨hne, hl⟩ | ⟨rfl, hl⟩
  · rw [hl]
    simp [hne]
  · rw [hl, haccepted]
    simp

omit [DecidableEq ι] in
theorem setLane_eq (s : BatchingClient ι) (live : LiveBatcher (PendingCall ι)) (l : Lane) :
    ∃ latest archive, s.setLane live l = { s with latest, archive } := by
  cases l <;> exact ⟨_, _, rfl⟩

section SetLane

variable (s : BatchingClient ι) (live : LiveBatcher (PendingCall ι)) (l : Lane)

omit [DecidableEq ι] in
@[simp] theorem client_setLane : (s.setLane live l).client = s.client := by cases l <;> rfl

omit [DecidableEq ι] in
@[simp] theorem policy_setLane : (s.setLane live l).policy = s.policy := by cases l <;> rfl

omit [DecidableEq ι] in
@[simp] theorem tokens_setLane : (s.setLane live l).tokens = s.tokens := by cases l <;> rfl

omit [DecidableEq ι] in
@[simp] theorem detached_setLane : (s.setLane live l).detached = s.detached := by
  cases l <;> rfl

omit [DecidableEq ι] in
@[simp] theorem callers_setLane : (s.setLane live l).callers = s.callers := by cases l <;> rfl

omit [DecidableEq ι] in
@[simp] theorem jobs_setLane : (s.setLane live l).jobs = s.jobs := by cases l <;> rfl

omit [DecidableEq ι] in
@[simp] theorem metrics_setLane : (s.setLane live l).metrics = s.metrics := by
  cases l <;> rfl

end SetLane

omit [DecidableEq ι] in
theorem getElem?_setJob {s : BatchingClient ι} {k : Nat} {job : BatchJob ι}
    (hjob : s.jobs[k]? = some job) (job' : BatchJob ι) : (s.setJob k job').jobs[k]? = some job' :=
  List.getElem?_set_self (List.getElem?_eq_some_iff.1 hjob).1

theorem callers_setCaller_self (s : BatchingClient ι) (id : ι) (c : Caller) :
    (s.setCaller id c).callers id = some c :=
  if_pos rfl

theorem callers_setCaller_of_ne (s : BatchingClient ι) {id id' : ι} (h : id' ≠ id)
    (c : Caller) : (s.setCaller id c).callers id' = s.callers id' :=
  if_neg h

theorem setCaller_cases {s : BatchingClient ι} {id id' : ι} {c d : Caller}
    (hd : (s.setCaller id c).callers id' = some d) :
    (id' = id ∧ d = c) ∨ (id' ≠ id ∧ s.callers id' = some d) := by
  by_cases heq : id' = id
  · subst heq
    rw [callers_setCaller_self] at hd
    exact .inl ⟨rfl, (Option.some.inj hd).symm⟩
  · rw [callers_setCaller_of_ne s heq] at hd
    exact .inr ⟨heq, hd⟩

theorem callers_release (s : BatchingClient ι) (calls : List (PendingCall ι)) (id : ι) :
    (s.release calls).callers id =
      if id ∈ calls.map (·.caller) then
        (s.callers id).map fun c ↦ { c with slot := c.slot.dropProducer }
      else s.callers id := by
  have hmem : (calls.any fun call ↦ decide (call.caller = id)) = true ↔
      id ∈ calls.map (·.caller) := by
    simp [List.any_eq_true, List.mem_map]
  simp only [release]
  by_cases h : id ∈ calls.map (·.caller)
  · rw [if_pos (hmem.2 h), if_pos h]
  · rw [if_neg (fun hany ↦ h (hmem.1 hany)), if_neg h]

theorem release_cases {s : BatchingClient ι} {calls : List (PendingCall ι)} {id : ι} {d : Caller}
    (hd : (s.release calls).callers id = some d) :
    ∃ c, s.callers id = some c ∧ (d = c ∨
      id ∈ calls.map (·.caller) ∧ d = { c with slot := c.slot.dropProducer }) := by
  rw [callers_release] at hd
  split at hd
  · obtain ⟨c, hc, rfl⟩ := Option.map_eq_some_iff.1 hd
    exact ⟨c, hc, .inr ⟨‹_›, rfl⟩⟩
  · exact ⟨d, hd, .inl rfl⟩

omit [DecidableEq ι] in
theorem isAbandoned_of_some {s : BatchingClient ι} {id : ι} {c : Caller}
    (h : s.callers id = some c) : s.isAbandoned id = c.slot.isAbandoned := by
  simp [isAbandoned, h]

theorem give_of_empty {s : BatchingClient ι} {id : ι} {c : Caller} (hc : s.callers id = some c)
    (hempty : c.slot.result = none) (r : Outcome (List UInt8)) :
    s.give id r = { s.setCaller id { c with slot := { c.slot with result := some r } } with
      given := s.given ++ [(id, r, true)] } := by
  simp only [give, hc, Slot.resolve, hempty]

omit [DecidableEq ι] in
theorem answer?_eq_some {s : BatchingClient ι} {now : Time} {id : ι} {seen : Option Reason}
    {c : Caller} {r : Outcome (List UInt8)} :
    s.answer? now id seen = some (c, r) ↔
      s.callers id = some c ∧ c.slot.waiterGone = false ∧
        (∀ reason ∈ seen, c.ctx.endedBy s.tokens now reason = true) ∧
        c.slot.poll seen = some r := by
  constructor
  · intro h
    obtain ⟨c', hc, h⟩ := Option.bind_eq_some_iff.1 h
    split at h
    · cases h
    · rename_i hguard
      obtain ⟨r', hpoll, h⟩ := Option.bind_eq_some_iff.1 h
      cases h
      simp only [Bool.or_eq_true, Bool.not_eq_true', not_or, Bool.not_eq_true,
        Bool.not_eq_false, Option.all_eq_true] at hguard
      exact ⟨hc, hguard.1, hguard.2, hpoll⟩
  · rintro ⟨hc, hwaits, hseen, hpoll⟩
    have hall : seen.all (c.ctx.endedBy s.tokens now) = true := (Option.all_eq_true _ _).2 hseen
    simp [answer?, hc, hwaits, hall, hpoll]

/-! ## Acts of jobs -/

/-- What a job does to a client, as far as it has come. -/
inductive JobAct (now : Time) (s : BatchingClient ι) (k : Nat) (job : BatchJob ι) :
    Event ι → BatchingClient ι → Prop where
  | check {n : Nat} {call : PendingCall ι} {rest : List (PendingCall ι)}
    (hphase : job.phase = .checking (call :: rest)) :
    JobAct now s k job (.check n) (s.check k job call rest)
  | assemble {n : Nat} (hphase : job.phase = .checking []) :
    JobAct now s k job (.assemble n) (s.assemble now k job)
  | attempt {n : Nat} {batch : CallBatch ι} {due : Time} (hphase : job.phase = .ready batch due)
    (hdue : due ≤ now) :
    JobAct now s k job (.attempt n) (s.setJob k { job with phase := .sent batch })
  | reply {n : Nat} {batch : CallBatch ι} {outcome : BatchOutcome}
    {next? : Nanos → Option (Nanos × Nanos)} (hphase : job.phase = .sent batch) :
    JobAct now s k job (.reply n outcome next?) (s.conclude now k job batch outcome
      (batch.afterAttempt s.policy.maxRetries next? outcome))
  | deliver {n : Nat} {batch : CallBatch ι} {outcome : BatchOutcome} {id : ι}
    {result : Outcome (List UInt8)} {left : List (ι × Outcome (List UInt8))}
    (hphase : job.phase = .delivering batch outcome ((id, result) :: left)) :
    JobAct now s k job (.deliver n)
      ((s.setJob k { job with phase := .delivering batch outcome left }).give id result)
  | finish {n : Nat} {batch : CallBatch ι} {outcome : BatchOutcome}
    (hphase : job.phase = .delivering batch outcome []) :
    JobAct now s k job (.finish n)
      ((s.setJob k { job with phase := .done (some (batch, outcome)) }).release batch.calls)

theorem jobAct_of_stepJob {now : Time} {s s' : BatchingClient ι} {k : Nat} {job : BatchJob ι}
    {e : Event ι} (hs : s.stepJob now k job e = some s') : JobAct now s k job e s' := by
  cases e with
  | check n =>
    simp only [stepJob] at hs
    split at hs
    · cases hs
      exact .check ‹_›
    · cases hs
  | assemble n =>
    simp only [stepJob] at hs
    split at hs
    · cases hs
      exact .assemble ‹_›
    · cases hs
  | attempt n =>
    simp only [stepJob] at hs
    split at hs
    · obtain ⟨hdue, ⟨⟩⟩ := Option.ite_none_right_eq_some.1 hs
      exact .attempt ‹_› hdue
    · cases hs
  | reply n outcome next? =>
    simp only [stepJob] at hs
    split at hs
    · cases hs
      exact .reply ‹_›
    · cases hs
  | deliver n =>
    simp only [stepJob] at hs
    split at hs
    · cases hs
      exact .deliver ‹_›
    · cases hs
  | finish n =>
    simp only [stepJob] at hs
    split at hs
    · cases hs
      exact .finish ‹_›
    · cases hs
  | _ => cases hs

/-- How a job goes on. -/
inductive JobNext (now : Time) (s : BatchingClient ι) (job : BatchJob ι) :
    Event ι → BatchJob ι → Prop where
  | check {n : Nat} {call : PendingCall ι} {rest : List (PendingCall ι)}
    (hphase : job.phase = .checking (call :: rest)) :
    JobNext now s job (.check n) { job with
      gone := job.gone ++ if s.isAbandoned call.caller then [call.caller] else []
      phase := .checking rest }
  | unsent {n : Nat} (hphase : job.phase = .checking []) :
    JobNext now s job (.assemble n) { job with phase := .done none }
  | assemble {n : Nat} {batch : CallBatch ι} {tokens : Tokens} (hphase : job.phase = .checking [])
    (hbatch : CallBatch.ofWindow? s.client s.policy job.lane (job.gone.contains ·) job.window
      s.tokens = some (batch, tokens)) :
    JobNext now s job (.assemble n) { job with phase := .ready batch now }
  | attempt {n : Nat} {batch : CallBatch ι} {due : Time} (hphase : job.phase = .ready batch due) :
    JobNext now s job (.attempt n) { job with phase := .sent batch }
  | again {n : Nat} {batch : CallBatch ι} {e : Error} {next? : Nanos → Option (Nanos × Nanos)}
    {wait : Nanos} {attempts : Attempts Nanos} (hphase : job.phase = .sent batch)
    (hnext : batch.attempts.afterFailure? s.policy.maxRetries next? = some (wait, attempts)) :
    JobNext now s job (.reply n (.error e) next?) { job with
      failures := job.failures ++ [e]
      phase := .ready { batch with attempts } (now + wait.ticks) }
  | conclude {n : Nat} {batch : CallBatch ι} {outcome : BatchOutcome}
    {next? : Nanos → Option (Nanos × Nanos)} (hphase : job.phase = .sent batch)
    (hlast : ∀ e, outcome = .error e →
      batch.attempts.afterFailure? s.policy.maxRetries next? = none) :
    JobNext now s job (.reply n outcome next?)
      { job with phase := .delivering batch outcome (answers batch.calls outcome) }
  | deliver {n : Nat} {batch : CallBatch ι} {outcome : BatchOutcome}
    {x : ι × Outcome (List UInt8)} {left : List (ι × Outcome (List UInt8))}
    (hphase : job.phase = .delivering batch outcome (x :: left)) :
    JobNext now s job (.deliver n) { job with phase := .delivering batch outcome left }
  | finish {n : Nat} {batch : CallBatch ι} {outcome : BatchOutcome}
    (hphase : job.phase = .delivering batch outcome []) :
    JobNext now s job (.finish n) { job with phase := .done (some (batch, outcome)) }

theorem jobs_give (s : BatchingClient ι) (id : ι) (r : Outcome (List UInt8)) :
    (s.give id r).jobs = s.jobs := by
  simp only [give]
  split <;> rfl

/-- An act of a job changes that job and no other. -/
theorem jobs_jobAct {now : Time} {s s' : BatchingClient ι} {k : Nat} {job : BatchJob ι}
    {e : Event ι} (hact : JobAct now s k job e s') :
    ∃ job', JobNext now s job e job' ∧ s'.jobs = s.jobs.set k job' := by
  cases hact with
  | @check n call rest hphase =>
    refine ⟨_, .check hphase, ?_⟩
    simp only [check]
    split
    · rfl
    · rw [List.append_nil]
      rfl
  | assemble hphase =>
    simp only [assemble]
    split
    · exact ⟨_, .unsent hphase, rfl⟩
    · exact ⟨_, .assemble hphase ‹_›, rfl⟩
  | attempt hphase hdue => exact ⟨_, .attempt hphase, rfl⟩
  | @reply n batch outcome next? hphase =>
    rcases batch.afterAttempt_cases s.policy.maxRetries next? outcome with
      ⟨results, rfl, heq⟩ | ⟨e, rfl, hnone, heq⟩ | ⟨e, wait, attempts, rfl, hnext, heq⟩
    · rw [heq]
      exact ⟨_, .conclude hphase (fun _ h ↦ nomatch h), rfl⟩
    · rw [heq]
      exact ⟨_, .conclude hphase fun _ _ ↦ hnone, rfl⟩
    · rw [heq]
      exact ⟨_, .again hphase hnext, rfl⟩
  | deliver hphase => exact ⟨_, .deliver hphase, jobs_give _ _ _⟩
  | finish hphase => exact ⟨_, .finish hphase, rfl⟩

theorem stepJob_of_jobAct {now : Time} {s s' : BatchingClient ι} {k : Nat} {job : BatchJob ι}
    {e : Event ι} (hact : JobAct now s k job e s') : s.stepJob now k job e = some s' := by
  cases hact with
  | check hphase => simp only [stepJob, hphase]
  | assemble hphase => simp only [stepJob, hphase]
  | attempt hphase hdue =>
    simp only [stepJob, hphase]
    exact if_pos hdue
  | reply hphase => simp only [stepJob, hphase]
  | deliver hphase => simp only [stepJob, hphase]
  | finish hphase => simp only [stepJob, hphase]

theorem step_of_jobAct {now : Time} {s s' : BatchingClient ι} {k : Nat} {job : BatchJob ι}
    {e : Event ι} (hk : e.job? = some k) (hjob : s.jobs[k]? = some job)
    (hact : JobAct now s k job e s') : s.step now e = some s' := by
  have hs := stepJob_of_jobAct hact
  cases e <;> simp_all [step, Event.job?]

/-! ## All acts -/

/-- What an event does to a client. -/
inductive Act (now : Time) (s : BatchingClient ι) : Event ι → BatchingClient ι → Prop where
  | root : Act now s (.derive none) { s with tokens := s.tokens.root.2 }
  | child {parent : Nat} (hfree : parent ∉ s.detached) :
    Act now s (.derive (some parent)) { s with tokens := (s.tokens.child parent).2 }
  | cancel {token : Nat} (hfree : token ∉ s.detached) :
    Act now s (.cancel token) { s with tokens := s.tokens.cancel token }
  | call {id : ι} {msg : CallMsg} {block : BlockRef} {ctx : Context} (hnew : s.callers id = none)
    (hlt : ctx.token < s.tokens.nodes.length) (hfree : ctx.token ∉ s.detached) :
    Act now s (.call id msg block ctx) (s.submit now id msg block ctx)
  | look {id : ι} {seen : Option Reason} {c : Caller} {r : Outcome (List UInt8)}
    (hanswer : s.answer? now id seen = some (c, r)) :
    Act now s (.look id seen)
      (s.setCaller id { c with slot := c.slot.dropWaiter, returned := some (now, r) })
  | leave {id : ι} {c : Caller} (hc : s.callers id = some c) (hwaits : c.slot.waiterGone = false) :
    Act now s (.leave id) (s.setCaller id { c with slot := c.slot.dropWaiter })
  | handOver {l : Lane} {number : Nat} {live : LiveBatcher (PendingCall ι)}
    {window : List (PendingCall ι)} (hlive : (s.lane l).step now (.handOver number) = some live)
    (hwindow : live.batch? number = some window) :
    Act now s (.lane l (.handOver number)) { s.setLane live l with
      jobs := s.jobs ++ [{ lane := l, number, window, phase := .checking window }]
      metrics := s.metrics.record (.batchSize l.name) window.length }
  | free {l : Lane} {live : LiveBatcher (PendingCall ι)}
    (hlive : (s.lane l).step now .free = some live) :
    Act now s (.lane l .free) ((s.setLane live l).release (s.lane l).batcher.items)
  | lane {l : Lane} {e : LiveBatcher.Event (PendingCall ι)} {live : LiveBatcher (PendingCall ι)}
    (hlive : (s.lane l).step now e = some live) (hsubmit : ∀ call, e ≠ .submit call)
    (hhand : ∀ number, e ≠ .handOver number) : Act now s (.lane l e) (s.setLane live l)
  | job {k : Nat} {job : BatchJob ι} {e : Event ι} {s' : BatchingClient ι} (hk : e.job? = some k)
    (hjob : s.jobs[k]? = some job) (hact : JobAct now s k job e s') : Act now s e s'

theorem act_of_stepLane {now : Time} {s s' : BatchingClient ι} {l : Lane}
    {e : LiveBatcher.Event (PendingCall ι)} (hs : s.stepLane now l e = some s') :
    Act now s (.lane l e) s' := by
  obtain ⟨live, hlive, hs⟩ := Option.bind_eq_some_iff.1 hs
  cases e with
  | submit call => cases hs
  | handOver number =>
    obtain ⟨window, hwindow, hs⟩ := Option.bind_eq_some_iff.1 hs
    cases hs
    exact .handOver hlive hwindow
  | free =>
    cases hs
    exact .free hlive
  | _ =>
    cases hs
    exact .lane hlive (fun _ heq ↦ nomatch heq) fun _ heq ↦ nomatch heq

theorem act_of_step {now : Time} {s s' : BatchingClient ι} {e : Event ι}
    (hs : s.step now e = some s') : Act now s e s' := by
  have hjob (e : Event ι)
      (hs : (do
        let k ← e.job?
        let job ← s.jobs[k]?
        s.stepJob now k job e) = some s') : Act now s e s' := by
    obtain ⟨k, hk, hs⟩ := Option.bind_eq_some_iff.1 hs
    obtain ⟨job, hget, hs⟩ := Option.bind_eq_some_iff.1 hs
    exact .job hk hget (jobAct_of_stepJob hs)
  cases e with
  | derive parent =>
    cases parent with
    | none =>
      cases hs
      exact .root
    | some parent =>
      simp only [step] at hs
      split at hs
      · cases hs
      · cases hs
        exact .child ‹_›
  | cancel token =>
    simp only [step] at hs
    split at hs
    · cases hs
    · cases hs
      exact .cancel ‹_›
  | call id msg block ctx =>
    obtain ⟨⟨hnew, hlt, hfree⟩, ⟨⟩⟩ := Option.ite_none_right_eq_some.1 hs
    exact .call (Option.isNone_iff_eq_none.1 hnew) hlt hfree
  | look id seen =>
    obtain ⟨⟨c, r⟩, hanswer, rfl⟩ := Option.map_eq_some_iff.1 hs
    exact .look hanswer
  | leave id =>
    obtain ⟨c, hc, hs⟩ := Option.bind_eq_some_iff.1 hs
    split at hs
    · cases hs
    · rename_i hwaits
      cases hs
      exact .leave hc (Bool.not_eq_true _ ▸ hwaits)
  | lane l e => exact act_of_stepLane hs
  | check k => exact hjob _ hs
  | assemble k => exact hjob _ hs
  | attempt k => exact hjob _ hs
  | reply k outcome next? => exact hjob _ hs
  | deliver k => exact hjob _ hs
  | finish k => exact hjob _ hs

/-- Jobs come from lanes and go on by acts of their own. -/
theorem jobs_step {now : Time} {s s' : BatchingClient ι} {e : Event ι}
    (hs : s.step now e = some s') :
    (e.job? = none ∧ s'.jobs = s.jobs) ∨
      (e.job? = none ∧ ∃ lane number window,
        s'.jobs = s.jobs ++ [{ lane, number, window, phase := .checking window }]) ∨
      ∃ k job job', e.job? = some k ∧ s.jobs[k]? = some job ∧ JobAct now s k job e s' ∧
        JobNext now s job e job' ∧ s'.jobs = s.jobs.set k job' := by
  cases act_of_step hs with
  | call hnew hlt hfree =>
    refine .inl ⟨rfl, ?_⟩
    simp only [submit]
    split
    · rfl
    · exact jobs_setLane s _ _
  | @handOver l number live window hlive hwindow =>
    refine .inr (.inl ⟨rfl, l, number, window, ?_⟩)
    rw [← jobs_setLane s live l]
  | free hlive => exact .inl ⟨rfl, jobs_setLane s _ _⟩
  | lane hlive hsubmit hhand => exact .inl ⟨rfl, jobs_setLane s _ _⟩
  | job hk hjob hact =>
    obtain ⟨job', hnext, hjobs⟩ := jobs_jobAct hact
    exact .inr (.inr ⟨_, _, job', hk, hjob, hact, hnext, hjobs⟩)
  | _ => exact .inl ⟨rfl, rfl⟩

/-- A job is as it was, or new, or has just acted. -/
theorem getElem?_jobs_step {now : Time} {s s' : BatchingClient ι} {e : Event ι}
    (hs : s.step now e = some s') {k : Nat} {job : BatchJob ι} (hjob : s'.jobs[k]? = some job) :
    (e.job? ≠ some k ∧ s.jobs[k]? = some job) ∨
      (e.job? ≠ some k ∧ s.jobs.length ≤ k ∧ ∃ lane number window,
        job = { lane, number, window, phase := .checking window }) ∨
      ∃ old, e.job? = some k ∧ s.jobs[k]? = some old ∧ JobAct now s k old e s' ∧
        JobNext now s old e job := by
  rcases jobs_step hs with ⟨he, hjobs⟩ | ⟨he, lane, number, window, hjobs⟩ |
    ⟨n, old, job', he, hold, hact, hnext, hjobs⟩
  · rw [hjobs] at hjob
    exact .inl ⟨by simp [he], hjob⟩
  · rw [hjobs] at hjob
    rcases getElem?_concat_cases hjob with ⟨rfl, rfl⟩ | hold
    · exact .inr (.inl ⟨by simp [he], Nat.le_refl _, lane, number, window, rfl⟩)
    · exact .inl ⟨by simp [he], hold⟩
  · rw [hjobs] at hjob
    rcases getElem?_set_cases hjob with ⟨rfl, rfl⟩ | ⟨hne, hsame⟩
    · exact .inr (.inr ⟨old, he, hold, hact, hnext⟩)
    · exact .inl ⟨fun hk ↦ hne (Option.some.inj (hk.symm.trans he)), hsame⟩

/-- No job is ever forgotten, and none acts that is not there. -/
theorem length_jobs_step {now : Time} {s s' : BatchingClient ι} {e : Event ι}
    (hs : s.step now e = some s') {k : Nat} (hk : s'.jobs.length ≤ k) :
    s.jobs.length ≤ k ∧ e.job? ≠ some k := by
  rcases jobs_step hs with ⟨he, hjobs⟩ | ⟨he, lane, number, window, hjobs⟩ |
    ⟨n, old, job', he, hold, -, -, hjobs⟩
  · exact ⟨hjobs ▸ hk, by simp [he]⟩
  · rw [hjobs, List.length_append] at hk
    exact ⟨Nat.le_trans (Nat.le_add_right _ _) hk, by simp [he]⟩
  · rw [hjobs, List.length_set] at hk
    refine ⟨hk, fun heq ↦ ?_⟩
    have hlt := (List.getElem?_eq_some_iff.1 hold).1
    rw [he] at heq
    cases heq
    exact Nat.not_lt.2 hk hlt

/-! ## The settings stay -/

/-- A job changes neither a lane nor the endpoints nor the policy. -/
theorem jobAct_frame {now : Time} {s s' : BatchingClient ι} {k : Nat} {job : BatchJob ι}
    {e : Event ι} (hact : JobAct now s k job e s') :
    s'.client = s.client ∧ s'.policy = s.policy ∧ s'.latest = s.latest ∧
      s'.archive = s.archive := by
  cases hact with
  | check hphase =>
    simp only [check]
    split <;> exact ⟨rfl, rfl, rfl, rfl⟩
  | assemble hphase =>
    simp only [assemble]
    split <;> exact ⟨rfl, rfl, rfl, rfl⟩
  | attempt hphase hdue => exact ⟨rfl, rfl, rfl, rfl⟩
  | reply hphase =>
    simp only [conclude]
    split <;> exact ⟨rfl, rfl, rfl, rfl⟩
  | deliver hphase =>
    simp only [give]
    split <;> exact ⟨rfl, rfl, rfl, rfl⟩
  | finish hphase => exact ⟨rfl, rfl, rfl, rfl⟩

theorem settings_step {now : Time} {s s' : BatchingClient ι} {e : Event ι}
    (hs : s.step now e = some s') : s'.client = s.client ∧ s'.policy = s.policy := by
  cases act_of_step hs with
  | call hnew hlt hfree =>
    simp only [submit]
    split
    · exact ⟨rfl, rfl⟩
    · exact ⟨client_setLane s _ _, policy_setLane s _ _⟩
  | handOver hlive hwindow => exact ⟨client_setLane s _ _, policy_setLane s _ _⟩
  | free hlive => exact ⟨client_setLane s _ _, policy_setLane s _ _⟩
  | lane hlive hsubmit hhand => exact ⟨client_setLane s _ _, policy_setLane s _ _⟩
  | job hk hjob hact =>
    obtain ⟨hclient, hpolicy, -⟩ := jobAct_frame hact
    exact ⟨hclient, hpolicy⟩
  | _ => exact ⟨rfl, rfl⟩

theorem settings_run {x y : Time × BatchingClient ι} (run : Relation.ReflTransGen Move x y) :
    y.2.client = x.2.client ∧ y.2.policy = x.2.policy := by
  induction run with
  | refl => exact ⟨rfl, rfl⟩
  | tail _ hm ih =>
    cases hm with
    | wait _ => exact ih
    | event e hs =>
      obtain ⟨hclient, hpolicy⟩ := settings_step hs
      exact ⟨hclient.trans ih.1, hpolicy.trans ih.2⟩

/-! ## The tokens of batches -/

theorem tokens_jobAct {now : Time} {s s' : BatchingClient ι} {k : Nat} {job : BatchJob ι}
    {e : Event ι} (hact : JobAct now s k job e s') :
    (s'.tokens = s.tokens ∧ s'.detached = s.detached) ∨
      (s'.tokens = s.tokens.root.2 ∧ s'.detached = s.detached ++ [s.tokens.root.1]) := by
  cases hact with
  | check hphase =>
    left
    simp only [check]
    split <;> exact ⟨rfl, rfl⟩
  | assemble hphase =>
    simp only [assemble]
    split
    · exact .inl ⟨rfl, rfl⟩
    · rename_i batch tokens hbatch
      obtain ⟨-, -, -, htoken, -, -, htokens⟩ := CallBatch.ofWindow?_eq_some hbatch
      rw [← htoken]
      exact .inr ⟨htokens, rfl⟩
  | attempt hphase hdue => exact .inl ⟨rfl, rfl⟩
  | reply hphase =>
    left
    simp only [conclude]
    split <;> exact ⟨rfl, rfl⟩
  | deliver hphase =>
    left
    simp only [give]
    split <;> exact ⟨rfl, rfl⟩
  | finish hphase => exact .inl ⟨rfl, rfl⟩

theorem detached_assemble {now : Time} {s s' : BatchingClient ι} {k n : Nat} {job : BatchJob ι}
    {batch : CallBatch ι} {tokens : Tokens}
    (hbatch : CallBatch.ofWindow? s.client s.policy job.lane (job.gone.contains ·) job.window
      s.tokens = some (batch, tokens)) (hact : JobAct now s k job (.assemble n) s') :
    batch.ctx.token ∈ s'.detached := by
  cases hact with
  | assemble hphase =>
    simp only [assemble, hbatch]
    exact List.mem_append_right _ List.mem_cons_self

/-- Nobody cancels the token of a batch, and no token is put below it. -/
theorem detached_step {now : Time} {s s' : BatchingClient ι} {e : Event ι}
    (hs : s.step now e = some s')
    (h : ∀ t ∈ s.detached, s.tokens.nodes[t]? = some ⟨none, false⟩) :
    s.detached ⊆ s'.detached ∧ ∀ t ∈ s'.detached, s'.tokens.nodes[t]? = some ⟨none, false⟩ := by
  have hgrow {t : Nat} (ht : t ∈ s.detached) (nodes : List Token) :
      (s.tokens.nodes ++ nodes)[t]? = some ⟨none, false⟩ := by
    rw [List.getElem?_append_left (List.getElem?_eq_some_iff.1 (h t ht)).1]
    exact h t ht
  have hsame {s₁ : BatchingClient ι} (htokens : s₁.tokens = s.tokens)
      (hdetached : s₁.detached = s.detached) : s.detached ⊆ s₁.detached ∧
        ∀ t ∈ s₁.detached, s₁.tokens.nodes[t]? = some ⟨none, false⟩ := by
    rw [htokens, hdetached]
    exact ⟨fun _ ht ↦ ht, h⟩
  cases act_of_step hs with
  | root => exact ⟨fun _ ht ↦ ht, fun t ht ↦ hgrow ht _⟩
  | child hfree => exact ⟨fun _ ht ↦ ht, fun t ht ↦ hgrow ht _⟩
  | cancel hfree =>
    exact ⟨fun _ ht ↦ ht, fun t ht ↦
      Tokens.getElem?_cancel_of_root (h t ht) fun heq ↦ hfree (heq ▸ ht)⟩
  | call hnew hlt hfree =>
    simp only [submit]
    split
    · exact hsame rfl rfl
    · exact hsame (tokens_setLane s _ _) (detached_setLane s _ _)
  | look hanswer => exact hsame rfl rfl
  | leave hc hwaits => exact hsame rfl rfl
  | handOver hlive hwindow => exact hsame (tokens_setLane s _ _) (detached_setLane s _ _)
  | free hlive => exact hsame (tokens_setLane s _ _) (detached_setLane s _ _)
  | lane hlive hsubmit hhand => exact hsame (tokens_setLane s _ _) (detached_setLane s _ _)
  | job hk hjob hact =>
    rcases tokens_jobAct hact with ⟨htokens, hdetached⟩ | ⟨htokens, hdetached⟩
    · exact hsame htokens hdetached
    · rw [htokens, hdetached]
      refine ⟨List.subset_append_left _ _, fun t ht ↦ ?_⟩
      rcases List.mem_append.1 ht with ht | ht
      · exact hgrow ht _
      · rw [List.mem_singleton.1 ht]
        exact List.getElem?_concat_length

end BatchingClient

end Outbound.Eth
