import Outbound.Proofs.Batch.Delivery
import Outbound.Proofs.Eth.FanOut
import Outbound.Proofs.Eth.NodeRuns

/-!
# Every call gets its answer

While nodes answer, the tasks of a client have a bounded amount of work left and each of their acts
does some of it. As long as there is work, a node owes a reply or a task can act. When there is
none left, every call that was taken has returned or its caller has gone.
-/

namespace Outbound.Eth

open Rpc (Verdict)

variable {ι : Type}

/-- A bound on the acts that a job has before it. -/
def BatchJob.remaining (job : BatchJob ι) : Nat :=
  match job.phase with
  | .checking rest => rest.length + job.window.length + 4
  | .ready _ _ => job.window.length + 3
  | .sent _ => job.window.length + 2
  | .delivering _ _ left => left.length + 1
  | .done _ => 0

/-- Whether a caller waits, and whether its call has returned. -/
def Caller.status (c : Caller) : Bool × Bool := (!c.slot.waiterGone, c.returned.isSome)

namespace BatchingClient

/-- No task is left that could act, now or later. -/
def Quiet [DecidableEq ι] (s : BatchingClient ι) : Prop :=
  ∀ (now : Time) (e : Event ι), e.isTask = true → s.step now e = none

/-- The caller waits for its result. -/
def waits (s : BatchingClient ι) (id : ι) : Bool :=
  ((s.callers id).map Caller.status).any (·.1)

/-- A window is worth the acts of its job and the one that makes it. -/
def windowWork (window : List (PendingCall ι)) : Nat := 2 * window.length + 5

/-- A bound on the acts that tasks have before them. -/
def work (s : BatchingClient ι) : Nat :=
  s.latest.work windowWork + s.archive.work windowWork + (s.jobs.map BatchJob.remaining).sum +
    (s.latest.accepted ++ s.archive.accepted).countP fun x ↦ s.waits x.2.caller

variable [DecidableEq ι] {limits : BatchLimits} {now : Time} {s s' : BatchingClient ι}

/-! ## What acts do to callers -/

theorem status_release (calls : List (PendingCall ι)) (id : ι) :
    ((s.release calls).callers id).map Caller.status = (s.callers id).map Caller.status := by
  rw [callers_release]
  split
  · rw [Option.map_map]
    rfl
  · rfl

theorem status_give (id : ι) (r : Outcome (List UInt8)) (id' : ι) :
    ((s.give id r).callers id').map Caller.status = (s.callers id').map Caller.status := by
  simp only [give]
  split
  · rfl
  · rename_i c hc
    have hkept : (c.slot.resolve r).2.waiterGone = c.slot.waiterGone := by
      simp only [Slot.resolve]
      split <;> rfl
    by_cases heq : id' = id
    · subst heq
      simp [callers_setCaller_self, hc, Caller.status, hkept]
    · simp [callers_setCaller_of_ne _ heq]

theorem status_jobAct {k : Nat} {job : BatchJob ι} {e : Event ι} (hact : JobAct now s k job e s')
    (id : ι) : (s'.callers id).map Caller.status = (s.callers id).map Caller.status := by
  cases hact with
  | check hphase =>
    simp only [check]
    split
    · exact status_release _ id
    · rfl
  | assemble hphase =>
    simp only [assemble]
    split <;> rfl
  | attempt hphase hdue => rfl
  | reply hphase =>
    simp only [conclude]
    split <;> rfl
  | deliver hphase => exact status_give _ _ id
  | finish hphase => exact status_release _ id

/-- Only a call, a look that finds an answer, and leaving change where a caller stands. -/
theorem status_step {e : Event ι} (hs : s.step now e = some s') (id : ι) :
    (s'.callers id).map Caller.status = (s.callers id).map Caller.status ∨
      (∃ msg block ctx c, e = .call id msg block ctx ∧ s'.callers id = some c ∧
        (c.slot.waiterGone = true → c.returned.isSome = true)) ∨
      (∃ seen c, e = .look id seen ∧ s.waits id = true ∧ s'.callers id = some c ∧
        c.slot.waiterGone = true ∧ c.returned.isSome = true) ∨
      e = .leave id := by
  have hset {id' : ι} (hne : id ≠ id') (s₁ : BatchingClient ι) (h : s₁.callers = s.callers)
      (c : Caller) : ((s₁.setCaller id' c).callers id).map Caller.status =
        (s.callers id).map Caller.status := by
    rw [callers_setCaller_of_ne s₁ hne, h]
  cases act_of_step hs with
  | @call id' msg block ctx hnew hlt hfree =>
    by_cases heq : id = id'
    · subst heq
      have hcaller : ∃ c, (s.submit now id msg block ctx).callers id = some c ∧
          (c.slot.waiterGone = true → c.returned.isSome = true) := by
        simp only [submit]
        split
        · exact ⟨_, callers_setCaller_self s id _, fun _ ↦ rfl⟩
        · refine ⟨_, callers_setCaller_self _ id _, fun hgone ↦ ?_⟩
          cases hgone
      obtain ⟨c, hc⟩ := hcaller
      exact .inr (.inl ⟨msg, block, ctx, c, rfl, hc⟩)
    · left
      simp only [submit]
      split
      · exact hset heq s rfl _
      · exact hset heq _ (callers_setLane s _ _) _
  | @look id' seen c r hanswer =>
    by_cases heq : id = id'
    · subst heq
      obtain ⟨hc, hwaits, -⟩ := answer?_eq_some.1 hanswer
      refine .inr (.inr (.inl ⟨seen, _, rfl, ?_, callers_setCaller_self s id _, rfl, rfl⟩))
      simp [waits, hc, Caller.status, hwaits]
    · exact .inl (hset heq s rfl _)
  | @leave id' c hc hwaits =>
    by_cases heq : id = id'
    · subst heq
      exact .inr (.inr (.inr rfl))
    · exact .inl (hset heq s rfl _)
  | handOver hlive hwindow =>
    left
    exact congrArg (Option.map _) (congrFun (callers_setLane s _ _) id)
  | free hlive =>
    left
    rw [status_release, callers_setLane]
  | lane hlive hsubmit hhand =>
    left
    rw [callers_setLane]
  | job hk hjob hact => exact .inl (status_jobAct hact id)
  | _ => exact .inl rfl

/-- A caller that waits no more has its answer or has left. -/
theorem returned_or_left {client : Client} {policy : BackoffPolicy} {start : Time}
    {events : List (Event ι)} {y : Time × BatchingClient ι}
    (run : Run (start, new client policy limits) events y) {id : ι} {c : Caller}
    (hc : y.2.callers id = some c) (hgone : c.slot.waiterGone = true) :
    c.returned.isSome = true ∨ .leave id ∈ events := by
  induction run generalizing c with
  | refl => cases hc
  | wait run h ih => exact ih hc hgone
  | @event events now s s' run e hs ih =>
    rcases status_step hs id with hsame | ⟨-, -, -, d, -, hd, hreturned⟩ |
      ⟨-, d, -, -, hd, -, hreturned⟩ | rfl
    · rw [show s'.callers id = some c from hc] at hsame
      obtain ⟨b, hb, hstatus⟩ := Option.map_eq_some_iff.1 hsame.symm
      simp only [Caller.status, Prod.mk.injEq, Bool.not_eq_eq_eq_not, Bool.not_not] at hstatus
      rw [← hstatus.2]
      refine (ih hb (hstatus.1.trans hgone)).imp_right fun h ↦ ?_
      exact List.mem_append_left _ h
    · rw [show s'.callers id = some c from hc] at hd
      cases hd
      exact .inl (hreturned hgone)
    · rw [show s'.callers id = some c from hc] at hd
      cases hd
      exact .inl hreturned
    · exact .inr (List.mem_append_right _ List.mem_cons_self)

/-! ## What acts do to the work -/

omit [DecidableEq ι] in
theorem countP_lt_of_mem {α : Type} {p q : α → Bool} {xs : List α} {x : α}
    (h : ∀ y ∈ xs, p y → q y) (hx : x ∈ xs) (hp : p x = false) (hq : q x = true) :
    xs.countP p < xs.countP q := by
  obtain ⟨before, after, rfl⟩ := List.append_of_mem hx
  have hbefore : before.countP p ≤ before.countP q :=
    List.countP_mono_left fun y hy ↦ h y (List.mem_append_left _ hy)
  have hafter : after.countP p ≤ after.countP q :=
    List.countP_mono_left fun y hy ↦ h y (List.mem_append_right _ (List.mem_cons_of_mem x hy))
  simp only [List.countP_append, List.countP_cons, hp, hq, Bool.false_eq_true, if_false, if_true]
  omega

/-- An act of a job brings it nearer to its end, unless an attempt has failed and another one
follows. -/
theorem remaining_lt_or {job job' : BatchJob ι} {e : Event ι} (hnext : JobNext now s job e job')
    (hshaped : job.Shaped) :
    job'.remaining < job.remaining ∨ ∃ err, job'.failures = job.failures ++ [err] := by
  cases hnext with
  | again hphase hnext => exact .inr ⟨_, rfl⟩
  | check hphase =>
    left
    simp only [BatchJob.remaining, hphase, List.length_cons]
    omega
  | unsent hphase =>
    left
    simp only [BatchJob.remaining, hphase]
    omega
  | assemble hphase hbatch =>
    left
    simp only [BatchJob.remaining, hphase, List.length_nil]
    omega
  | attempt hphase =>
    left
    simp only [BatchJob.remaining, hphase]
    omega
  | conclude hphase hlast =>
    left
    simp only [BatchJob.Shaped, hphase] at hshaped
    have hkept := job.kept_sublist.length_le
    simp only [BatchJob.remaining, hphase, length_answers, hshaped]
    omega
  | deliver hphase =>
    left
    simp only [BatchJob.remaining, hphase, List.length_cons]
    omega
  | finish hphase =>
    left
    simp only [BatchJob.remaining, hphase, List.length_nil]
    omega

theorem work_jobAct {k : Nat} {job job' : BatchJob ι} {e : Event ι}
    (hact : JobAct now s k job e s') (hjob : s.jobs[k]? = some job)
    (hjobs : s'.jobs = s.jobs.set k job') (hlt : job'.remaining < job.remaining) :
    s'.work < s.work := by
  obtain ⟨-, -, hlatest, harchive⟩ := jobAct_frame hact
  have hwaits : s'.waits = s.waits := by
    funext id
    rw [waits, waits, status_jobAct hact]
  have hsum := sum_map_set hjob BatchJob.remaining job'
  simp only [work, hlatest, harchive, hwaits, hjobs]
  omega

omit [DecidableEq ι] in
theorem mem_accepted {l : Lane} {x : Time × PendingCall ι} (hx : x ∈ (s.lane l).accepted) :
    x ∈ s.latest.accepted ++ s.archive.accepted := by
  cases l with
  | latest => exact List.mem_append_left _ hx
  | archive => exact List.mem_append_right _ hx

theorem Sound.work_look (h : Sound limits now s) {id : ι} {seen : Option Reason} {c : Caller}
    {r : Outcome (List UInt8)} (hanswer : s.answer? now id seen = some (c, r)) :
    (s.setCaller id { c with slot := c.slot.dropWaiter, returned := some (now, r) }).work <
      s.work := by
  obtain ⟨hc, hwaits, -⟩ := answer?_eq_some.1 hanswer
  have haccepted : c.accepted = true := by
    by_contra hrejected
    have hgone := (h.fine id c hc).rejected (by simpa using hrejected)
    rw [hwaits] at hgone
    cases hgone
  obtain ⟨x, hx, hcall⟩ := List.mem_map.1 (h.listed id c hc haccepted)
  have hcaller : x.2.caller = id := congrArg PendingCall.caller hcall
  refine Nat.add_lt_add_left (countP_lt_of_mem (fun y _ hy ↦ ?_) (mem_accepted hx) ?_ ?_) _
  · by_cases heq : y.2.caller = id
    · simp [waits, heq, callers_setCaller_self, Caller.status, Slot.dropWaiter] at hy
    · rwa [waits, callers_setCaller_of_ne s heq] at hy
  · simp [waits, hcaller, callers_setCaller_self, Caller.status, Slot.dropWaiter]
  · simp [waits, hcaller, hc, Caller.status, hwaits]

/-- An act of a task in a lane, handing over apart, does one piece of its work. -/
theorem Sound.work_lane (h : Sound limits now s) {l : Lane}
    {e : LiveBatcher.Event (PendingCall ι)} {live : LiveBatcher (PendingCall ι)}
    (task : e.isTask = true) (hlive : (s.lane l).step now e = some live)
    (hhand : ∀ number, e ≠ .handOver number) : (s.setLane live l).work < s.work := by
  have hwork : live.work windowWork + 1 = (s.lane l).work windowWork := by
    have hstep := (h.lanes l).work_step windowWork task hlive
    split at hstep
    · exact absurd rfl (hhand _)
    · exact hstep
  have haccepted : live.accepted = (s.lane l).accepted := by
    refine (LiveBatcher.step_frame hlive).1 fun call heq ↦ ?_
    rw [heq] at task
    cases task
  cases l with
  | latest =>
    change live.work windowWork + 1 = s.latest.work windowWork at hwork
    change live.accepted = s.latest.accepted at haccepted
    simp only [work, BatchingClient.setLane, waits, haccepted]
    omega
  | archive =>
    change live.work windowWork + 1 = s.archive.work windowWork at hwork
    change live.accepted = s.archive.accepted at haccepted
    simp only [work, BatchingClient.setLane, waits, haccepted]
    omega

/-- The job that is made for a window has less work than handing it over was worth. -/
theorem Sound.work_handOver (h : Sound limits now s) {l : Lane} {number : Nat}
    {live : LiveBatcher (PendingCall ι)} {window : List (PendingCall ι)}
    (hlive : (s.lane l).step now (.handOver number) = some live)
    (hwindow : live.batch? number = some window) (metrics : Metrics) :
    ({ s.setLane live l with
      jobs := s.jobs ++ [{ lane := l, number, window, phase := .checking window }]
      metrics } : BatchingClient ι).work < s.work := by
  have hwork := (h.lanes l).work_step windowWork rfl hlive
  obtain ⟨-, ⟨⟩⟩ := Option.ite_none_right_eq_some.1 hlive
  have hbatch : (s.lane l).batch? number = some window := hwindow
  simp only [hbatch, Option.getD_some, windowWork] at hwork
  cases l with
  | latest =>
    simp only [work, BatchingClient.setLane, waits, lane, List.map_append, List.sum_append, List.map_cons,
      List.map_nil, List.sum_cons, List.sum_nil, BatchJob.remaining] at hwork ⊢
    omega
  | archive =>
    simp only [work, BatchingClient.setLane, waits, lane, List.map_append, List.sum_append, List.map_cons,
      List.map_nil, List.sum_cons, List.sum_nil, BatchJob.remaining] at hwork ⊢
    omega

/-- Each act of a task does some of the work, unless an attempt has failed and another one
follows. -/
theorem Sound.work_lt_or (hs : Sound limits now s) {e : Event ι} (task : e.isTask = true)
    (hstep : s.step now e = some s') :
    s'.work < s.work ∨ ∃ (k : Nat) (job job' : BatchJob ι) (err : Error),
      s.jobs[k]? = some job ∧ s'.jobs[k]? = some job' ∧
        job'.failures = job.failures ++ [err] := by
  cases act_of_step hstep with
  | look hanswer => exact .inl (hs.work_look hanswer)
  | handOver hlive hwindow => exact .inl (hs.work_handOver hlive hwindow _)
  | lane hlive hsubmit hhand => exact .inl (hs.work_lane task hlive hhand)
  | @job k job e s' hk hjob hact =>
    obtain ⟨job', hnext, hjobs⟩ := jobs_jobAct hact
    rcases remaining_lt_or hnext (hs.shaped job (List.mem_of_getElem? hjob)) with
      hlt | ⟨err, hfailures⟩
    · exact .inl (work_jobAct hact hjob hjobs hlt)
    · refine .inr ⟨k, job, job', err, hjob, ?_, hfailures⟩
      rw [hjobs]
      exact getElem?_setJob hjob job'
  | _ => cases task

/-- While nodes answer, no attempt fails. -/
theorem Served.work_lt {verdicts : Role → Verdict} (h : Served verdicts s)
    (hs : Sound limits now s) (hcount : limits.maxCount < 2 ^ 64) {e : Event ι}
    (task : e.isTask = true) (hstep : s.step now e = some s')
    (hnode : e.FromNodes verdicts now s) : s'.work < s.work := by
  refine (hs.work_lt_or task hstep).resolve_right ?_
  rintro ⟨k, job, job', err, hjob, hjob', hfailures⟩
  rcases getElem?_jobs_step hstep hjob' with ⟨-, hsame⟩ | ⟨-, hlength, -⟩ |
    ⟨old, hk, hold, -, hnext⟩
  · rw [hjob] at hsame
    cases hsame
    simp at hfailures
  · exact Nat.not_lt.2 hlength (List.getElem?_eq_some_iff.1 hjob).1
  · rw [hjob] at hold
    cases hold
    cases hnext with
    | again hphase hagain =>
      cases hk
      cases h.eq_served hs hcount (List.mem_of_getElem? hjob) hphase (hnode job _ hjob hphase)
    | _ => simp at hfailures

/-! ## When there is no work left -/

/-- A job that has not come to its end awaits a reply or can act. -/
theorem exists_step_of_job (now : Time) {k : Nat} {job : BatchJob ι}
    (hjob : s.jobs[k]? = some job) (hphase : ∀ result, job.phase ≠ .done result) :
    (∃ batch, job.phase = .sent batch) ∨ ∃ later e s', now ≤ later ∧ e.isTask = true ∧
      e.attempted? = none ∧ s.step later e = some s' := by
  have hact {later : Time} {e : Event ι} {s' : BatchingClient ι} (hle : now ≤ later)
      (hk : e.job? = some k) (task : e.isTask = true) (hreply : e.attempted? = none)
      (hact : JobAct later s k job e s') : ∃ later e s', now ≤ later ∧ e.isTask = true ∧
        e.attempted? = none ∧ s.step later e = some s' :=
    ⟨later, e, s', hle, task, hreply, step_of_jobAct hk hjob hact⟩
  cases h : job.phase with
  | checking rest =>
    right
    cases rest with
    | nil => exact hact (Nat.le_refl now) rfl rfl rfl (.assemble h)
    | cons call rest => exact hact (Nat.le_refl now) rfl rfl rfl (.check h)
  | ready batch due =>
    right
    exact hact (Nat.le_max_left now due) rfl rfl rfl (.attempt h (Nat.le_max_right now due))
  | sent batch => exact .inl ⟨batch, rfl⟩
  | delivering batch outcome left =>
    right
    cases left with
    | nil => exact hact (Nat.le_refl now) rfl rfl rfl (.finish h)
    | cons x left => exact hact (Nat.le_refl now) rfl rfl rfl (.deliver h)
  | done result => exact absurd h (hphase result)

theorem Quiet.done (hq : s.Quiet) {job : BatchJob ι} (hjob : job ∈ s.jobs) :
    ∃ result, job.phase = .done result := by
  obtain ⟨k, hk⟩ := List.getElem?_of_mem hjob
  by_contra hnot
  rcases exists_step_of_job 0 hk (not_exists.1 hnot) with
    ⟨batch, hsent⟩ | ⟨later, e, s', -, task, -, hs⟩
  · have hreply : JobAct 0 s k job (.reply k (.ok []) fun _ ↦ none) _ := .reply hsent
    have hs := step_of_jobAct rfl hk hreply
    rw [hq 0 _ rfl] at hs
    cases hs
  · rw [hq later e task] at hs
    cases hs

/-- What a task can do in a lane it can do in the client. -/
theorem Sound.exists_step_of_lane (h : Sound limits now s) {t : Time} {l : Lane}
    {e : LiveBatcher.Event (PendingCall ι)} {live : LiveBatcher (PendingCall ι)}
    (task : e.isTask = true) (hlive : (s.lane l).step t e = some live) :
    ∃ s', s.step t (.lane l e) = some s' := by
  cases e with
  | handOver number =>
    obtain ⟨hmem, heq⟩ := Option.ite_none_right_eq_some.1 hlive
    obtain ⟨w, hw⟩ : ∃ w, (s.lane l).windows[number]? = some w :=
      ⟨_, List.getElem?_eq_getElem ((h.lanes l).lt_of_mem_leaving hmem)⟩
    have hbatch : live.batch? number = some w.2 := by
      rw [← Option.some.inj heq]
      exact congrArg (Option.map Prod.snd) hw
    simp [BatchingClient.step, BatchingClient.stepLane, hlive, hbatch]
  | sleep generation => simp [BatchingClient.step, BatchingClient.stepLane, hlive]
  | wake generation due => simp [BatchingClient.step, BatchingClient.stepLane, hlive]
  | expire generation => simp [BatchingClient.step, BatchingClient.stepLane, hlive]
  | _ => cases task

theorem Sound.quiet_lane (h : Sound limits now s) (hq : s.Quiet) (l : Lane) :
    (s.lane l).Quiet := by
  intro t e task
  by_contra hsome
  obtain ⟨live, hlive⟩ := Option.ne_none_iff_exists'.1 hsome
  obtain ⟨s', hs⟩ := h.exists_step_of_lane task hlive
  rw [hq t (.lane l e) task] at hs
  cases hs

theorem step_of_answer? {id : ι} {seen : Option Reason} {c : Caller} {r : Outcome (List UInt8)}
    (h : s.answer? now id seen = some (c, r)) :
    s.step now (.look id seen) = some (s.setCaller id
      { c with slot := c.slot.dropWaiter, returned := some (now, r) }) :=
  Option.map_eq_some_iff.2 ⟨(c, r), h, rfl⟩

omit [DecidableEq ι] in
theorem answer?_mono {later : Time} {id : ι} {seen : Option Reason}
    {c : Caller} {r : Outcome (List UInt8)} (hle : now ≤ later)
    (h : s.answer? now id seen = some (c, r)) : s.answer? later id seen = some (c, r) := by
  obtain ⟨hc, hwaits, hseen, hpoll⟩ := answer?_eq_some.1 h
  exact answer?_eq_some.2 ⟨hc, hwaits,
    fun reason hreason ↦ Context.endedBy_mono (fun _ hi ↦ hi) hle (hseen reason hreason), hpoll⟩

/-- As long as there is work, a node owes a reply or a task can act. -/
theorem Sound.exists_step_of_not_quiet (h : Sound limits now s) (hq : ¬s.Quiet) :
    (∃ job ∈ s.jobs, ∃ batch, job.phase = .sent batch) ∨ ∃ later e s', now ≤ later ∧
      e.isTask = true ∧ e.attempted? = none ∧ s.step later e = some s' := by
  simp only [Quiet, not_forall] at hq
  obtain ⟨t, e, task, hsome⟩ := hq
  obtain ⟨s', hs⟩ := Option.ne_none_iff_exists'.1 hsome
  have hlane {l : Lane} {e : LiveBatcher.Event (PendingCall ι)}
      {live : LiveBatcher (PendingCall ι)} (task : e.isTask = true)
      (hlive : (s.lane l).step t e = some live) :
      ∃ later e s', now ≤ later ∧ e.isTask = true ∧ e.attempted? = none ∧
        s.step later e = some s' := by
    have hbusy : ¬(s.lane l).Quiet := by
      intro hquiet
      rw [hquiet t e task] at hlive
      cases hlive
    obtain ⟨later, e', live', hle, task', hlive'⟩ :=
      LiveBatcher.exists_taskMove_of_not_quiet now hbusy
    obtain ⟨s', hs⟩ := h.exists_step_of_lane task' hlive'
    exact ⟨later, .lane l e', s', hle, task', rfl, hs⟩
  cases act_of_step hs with
  | @look id seen c r hanswer =>
    have hlook := step_of_answer? (answer?_mono (Nat.le_max_right now t) hanswer)
    exact .inr ⟨max now t, .look id seen, _, Nat.le_max_left now t, rfl, rfl, hlook⟩
  | handOver hlive hwindow => exact .inr (hlane rfl hlive)
  | lane hlive hsubmit hhand => exact .inr (hlane task hlive)
  | @job k job e s' hk hjob hact =>
    have hphase : ∀ result, job.phase ≠ .done result := by
      intro result hdone
      cases hact <;> simp_all
    rcases exists_step_of_job now hjob hphase with ⟨batch, hsent⟩ | hact
    · exact .inl ⟨job, List.mem_of_getElem? hjob, batch, hsent⟩
    · exact .inr hact
  | _ => cases task

/-- The window of a call that was taken has become a job. -/
theorem Sound.exists_job_of_quiet (h : Sound limits now s) (hq : s.Quiet) {id : ι} {c : Caller}
    (hc : s.callers id = some c) (haccepted : c.accepted = true) :
    ∃ job ∈ s.jobs, c.call id ∈ job.window := by
  have hsound := h.lanes (.ofBlock c.block)
  have hquiet := h.quiet_lane hq (.ofBlock c.block)
  have hlisted := h.listed id c hc haccepted
  rw [← hsound.kept, hsound.items_eq_nil_of_timers_eq_nil hquiet.timers_eq_nil,
    List.append_nil] at hlisted
  obtain ⟨w, hw, hcall⟩ := List.mem_flatMap.1 hlisted
  obtain ⟨number, hnumber⟩ := List.getElem?_of_mem hw
  have hhanded := hsound.handed_once
  rw [hquiet.leaving_eq_nil, List.append_nil, ← h.numbered] at hhanded
  have hmem := hhanded.mem_iff.2 (List.mem_range.2 (List.getElem?_eq_some_iff.1 hnumber).1)
  obtain ⟨job, hjob, rfl⟩ := List.mem_map.1 hmem
  obtain ⟨hjob, hlane⟩ := List.mem_filter.1 hjob
  have hwindow := h.windows job hjob
  rw [of_decide_eq_true hlane, LiveBatcher.batch?, hnumber] at hwindow
  exact ⟨job, hjob, Option.some.inj hwindow ▸ hcall⟩

theorem Sound.waiterGone_of_quiet (h : Sound limits now s) (hq : s.Quiet) {id : ι} {c : Caller}
    (hc : s.callers id = some c) (haccepted : c.accepted = true) : c.slot.waiterGone = true := by
  obtain ⟨job, hjob, hcall⟩ := h.exists_job_of_quiet hq hc haccepted
  obtain ⟨result, hphase⟩ := hq.done hjob
  have hshaped := h.shaped job hjob
  simp only [BatchJob.Shaped, hphase] at hshaped
  by_cases hgone : id ∈ job.gone
  · have habandoned := (h.gone job hjob id hgone).2
    rw [isAbandoned_of_some hc, Slot.isAbandoned, Bool.or_eq_true] at habandoned
    refine habandoned.resolve_left fun hsome ↦ ?_
    obtain ⟨r, hr⟩ := Option.isSome_iff_exists.1 hsome
    obtain ⟨g, hg, heq⟩ := List.mem_map.1 (h.given.mem_iff.2 ((h.result_iff id c hc r).1 hr))
    exact h.not_given_of_gone hjob hgone g hg (congrArg Prod.fst heq)
  · have hkept : c.call id ∈ job.kept :=
      List.mem_filter.2 ⟨hcall, by simpa [Caller.call] using hgone⟩
    cases result with
    | none =>
      rw [hshaped] at hkept
      exact absurd hkept List.not_mem_nil
    | some result =>
      obtain ⟨batch, outcome⟩ := result
      obtain ⟨i, hi⟩ := List.getElem?_of_mem hkept
      have hresolved : (id, outcomeAt outcome i) ∈ s.resolved := by
        refine List.mem_flatMap.2 ⟨job, hjob, ?_⟩
        simp only [BatchJob.resolved, hphase]
        rw [hshaped]
        exact mem_answers.2 ⟨i, _, hi, rfl⟩
      have hr := (h.result_iff id c hc _).2 hresolved
      by_contra hwaits
      have hanswer : s.answer? 0 id none = some (c, outcomeAt outcome i) :=
        answer?_eq_some.2 ⟨hc, Bool.eq_false_iff.2 hwaits, fun _ hseen ↦ (by cases hseen),
          Slot.poll_of_result hr none⟩
      have hlook := step_of_answer? hanswer
      rw [hq 0 (.look id none) rfl] at hlook
      cases hlook

end BatchingClient

end Outbound.Eth
