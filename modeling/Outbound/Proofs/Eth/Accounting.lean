import Outbound.Proofs.Eth.Settlement

/-!
# What the metrics of a client add up to

The size of a window is recorded when its job begins, a retry when a failed attempt is followed by
another one, and a failure when it is the last one. Between any two acts the metrics of a lane are
what its jobs have on record, and what a job has on record is how often it was sent and what its
attempts came to.
-/

namespace Outbound.Eth

variable {ι : Type}

theorem Lane.name_inj {l l' : Lane} : l.name = l'.name ↔ l = l' := by
  cases l <;> cases l' <;> simp [Lane.name]

theorem total_count_lane {key : String → MetricKey} (hkey : Function.Injective key)
    (metrics : Metrics) (l l' : Lane) :
    (metrics.count (key l'.name)).total (key l.name) =
      metrics.total (key l.name) + if l' = l then 1 else 0 := by
  have heq : key l.name = key l'.name ↔ l' = l := by
    rw [hkey.eq_iff, Lane.name_inj, eq_comm]
  rw [Metrics.total_count]
  simp only [heq]

/-- There were attempts, and each of them has failed as a whole. -/
def allFailed (attempts : List Attempted) : Bool :=
  !attempts.isEmpty && attempts.all fun a ↦ !a.1.isOk

namespace BatchJob

/-- The last attempt at the batch has failed. -/
def hasFailed (job : BatchJob ι) : Bool :=
  job.result?.any fun r ↦ !r.2.isOk

/-- A quantity of the jobs, for the jobs of one lane. -/
def laneTotal (l : Lane) (f : BatchJob ι → Nat) (jobs : List (BatchJob ι)) : Nat :=
  (jobs.map fun job ↦ if job.lane = l then f job else 0).sum

theorem laneTotal_eq (l : Lane) (f : BatchJob ι → Nat) (jobs : List (BatchJob ι)) :
    laneTotal l f jobs = ((jobs.filter fun job ↦ job.lane = l).map f).sum := by
  induction jobs with
  | nil => rfl
  | cons job jobs ih =>
    rw [laneTotal] at ih
    by_cases hlane : job.lane = l <;> simp [laneTotal, hlane, ih]

theorem laneTotal_concat (l : Lane) (f : BatchJob ι → Nat) (jobs : List (BatchJob ι))
    (job : BatchJob ι) :
    laneTotal l f (jobs ++ [job]) = laneTotal l f jobs + if job.lane = l then f job else 0 := by
  simp [laneTotal]

theorem laneTotal_set {l : Lane} (f : BatchJob ι → Nat) {jobs : List (BatchJob ι)} {k : Nat}
    {job job' : BatchJob ι} (hk : jobs[k]? = some job) (hlane : job'.lane = job.lane) :
    laneTotal l f (jobs.set k job') + (if job.lane = l then f job else 0) =
      laneTotal l f jobs + if job.lane = l then f job' else 0 := by
  have hsum := sum_map_set hk (fun job ↦ if job.lane = l then f job else 0) job'
  simp only [hlane] at hsum
  exact hsum

/-- The metrics of a lane are what its jobs have on record. -/
structure Accounted (metrics : Metrics) (jobs : List (BatchJob ι)) (l : Lane) : Prop where
  sizes : metrics.values (.batchSize l.name) =
    (jobs.filter fun job ↦ job.lane = l).map fun job ↦ job.window.length
  retries : metrics.total (.batchRetries l.name) = laneTotal l (·.failures.length) jobs
  failures : metrics.total (.batchFailures l.name) = laneTotal l (·.hasFailed.toNat) jobs

/-- What an act of a job is to the metrics: nothing, the retry after a failed attempt, or the
failure of the last one. -/
inductive Booking (metrics : Metrics) (job job' : BatchJob ι) : Metrics → Prop where
  | nothing (hfailures : job'.failures = job.failures) (hfailed : job'.hasFailed = job.hasFailed) :
    Booking metrics job job' metrics
  | retry {e : Error} (hfailures : job'.failures = job.failures ++ [e])
    (hfailed : job'.hasFailed = job.hasFailed) :
    Booking metrics job job' (metrics.count (.batchRetries job.lane.name))
  | failure (hfailures : job'.failures = job.failures) (hbefore : job.hasFailed = false)
    (hfailed : job'.hasFailed = true) :
    Booking metrics job job' (metrics.count (.batchFailures job.lane.name))

namespace Accounted

variable {metrics metrics' : Metrics} {jobs : List (BatchJob ι)} {l : Lane}

theorem dispatch (h : Accounted metrics jobs l) (l' : Lane) (number : Nat)
    (window : List (PendingCall ι)) :
    Accounted (metrics.record (.batchSize l'.name) window.length)
      (jobs ++ [{ lane := l', number, window, phase := .checking window }]) l where
  sizes := by
    rw [Metrics.values_record, h.sizes, List.filter_append, List.map_append]
    by_cases hl : l = l'
    · simp [hl]
    · have hkey : MetricKey.batchSize l.name ≠ .batchSize l'.name := fun heq ↦
        hl (Lane.name_inj.1 (MetricKey.batchSize_injective heq))
      simp [hkey, Ne.symm hl]
  retries := by
    rw [Metrics.total_record_of_ne (by simp [MetricKey.batchSize, MetricKey.batchRetries]),
      h.retries, laneTotal_concat]
    simp
  failures := by
    rw [Metrics.total_record_of_ne (by simp [MetricKey.batchSize, MetricKey.batchFailures]),
      h.failures, laneTotal_concat]
    simp [hasFailed, result?]

theorem book (h : Accounted metrics jobs l) {k : Nat} {job job' : BatchJob ι}
    (hk : jobs[k]? = some job) (hlane : job'.lane = job.lane) (hwindow : job'.window = job.window)
    (hbook : Booking metrics job job' metrics') : Accounted metrics' (jobs.set k job') l := by
  have hsizes :
      ((jobs.set k job').filter fun job ↦ job.lane = l).map (fun job ↦ job.window.length) =
        (jobs.filter fun job ↦ job.lane = l).map fun job ↦ job.window.length :=
    map_filter_set hk (by rw [hlane]) (by rw [hwindow])
  have hretries := laneTotal_set (l := l) (·.failures.length) hk hlane
  have hfailures := laneTotal_set (l := l) (·.hasFailed.toNat) hk hlane
  cases hbook with
  | nothing hsame hfailed =>
    rw [hsame] at hretries
    rw [hfailed] at hfailures
    exact ⟨h.sizes.trans hsizes.symm, h.retries.trans (Nat.add_right_cancel hretries).symm,
      h.failures.trans (Nat.add_right_cancel hfailures).symm⟩
  | retry hmore hfailed =>
    rw [hmore, List.length_append, List.length_singleton] at hretries
    rw [hfailed] at hfailures
    refine ⟨?_, ?_, ?_⟩
    · rw [Metrics.values_count_of_ne (by simp [MetricKey.batchSize, MetricKey.batchRetries]),
        h.sizes, hsizes]
    · rw [total_count_lane MetricKey.batchRetries_injective, h.retries]
      split_ifs at hretries ⊢ <;> omega
    · rw [Metrics.total_count, if_neg (by simp [MetricKey.batchFailures, MetricKey.batchRetries]),
        h.failures, Nat.add_right_cancel hfailures, Nat.add_zero]
  | failure hsame hbefore hfailed =>
    rw [hsame] at hretries
    rw [hbefore, hfailed, Bool.toNat_false, Bool.toNat_true] at hfailures
    refine ⟨?_, ?_, ?_⟩
    · rw [Metrics.values_count_of_ne (by simp [MetricKey.batchSize, MetricKey.batchFailures]),
        h.sizes, hsizes]
    · rw [Metrics.total_count, if_neg (by simp [MetricKey.batchFailures, MetricKey.batchRetries]),
        h.retries, Nat.add_right_cancel hretries, Nat.add_zero]
    · rw [total_count_lane MetricKey.batchFailures_injective, h.failures]
      split_ifs at hfailures ⊢ <;> omega

end Accounted

/-! ## What a job has on record -/

/-- The batch of a job is one of its lane, and it holds a call. -/
def Batched (job : BatchJob ι) : Prop :=
  ∀ batch, job.phase.batch? = some batch → batch.lane = job.lane ∧ batch.calls ≠ []

/-- The record of a job, given how often it was sent and what its attempts came to. -/
structure Counted (job : BatchJob ι) (sends : Nat) (outcomes : List BatchOutcome) : Prop where
  batched : job.Batched
  sends : sends = job.failures.length + job.isSent.toNat
  outcomes : outcomes = job.failures.map .error ++ (job.result?.map Prod.snd).toList
  /-- A job without a batch has not tried anything. -/
  untried : job.phase.batch? = none → job.failures = []

namespace Counted

variable {job : BatchJob ι} {sends : Nat} {attempts : List Attempted}
  {result : Option (CallBatch ι × BatchOutcome)}

/-- A job that has come to its end was sent once for each failure on record and once more, if it was
sent at all, and all its attempts have ended. -/
theorem sends_of_done (h : job.Counted sends (attempts.map Prod.fst))
    (hphase : job.phase = .done result) :
    job.failures.length + (decide (0 < sends)).toNat = sends ∧ attempts.length = sends := by
  have hlength := congrArg List.length h.outcomes
  rw [List.length_map, List.length_append, List.length_map] at hlength
  cases result with
  | none =>
    have hnone := h.untried (by rw [hphase]; rfl)
    have hsends := h.sends
    simp only [isSent, result?, hphase, hnone] at hsends hlength
    rw [hsends, hlength, hnone]
    exact ⟨rfl, rfl⟩
  | some r =>
    have hsends := h.sends
    simp only [isSent, result?, hphase] at hsends hlength
    rw [hsends, hlength]
    exact ⟨by simp, rfl⟩

theorem last_of_done (h : job.Counted sends (attempts.map Prod.fst))
    (hphase : job.phase = .done result) :
    attempts.getLast?.map Prod.fst = result.map Prod.snd := by
  rw [← List.getLast?_map, h.outcomes]
  cases result with
  | none =>
    rw [h.untried (by rw [hphase]; rfl)]
    simp [result?, hphase]
  | some r => simp [result?, hphase]

theorem allFailed_of_done (h : job.Counted sends (attempts.map Prod.fst))
    (hphase : job.phase = .done result) : allFailed attempts = job.hasFailed := by
  have hall : allFailed attempts =
      (!(attempts.map Prod.fst).isEmpty && (attempts.map Prod.fst).all fun o ↦ !o.isOk) := by
    rw [allFailed, List.isEmpty_map, List.all_map]
    rfl
  rw [hall, h.outcomes]
  cases result with
  | none =>
    rw [h.untried (by rw [hphase]; rfl)]
    simp [hasFailed, result?, hphase]
  | some r =>
    have hfailures :
        (job.failures.map (Except.error : Error → BatchOutcome)).all (!·.isOk) = true := by
      rw [List.all_map, List.all_eq_true]
      exact fun _ _ ↦ rfl
    have hempty :
        (job.failures.map (Except.error : Error → BatchOutcome) ++ [r.2]).isEmpty = false :=
      List.isEmpty_eq_false_iff.2 (List.append_ne_nil_of_right_ne_nil _ (List.cons_ne_nil _ _))
    simp only [hasFailed, result?, hphase, Option.map_some, Option.toList_some, Option.any_some,
      List.all_append, List.all_cons, List.all_nil, hempty, hfailures, Bool.not_false,
      Bool.true_and, Bool.and_true]

end Counted

end BatchJob

namespace BatchingClient

open BatchJob (Accounted Booking)

def Event.isAttempt : Event ι → Bool
  | attempt _ => true
  | _ => false

/-- How often the job of that number has sent its batch. -/
def sendsOf (k : Nat) (events : List (Event ι)) : Nat :=
  (actsOf k events).countP Event.isAttempt

variable [DecidableEq ι] {client : Client} {policy : BackoffPolicy} {limits : BatchLimits}
  {start now : Time} {s s' : BatchingClient ι} {events : List (Event ι)}

section JobNext

variable {job job' : BatchJob ι} {e : Event ι}

theorem JobNext.batched (hnext : JobNext now s job e job') (h : job.Batched) : job'.Batched := by
  intro batch hbatch
  cases hnext with
  | check hphase => cases hbatch
  | unsent hphase => cases hbatch
  | assemble hphase hsome =>
    obtain ⟨-, hlane, ⟨first, hfirst, -⟩, -⟩ := CallBatch.ofWindow?_eq_some hsome
    cases hbatch
    exact ⟨hlane, List.ne_nil_of_mem hfirst⟩
  | @again n old e next? wait attempts hphase hnext =>
    cases hbatch
    exact h old (by rw [hphase]; rfl)
  | attempt hphase => exact h batch (by rw [hphase]; exact hbatch)
  | conclude hphase hlast => exact h batch (by rw [hphase]; exact hbatch)
  | deliver hphase => exact h batch (by rw [hphase]; exact hbatch)
  | finish hphase => exact h batch (by rw [hphase]; exact hbatch)

theorem JobNext.sends (hnext : JobNext now s job e job') :
    job.failures.length + job.isSent.toNat + e.isAttempt.toNat =
      job'.failures.length + job'.isSent.toNat := by
  cases hnext <;> simp [BatchJob.isSent, Event.isAttempt, *]

theorem JobNext.outcomes (hnext : JobNext now s job e job') :
    job.failures.map .error ++ (job.result?.map Prod.snd).toList ++
        e.attempted?.toList.map Prod.fst =
      job'.failures.map .error ++ (job'.result?.map Prod.snd).toList := by
  cases hnext <;> simp [BatchJob.result?, Event.attempted?, *]

theorem JobNext.counted (hnext : JobNext now s job e job') {sends : Nat}
    {outcomes : List BatchOutcome} (h : job.Counted sends outcomes) :
    job'.Counted (sends + e.isAttempt.toNat) (outcomes ++ e.attempted?.toList.map Prod.fst) where
  batched := hnext.batched h.batched
  sends := by rw [h.sends, hnext.sends]
  outcomes := by rw [h.outcomes, hnext.outcomes]
  untried hnone := by
    cases hnext with
    | check hphase => exact h.untried (by rw [hphase]; rfl)
    | unsent hphase => exact h.untried (by rw [hphase]; rfl)
    | _ => cases hnone

end JobNext

theorem counted_of_run {y : Time × BatchingClient ι}
    (run : Run (start, new client policy limits) events y) {k : Nat} {job : BatchJob ι}
    (hjob : y.2.jobs[k]? = some job) :
    job.Counted (sendsOf k events) ((attemptsOf k events).map Prod.fst) := by
  rw [sendsOf, attemptsOf_eq]
  refine forall_jobs_of_run (P := fun job acts ↦
    job.Counted (acts.countP Event.isAttempt) ((acts.filterMap Event.attempted?).map Prod.fst))
    (fun _ _ _ ↦ ⟨fun _ hbatch ↦ (nomatch hbatch), rfl, rfl, fun _ ↦ rfl⟩)
    (fun {now s job e job' acts} _ hnext hcounted ↦ ?_) run hjob
  have hsends : (acts ++ [e]).countP Event.isAttempt =
      acts.countP Event.isAttempt + e.isAttempt.toNat := by
    rw [List.countP_append, List.countP_singleton]
    cases e.isAttempt <;> rfl
  rw [hsends, List.filterMap_append, filterMap_singleton, List.map_append]
  exact hnext.counted hcounted

/-! ## The metrics follow the jobs -/

theorem booking_of_jobAct {k : Nat} {job : BatchJob ι} {e : Event ι}
    (hact : JobAct now s k job e s') (hbatched : job.Batched) :
    ∃ job', s'.jobs = s.jobs.set k job' ∧ job'.lane = job.lane ∧ job'.window = job.window ∧
      Booking s.metrics job job' s'.metrics := by
  cases hact with
  | check hphase =>
    have hfailed : job.hasFailed = false := by simp [BatchJob.hasFailed, BatchJob.result?, hphase]
    simp only [check]
    split <;> exact ⟨_, rfl, rfl, rfl, .nothing rfl hfailed.symm⟩
  | assemble hphase =>
    have hfailed : job.hasFailed = false := by simp [BatchJob.hasFailed, BatchJob.result?, hphase]
    simp only [assemble]
    split <;> exact ⟨_, rfl, rfl, rfl, .nothing rfl hfailed.symm⟩
  | attempt hphase hdue =>
    have hfailed : job.hasFailed = false := by simp [BatchJob.hasFailed, BatchJob.result?, hphase]
    exact ⟨_, rfl, rfl, rfl, .nothing rfl hfailed.symm⟩
  | @reply n batch outcome next? hphase =>
    have hfailed : job.hasFailed = false := by simp [BatchJob.hasFailed, BatchJob.result?, hphase]
    -- The counters go by the lane of the batch, the job by its own.
    have hlane : batch.lane = job.lane := (hbatched batch (by rw [hphase]; rfl)).1
    rcases batch.afterAttempt_cases s.policy.maxRetries next? outcome with
      ⟨results, rfl, heq⟩ | ⟨e, rfl, -, heq⟩ | ⟨e, wait, attempts, rfl, -, heq⟩
    · rw [heq]
      exact ⟨_, rfl, rfl, rfl, .nothing rfl hfailed.symm⟩
    · rw [heq, conclude, hlane]
      exact ⟨_, rfl, rfl, rfl, .failure rfl hfailed rfl⟩
    · rw [heq, conclude, hlane]
      exact ⟨_, rfl, rfl, rfl, .retry rfl hfailed.symm⟩
  | deliver hphase =>
    have hfailed := congrArg (fun phase ↦ ({ job with phase } : BatchJob ι).hasFailed) hphase
    rw [give]
    split <;> exact ⟨_, rfl, rfl, rfl, .nothing rfl hfailed.symm⟩
  | finish hphase =>
    have hfailed := congrArg (fun phase ↦ ({ job with phase } : BatchJob ι).hasFailed) hphase
    exact ⟨_, rfl, rfl, rfl, .nothing rfl hfailed.symm⟩

/-- Between any two acts the metrics of each lane are what its jobs have on record. -/
theorem accounted_of_run {y : Time × BatchingClient ι}
    (run : Run (start, new client policy limits) events y) (l : Lane) :
    Accounted y.2.metrics y.2.jobs l := by
  induction run with
  | refl => exact ⟨rfl, rfl, rfl⟩
  | wait run h ih => exact ih
  | @event events now s s' run e hs ih =>
    have hsame {s₁ : BatchingClient ι} (hmetrics : s₁.metrics = s.metrics)
        (hjobs : s₁.jobs = s.jobs) : Accounted s₁.metrics s₁.jobs l := by
      rw [hmetrics, hjobs]
      exact ih
    -- Only a lane that hands over a window and a job whose attempt has failed touch the metrics.
    cases act_of_step hs with
    | call hnew hlt hfree =>
      rw [submit]
      split
      · exact ih
      · exact hsame (metrics_setLane s _ _) (jobs_setLane s _ _)
    | @handOver l' number live window hlive hwindow => exact ih.dispatch l' number window
    | free hlive => exact hsame (metrics_setLane s _ _) (jobs_setLane s _ _)
    | lane hlive hsubmit hhand => exact hsame (metrics_setLane s _ _) (jobs_setLane s _ _)
    | job hk hjob hact =>
      obtain ⟨job', hjobs, hlane, hwindow, hbook⟩ :=
        booking_of_jobAct hact (counted_of_run run hjob).batched
      rw [hjobs]
      exact ih.book hjob hlane hwindow hbook
    | _ => exact ih

/-! ## A lane at rest -/

/-- No window of the lane is open or on its way, and no batch is running. -/
structure AtRest (s : BatchingClient ι) (l : Lane) : Prop where
  items : (s.lane l).batcher.items = []
  leaving : (s.lane l).leaving = []
  jobs : ∀ job ∈ s.jobs, job.lane = l → ∃ result, job.phase = .done result

/-- The jobs of a lane with their numbers. -/
def batches (s : BatchingClient ι) (l : Lane) : List (BatchJob ι × Nat) :=
  s.jobs.zipIdx.filter fun b ↦ b.1.lane = l

/-- The lane took the call of that caller. -/
def TakenBy (s : BatchingClient ι) (l : Lane) (id : ι) : Prop :=
  ∃ c, s.callers id = some c ∧ c.accepted = true ∧ Lane.ofBlock c.block = l

/-- Somebody still waited when the batch was made, and all who did have that error, and nothing
else. -/
def ResolvedWith (s : BatchingClient ι) (job : BatchJob ι) (e : Error) : Prop :=
  job.kept ≠ [] ∧
    ∀ call ∈ job.kept, (s.given.filter fun g ↦ g.1 = call.caller) = [(call.caller, .error e, true)]

omit [DecidableEq ι] in
theorem mem_batches {l : Lane} {job : BatchJob ι} {k : Nat} :
    (job, k) ∈ s.batches l ↔ s.jobs[k]? = some job ∧ job.lane = l := by
  simp [batches, List.mem_zipIdx_iff_getElem?]

omit [DecidableEq ι] in
theorem map_fst_batches (s : BatchingClient ι) (l : Lane) :
    (s.batches l).map Prod.fst = s.jobs.filter fun job ↦ job.lane = l := by
  conv_rhs => rw [← List.zipIdx_map_fst 0 s.jobs, List.filter_map]
  rfl

omit [DecidableEq ι] in
theorem laneTotal_batches (s : BatchingClient ι) (l : Lane) (f : BatchJob ι → Nat) :
    BatchJob.laneTotal l f s.jobs = ((s.batches l).map fun b ↦ f b.1).sum := by
  rw [BatchJob.laneTotal_eq, ← map_fst_batches, List.map_map]
  rfl

theorem Booked.map_window (h : Booked limits now s) (l : Lane) :
    (s.jobs.filter fun job ↦ job.lane = l).map (·.window) = (s.lane l).dispatched := by
  rw [LiveBatcher.dispatched, ← Function.comp_def (s.lane l).batch? Prod.snd, ← List.filterMap_map,
    ← h.numbered l, List.filterMap_map, ← List.filterMap_eq_map]
  apply List.filterMap_congr
  intro job hjob
  obtain ⟨hjob, hlane⟩ := List.mem_filter.1 hjob
  have hwindow := h.windows job hjob
  rw [of_decide_eq_true hlane] at hwindow
  exact hwindow.symm

/-- What a lane took are the calls of as many callers. -/
theorem Booked.exists_takers (h : Booked limits now s) (l : Lane) :
    ∃ ids : List ι, ids.Nodup ∧ (∀ id, id ∈ ids ↔ s.TakenBy l id) ∧
      ids.length = (s.lane l).accepted.length := by
  refine ⟨(s.lane l).accepted.map fun x ↦ x.2.caller, h.distinct l, fun id ↦ ?_,
    List.length_map _⟩
  constructor
  · intro hid
    obtain ⟨x, hx, rfl⟩ := List.mem_map.1 hid
    obtain ⟨hl, c, hc, haccepted, hcall⟩ := h.known l x hx
    refine ⟨c, hc, haccepted, ?_⟩
    rw [← hl, ← hcall]
    rfl
  · rintro ⟨c, hc, haccepted, rfl⟩
    obtain ⟨x, hx, hcall⟩ := List.mem_map.1 (h.listed id c hc haccepted)
    exact List.mem_map.2 ⟨x, hx, congrArg PendingCall.caller hcall⟩

/-- A batch that failed in all its attempts is one whose callers have the error of the last one. -/
theorem Sound.allFailed_iff (h : Sound limits now s) {job : BatchJob ι} (hjob : job ∈ s.jobs)
    {attempts : List Attempted} (htried : job.Tried policy attempts) {sends : Nat}
    (hcounted : job.Counted sends (attempts.map Prod.fst))
    {result : Option (CallBatch ι × BatchOutcome)} (hphase : job.phase = .done result) :
    allFailed attempts = true ↔
      ∃ e, attempts.getLast?.map Prod.fst = some (.error e) ∧ s.ResolvedWith job e := by
  have hresult : job.result? = result := by simp only [BatchJob.result?, hphase]
  rw [hcounted.allFailed_of_done hphase, BatchJob.hasFailed, hresult, hcounted.last_of_done hphase]
  constructor
  · intro hfailed
    obtain ⟨⟨batch, outcome⟩, rfl, hfailed⟩ := (Option.any_eq_true _ _).1 hfailed
    cases outcome with
    | ok results => cases hfailed
    | error e =>
      refine ⟨e, rfl, ?_, fun call hcall ↦ ?_⟩
      · rw [← (h.shaped job hjob).kept_of_result hresult]
        exact (hcounted.batched batch (by rw [hphase]; rfl)).2
      · obtain ⟨i, hi⟩ := List.getElem?_of_mem hcall
        exact (h.fannedOut hjob htried).answered batch _ hphase i call hi
  · rintro ⟨e, hlast, -⟩
    obtain ⟨r, rfl, houtcome⟩ := Option.map_eq_some_iff.1 hlast
    simp [houtcome, Except.isOk, Except.toBool]

/-- Once no window of a lane is open or on its way and no batch is running, the sizes on record are
those of the windows in the order in which they were dispatched, and they add up to the callers
whose calls the lane took, whatever became of these. The retries on record and the batches that
were ever sent are as many as all attempts together. The failures on record are the batches all of
whose attempts have failed, and these are the ones whose callers were given the error of the last
attempt. -/
theorem batch_metrics_account_for_calls
    (run : Run (start, new client policy limits) events (now, s)) {l : Lane} (rest : s.AtRest l) :
    s.metrics.values (.batchSize l.name) = (s.lane l).dispatched.map List.length ∧
      (∃ ids : List ι, ids.Nodup ∧ (∀ id, id ∈ ids ↔ s.TakenBy l id) ∧
        (s.metrics.values (.batchSize l.name)).sum = ids.length) ∧
      s.metrics.total (.batchRetries l.name) +
          (s.batches l).countP (fun b ↦ 0 < sendsOf b.2 events) =
        ((s.batches l).map fun b ↦ sendsOf b.2 events).sum ∧
      s.metrics.total (.batchFailures l.name) =
        (s.batches l).countP (fun b ↦ allFailed (attemptsOf b.2 events)) ∧
      ∀ job k, (job, k) ∈ s.batches l →
        (attemptsOf k events).length = sendsOf k events ∧
          (allFailed (attemptsOf k events) = true ↔
            ∃ e, (attemptsOf k events).getLast?.map Prod.fst = some (.error e) ∧
              s.ResolvedWith job e) := by
  have h := sound_of_run run.moves (sound_new client policy limits start)
  obtain ⟨htried, -⟩ := tried_of_run run
  have hcounted {k : Nat} {job : BatchJob ι} (hjob : s.jobs[k]? = some job) :=
    counted_of_run run hjob
  have haccounted := accounted_of_run run l
  have hdone {job : BatchJob ι} {k : Nat} (hb : (job, k) ∈ s.batches l) :
      s.jobs[k]? = some job ∧ ∃ result, job.phase = .done result := by
    obtain ⟨hjob, hlane⟩ := mem_batches.1 hb
    exact ⟨hjob, rest.jobs job (List.mem_of_getElem? hjob) hlane⟩
  have hsizes : s.metrics.values (.batchSize l.name) = (s.lane l).dispatched.map List.length := by
    rw [haccounted.sizes, ← h.map_window l, List.map_map]
    rfl
  refine ⟨hsizes, ?_, ?_, ?_, fun job k hb ↦ ?_⟩
  · obtain ⟨ids, hnodup, hids, hlength⟩ := h.exists_takers l
    refine ⟨ids, hnodup, hids, ?_⟩
    rw [hsizes, hlength, (h.lanes l).sum_dispatched rest.items rest.leaving]
  · rw [haccounted.retries, laneTotal_batches, ← sum_map_toNat, ← List.sum_map_add]
    refine congrArg List.sum (List.map_congr_left fun b hb ↦ ?_)
    obtain ⟨hjob, result, hphase⟩ := hdone hb
    exact ((hcounted hjob).sends_of_done hphase).1
  · rw [haccounted.failures, laneTotal_batches, ← sum_map_toNat]
    refine congrArg List.sum (List.map_congr_left fun b hb ↦ ?_)
    obtain ⟨hjob, result, hphase⟩ := hdone hb
    rw [(hcounted hjob).allFailed_of_done hphase]
  · obtain ⟨hjob, result, hphase⟩ := hdone hb
    exact ⟨((hcounted hjob).sends_of_done hphase).2,
      h.allFailed_iff (List.mem_of_getElem? hjob) (htried k job hjob) (hcounted hjob) hphase⟩

/-- Two windows are dispatched against the order in which they closed. The batch of the first one
fails, and the batch of the other one, which a caller has left, is sent twice. -/
theorem retry_and_failure_on_record :
    ∃ events, ∃ s : BatchingClient Nat,
      Run (0, new ⟨false⟩ {} ⟨5, 2⟩) events (0, s) ∧
        s.metrics.values (.batchSize "eth_call_latest") = [1, 2] ∧
        s.metrics.total (.batchRetries "eth_call_latest") + 2 = 3 ∧
        s.metrics.total (.batchFailures "eth_call_latest") = 1 ∧
        ∃ job e, s.jobs[0]? = some job ∧ s.ResolvedWith job e := by
  have run : Run (0, (new ⟨false⟩ {} ⟨5, 2⟩ : BatchingClient Nat)) _ (0, _) :=
    .event (e := .finish 1) (h := rfl) <|
    .event (e := .deliver 1) (h := rfl) <|
    .event (e := .reply 1 (.ok [.ok (.str "0x07")]) fun _ ↦ none) (h := rfl) <|
    .event (e := .attempt 1) (h := rfl) <|
    .event (e := .reply 1 (.error (.http .timeout)) fun _ ↦ some (0, 0)) (h := rfl) <|
    .event (e := .attempt 1) (h := rfl) <|
    .event (e := .assemble 1) (h := rfl) <|
    .event (e := .check 1) (h := rfl) <|
    .event (e := .check 1) (h := rfl) <|
    .event (e := .finish 0) (h := rfl) <|
    .event (e := .deliver 0) (h := rfl) <|
    .event (e := .reply 0 (.error (.http .timeout)) fun _ ↦ none) (h := rfl) <|
    .event (e := .attempt 0) (h := rfl) <|
    .event (e := .assemble 0) (h := rfl) <|
    .event (e := .check 0) (h := rfl) <|
    .event (e := .lane .latest (.handOver 0)) (h := rfl) <|
    .event (e := .lane .latest (.handOver 1)) (h := rfl) <|
    .event (e := .lane .latest .close) (h := rfl) <|
    .event (e := .leave 1) (h := rfl) <|
    .event (e := .call 2 {} none ⟨0, none, none⟩) (h := rfl) <|
    .event (e := .call 1 {} none ⟨0, none, none⟩) (h := rfl) <|
    .event (e := .call 0 {} none ⟨0, none, none⟩) (h := rfl) <|
    .event (e := .derive none) (h := rfl) .refl
  obtain ⟨hsizes, -, hretries, hfailures, hbatches⟩ :=
    batch_metrics_account_for_calls (l := .latest) run ⟨rfl, rfl, List.forall_mem_cons.2
      ⟨fun _ ↦ ⟨_, rfl⟩, List.forall_mem_cons.2 ⟨fun _ ↦ ⟨_, rfl⟩, List.forall_mem_nil _⟩⟩⟩
  obtain ⟨e, -, hresolved⟩ := (hbatches _ 0 (mem_batches.2 ⟨rfl, rfl⟩)).2.1 rfl
  exact ⟨_, _, run, hsizes, hretries, hfailures, _, e, rfl, hresolved⟩

end BatchingClient

end Outbound.Eth
