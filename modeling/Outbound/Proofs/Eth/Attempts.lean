import Outbound.Proofs.Eth.Acts

/-!
# What the attempts of a job come to

A job sends its batch until an attempt succeeds or the policy gives up. Whatever the transport
does, the outcome of a job is that of the last attempt, and a job whose attempts come to an end
gets to its own end.
-/

namespace Outbound.Eth

open Relation

variable {ι : Type}

/-- An attempt: what it comes to, and the wait that the policy says if it fails. -/
abbrev Attempted := BatchOutcome × (Nanos → Option (Nanos × Nanos))

/-- What the last attempt comes to. None if more attempts follow. -/
def lastOutcome? (maxRetries : Option Nat) : Attempts Nanos → List Attempted → Option BatchOutcome
  | _, [] => none
  | _, (.ok results, _) :: _ => some (.ok results)
  | run, (.error e, next?) :: rest =>
    match run.afterFailure? maxRetries next? with
    | none => some (.error e)
    | some (_, run) => lastOutcome? maxRetries run rest

section LastOutcome

variable {maxRetries : Option Nat} {run : Attempts Nanos}

theorem lastOutcome?_append {attempts : List Attempted} {outcome : BatchOutcome}
    (h : lastOutcome? maxRetries run attempts = some outcome) (more : List Attempted) :
    lastOutcome? maxRetries run (attempts ++ more) = some outcome := by
  induction attempts generalizing run with
  | nil => cases h
  | cons attempt rest ih =>
    obtain ⟨e | results, next?⟩ := attempt
    · simp only [List.cons_append, lastOutcome?] at h ⊢
      split at h
      · exact h
      · exact ih h
    · exact h

theorem mem_of_lastOutcome? {attempts : List Attempted} {outcome : BatchOutcome}
    (h : lastOutcome? maxRetries run attempts = some outcome) :
    outcome ∈ attempts.map Prod.fst := by
  induction attempts generalizing run with
  | nil => cases h
  | cons attempt rest ih =>
    obtain ⟨e | results, next?⟩ := attempt
    · simp only [lastOutcome?] at h
      split at h
      · cases h
        exact List.mem_cons_self
      · exact List.mem_cons_of_mem _ (ih h)
    · cases h
      exact List.mem_cons_self

end LastOutcome

/-- The batch of a job and what its last attempt came to, once there will be no other attempt. -/
def BatchJob.result? (job : BatchJob ι) : Option (CallBatch ι × BatchOutcome) :=
  match job.phase with
  | .delivering batch outcome _ => some (batch, outcome)
  | .done result => result
  | _ => none

/-- What a job has tried, and what follows from its next attempts. -/
def BatchJob.Tried (policy : BackoffPolicy) (tried : List Attempted) (job : BatchJob ι) : Prop :=
  match job.phase with
  | .checking _ => tried = []
  | .ready batch _ => ∀ more, lastOutcome? policy.maxRetries policy.start (tried ++ more) =
      lastOutcome? policy.maxRetries batch.attempts more
  | .sent batch => ∀ more, lastOutcome? policy.maxRetries policy.start (tried ++ more) =
      lastOutcome? policy.maxRetries batch.attempts more
  | .delivering _ outcome _ => lastOutcome? policy.maxRetries policy.start tried = some outcome
  | .done (some (_, outcome)) => lastOutcome? policy.maxRetries policy.start tried = some outcome
  | .done none => tried = []

theorem BatchJob.Tried.outcome {policy : BackoffPolicy} {tried : List Attempted}
    {job : BatchJob ι} (h : job.Tried policy tried) :
    job.result?.map Prod.snd = lastOutcome? policy.maxRetries policy.start tried := by
  unfold Tried at h
  unfold result?
  split at h <;> rename_i hphase <;> simp only [hphase]
  · rw [h]
    rfl
  · have hnone := h []
    rw [List.append_nil] at hnone
    rw [hnone]
    rfl
  · have hnone := h []
    rw [List.append_nil] at hnone
    rw [hnone]
    rfl
  · rw [h]
    rfl
  · rw [h]
    rfl
  · rw [h]
    rfl

namespace BatchingClient

/-- The attempt that ends with an event. -/
def Event.attempted? : Event ι → Option Attempted
  | reply _ outcome next? => some (outcome, next?)
  | _ => none

/-- The attempts of the job of that number. -/
def attemptsOf (k : Nat) (events : List (Event ι)) : List Attempted :=
  events.filterMap fun e ↦ if e.job? = some k then e.attempted? else none

variable [DecidableEq ι] {now : Time} {s s' : BatchingClient ι}

inductive Run (x : Time × BatchingClient ι) :
    List (Event ι) → Time × BatchingClient ι → Prop where
  | refl : Run x [] x
  | wait {events : List (Event ι)} {now later : Time} {s : BatchingClient ι}
    (run : Run x events (now, s)) (h : now ≤ later) : Run x events (later, s)
  | event {events : List (Event ι)} {now : Time} {s s' : BatchingClient ι}
    (run : Run x events (now, s)) (e : Event ι) (h : s.step now e = some s') :
    Run x (events ++ [e]) (now, s')

theorem Run.moves {x y : Time × BatchingClient ι} {events : List (Event ι)}
    (run : Run x events y) : ReflTransGen Move x y := by
  induction run with
  | refl => exact .refl
  | wait run h ih => exact .tail ih (.wait h)
  | event run e h ih => exact .tail ih (.event e h)

theorem JobNext.tried {job job' : BatchJob ι} {e : Event ι} {tried : List Attempted}
    (hnext : JobNext now s job e job') (h : job.Tried s.policy tried) :
    job'.Tried s.policy (tried ++ e.attempted?.toList) := by
  cases hnext with
  | check hphase =>
    simp only [BatchJob.Tried, hphase] at h
    rw [h]
    rfl
  | unsent hphase =>
    simp only [BatchJob.Tried, hphase] at h
    rw [h]
    rfl
  | assemble hphase hbatch =>
    simp only [BatchJob.Tried, hphase] at h
    obtain ⟨-, -, -, -, -, hattempts, -⟩ := CallBatch.ofWindow?_eq_some hbatch
    intro more
    rw [h, hattempts]
    rfl
  | attempt hphase =>
    simp only [BatchJob.Tried, hphase] at h
    intro more
    rw [← h]
    simp [Event.attempted?]
  | @again n batch e next? wait attempts hphase hnext =>
    simp only [BatchJob.Tried, hphase] at h
    intro more
    have hmore := h ((.error e, next?) :: more)
    rw [lastOutcome?, hnext] at hmore
    rw [List.append_assoc]
    exact hmore
  | @conclude n batch outcome next? hphase hlast =>
    simp only [BatchJob.Tried, hphase] at h
    have hone := h [(outcome, next?)]
    cases outcome with
    | ok results => exact hone
    | error e =>
      rw [lastOutcome?, hlast e rfl] at hone
      exact hone
  | deliver hphase =>
    simp only [BatchJob.Tried, hphase] at h
    simpa [BatchJob.Tried, Event.attempted?] using h
  | finish hphase =>
    simp only [BatchJob.Tried, hphase] at h
    simpa [BatchJob.Tried, Event.attempted?] using h

/-! ## What a job did in a run -/

/-- The acts of the job of that number. -/
def actsOf (k : Nat) (events : List (Event ι)) : List (Event ι) :=
  events.filter fun e ↦ e.job? = some k

omit [DecidableEq ι] in
theorem actsOf_concat_of_ne {k : Nat} {e : Event ι} (h : e.job? ≠ some k)
    (events : List (Event ι)) : actsOf k (events ++ [e]) = actsOf k events := by
  simp [actsOf, h]

omit [DecidableEq ι] in
theorem actsOf_concat {k : Nat} {e : Event ι} (h : e.job? = some k) (events : List (Event ι)) :
    actsOf k (events ++ [e]) = actsOf k events ++ [e] := by
  simp [actsOf, h]

omit [DecidableEq ι] in
theorem attemptsOf_eq (k : Nat) (events : List (Event ι)) :
    attemptsOf k events = (actsOf k events).filterMap Event.attempted? := by
  rw [actsOf, List.filterMap_filter]
  simp [attemptsOf]

section Run

variable {client : Client} {policy : BackoffPolicy} {limits : BatchLimits} {start : Time}
  {events : List (Event ι)} {y : Time × BatchingClient ι}

theorem actsOf_eq_nil (run : Run (start, new client policy limits) events y) {k : Nat}
    (hk : y.2.jobs.length ≤ k) : actsOf k events = [] := by
  induction run with
  | refl => rfl
  | wait run h ih => exact ih hk
  | event run e hs ih =>
    obtain ⟨hle, hother⟩ := length_jobs_step hs hk
    rw [actsOf_concat_of_ne hother]
    exact ih hle

/-- What is true of a new job, and goes on to be true with each act of the job, is true of every job
and its acts. -/
theorem forall_jobs_of_run {P : BatchJob ι → List (Event ι) → Prop}
    (hnew : ∀ lane number window, P { lane, number, window, phase := .checking window } [])
    (hnext : ∀ {now s job e job' acts}, s.policy = policy → JobNext now s job e job' →
      P job acts → P job' (acts ++ [e]))
    (run : Run (start, new client policy limits) events y) {k : Nat} {job : BatchJob ι}
    (hjob : y.2.jobs[k]? = some job) : P job (actsOf k events) := by
  induction run generalizing job with
  | refl => cases hjob
  | wait run h ih => exact ih hjob
  | event run e hs ih =>
    rcases getElem?_jobs_step hs hjob with ⟨hk, hold⟩ | ⟨hk, hlength, lane, number, window, rfl⟩ |
      ⟨old, hk, hold, -, hact⟩
    · rw [actsOf_concat_of_ne hk]
      exact ih hold
    · rw [actsOf_concat_of_ne hk, actsOf_eq_nil run hlength]
      exact hnew lane number window
    · rw [actsOf_concat hk]
      exact hnext (settings_run run.moves).2 hact (ih hold)

theorem tried_of_run (run : Run (start, new client policy limits) events y) :
    (∀ k (job : BatchJob ι), y.2.jobs[k]? = some job → job.Tried policy (attemptsOf k events)) ∧
      ∀ k, y.2.jobs.length ≤ k → attemptsOf k events = [] := by
  refine ⟨fun k job hjob ↦ ?_, fun k hk ↦ ?_⟩
  · rw [attemptsOf_eq]
    refine forall_jobs_of_run
      (P := fun job acts ↦ job.Tried policy (acts.filterMap Event.attempted?))
      (fun _ _ _ ↦ rfl) (fun hpolicy hnext htried ↦ ?_) run hjob
    subst hpolicy
    rw [List.filterMap_append, filterMap_singleton]
    exact hnext.tried htried
  · rw [attemptsOf_eq, actsOf_eq_nil run hk]
    rfl

end Run

/-! ## A job gets to its end -/

/-- The job of that number can come to its end, and then with that outcome unless it had nothing
to send. -/
def Finishes (k : Nat) (now : Time) (s : BatchingClient ι) (outcome : BatchOutcome) : Prop :=
  ∃ later s' job result, ReflTransGen Move (now, s) (later, s') ∧ s'.jobs[k]? = some job ∧
    job.phase = .done result ∧ ∀ r ∈ result, r.2 = outcome

section Progress

variable {k : Nat} {later : Time} {job : BatchJob ι} {batch : CallBatch ι}
  {outcome : BatchOutcome}

theorem Finishes.of_act {e : Event ι} (hle : now ≤ later) (hk : e.job? = some k)
    (hjob : s.jobs[k]? = some job) (hact : JobAct later s k job e s')
    (h : Finishes k later s' outcome) : Finishes k now s outcome := by
  obtain ⟨last, s₁, job₁, result, run, hrest⟩ := h
  exact ⟨last, s₁, job₁, result,
    .head (.wait hle) (.head (.event e (step_of_jobAct hk hjob hact)) run), hrest⟩

theorem finishes_of_delivering {left : List (ι × Outcome (List UInt8))}
    (hjob : s.jobs[k]? = some job) (hphase : job.phase = .delivering batch outcome left) :
    Finishes k now s outcome := by
  induction left generalizing s job with
  | nil =>
    refine .of_act (Nat.le_refl now) rfl hjob (.finish hphase)
      ⟨now, _, _, _, .refl, getElem?_setJob hjob _, rfl, ?_⟩
    rintro r ⟨⟩
    rfl
  | cons x left ih =>
    let job' : BatchJob ι := { job with phase := .delivering batch outcome left }
    have hjob' : ((s.setJob k job').give x.1 x.2).jobs[k]? = some job' := by
      rw [jobs_give]
      exact getElem?_setJob hjob job'
    exact .of_act (Nat.le_refl now) rfl hjob (.deliver hphase) (ih hjob' rfl)

theorem finishes_of_ready {due : Time} (hjob : s.jobs[k]? = some job)
    (hphase : job.phase = .ready batch due)
    (h : Finishes k (max now due) (s.setJob k { job with phase := .sent batch }) outcome) :
    Finishes k now s outcome :=
  .of_act (Nat.le_max_left now due) rfl hjob (.attempt hphase (Nat.le_max_right now due)) h

/-- The induction is on the attempts to come; each failure that the policy follows up leaves the
job with the same calls and the other attempts. -/
theorem finishes_of_sent {attempts : List Attempted} (hjob : s.jobs[k]? = some job)
    (hphase : job.phase = .sent batch)
    (hlast : lastOutcome? s.policy.maxRetries batch.attempts attempts = some outcome) :
    Finishes k now s outcome := by
  induction attempts generalizing s job batch now with
  | nil => cases hlast
  | cons attempt rest ih =>
    obtain ⟨result, next?⟩ := attempt
    have hact : JobAct now s k job (.reply k result next?) (s.conclude now k job batch result
      (batch.afterAttempt s.policy.maxRetries next? result)) := .reply hphase
    rcases batch.afterAttempt_cases s.policy.maxRetries next? result with
      ⟨results, rfl, heq⟩ | ⟨e, rfl, hnext, heq⟩ | ⟨e, wait, run, rfl, hnext, heq⟩
    · cases hlast
      rw [heq] at hact
      exact .of_act (Nat.le_refl now) rfl hjob hact
        (finishes_of_delivering (getElem?_setJob hjob _) rfl)
    · rw [lastOutcome?, hnext] at hlast
      cases hlast
      rw [heq] at hact
      exact .of_act (Nat.le_refl now) rfl hjob hact
        (finishes_of_delivering (getElem?_setJob hjob _) rfl)
    · rw [lastOutcome?, hnext] at hlast
      rw [heq] at hact
      let again : BatchJob ι := { job with
        failures := job.failures ++ [e]
        phase := .ready { batch with attempts := run } (now + wait.ticks) }
      let s₁ := s.conclude now k job batch (.error e) (.again e wait { batch with attempts := run })
      have hjob₁ : s₁.jobs[k]? = some again := getElem?_setJob hjob again
      have hsent : Finishes k (max now (now + wait.ticks))
          (s₁.setJob k { again with phase := .sent { batch with attempts := run } }) outcome :=
        ih (getElem?_setJob hjob₁ _) rfl hlast
      exact .of_act (Nat.le_refl now) rfl hjob hact (finishes_of_ready hjob₁ rfl hsent)

/-- The induction is on the callers that have not been asked. -/
theorem finishes_of_checking {attempts : List Attempted} {rest : List (PendingCall ι)}
    (hjob : s.jobs[k]? = some job) (hphase : job.phase = .checking rest)
    (hlast : lastOutcome? s.policy.maxRetries s.policy.start attempts = some outcome) :
    Finishes k now s outcome := by
  induction rest generalizing s job with
  | nil =>
    have hact : JobAct now s k job (.assemble k) (s.assemble now k job) := .assemble hphase
    simp only [assemble] at hact
    split at hact
    · refine .of_act (Nat.le_refl now) rfl hjob hact
        ⟨now, _, _, none, .refl, getElem?_setJob hjob _, rfl, ?_⟩
      rintro r ⟨⟩
    · rename_i batch tokens hbatch
      let ready : BatchJob ι := { job with phase := .ready batch now }
      let s₁ : BatchingClient ι := { s.setJob k ready with
        tokens
        detached := s.detached ++ [batch.ctx.token] }
      have hjob₁ : s₁.jobs[k]? = some ready := getElem?_setJob hjob ready
      obtain ⟨-, -, -, -, -, hattempts, -⟩ := CallBatch.ofWindow?_eq_some hbatch
      have hsent : Finishes k (max now now)
          (s₁.setJob k { ready with phase := .sent batch }) outcome :=
        finishes_of_sent (getElem?_setJob hjob₁ _) rfl (by rw [hattempts]; exact hlast)
      exact .of_act (Nat.le_refl now) rfl hjob hact (finishes_of_ready hjob₁ rfl hsent)
  | cons call rest ih =>
    have hact : JobAct now s k job (.check k) (s.check k job call rest) := .check hphase
    obtain ⟨job', hnext, hjobs⟩ := jobs_jobAct hact
    have hphase' : job'.phase = .checking rest := by
      cases hnext with
      | check hphase' =>
        rw [hphase] at hphase'
        cases hphase'
        rfl
    have hpolicy : (s.check k job call rest).policy = s.policy := (jobAct_frame hact).2.1
    refine .of_act (Nat.le_refl now) rfl hjob hact (ih ?_ hphase' (hpolicy ▸ hlast))
    rw [hjobs]
    exact getElem?_setJob hjob job'

theorem finishes_of_tried {tried attempts : List Attempted} (hjob : s.jobs[k]? = some job)
    (h : job.Tried s.policy tried)
    (hlast : lastOutcome? s.policy.maxRetries s.policy.start (tried ++ attempts) = some outcome) :
    Finishes k now s outcome := by
  cases hphase : job.phase with
  | checking rest =>
    simp only [BatchJob.Tried, hphase] at h
    rw [h] at hlast
    exact finishes_of_checking hjob hphase hlast
  | ready batch due =>
    simp only [BatchJob.Tried, hphase] at h
    rw [h] at hlast
    have hsent : Finishes k (max now due) (s.setJob k { job with phase := .sent batch }) outcome :=
      finishes_of_sent (getElem?_setJob hjob _) rfl hlast
    exact finishes_of_ready hjob hphase hsent
  | sent batch =>
    simp only [BatchJob.Tried, hphase] at h
    rw [h] at hlast
    exact finishes_of_sent hjob hphase hlast
  | delivering batch o left =>
    simp only [BatchJob.Tried, hphase] at h
    rw [lastOutcome?_append h] at hlast
    cases hlast
    exact finishes_of_delivering hjob hphase
  | done result =>
    refine ⟨now, s, job, result, .refl, hjob, hphase, fun r hr ↦ ?_⟩
    cases hr
    simp only [BatchJob.Tried, hphase] at h
    rw [lastOutcome?_append h] at hlast
    cases hlast
    rfl

end Progress

end BatchingClient

end Outbound.Eth
