import Outbound.Eth.VirtualClock
import Outbound.Proofs.Eth.FanOut

/-!
# When jobs make attempts and have answers

On a virtual clock a job has nothing to wait for but its attempts and the waits between them. So
when each attempt is made and when the last one ends follows from the end of the window and the
surroundings, whoever is in the batch.
-/

namespace Outbound.Eth

variable {ι : Type} {env : Surroundings ι} {policy : BackoffPolicy} {lane : Lane} {number : Nat}

namespace Surroundings

theorem attempt?_succ {i : Nat} {later : Attempts Nanos} {due : Time} :
    env.attempt? policy lane number (i + 1) = some (later, due) ↔
      ∃ run made e wait, env.attempt? policy lane number i = some (run, made) ∧
        env.failure? lane number run.begun = some e ∧
        run.afterFailure? policy.maxRetries (env.next? lane number run.begun) =
          some (wait, later) ∧
        due = made + env.delay lane number run.begun + wait.ticks := by
  constructor
  · intro h
    obtain ⟨⟨run, made⟩, hi, h⟩ := Option.bind_eq_some_iff.1 h
    dsimp only at h
    split at h
    · cases h
    · rename_i hfailure
      obtain ⟨⟨wait, later'⟩, hnext, h⟩ := Option.bind_eq_some_iff.1 h
      cases h
      rw [Option.isNone_iff_eq_none] at hfailure
      obtain ⟨e, he⟩ := Option.ne_none_iff_exists'.1 hfailure
      exact ⟨run, made, e, wait, hi, he, hnext, rfl⟩
  · rintro ⟨run, made, e, wait, hi, he, hnext, rfl⟩
    simp [attempt?, hi, he, hnext]

theorem exists_attempt? {i j : Nat} (hle : i ≤ j) {x : Attempts Nanos × Time}
    (h : env.attempt? policy lane number j = some x) :
    ∃ y, env.attempt? policy lane number i = some y := by
  induction j generalizing x with
  | zero =>
    rw [Nat.le_zero.1 hle]
    exact ⟨x, h⟩
  | succ j ih =>
    rcases Nat.lt_or_eq_of_le hle with hlt | rfl
    · obtain ⟨run, made, -, -, hj, -⟩ := attempt?_succ.1 h
      exact ih (Nat.le_of_lt_succ hlt) hj
    · exact ⟨x, h⟩

/-- An attempt ends before a later one is made. -/
theorem attempt?_le {i j : Nat} (hlt : i < j) {run later : Attempts Nanos} {made due : Time}
    (hi : env.attempt? policy lane number i = some (run, made))
    (hj : env.attempt? policy lane number j = some (later, due)) :
    made + env.delay lane number run.begun ≤ due := by
  induction j generalizing later due with
  | zero => exact absurd hlt (Nat.not_lt_zero i)
  | succ j ih =>
    obtain ⟨run', made', -, wait, hj', -, -, rfl⟩ := attempt?_succ.1 hj
    rcases Nat.lt_or_eq_of_le (Nat.le_of_lt_succ hlt) with hlt' | rfl
    · have hle := ih hlt' hj'
      exact Nat.le_trans (Nat.le_trans hle (Nat.le_add_right _ _)) (Nat.le_add_right _ _)
    · rw [hi] at hj'
      cases hj'
      exact Nat.le_add_right _ _

/-- No attempt ends after the last one. -/
theorem Ends.le {time : Time} {failure? : Option Error}
    (h : env.Ends policy lane number time failure?) {i : Nat} {run : Attempts Nanos} {made : Time}
    (hi : env.attempt? policy lane number i = some (run, made)) :
    made + env.delay lane number run.begun ≤ time := by
  obtain ⟨j, last, due, hj, rfl, hfailure, hlast⟩ := h
  rcases Nat.lt_trichotomy i j with hlt | rfl | hgt
  · exact Nat.le_trans (attempt?_le hlt hi hj) (Nat.le_add_right _ _)
  · rw [hi] at hj
    cases hj
    exact Nat.le_refl _
  · -- An attempt is followed by another one only if it has failed and is to be repeated.
    obtain ⟨⟨later, due'⟩, hnext⟩ := exists_attempt? (Nat.succ_le_of_lt hgt) hi
    obtain ⟨run', made', e, wait, hj', he, hafter, -⟩ := attempt?_succ.1 hnext
    rw [hj] at hj'
    cases hj'
    rw [hlast (by rw [hfailure, he]; rfl)] at hafter
    cases hafter

theorem outcome_eq_error {failure? : Option Error} {requests : List Call} {e : Error}
    (h : Except.error e = env.outcome failure? requests) : failure? = some e := by
  cases failure? with
  | none => cases h
  | some e' =>
    cases h
    rfl

/-- What an attempt comes to for a call does not depend on the other calls, nor on its position. -/
theorem outcomeAt_outcome {batch : CallBatch ι} {i : Nat} {call : PendingCall ι}
    (hcall : batch.calls[i]? = some call) (failure? : Option Error) :
    outcomeAt (env.outcome failure? batch.requests) i = env.answer failure? call.request := by
  cases failure? with
  | some e => rfl
  | none => simp [outcomeAt, outcome, answer, CallBatch.requests, hcall]

end Surroundings

namespace BatchJob

/-- How far a job is whose window has ended at that time and whose latest attempt was made at that
one. -/
def OnTime (env : Surroundings ι) (policy : BackoffPolicy) (now sent ended : Time)
    (job : BatchJob ι) : Prop :=
  match job.phase with
  | .checking _ => now = ended
  | .ready batch due =>
    ∃ i made, env.attempt? policy job.lane job.number i = some (batch.attempts, made) ∧
      due = ended + made ∧ now ≤ due
  | .sent batch =>
    ∃ i made, env.attempt? policy job.lane job.number i = some (batch.attempts, made) ∧
      sent = ended + made ∧ now ≤ sent + env.delay job.lane job.number batch.attempts.begun
  | .delivering batch outcome _ =>
    ∃ time failure?, env.Ends policy job.lane job.number time failure? ∧ now = ended + time ∧
      outcome = env.outcome failure? batch.requests
  | .done (some (batch, outcome)) =>
    ∃ time failure?, env.Ends policy job.lane job.number time failure? ∧ ended + time ≤ now ∧
      outcome = env.outcome failure? batch.requests
  | .done none => True

variable {now sent ended : Time} {job job' : BatchJob ι}

/-- The results that a job has are those of the last attempt, and it has them no earlier. -/
theorem OnTime.result (h : job.OnTime env policy now sent ended) {batch : CallBatch ι}
    {outcome : BatchOutcome} (hresult : job.result? = some (batch, outcome)) :
    ∃ time failure?, env.Ends policy job.lane job.number time failure? ∧ ended + time ≤ now ∧
      outcome = env.outcome failure? batch.requests := by
  unfold OnTime at h
  unfold result? at hresult
  split at hresult
  · rename_i hphase
    rw [hphase] at h
    cases hresult
    obtain ⟨time, failure?, hends, hnow, houtcome⟩ := h
    exact ⟨time, failure?, hends, Nat.le_of_eq hnow.symm, houtcome⟩
  · rename_i hphase
    rw [hphase, hresult] at h
    exact h
  · cases hresult

variable [DecidableEq ι] {s s' : BatchingClient ι} {k : Nat} {e : BatchingClient.Event ι}

open BatchingClient

/-- A job goes on in its time, if its attempts end when the surroundings say and with what they
say. -/
theorem OnTime.next (h : job.OnTime env s.policy now sent ended)
    (hact : JobAct now s k job e s') (hnext : JobNext now s job e job') {sent' : Time}
    (hattempt : ∀ n, e = .attempt n → sent' = now)
    (hsent : (∀ n, e ≠ .attempt n) → sent' = sent)
    (hreply : ∀ n outcome next? batch, e = .reply n outcome next? → job.phase = .sent batch →
      now = sent + env.delay job.lane job.number batch.attempts.begun ∧
      outcome = env.outcome (env.failure? job.lane job.number batch.attempts.begun)
        batch.requests ∧
      next? = env.next? job.lane job.number batch.attempts.begun) :
    job'.OnTime env s.policy now sent' ended := by
  cases hnext with
  | check hphase =>
    simp only [OnTime, hphase] at h ⊢
    exact h
  | unsent hphase => trivial
  | assemble hphase hbatch =>
    obtain ⟨-, -, -, -, -, hattempts, -⟩ := CallBatch.ofWindow?_eq_some hbatch
    simp only [OnTime, hphase] at h ⊢
    refine ⟨0, 0, ?_, h, Nat.le_refl _⟩
    rw [hattempts]
    rfl
  | attempt hphase =>
    cases hact with
    | attempt hphase' hdue =>
      rw [hphase] at hphase'
      cases hphase'
      simp only [OnTime, hphase] at h ⊢
      obtain ⟨i, made, hi, rfl, hle⟩ := h
      rw [hattempt _ rfl]
      exact ⟨i, made, hi, Nat.le_antisymm hle hdue, Nat.le_add_right _ _⟩
  | @again n batch err next? wait attempts hphase hafter =>
    obtain ⟨hnow, houtcome, rfl⟩ := hreply _ _ _ batch rfl hphase
    simp only [OnTime, hphase] at h ⊢
    obtain ⟨i, made, hi, rfl, -⟩ := h
    have hfailure := Surroundings.outcome_eq_error houtcome
    refine ⟨i + 1, _, Surroundings.attempt?_succ.2
      ⟨_, made, err, wait, hi, hfailure, hafter, rfl⟩, ?_, Nat.le_add_right _ _⟩
    rw [hnow]
    simp only [Nat.add_assoc]
  | @conclude n batch outcome next? hphase hlast =>
    obtain ⟨hnow, houtcome, rfl⟩ := hreply _ _ _ batch rfl hphase
    simp only [OnTime, hphase] at h ⊢
    obtain ⟨i, made, hi, rfl, -⟩ := h
    refine ⟨_, _, ⟨i, _, made, hi, rfl, rfl, fun hfailed ↦ ?_⟩, ?_, houtcome⟩
    · obtain ⟨err, herr⟩ := Option.isSome_iff_exists.1 hfailed
      refine hlast err ?_
      rw [houtcome, herr]
      rfl
    · rw [hnow, Nat.add_assoc]
  | deliver hphase =>
    simp only [OnTime, hphase] at h ⊢
    exact h
  | finish hphase =>
    simp only [OnTime, hphase] at h ⊢
    obtain ⟨time, failure?, hends, hnow, houtcome⟩ := h
    exact ⟨time, failure?, hends, Nat.le_of_eq hnow.symm, houtcome⟩

end BatchJob

namespace Watched

variable {w : Watched ι} {k : Nat} {job : BatchJob ι} {ended later : Time}

theorem onTime_wait (h : job.OnTime env policy w.now (w.sent k) ended) (hle : w.now ≤ later)
    (idle : w.JobIdle env later k job) : job.OnTime env policy later (w.sent k) ended := by
  unfold BatchJob.OnTime at h ⊢
  unfold JobIdle at idle
  split at h
  · rename_i hphase
    simp only [hphase] at idle
  · rename_i hphase
    simp only [hphase] at idle
    obtain ⟨i, made, hi, hdue, -⟩ := h
    exact ⟨i, made, hi, hdue, idle⟩
  · rename_i hphase
    simp only [hphase] at idle
    obtain ⟨i, made, hi, hsent, -⟩ := h
    exact ⟨i, made, hi, hsent, idle⟩
  · rename_i hphase
    simp only [hphase] at idle
  · obtain ⟨time, failure?, hends, hend, houtcome⟩ := h
    exact ⟨time, failure?, hends, Nat.le_trans hend hle, houtcome⟩
  · trivial

/-- A job that is idle has done all its work if its last attempt ends before. -/
theorem done_of_idle (h : job.OnTime env policy w.now (w.sent k) ended)
    (idle : w.JobIdle env later k job) {time : Time} {failure? : Option Error}
    (hends : env.Ends policy job.lane job.number time failure?) (hlt : ended + time < later) :
    ∃ result, job.phase = .done result := by
  unfold BatchJob.OnTime at h
  unfold JobIdle at idle
  cases hphase : job.phase with
  | checking rest => simp only [hphase] at idle
  | ready batch due =>
    simp only [hphase] at h idle
    obtain ⟨i, made, hi, rfl, -⟩ := h
    have hle := Nat.le_trans (Nat.le_add_right _ _) (hends.le hi)
    exact absurd hlt (Nat.not_lt.2 (Nat.le_trans idle (Nat.add_le_add_left hle _)))
  | sent batch =>
    simp only [hphase] at h idle
    obtain ⟨i, made, hi, hsent, -⟩ := h
    have hle := Nat.add_le_add_left (hends.le hi) ended
    rw [← Nat.add_assoc, ← hsent] at hle
    exact absurd hlt (Nat.not_lt.2 (Nat.le_trans idle hle))
  | delivering batch outcome left => simp only [hphase] at idle
  | done result => exact ⟨result, rfl⟩

end Watched

end Outbound.Eth
