import Outbound.Proofs.Retry.Record

/-!
# Attempts go on until nothing follows

A run of attempts returns with the first attempt that succeeds, that has no retry left after it, or
after which what says the waits gives up. All attempts before it are told of, each with the wait
until the next, and whoever is told of them changes nothing.
-/

namespace Outbound

variable {α β σ τ ε : Type}

/-! ## Attempts whose outcomes are given -/

namespace RetryPlan

variable {plan : RetryPlan β σ ε} {backoff : β}

/-- Failures that other attempts follow are recorded one after the other. -/
theorem history_of_notices (run : Attempts β) (rest : List (Except ε α))
    (notices : List (ε × Nanos)) (j : Nat) (hbegun : run.begun = j + 1)
    (hbackoff : plan.backoffAfter? backoff j = some run.backoff)
    (hcap : ∀ m, plan.maxRetries = some m → j + notices.length ≤ m)
    (hanswer : ∀ i notice, notices[i]? = some notice →
      plan.answer? backoff (j + i) = some notice.2) :
    ∃ run' : Attempts β, run'.begun = j + notices.length + 1 ∧
      plan.backoffAfter? backoff (j + notices.length) = some run'.backoff ∧
      run.history plan.maxRetries plan.next?
          (notices.map (fun notice ↦ .error notice.1) ++ rest) =
        ⟨notices ++ (run'.history plan.maxRetries plan.next? rest).waits,
          (run'.history plan.maxRetries plan.next? rest).result⟩ := by
  -- `j` failures came before those that are still to be recorded.
  induction notices generalizing j run with
  | nil => exact ⟨run, hbegun, hbackoff, rfl⟩
  | cons notice notices ih =>
    obtain ⟨b, hb, hwait⟩ : ∃ b, plan.next? run.backoff = some (notice.2, b) ∧
        plan.backoffAfter? backoff (j + 1) = some b := by
      have hfirst := hanswer 0 notice rfl
      simp only [Nat.add_zero, answer?, hbackoff, Option.bind_some, Option.map_eq_some_iff,
        Prod.exists] at hfirst
      obtain ⟨_, b, hnext, rfl⟩ := hfirst
      exact ⟨b, hnext, by simp [backoffAfter?, hbackoff, hnext]⟩
    have hnext : run.afterFailure? plan.maxRetries plan.next? = some (notice.2, ⟨j + 2, b⟩) := by
      refine Attempts.afterFailure?_eq_some_iff.2 ⟨fun m hm ↦ ?_, b, hb, by rw [hbegun]⟩
      have hle := hcap m hm
      rw [List.length_cons] at hle
      omega
    obtain ⟨run', hbegun', hbackoff', hhistory⟩ := ih ⟨j + 2, b⟩ (j + 1) rfl hwait
      (fun m hm ↦ by
        have hle := hcap m hm
        rw [List.length_cons] at hle
        omega)
      (fun i notice hi ↦ by
        rw [Nat.add_right_comm]
        exact hanswer (i + 1) notice hi)
    refine ⟨run', ?_, ?_, ?_⟩
    · rw [hbegun', List.length_cons]
      omega
    · rw [← hbackoff', List.length_cons]
      congr 1
      omega
    · simp only [List.map_cons, List.cons_append, Attempts.history, hnext, hhistory,
        Attempts.History.prepend]

theorem StopsAfter.mono {outcome? outcome?' : Nat → Option (Except ε α)} {i : Nat}
    (h : plan.StopsAfter backoff outcome? i)
    (hsucceeds : ∀ a, outcome? i = some (.ok a) → outcome?' i = some (.ok a)) :
    plan.StopsAfter backoff outcome?' i :=
  h.imp_left fun ⟨a, ha⟩ ↦ ⟨a, hsucceeds a ha⟩

variable {outcome : Nat → Except ε α} {n i : Nat}

/-- It is enough to know what the attempts came to so far. -/
theorem StopsAfter.range (h : plan.StopsAfter backoff (fun i ↦ some (outcome i)) i) (hi : i < n) :
    plan.StopsAfter backoff (((List.range n).map outcome)[·]?) i := by
  refine h.mono fun a ha ↦ ?_
  rw [List.getElem?_map, List.getElem?_range hi, Option.map_some, ha]

theorem StopsAfter.of_range (h : plan.StopsAfter backoff (((List.range n).map outcome)[·]?) i) :
    plan.StopsAfter backoff (fun i ↦ some (outcome i)) i := by
  refine h.mono fun a ha ↦ ?_
  have hi : i < n := by
    obtain ⟨hi, -⟩ := List.getElem?_eq_some_iff.1 ha
    rwa [List.length_map, List.length_range] at hi
  rwa [List.getElem?_map, List.getElem?_range hi, Option.map_some] at ha

end RetryPlan

namespace LiveRetry

variable {plan : RetryPlan β σ ε} {backoff : β} {notifier : σ} {start now : Time}
  {events : List (Event α ε)} {e : Event α ε} {s s' : LiveRetry β σ α ε}

/-! ## When a run returns -/

theorem Recorded.outcomes_eq (h : Recorded plan backoff notifier start now s) :
    s.outcomes = s.failures ++ s.phase.returned?.toList := by
  cases hphase : s.phase with
  | attempting => exact (h.attempting hphase).1.outcomes.trans (List.append_nil _).symm
  | waiting due => exact (h.waiting due hphase).1.outcomes.trans (List.append_nil _).symm
  | returned outcome => exact (h.returned outcome hphase).1

theorem Recorded.outcome_of_notice (h : Recorded plan backoff notifier start now s) {i : Nat}
    {notice : ε × Nanos} (hi : s.notices[i]? = some notice) :
    s.outcomes[i]? = some (.error notice.1) := by
  rw [h.outcomes_eq]
  refine getElem?_append_of_some ?_ _
  simp [failures, hi]

/-- Another attempt followed each of those that were told of. -/
theorem Recorded.not_stopsAfter (h : Recorded plan backoff notifier start now s) {i : Nat}
    (hi : i < s.notices.length) : ¬plan.StopsAfter backoff (s.outcomes[·]?) i := by
  have hnotice := List.getElem?_eq_getElem hi
  obtain ⟨hcap, hanswer⟩ := h.goesOn i _ hnotice
  rintro (⟨a, ha⟩ | hlast | hgivesUp)
  · cases (h.outcome_of_notice hnotice).symm.trans ha
  · exact hcap hlast
  · cases hanswer.symm.trans hgivesUp

theorem Recorded.isLeast (h : Recorded plan backoff notifier start now s)
    {outcome : Except ε α} (hphase : s.phase = .returned outcome) :
    IsLeast {i | plan.StopsAfter backoff (s.outcomes[·]?) i} s.notices.length :=
  ⟨(h.returned outcome hphase).2.2,
    fun _ hi ↦ Nat.le_of_not_lt fun hlt ↦ h.not_stopsAfter hlt hi⟩

theorem length_failures (s : LiveRetry β σ α ε) : s.failures.length = s.notices.length :=
  List.length_map _

theorem Recorded.returned_iff (h : Recorded plan backoff notifier start now s)
    (outcome : Except ε α) :
    s.phase = .returned outcome ↔ ∃ k, s.outcomes.length = k + 1 ∧
      s.outcomes[k]? = some outcome ∧
      IsLeast {i | plan.StopsAfter backoff (s.outcomes[·]?) i} k := by
  constructor
  · intro hphase
    have houtcomes := (h.returned outcome hphase).1
    refine ⟨s.notices.length, ?_, ?_, h.isLeast hphase⟩
    · rw [houtcomes, List.length_append, length_failures]
      rfl
    · rw [houtcomes, ← length_failures, List.getElem?_concat_length]
  · rintro ⟨k, hlength, hk, hleast, -⟩
    have heq := h.outcomes_eq
    cases hphase : s.phase.returned? with
    | none =>
      rw [hphase, Option.toList_none, List.append_nil] at heq
      rw [heq, length_failures] at hlength
      exact absurd hleast (h.not_stopsAfter (by omega))
    | some outcome' =>
      rw [hphase, Option.toList_some] at heq
      rw [heq, List.length_append, List.length_singleton, Nat.add_right_cancel_iff] at hlength
      rw [heq, ← hlength, List.getElem?_concat_length] at hk
      cases hk
      exact RetryPhase.returned?_eq_some_iff.1 hphase

theorem Recorded.not_stopsAfter_of_not_returned
    (h : Recorded plan backoff notifier start now s) (hphase : s.phase.returned? = none) {i : Nat}
    (hi : i < s.outcomes.length) : ¬plan.StopsAfter backoff (s.outcomes[·]?) i := by
  rw [h.outcomes_eq, hphase, Option.toList_none, List.append_nil, length_failures] at hi
  exact h.not_stopsAfter hi

/-- No more attempts are begun than there are retries and a first one. -/
theorem Recorded.begun_le (h : Recorded plan backoff notifier start now s) {m : Nat}
    (hcap : plan.maxRetries = some m) : s.begun ≤ m + 1 := by
  have hnotices : s.notices.length ≤ m := Nat.le_of_not_lt fun hlt ↦
    (h.goesOn m _ (List.getElem?_eq_getElem hlt)).1 hcap
  have hbegun : s.begun ≤ s.notices.length + 1 := by
    cases hphase : s.phase with
    | attempting => exact (h.attempting hphase).2.1.le
    | waiting due => exact (h.waiting due hphase).2.1.le.trans (Nat.le_succ _)
    | returned outcome => exact (h.returned outcome hphase).2.1.le
  exact hbegun.trans (Nat.succ_le_succ hnotices)

theorem Recorded.history_eq (h : Recorded plan backoff notifier start now s) :
    ({ backoff } : Attempts β).history plan.maxRetries plan.next? s.outcomes =
      ⟨s.notices, s.phase.returned?⟩ := by
  obtain ⟨run, hbegun, hbackoff, hhistory⟩ := plan.history_of_notices { backoff }
    s.phase.returned?.toList s.notices 0 rfl rfl
    (fun m hcap ↦ by
      rw [Nat.zero_add]
      exact Nat.le_of_not_lt fun hlt ↦ (h.goesOn m _ (List.getElem?_eq_getElem hlt)).1 hcap)
    (fun i notice hi ↦ by
      rw [Nat.zero_add]
      exact (h.goesOn i notice hi).2)
  rw [h.outcomes_eq, failures, hhistory]
  cases hphase : s.phase.returned? with
  | none => simp [Attempts.history]
  | some outcome =>
    cases outcome with
    | ok a => simp [Attempts.history]
    | error failure =>
      have hreturned := RetryPhase.returned?_eq_some_iff.1 hphase
      have hlast : run.afterFailure? plan.maxRetries plan.next? = none := by
        refine Attempts.afterFailure?_eq_none_iff.2 ?_
        rw [Nat.zero_add] at hbegun hbackoff
        obtain ⟨houtcomes, -, hstops⟩ := h.returned _ hreturned
        rcases hstops with ⟨a, hsucceeds⟩ | hcap | hgivesUp
        · have ha : s.outcomes[s.notices.length]? = some (.ok a) := hsucceeds
          rw [houtcomes, ← length_failures, List.getElem?_concat_length] at ha
          cases ha
        · exact .inl ⟨_, hcap, by omega⟩
        · refine .inr ?_
          simpa [RetryPlan.answer?, hbackoff] using hgivesUp
      simp [Attempts.history, hlast]

/-! ## Runs with other listeners -/

/-- The same run with something else kept by the one who is told of failures. -/
def withNotifier (s : LiveRetry β σ α ε) (kept : τ) : LiveRetry β τ α ε :=
  ⟨s.attempts, kept, s.phase, s.log⟩

theorem step_withNotifier (hs : step plan now s e = some s') (notify : τ → ε → Nanos → τ)
    (kept : τ) : ∃ kept', step ⟨plan.maxRetries, plan.next?, notify⟩ now (s.withNotifier kept) e =
      some (s'.withNotifier kept') := by
  rcases step_cases hs with ⟨outcome, rfl, hphase, ⟨hlast, rfl⟩ |
    ⟨failure, wait, attempts, rfl, hnext, rfl⟩⟩ | ⟨due, rfl, hphase, hdue, rfl⟩
  · refine ⟨kept, ?_⟩
    cases outcome with
    | ok a => simp [step, withNotifier, hphase, afterAttempt]
    | error failure =>
      rcases hlast with ⟨a, ha⟩ | hnone
      · cases ha
      · simp [step, withNotifier, hphase, afterAttempt, hnone]
  · exact ⟨notify kept failure wait, by simp [step, withNotifier, hphase, afterAttempt, hnext]⟩
  · exact ⟨kept, by simp [step, withNotifier, hphase, hdue]⟩

theorem run_withNotifier {x y : Time × LiveRetry β σ α ε} (run : Run plan x events y)
    (notify : τ → ε → Nanos → τ) (kept : τ) :
    ∃ kept', Run ⟨plan.maxRetries, plan.next?, notify⟩ (x.1, x.2.withNotifier kept) events
      (y.1, y.2.withNotifier kept') := by
  induction run with
  | refl => exact ⟨kept, .refl⟩
  | wait _ hle ih =>
    obtain ⟨kept', run'⟩ := ih
    exact ⟨kept', run'.wait hle⟩
  | event _ e hs ih =>
    obtain ⟨kept', run'⟩ := ih
    obtain ⟨kept'', hs'⟩ := step_withNotifier hs notify kept'
    exact ⟨kept'', run'.event e hs'⟩

/-- Whoever is told of failures, attempts and waits can be the same. -/
theorem exists_run_of_listening {notifier : σ} (notify : τ → ε → Nanos → τ) (kept : τ)
    {phase : RetryPhase α ε} {log : List (Time × RetryAct α ε)}
    (h : ∃ s, Run plan (start, new start backoff notifier) events (now, s) ∧
      s.phase = phase ∧ s.log = log) :
    ∃ s, Run ⟨plan.maxRetries, plan.next?, notify⟩ (start, new start backoff kept) events
      (now, s) ∧ s.phase = phase ∧ s.log = log := by
  obtain ⟨s, run, hphase, hlog⟩ := h
  obtain ⟨kept', run'⟩ := run_withNotifier run notify kept
  exact ⟨_, run', hphase, hlog⟩

/-! ## Runs with given outcomes -/

theorem outcomes_of_run {y : Time × LiveRetry β σ α ε}
    (run : Run plan (start, new start backoff notifier) events y) :
    y.2.outcomes = events.filterMap Event.outcome? := by
  induction run with
  | refl => rfl
  | wait _ _ ih => exact ih
  | event _ e hs ih =>
    rw [List.filterMap_append, ← ih]
    rcases step_cases hs with ⟨outcome, rfl, -, ⟨-, hs'⟩ |
      ⟨failure, wait, attempts, rfl, -, hs'⟩⟩ | ⟨due, rfl, -, -, hs'⟩
    · exact outcomes_of_log (congrArg log hs')
    · exact outcomes_of_log (congrArg log hs')
    · exact outcomes_of_log (congrArg log hs')

/-- Until a run has returned, it can go on to the end of another attempt. -/
theorem exists_run_ends (run : Run plan (start, new start backoff notifier) events (now, s))
    (hphase : s.phase.returned? = none) (outcome : Except ε α) :
    ∃ events' now' s', Run plan (start, new start backoff notifier) (events ++ events') (now', s') ∧
      s'.outcomes = s.outcomes ++ [outcome] := by
  obtain ⟨events', now', s', run', hends⟩ : ∃ events' now' s',
      Run plan (start, new start backoff notifier) (events ++ events') (now', s') ∧
        events'.filterMap Event.outcome? = [outcome] := by
    cases hs : s.phase with
    | attempting =>
      have hends : step plan now s (.ends outcome) = some (s.afterAttempt plan now outcome) := by
        simp only [step, hs]
      exact ⟨_, now, _, run.event _ hends, rfl⟩
    | waiting due =>
      let again : LiveRetry β σ α ε :=
        { s with phase := .attempting, log := s.log ++ [(max now due, .began)] }
      have hwakes : step plan (max now due) s .wakes = some again := by
        simp only [step, hs, if_pos (Nat.le_max_right now due), again]
      have hends : step plan (max now due) again (.ends outcome) =
          some (again.afterAttempt plan (max now due) outcome) := by simp only [step, again]
      have run' := ((run.wait (Nat.le_max_left now due)).event _ hwakes).event _ hends
      rw [List.append_assoc] at run'
      exact ⟨_, _, _, run', rfl⟩
    | returned outcome' =>
      rw [hs] at hphase
      cases hphase
  refine ⟨events', now', s', run', ?_⟩
  rw [outcomes_of_run run', List.filterMap_append, hends, ← outcomes_of_run run]

/-- A run gets to any attempt that no earlier one keeps it from. -/
theorem exists_run_not_returned (plan : RetryPlan β σ ε) (backoff : β) (notifier : σ)
    (start : Time) {outcome : Nat → Except ε α} {n : Nat}
    (hgoesOn : ∀ i < n, ¬plan.StopsAfter backoff (fun i ↦ some (outcome i)) i) :
    ∃ events now s, Run plan (start, new start backoff notifier) events (now, s) ∧
      s.phase.returned? = none ∧ s.outcomes = (List.range n).map outcome := by
  induction n with
  | zero => exact ⟨[], start, _, .refl, rfl, rfl⟩
  | succ n ih =>
    obtain ⟨events, now, s, run, hphase, houtcomes⟩ :=
      ih fun i hi ↦ hgoesOn i (Nat.lt_succ_of_lt hi)
    obtain ⟨events', now', s', run', houtcomes'⟩ := exists_run_ends run hphase (outcome n)
    rw [houtcomes, ← List.map_singleton, ← List.map_append, ← List.range_succ] at houtcomes'
    refine ⟨_, now', s', run', Option.eq_none_iff_forall_ne_some.2 fun outcome' h ↦ ?_,
      houtcomes'⟩
    -- Had it returned, nothing could follow the attempt of index `n`.
    obtain ⟨k, hlength, -, hstops, -⟩ :=
      ((recorded_of_run run').returned_iff outcome').1 (RetryPhase.returned?_eq_some_iff.1 h)
    rw [houtcomes', List.length_map, List.length_range] at hlength
    rw [houtcomes'] at hstops
    exact hgoesOn k (by omega) (RetryPlan.StopsAfter.of_range hstops)

/-- A run returns what the first attempt comes to that nothing follows. -/
theorem exists_run_returned (plan : RetryPlan β σ ε) (backoff : β) (notifier : σ) (start : Time)
    {outcome : Nat → Except ε α} {k : Nat}
    (hleast : IsLeast {i | plan.StopsAfter backoff (fun i ↦ some (outcome i)) i} k) :
    ∃ events now s, Run plan (start, new start backoff notifier) events (now, s) ∧
      s.phase = .returned (outcome k) ∧ s.outcomes = (List.range (k + 1)).map outcome := by
  obtain ⟨events, now, s, run, hphase, houtcomes⟩ :=
    exists_run_not_returned plan backoff notifier start fun i hi hstops ↦
      absurd (hleast.2 hstops) (Nat.not_le_of_lt hi)
  obtain ⟨events', now', s', run', houtcomes'⟩ := exists_run_ends run hphase (outcome k)
  rw [houtcomes, ← List.map_singleton, ← List.map_append, ← List.range_succ] at houtcomes'
  refine ⟨_, now', s', run', ((recorded_of_run run').returned_iff _).2 ⟨k, ?_, ?_, ?_, ?_⟩,
    houtcomes'⟩
  · rw [houtcomes', List.length_map, List.length_range]
  · simp [houtcomes']
  · rw [houtcomes']
    exact RetryPlan.StopsAfter.range hleast.1 (Nat.lt_succ_self k)
  · intro i hi
    rw [houtcomes'] at hi
    exact hleast.2 (RetryPlan.StopsAfter.of_range hi)

/-! ## The whole of a run -/

/-- Attempts are made up to the first one that succeeds, that has no retry left after it, or after
which what says the waits gives up; what this one comes to is returned, and until then the run can
go on. Each attempt before it failed, and between it and the next one its error was told of once,
with the wait that separates them. With nobody to be told, the run is the same, and it is the one
that is found from the outcomes alone. Settings that have come into force set no limit to retries if
theirs is zero. -/
theorem attempts_until_nothing_follows (policy : BackoffPolicy)
    (next? : β → Option (Nanos × β)) (notify : σ → ε → Nanos → σ) (backoff : β) (notifier : σ)
    (start : Time) :
    (∀ (events : List (Event α ε)) (now : Time) (s : LiveRetry β σ α ε),
      Run (policy.plan next? notify) (start, new start backoff notifier) events (now, s) →
      s.outcomes = events.filterMap Event.outcome? ∧
      (∀ outcome, s.phase = .returned outcome ↔
        ∃ k, s.outcomes.length = k + 1 ∧ s.outcomes[k]? = some outcome ∧
          IsLeast {i | (policy.plan next? notify).StopsAfter backoff (s.outcomes[·]?) i} k) ∧
      (s.phase.returned? = none →
        (∀ i < s.outcomes.length,
          ¬(policy.plan next? notify).StopsAfter backoff (s.outcomes[·]?) i) ∧
        ∀ outcome, ∃ events' now' s',
          Run (policy.plan next? notify) (start, new start backoff notifier) (events ++ events')
            (now', s') ∧ s'.outcomes = s.outcomes ++ [outcome]) ∧
      (∀ outcome, s.phase = .returned outcome →
        s.begun = s.outcomes.length ∧ s.notices.length + 1 = s.outcomes.length) ∧
      (∀ m, policy.maxRetries = some m → s.begun ≤ m + 1) ∧
      s.log.head? = some (start, .began) ∧ s.log.IsChain RetryAct.Follows ∧
      (∀ i notice, s.notices[i]? = some notice → s.outcomes[i]? = some (.error notice.1) ∧
        (policy.plan next? notify).answer? backoff i = some notice.2) ∧
      s.notifier = s.notices.foldl (fun kept notice ↦ notify kept notice.1 notice.2) notifier ∧
      ({ backoff } : Attempts β).history policy.maxRetries next? s.outcomes =
        ⟨s.notices, s.phase.returned?⟩) ∧
    (∀ (events : List (Event α ε)) (now : Time) (phase : RetryPhase α ε)
        (log : List (Time × RetryAct α ε)),
      (∃ s, Run (policy.plan next? notify) (start, new start backoff notifier) events (now, s) ∧
        s.phase = phase ∧ s.log = log) ↔
      ∃ s, Run (policy.silentPlan next? ε) (start, new start backoff ()) events (now, s) ∧
        s.phase = phase ∧ s.log = log) ∧
    (∀ outcome : Nat → Except ε α,
      (∀ k, IsLeast {i | (policy.plan next? notify).StopsAfter backoff
            (fun i ↦ some (outcome i)) i} k →
        ∃ events now s,
          Run (policy.plan next? notify) (start, new start backoff notifier) events (now, s) ∧
          s.phase = .returned (outcome k) ∧ s.outcomes = (List.range (k + 1)).map outcome) ∧
      ((∀ i, ¬(policy.plan next? notify).StopsAfter backoff (fun i ↦ some (outcome i)) i) →
        ∀ n, ∃ events now s,
          Run (policy.plan next? notify) (start, new start backoff notifier) events (now, s) ∧
          s.phase.returned? = none ∧ s.outcomes = (List.range n).map outcome)) ∧
    ∀ (old : Option BackoffConfig) (config : BackoffConfig),
      policy = (BackoffConfig.reloadable.prepare old config).1.policy →
      policy.maxRetries =
        if config.settings.maxRetries = 0 then none else some config.settings.maxRetries := by
  refine ⟨fun events now s run ↦ ?_, fun events now phase log ↦
      ⟨exists_run_of_listening _ (), exists_run_of_listening _ notifier⟩,
    fun outcome ↦ ⟨fun k hleast ↦ ?_, fun hnever n ↦ ?_⟩, fun old config heq ↦ ?_⟩
  · have h := recorded_of_run run
    refine ⟨outcomes_of_run run, h.returned_iff,
      fun hphase ↦ ⟨fun i hi ↦ h.not_stopsAfter_of_not_returned hphase hi,
        exists_run_ends run hphase⟩, fun outcome hphase ↦ ?_,
      fun m hcap ↦ h.begun_le hcap, h.chronicle.head, h.chronicle.chain,
      fun i notice hi ↦ ⟨h.outcome_of_notice hi, (h.goesOn i notice hi).2⟩, h.told,
      h.history_eq⟩
    obtain ⟨houtcomes, hbegun, -⟩ := h.returned outcome hphase
    have hlength : s.outcomes.length = s.notices.length + 1 := by
      rw [houtcomes, List.length_append, length_failures]
      rfl
    exact ⟨hbegun.trans hlength.symm, hlength.symm⟩
  · exact exists_run_returned _ backoff notifier start hleast
  · exact exists_run_not_returned _ backoff notifier start fun i _ ↦ hnever i
  · rw [heq]
    rfl

/-- Of two failures with one retry allowed, the first is told of and the second is returned, though
another wait would have followed. -/
theorem second_failure_returned :
    let policy : BackoffPolicy := { maxRetries := some 1 }
    let next? (wait : Nanos) : Option (Nanos × Nanos) := some (wait, 2 * wait)
    let notify (told : List (String × Nanos)) (failure : String) (wait : Nanos) :=
      told ++ [(failure, wait)]
    ∃ s : LiveRetry Nanos (List (String × Nanos)) Nat String,
      Run (policy.plan next? notify) (0, new 0 3000000 [])
        [.ends (.error "reset"), .wakes, .ends (.error "refused")] (9, s) ∧
      s.phase = .returned (.error "refused") ∧ s.notifier = [("reset", 3000000)] ∧
      s.begun = 2 ∧
      IsLeast {i | (policy.plan next? notify).StopsAfter 3000000 (s.outcomes[·]?) i} 1 := by
  intro policy next? notify
  obtain ⟨s, hplay, hphase, hnotifier⟩ : ∃ s : LiveRetry Nanos (List (String × Nanos)) Nat String,
      TimedRun.play (step (policy.plan next? notify)) (0, new 0 3000000 [])
        [(5, .ends (.error "reset")), (3, .wakes), (1, .ends (.error "refused"))] = some (9, s) ∧
      s.phase = .returned (.error "refused") ∧ s.notifier = [("reset", 3000000)] :=
    ⟨_, rfl, rfl, rfl⟩
  have run := TimedRun.of_play hplay
  obtain ⟨hall, -⟩ := attempts_until_nothing_follows (α := Nat) policy next? notify 3000000 [] 0
  obtain ⟨houtcomes, hreturned, -, hcounts, -⟩ := hall _ _ _ run
  obtain ⟨k, hlength, -, hleast⟩ := (hreturned _).1 hphase
  have htwo : s.outcomes.length = 2 := by
    rw [houtcomes]
    rfl
  obtain rfl : k = 1 := by omega
  exact ⟨s, run, hphase, hnotifier, (hcounts _ hphase).1.trans htwo, hleast⟩

end LiveRetry

end Outbound
