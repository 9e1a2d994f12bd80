import Outbound.Proofs.Lookup
import Outbound.Retry.Live

/-!
# What a run of attempts has on record

Attempts and waits take turns on record. Every failure that was told of was followed by an answer
with its wait while retries were left, and a run that has returned did so after an attempt that
nothing follows.
-/

namespace Outbound

variable {α β σ ε : Type}

namespace Attempts

variable {maxRetries : Option Nat} {next? : β → Option (Nanos × β)} {run run' : Attempts β}
  {wait : Nanos}

theorem afterFailure?_eq_some_iff :
    run.afterFailure? maxRetries next? = some (wait, run') ↔
      (∀ m, maxRetries = some m → run.begun ≤ m) ∧
        ∃ b, next? run.backoff = some (wait, b) ∧ run' = ⟨run.begun + 1, b⟩ := by
  have hcap : (∀ m, maxRetries = some m → run.begun ≤ m) ↔
      ¬maxRetries.any (· < run.begun) = true := by
    cases maxRetries <;> simp
  rw [hcap, afterFailure?]
  split
  · rename_i hover
    simp [hover]
  · rename_i hleft
    rw [and_iff_right hleft, Option.map_eq_some_iff]
    constructor
    · rintro ⟨⟨_, b⟩, hnext, heq⟩
      cases heq
      exact ⟨b, hnext, rfl⟩
    · rintro ⟨b, hnext, rfl⟩
      exact ⟨_, hnext, rfl⟩

theorem afterFailure?_eq_none_iff :
    run.afterFailure? maxRetries next? = none ↔
      (∃ m, maxRetries = some m ∧ m < run.begun) ∨ next? run.backoff = none := by
  rw [afterFailure?]
  cases maxRetries with
  | none => simp
  | some m => by_cases hm : m < run.begun <;> simp [hm]

end Attempts

theorem RetryPhase.returned?_eq_some_iff {phase : RetryPhase α ε} {outcome : Except ε α} :
    phase.returned? = some outcome ↔ phase = .returned outcome := by
  cases phase <;> simp [returned?]

namespace LiveRetry

variable {plan : RetryPlan β σ ε} {backoff : β} {notifier : σ} {start now : Time}
  {events : List (Event α ε)} {e : Event α ε} {s s' : LiveRetry β σ α ε}

theorem step_cases (hs : step plan now s e = some s') :
    (∃ outcome, e = .ends outcome ∧ s.phase = .attempting ∧
      ((((∃ a, outcome = .ok a) ∨ s.attempts.afterFailure? plan.maxRetries plan.next? = none) ∧
          s' = { s with
            phase := .returned outcome
            log := s.log ++ [(now, .ended outcome)] }) ∨
        ∃ failure wait attempts, outcome = .error failure ∧
          s.attempts.afterFailure? plan.maxRetries plan.next? = some (wait, attempts) ∧
          s' = {
            attempts
            notifier := plan.notify s.notifier failure wait
            phase := .waiting (now + wait.ticks)
            log := s.log ++ [(now, .ended (.error failure)), (now, .told failure wait)] })) ∨
    ∃ due, e = .wakes ∧ s.phase = .waiting due ∧ due ≤ now ∧
      s' = { s with phase := .attempting, log := s.log ++ [(now, .began)] } := by
  cases e with
  | ends outcome =>
    simp only [step] at hs
    split at hs
    · rename_i hphase
      cases hs
      refine .inl ⟨outcome, rfl, hphase, ?_⟩
      cases outcome with
      | ok a => exact .inl ⟨.inl ⟨a, rfl⟩, rfl⟩
      | error failure =>
        simp only [afterAttempt]
        split
        · rename_i hnone
          exact .inl ⟨.inr hnone, rfl⟩
        · rename_i wait attempts hsome
          exact .inr ⟨failure, wait, attempts, rfl, hsome, rfl⟩
    · cases hs
  | wakes =>
    simp only [step] at hs
    split at hs
    · rename_i due hphase
      split at hs
      · rename_i hdue
        cases hs
        exact .inr ⟨due, rfl, hphase, hdue, rfl⟩
      · cases hs
    · cases hs

/-! ## Records -/

section Log

variable {acts : List (Time × RetryAct α ε)}

theorem outcomes_of_log (hlog : s'.log = s.log ++ acts) :
    s'.outcomes = s.outcomes ++ acts.filterMap (·.2.outcome?) := by
  rw [outcomes, outcomes, hlog, List.filterMap_append]

theorem notices_of_log (hlog : s'.log = s.log ++ acts) :
    s'.notices = s.notices ++ acts.filterMap (·.2.notice?) := by
  rw [notices, notices, hlog, List.filterMap_append]

theorem begun_of_log (hlog : s'.log = s.log ++ acts) :
    s'.begun = s.begun + acts.countP (·.2.isBegan) := by
  rw [begun, begun, hlog, List.countP_append]

end Log

/-- The outcomes of the attempts that were told of. -/
def failures (s : LiveRetry β σ α ε) : List (Except ε α) :=
  s.notices.map fun notice ↦ .error notice.1

/-- Nothing but failures has been seen, and what says the waits has answered once to each. -/
structure Open (plan : RetryPlan β σ ε) (backoff : β) (s : LiveRetry β σ α ε) : Prop where
  outcomes : s.outcomes = s.failures
  begun : s.attempts.begun = s.notices.length + 1
  backoff : plan.backoffAfter? backoff s.notices.length = some s.attempts.backoff

/-- Acts in an order in which they can come, from the first beginning until now. -/
structure Chronicle (start now : Time) (log : List (Time × RetryAct α ε)) : Prop where
  head : log.head? = some (start, .began)
  chain : log.IsChain RetryAct.Follows
  past : ∀ entry ∈ log, entry.1 ≤ now

theorem Chronicle.append {log : List (Time × RetryAct α ε)} {last : Time × RetryAct α ε}
    (h : Chronicle start now log) (act : RetryAct α ε) (hlast : log.getLast? = some last)
    (hfollows : RetryAct.Follows last (now, act)) : Chronicle start now (log ++ [(now, act)]) where
  head := by simp [h.head]
  chain := by
    refine List.isChain_append.2 ⟨h.chain, .singleton _, fun x hx y hy ↦ ?_⟩
    rw [hlast] at hx
    cases hx
    cases hy
    exact hfollows
  past entry hentry := by
    rcases List.mem_append.1 hentry with hentry | hentry
    · exact h.past entry hentry
    · cases List.mem_singleton.1 hentry
      exact Nat.le_refl now

structure Recorded (plan : RetryPlan β σ ε) (backoff : β) (notifier : σ) (start now : Time)
    (s : LiveRetry β σ α ε) : Prop where
  chronicle : Chronicle start now s.log
  told : s.notifier =
    s.notices.foldl (fun kept notice ↦ plan.notify kept notice.1 notice.2) notifier
  goesOn : ∀ i notice, s.notices[i]? = some notice →
    plan.maxRetries ≠ some i ∧ plan.answer? backoff i = some notice.2
  attempting : s.phase = .attempting → s.Open plan backoff ∧
    s.begun = s.notices.length + 1 ∧ ∃ t, s.log.getLast? = some (t, .began)
  waiting : ∀ due, s.phase = .waiting due → s.Open plan backoff ∧
    s.begun = s.notices.length ∧
    ∃ t failure wait, s.log.getLast? = some (t, .told failure wait) ∧ due = t + wait.ticks
  returned : ∀ outcome, s.phase = .returned outcome →
    s.outcomes = s.failures ++ [outcome] ∧ s.begun = s.notices.length + 1 ∧
    plan.StopsAfter backoff (s.outcomes[·]?) s.notices.length

theorem recorded_new (plan : RetryPlan β σ ε) (backoff : β) (notifier : σ) (start : Time) :
    Recorded plan backoff notifier start start (new (α := α) start backoff notifier) where
  chronicle := ⟨rfl, .singleton _, by simp [new]⟩
  told := rfl
  goesOn := by simp [new, notices, RetryAct.notice?]
  attempting _ := ⟨⟨rfl, rfl, rfl⟩, rfl, start, rfl⟩
  waiting _ h := nomatch h
  returned _ h := nomatch h

theorem Recorded.wait {later : Time} (h : Recorded plan backoff notifier start now s)
    (hle : now ≤ later) : Recorded plan backoff notifier start later s where
  chronicle := ⟨h.chronicle.head, h.chronicle.chain,
    fun entry hentry ↦ Nat.le_trans (h.chronicle.past entry hentry) hle⟩
  told := h.told
  goesOn := h.goesOn
  attempting := h.attempting
  waiting := h.waiting
  returned := h.returned

/-- The retries that are left are those that no failure told of has used. -/
theorem Recorded.maxRetries_eq_length {m : Nat} (h : Recorded plan backoff notifier start now s)
    (hcap : plan.maxRetries = some m) (hle : m ≤ s.notices.length) : m = s.notices.length := by
  refine Nat.le_antisymm hle (Nat.le_of_not_lt fun hlt ↦ ?_)
  exact (h.goesOn m _ (List.getElem?_eq_getElem hlt)).1 hcap

/-- The present attempt is over, and nothing follows it. -/
theorem Recorded.returns {outcome : Except ε α}
    (h : Recorded plan backoff notifier start now s) (hphase : s.phase = .attempting)
    (hlast : (∃ a, outcome = .ok a) ∨
      s.attempts.afterFailure? plan.maxRetries plan.next? = none)
    (hs' : s' = { s with phase := .returned outcome, log := s.log ++ [(now, .ended outcome)] }) :
    Recorded plan backoff notifier start now s' := by
  obtain ⟨hopen, hbegun, t, hcurrent⟩ := h.attempting hphase
  have hover : s'.phase = .returned outcome := by rw [hs']
  have hlog : s'.log = s.log ++ [(now, .ended outcome)] := by rw [hs']
  have hnotices : s'.notices = s.notices := (notices_of_log hlog).trans (List.append_nil _)
  have houtcomes : s'.outcomes = s'.failures ++ [outcome] := by
    rw [failures, hnotices]
    exact (outcomes_of_log hlog).trans (congrArg (· ++ [outcome]) hopen.outcomes)
  have hcount : s'.begun = s.begun := begun_of_log hlog
  have hstops : plan.StopsAfter backoff (s'.outcomes[·]?) s.notices.length := by
    rcases hlast with ⟨a, rfl⟩ | hnone
    · refine .inl ⟨a, ?_⟩
      simp [houtcomes, failures, hnotices]
    · rcases Attempts.afterFailure?_eq_none_iff.1 hnone with ⟨m, hcap, hm⟩ | hnext
      -- All retries are used, and no fewer attempts went before, as another one followed each.
      · rw [hopen.begun] at hm
        rw [← h.maxRetries_eq_length hcap (Nat.le_of_lt_succ hm)]
        exact .inr (.inl hcap)
      · refine .inr (.inr ?_)
        simp [RetryPlan.answer?, hopen.backoff, hnext]
  refine ⟨?_, ?_, ?_, fun hphase' ↦ (nomatch hover.symm.trans hphase'),
    fun due hphase' ↦ (nomatch hover.symm.trans hphase'), fun outcome' hphase' ↦ ?_⟩
  · rw [hlog]
    exact h.chronicle.append _ hcurrent (h.chronicle.past _ (List.mem_of_getLast? hcurrent))
  · rw [hnotices, hs']
    exact h.told
  · rw [hnotices]
    exact h.goesOn
  · cases hover.symm.trans hphase'
    rw [hnotices, hcount]
    exact ⟨houtcomes, hbegun, hstops⟩

/-- The present attempt has failed, and another one will follow it. -/
theorem Recorded.tells {failure : ε} {wait : Nanos} {attempts : Attempts β}
    (h : Recorded plan backoff notifier start now s) (hphase : s.phase = .attempting)
    (hnext : s.attempts.afterFailure? plan.maxRetries plan.next? = some (wait, attempts))
    (hs' : s' = {
      attempts
      notifier := plan.notify s.notifier failure wait
      phase := .waiting (now + wait.ticks)
      log := s.log ++ [(now, .ended (.error failure)), (now, .told failure wait)] }) :
    Recorded plan backoff notifier start now s' := by
  obtain ⟨hopen, hbegun, t, hcurrent⟩ := h.attempting hphase
  obtain ⟨hleft, b, hb, hattempts⟩ := Attempts.afterFailure?_eq_some_iff.1 hnext
  have hpause : s'.phase = .waiting (now + wait.ticks) := by rw [hs']
  have hlog : s'.log =
      s.log ++ [(now, .ended (.error failure)), (now, .told failure wait)] := by rw [hs']
  have hnotices : s'.notices = s.notices ++ [(failure, wait)] := notices_of_log hlog
  have hlength : s'.notices.length = s.notices.length + 1 := by simp [hnotices]
  have hopen' : s'.Open plan backoff := by
    refine ⟨?_, ?_, ?_⟩
    · rw [failures, hnotices, List.map_append, outcomes_of_log hlog, hopen.outcomes]
      rfl
    · rw [hlength, hs', hattempts, hopen.begun]
    · rw [hlength, hs', hattempts]
      simp [RetryPlan.backoffAfter?, hopen.backoff, hb]
  refine ⟨?_, ?_, ?_, fun hphase' ↦ (nomatch hpause.symm.trans hphase'), fun due hphase' ↦ ?_,
    fun outcome hphase' ↦ nomatch hpause.symm.trans hphase'⟩
  · have hended := h.chronicle.append (.ended (.error failure)) hcurrent
      (h.chronicle.past _ (List.mem_of_getLast? hcurrent))
    have htold := hended.append (.told failure wait) List.getLast?_concat ⟨rfl, rfl⟩
    rw [List.append_assoc] at htold
    rw [hlog]
    exact htold
  · rw [hnotices, List.foldl_append, ← h.told, hs']
    rfl
  · intro i notice hi
    rw [hnotices] at hi
    rcases getElem?_concat_cases hi with ⟨rfl, rfl⟩ | hi
    · refine ⟨fun hcap ↦ ?_, by simp [RetryPlan.answer?, hopen.backoff, hb]⟩
      have hle := hleft _ hcap
      rw [hopen.begun] at hle
      omega
    · exact h.goesOn i notice hi
  · cases hpause.symm.trans hphase'
    refine ⟨hopen', ?_, now, failure, wait, ?_, rfl⟩
    · rw [hlength, ← hbegun]
      exact begun_of_log hlog
    · rw [hlog]
      simp

/-- A wait is over. -/
theorem Recorded.wakes {due : Time} (h : Recorded plan backoff notifier start now s)
    (hphase : s.phase = .waiting due) (hdue : due ≤ now)
    (hs' : s' = { s with phase := .attempting, log := s.log ++ [(now, .began)] }) :
    Recorded plan backoff notifier start now s' := by
  obtain ⟨hopen, hbegun, t, failure, wait, hcurrent, rfl⟩ := h.waiting due hphase
  have hagain : s'.phase = .attempting := by rw [hs']
  have hlog : s'.log = s.log ++ [(now, .began)] := by rw [hs']
  have hnotices : s'.notices = s.notices := (notices_of_log hlog).trans (List.append_nil _)
  have houtcomes : s'.outcomes = s.outcomes := (outcomes_of_log hlog).trans (List.append_nil _)
  have hopen' : s'.Open plan backoff := by
    refine ⟨?_, ?_, ?_⟩
    · rw [houtcomes, failures, hnotices]
      exact hopen.outcomes
    · rw [hnotices, hs']
      exact hopen.begun
    · rw [hnotices, hs']
      exact hopen.backoff
  refine ⟨?_, ?_, ?_, fun _ ↦ ⟨hopen', ?_, now, ?_⟩,
    fun due' hphase' ↦ (nomatch hagain.symm.trans hphase'),
    fun outcome hphase' ↦ nomatch hagain.symm.trans hphase'⟩
  · rw [hlog]
    exact h.chronicle.append _ hcurrent hdue
  · rw [hnotices, hs']
    exact h.told
  · rw [hnotices]
    exact h.goesOn
  · rw [hnotices, ← hbegun]
    exact begun_of_log hlog
  · rw [hlog]
    simp

theorem Recorded.step (h : Recorded plan backoff notifier start now s)
    (hs : step plan now s e = some s') : Recorded plan backoff notifier start now s' := by
  rcases step_cases hs with ⟨outcome, -, hphase, ⟨hlast, hs'⟩ |
    ⟨failure, wait, attempts, -, hnext, hs'⟩⟩ | ⟨due, -, hphase, hdue, hs'⟩
  · exact h.returns hphase hlast hs'
  · exact h.tells hphase hnext hs'
  · exact h.wakes hphase hdue hs'

theorem recorded_of_run {y : Time × LiveRetry β σ α ε}
    (run : Run plan (start, new start backoff notifier) events y) :
    Recorded plan backoff notifier start y.1 y.2 := by
  induction run with
  | refl => exact recorded_new plan backoff notifier start
  | wait _ hle ih => exact ih.wait hle
  | event _ e hs ih => exact ih.step hs

end LiveRetry

end Outbound
