import Outbound.Proofs.Refresh.SingleFlight

/-!
# What the counters of refreshes add up to

A caller counts its refresh between giving up the right and returning, and one that is turned away
returns at once. So the counter of an outcome stands at the number of refreshes that have returned
it, except that refusals are under no counter. The replacements under way are those between the
wrapper's own count and the counter.
-/

namespace Outbound

variable {γ ε : Type}

theorem RefreshOutcome.label_injective : Function.Injective label := by
  intro o o' h
  cases o <;> cases o' <;> first | rfl | simp [label] at h

theorem MetricKey.clientRefresh_label_inj {client : String} {o o' : RefreshOutcome} :
    clientRefresh client o.label = clientRefresh client o'.label ↔ o = o' := by
  simp [clientRefresh, RefreshOutcome.label_injective.eq_iff]

theorem Metrics.total_countRefresh (metrics : Metrics) (client : String) (o o' : RefreshOutcome) :
    (metrics.countRefresh client o).total (.clientRefresh client o'.label) =
      metrics.total (.clientRefresh client o'.label) +
        if o' = o ∧ o ≠ .inProgress then 1 else 0 := by
  by_cases ho : o = .inProgress
  · simp [countRefresh, ho]
  · simp [countRefresh, ho, total_count, MetricKey.clientRefresh_label_inj]

namespace CallerPhase

/-- The outcome that a caller's refresh has returned. -/
def returned? : CallerPhase γ ε → Option RefreshOutcome
  | .done outcome => outcome
  | _ => none

/-- The caller's replacement is part of the generation, and its refresh is under no counter yet. -/
def isUncounted : CallerPhase γ ε → Bool
  | .holding _ _ (.counted _) => true
  | .holding _ _ (.leaving .refreshed) => true
  | .counting .refreshed => true
  | _ => false

/-- The caller has taken the right to refresh and has not returned. -/
def isRefreshing : CallerPhase γ ε → Bool
  | .holding _ _ _ => true
  | .counting _ => true
  | _ => false

theorem not_isUncounted {p : CallerPhase γ ε} (h : p.isRefreshing = false) :
    p.isUncounted = false := by
  cases p with
  | holding since found phase => cases h
  | counting outcome => cases h
  | _ => rfl

end CallerPhase

/-- A refresh that replaces is uncounted from the replacement until it returns. -/
theorem generation_of_turn {now : Time} {k : Nat} {p p' : CallerPhase γ ε}
    {i i' : RefreshCore γ ε} (h : Turn now k p i p' i') :
    i'.wrapper.generation + (p.isUncounted.toNat + (decide (p.returned? = some .refreshed)).toNat) =
      i.wrapper.generation +
        (p'.isUncounted.toNat + (decide (p'.returned? = some .refreshed)).toNat) := by
  cases h with
  | aside before after =>
    rcases before with ⟨_, rfl⟩ | ⟨_, rfl⟩ <;> rcases after with rfl | ⟨_, rfl⟩ | rfl <;> rfl
  | refuse => rfl
  | acquire => rfl
  | proceed turn => cases turn <;> rfl
  | release outcome => cases outcome <;> rfl
  | count outcome => cases outcome <;> rfl

/-- Only a caller that counts can return anything but a refusal. -/
theorem returned_of_turn {now : Time} {k : Nat} {p p' : CallerPhase γ ε}
    {i i' : RefreshCore γ ε} (h : Turn now k p i p' i') (hp : ∀ o, p ≠ .counting o)
    {o : RefreshOutcome} (ho : o ≠ .inProgress) : p.returned? ≠ some o ∧ p'.returned? ≠ some o := by
  cases h with
  | aside before after =>
    rcases before with ⟨_, rfl⟩ | ⟨_, rfl⟩ <;> rcases after with rfl | ⟨_, rfl⟩ | rfl <;>
      exact ⟨nofun, nofun⟩
  | refuse => exact ⟨nofun, fun heq ↦ ho (Option.some.inj heq).symm⟩
  | acquire => exact ⟨nofun, nofun⟩
  | proceed => exact ⟨nofun, nofun⟩
  | release => exact ⟨nofun, nofun⟩
  | count outcome => exact absurd rfl (hp outcome)

namespace LiveRefreshable

variable {now : Time} {s s' : LiveRefreshable γ ε} {k : Nat}
  {c c' : RefreshCaller γ ε} {e : Event γ ε}

/-- How many refreshes have returned that outcome. -/
def returned (s : LiveRefreshable γ ε) (outcome : RefreshOutcome) : Nat :=
  s.callers.countP fun c ↦ c.phase.returned? = some outcome

/-- How many refreshes have returned. -/
def answered (s : LiveRefreshable γ ε) : Nat :=
  s.callers.countP fun c ↦ c.phase.returned?.isSome

/-- How far the counter of that outcome has come. -/
def counted (s : LiveRefreshable γ ε) (outcome : RefreshOutcome) : Nat :=
  s.metrics.total (.clientRefresh s.factory.name outcome.label)

/-- How many replacements are under way to the counter. -/
def uncounted (s : LiveRefreshable γ ε) : Nat :=
  s.callers.countP fun c ↦ c.phase.isUncounted

theorem answered_eq (s : LiveRefreshable γ ε) :
    s.answered = s.returned .refreshed + s.returned .inProgress + s.returned .cooldown +
      s.returned .failed := by
  simp only [answered, returned]
  induction s.callers with
  | nil => rfl
  | cons c rest ih =>
    simp only [List.countP_cons, ih]
    cases c.phase.returned? with
    | none => rfl
    | some outcome => cases outcome <;> simp +arith

/-! ## What a step does to the counters -/

/-- The counters and the name under which they stand. -/
def ledger (s : LiveRefreshable γ ε) : Factory ε × Metrics :=
  (s.factory, s.metrics)

theorem ledger_begin (s : LiveRefreshable γ ε) (inside : Option Nat)
    (request : RefreshRequest ε) : (s.begin inside request).ledger = s.ledger := by
  cases request <;> rfl

theorem ledger_retire (now : Time) (s : LiveRefreshable γ ε) (old : Nat) :
    (s.retire now old).ledger = s.ledger := by
  simp only [retire]
  split <;> rfl

theorem ledger_actHolding {since : Time} {found : Refreshable Nat} {phase : HolderPhase γ}
    (hs : s.actHolding now k c since found phase = some s') : s'.ledger = s.ledger := by
  cases phase with
  | connecting => cases hs
  | counted old =>
    cases hs
    exact ledger_retire _ _ _
  | _ => cases hs; rfl

theorem ledger_act (hs : s.act now k c = some s') (hc : ∀ o, c.phase ≠ .counting o) :
    s'.ledger = s.ledger := by
  simp only [act] at hs
  cases hphase : c.phase with
  | operating client => simp [hphase] at hs
  | observing failure =>
    simp only [hphase, Option.some.injEq] at hs
    rw [← hs]
    rfl
  | asking =>
    simp only [hphase] at hs
    split at hs <;> cases hs <;> rfl
  | holding since found phase =>
    simp only [hphase] at hs
    exact ledger_actHolding hs
  | counting outcome => exact absurd hphase (hc outcome)
  | done outcome => simp [hphase] at hs

theorem ledger_actGrace {n : Nat} {grace : Grace} (hs : s.actGrace now n grace = some s') :
    s'.ledger = s.ledger := by
  simp only [actGrace] at hs
  split at hs
  · cases hs
    rfl
  · split at hs <;> cases hs
    rfl
  · cases hs

/-- Nothing is counted by a step that is not the act of a caller that counts. -/
theorem ledger_step (hs : s.step now e = some s')
    (hact : ∀ k, e = .act k → ∀ c, s.callers[k]? = some c → ∀ o, c.phase ≠ .counting o) :
    s'.ledger = s.ledger := by
  cases e with
  | call inside request =>
    obtain ⟨-, ⟨⟩⟩ := Option.ite_none_right_eq_some.1 hs
    exact ledger_begin _ _ _
  | finish k failure =>
    obtain ⟨c, -, hs⟩ := Option.bind_eq_some_iff.1 hs
    split at hs <;> cases hs
    rfl
  | abandon k =>
    obtain ⟨c, -, hs⟩ := Option.bind_eq_some_iff.1 hs
    split at hs <;> cases hs
    rfl
  | act k =>
    obtain ⟨c, hc, hs⟩ := Option.bind_eq_some_iff.1 hs
    exact ledger_act hs (hact k rfl c hc)
  | connected k result =>
    obtain ⟨c, -, hs⟩ := Option.bind_eq_some_iff.1 hs
    split at hs
    · split at hs <;> cases hs
      rfl
    · cases hs
  | hold => cases hs; rfl
  | letGo client =>
    obtain ⟨-, ⟨⟩⟩ := Option.ite_none_right_eq_some.1 hs
    rfl
  | grace n =>
    obtain ⟨grace, -, hs⟩ := Option.bind_eq_some_iff.1 hs
    exact ledger_actGrace hs

/-- A caller counts its refresh and returns, or nothing is counted and nobody who is about to count
comes any further. -/
theorem counting_cases (hs : s.step now e = some s') :
    (∃ k c o, s.callers[k]? = some c ∧ c.phase = .counting o ∧ s' =
        { s.setPhase k c (.done (some o)) with
          metrics := s.metrics.countRefresh s.factory.name o }) ∨
      s'.ledger = s.ledger ∧ ∀ (k : Nat) c o, s.callers[k]? = some c → c.phase = .counting o →
        s'.callers[k]? = some c := by
  by_cases hcount : ∃ k c o, e = .act k ∧ s.callers[k]? = some c ∧ c.phase = .counting o
  · obtain ⟨k, c, o, rfl, hc, hphase⟩ := hcount
    rw [step_act hc, act, hphase] at hs
    exact .inl ⟨k, c, o, hc, hphase, (Option.some.inj hs).symm⟩
  · refine .inr ⟨ledger_step hs fun k he c hc o hphase ↦ hcount ⟨k, c, o, he, hc, hphase⟩,
      fun k c o hc hphase ↦ ?_⟩
    rcases caller_of_step hs hc with ⟨hact, -⟩ | ⟨-, hsame | ⟨_, hop⟩ | ⟨_, _, _, _, hop, -⟩⟩
    · cases e with
      | act j =>
        have hj : j = k := of_decide_eq_true hact
        exact absurd ⟨k, c, o, hj ▸ rfl, hc, hphase⟩ hcount
      | _ => cases hact
    · exact hsame
    · simp [hphase] at hop
    · simp [hphase] at hop

/-! ## The balance -/

theorem countP_set {p : CallerPhase γ ε → Bool} {callers : List (RefreshCaller γ ε)}
    (hc : callers[k]? = some c) (c' : RefreshCaller γ ε) :
    (callers.set k c').countP (fun c ↦ p c.phase) + (p c.phase).toNat =
      callers.countP (fun c ↦ p c.phase) + (p c'.phase).toNat := by
  have hsum := sum_map_set hc (fun c ↦ (p c.phase).toNat) c'
  rwa [sum_map_toNat, sum_map_toNat] at hsum

theorem returned_set (hc : s.callers[k]? = some c) (hcallers : s'.callers = s.callers.set k c')
    (o : RefreshOutcome) :
    s'.returned o + (decide (c.phase.returned? = some o)).toNat =
      s.returned o + (decide (c'.phase.returned? = some o)).toNat := by
  rw [returned, hcallers]
  exact countP_set (p := fun p ↦ decide (p.returned? = some o)) hc c'

theorem uncounted_set (hc : s.callers[k]? = some c) (hcallers : s'.callers = s.callers.set k c') :
    s'.uncounted + c.phase.isUncounted.toNat = s.uncounted + c'.phase.isUncounted.toNat := by
  rw [uncounted, hcallers]
  exact countP_set hc c'

/-- The counters agree with what refreshes have returned, and the generation with both. -/
structure Tallied (s : LiveRefreshable γ ε) : Prop where
  counted : ∀ o, s.counted o = if o = .inProgress then 0 else s.returned o
  replaced : s.returned .refreshed + s.uncounted = s.wrapper.generation

namespace Tallied

theorem of_ledger (h : s.Tallied) (hledger : s'.ledger = s.ledger)
    (hreturned : ∀ o ≠ .inProgress, s'.returned o = s.returned o)
    (hreplaced : s'.returned .refreshed + s'.uncounted = s'.wrapper.generation) :
    s'.Tallied := by
  obtain ⟨hfactory, hmetrics⟩ := Prod.ext_iff.1 hledger
  change s'.factory = s.factory at hfactory
  change s'.metrics = s.metrics at hmetrics
  refine ⟨fun o ↦ ?_, hreplaced⟩
  have hcounted := h.counted o
  rw [LiveRefreshable.counted, hfactory, hmetrics]
  split at hcounted
  · rwa [if_pos ‹_›]
  · rwa [if_neg ‹_›, hreturned o ‹_›]

/-- A caller counts its refresh and returns. -/
theorem count (h : s.Tallied) {o : RefreshOutcome} (hc : s.callers[k]? = some c)
    (hphase : c.phase = .counting o) (hcallers : s'.callers =
      s.callers.set k { c with phase := .done (some o) }) (hwrapper : s'.wrapper = s.wrapper)
    (hfactory : s'.factory = s.factory)
    (hmetrics : s'.metrics = s.metrics.countRefresh s.factory.name o) : s'.Tallied := by
  have hreturned (o' : RefreshOutcome) :
      s'.returned o' = s.returned o' + (decide (o = o')).toNat := by
    simpa [hphase, CallerPhase.returned?] using returned_set hc hcallers o'
  have huncounted : s'.uncounted + (decide (o = .refreshed)).toNat = s.uncounted := by
    have hset := uncounted_set hc hcallers
    rw [hphase] at hset
    cases o <;> exact hset
  refine ⟨fun o' ↦ ?_, ?_⟩
  · have hcounted : s'.counted o' =
        s.counted o' + if o' = o ∧ o ≠ .inProgress then 1 else 0 := by
      rw [LiveRefreshable.counted, hfactory, hmetrics]
      exact Metrics.total_countRefresh _ _ _ _
    rw [hcounted, h.counted, hreturned]
    cases o <;> cases o' <;> rfl
  · rw [hreturned, hwrapper, ← h.replaced]
    omega

theorem turn (h : s.Tallied) (ht : s.HasTurn now k c c' s') (hledger : s'.ledger = s.ledger)
    (hc : ∀ o, c.phase ≠ .counting o) : s'.Tallied := by
  refine h.of_ledger hledger (fun o ho ↦ ?_) ?_
  · have hset := returned_set ht.caller ht.callers o
    obtain ⟨hbefore, hafter⟩ := returned_of_turn ht.turn hc ho
    simpa [hbefore, hafter] using hset
  · have hgeneration := generation_of_turn ht.turn
    have hreturned := returned_set ht.caller ht.callers .refreshed
    have huncounted := uncounted_set ht.caller ht.callers
    have hbefore := h.replaced
    simp only [core] at hgeneration
    omega

theorem step (h : s.Tallied) (hs : s.step now e = some s') : s'.Tallied := by
  rcases counting_cases hs with ⟨k, c, o, hc, hphase, rfl⟩ | ⟨hledger, hcounting⟩
  · exact h.count hc hphase rfl rfl rfl rfl
  rcases step_cases hs with ⟨hcallers, hcore⟩ | ⟨c, hcallers, hcore, hc⟩ | ⟨k, c, c', ht⟩
  · have hwrapper : s'.wrapper = s.wrapper := congrArg RefreshCore.wrapper hcore
    refine h.of_ledger hledger (fun o _ ↦ by rw [returned, returned, hcallers]) ?_
    rw [returned, uncounted, hcallers, hwrapper]
    exact h.replaced
  · have hwrapper : s'.wrapper = s.wrapper := congrArg RefreshCore.wrapper hcore
    have hreturned (o : RefreshOutcome) : s'.returned o = s.returned o := by
      rw [returned, returned, hcallers]
      rcases hc.phase with ⟨_, hphase⟩ | ⟨_, hphase⟩ | hphase <;>
        simp [hphase, CallerPhase.returned?]
    have huncounted : s'.uncounted = s.uncounted := by
      rw [uncounted, uncounted, hcallers]
      rcases hc.phase with ⟨_, hphase⟩ | ⟨_, hphase⟩ | hphase <;>
        simp [hphase, CallerPhase.isUncounted]
    refine h.of_ledger hledger (fun o _ ↦ hreturned o) ?_
    rw [hreturned, huncounted, hwrapper]
    exact h.replaced
  · refine h.turn ht hledger fun o hphase ↦ ?_
    -- A caller that is about to count has no other turn than to count.
    have hsame := hcounting k c o ht.caller hphase
    rw [ht.callers, List.getElem?_set_self (List.getElem?_eq_some_iff.1 ht.caller).1] at hsame
    cases hsame
    have hdone := ended_of_turn ht.turn (.inl hphase)
    rw [hphase] at hdone
    cases hdone

theorem run {x y : Time × LiveRefreshable γ ε} {events : List (Event γ ε)}
    (run : Run x events y) (h : x.2.Tallied) : y.2.Tallied := by
  induction run with
  | refl => exact h
  | wait _ _ ih => exact ih
  | event _ e hs ih => exact ih.step hs

end Tallied

theorem tallied_new {factory : Factory ε} {policy : RefreshPolicy} {runtime : Bool}
    {connected : Except ε γ} (hnew : new factory policy runtime connected = .ok s) :
    s.Tallied := by
  obtain ⟨client, -, rfl⟩ := new_eq_ok hnew
  exact ⟨fun o ↦ by cases o <;> rfl, rfl⟩

/-- A refresh is connecting when a call from inside asks for another one. -/
def nestedRefresh : List (Time × Event Nat String) :=
  [(0, .call none .refresh), (0, .act 0), (0, .act 0), (0, .act 0), (0, .act 0), (0, .act 0),
    (0, .call (some 0) .refresh), (0, .act 1), (5, .connected 0 (.ok 1)), (0, .act 0), (0, .act 0),
    (0, .act 0), (0, .act 0), (0, .act 0)]

/-- The call from inside gets its outcome, and no counter has heard of it. -/
theorem refusal_under_no_counter :
    ∃ s₀ s : LiveRefreshable Nat String,
      new ⟨"fake", fun _ ↦ true⟩ ⟨10, 60⟩ true (.ok 0) = .ok s₀ ∧
      play (0, s₀) nestedRefresh = some (5, s) ∧
      ¬(∀ o, s.counted o = s.returned o) ∧
      s.counted .refreshed + s.counted .inProgress + s.counted .cooldown + s.counted .failed ≠
        s.answered := by
  refine ⟨_, _, rfl, rfl, fun h ↦ ?_, by decide⟩
  have hrefusals := h .inProgress
  revert hrefusals
  decide

/-- What the counters of a wrapper say. The one of an outcome stands at the number of refreshes that
have returned it, with the exception of refusals: these are under no counter, so that the sum falls
short of all refreshes by them. The replacements on the counter are those of the generation, apart
from the ones whose refresh has still to count. -/
theorem counters_leave_out_refusals {factory : Factory ε} {policy : RefreshPolicy}
    {runtime : Bool} {connected : Except ε γ} {start : Time} {events : List (Event γ ε)}
    {s₀ : LiveRefreshable γ ε} (hnew : new factory policy runtime connected = .ok s₀)
    (run : Run (start, s₀) events (now, s)) :
    (∀ o, s.counted o = if o = .inProgress then 0 else s.returned o) ∧
    s.counted .refreshed + s.counted .inProgress + s.counted .cooldown + s.counted .failed +
      s.returned .inProgress = s.answered ∧
    s.counted .refreshed + s.uncounted = s.wrapper.generation ∧
    ((∀ c ∈ s.callers, c.phase.isRefreshing = false) →
      s.counted .refreshed = s.wrapper.generation) := by
  have h : s.Tallied := Tallied.run run (tallied_new hnew)
  have hrefreshed : s.counted .refreshed = s.returned .refreshed := h.counted .refreshed
  refine ⟨h.counted, ?_, ?_, fun hquiet ↦ ?_⟩
  · rw [hrefreshed, h.counted, h.counted, h.counted, answered_eq]
    simp only [if_true, reduceCtorEq, if_false]
    omega
  · rw [hrefreshed]
    exact h.replaced
  · have hnone : s.uncounted = 0 :=
      List.countP_eq_zero.2 fun c hc ↦ by simp [CallerPhase.not_isUncounted (hquiet c hc)]
    rw [hrefreshed, ← h.replaced, hnone, Nat.add_zero]

/-- Before the first refresh has counted, its replacement is in the generation only. -/
theorem replacement_on_its_way_to_counter :
    ∃ s₀ s : LiveRefreshable Nat String,
      new ⟨"fake", fun _ ↦ true⟩ ⟨10, 60⟩ true (.ok 0) = .ok s₀ ∧
      play (0, s₀) (nestedRefresh.take 12) = some (5, s) ∧
      s.wrapper.generation = 1 ∧ s.returned .inProgress = 1 ∧ s.uncounted = 1 ∧
      s.counted .refreshed = 0 ∧ s.counted .inProgress = 0 ∧
      s.counted .cooldown + s.counted .failed + 1 = s.answered := by
  obtain ⟨s₀, s, hnew, hplay, hgeneration, hrefused, huncounted⟩ :
      ∃ s₀ s : LiveRefreshable Nat String,
        new ⟨"fake", fun _ ↦ true⟩ ⟨10, 60⟩ true (.ok 0) = .ok s₀ ∧
        play (0, s₀) (nestedRefresh.take 12) = some (5, s) ∧
        s.wrapper.generation = 1 ∧ s.returned .inProgress = 1 ∧ s.uncounted = 1 :=
    ⟨_, _, rfl, rfl, rfl, rfl, rfl⟩
  obtain ⟨hcounted, hsum, hbalance, -⟩ := counters_leave_out_refusals hnew (run_of_play hplay)
  have hrefusals : s.counted .inProgress = 0 := hcounted .inProgress
  have hrefreshed : s.counted .refreshed = 0 := by omega
  refine ⟨s₀, s, hnew, hplay, hgeneration, hrefused, huncounted, hrefreshed, hrefusals, ?_⟩
  omega

end LiveRefreshable

end Outbound
