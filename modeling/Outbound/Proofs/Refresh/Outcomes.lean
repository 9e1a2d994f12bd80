import Outbound.Proofs.Refresh.Callers

/-!
# What a refresh comes to

A caller that asks for a refresh comes to what an uninterrupted refresh of the wrapper comes to, as
it was when the caller asked. If nobody else does anything, the outcome follows from the moment.
The records of refreshes tell what the wrapper was when a refresh began and when it ended.
-/

namespace Outbound

variable {γ ε : Type}

namespace LiveRefreshable

variable {policy : RefreshPolicy} {start now later : Time} {s s' : LiveRefreshable γ ε}
  {callers : List (RefreshCaller γ ε)} {i i' : RefreshCore γ ε} {k : Nat}
  {c c' : RefreshCaller γ ε} {since : Time} {found : Refreshable Nat}
  {phase phase' : HolderPhase γ} {e : Event γ ε} {events : List (Event γ ε)}
  {x y z : Time × LiveRefreshable γ ε}

/-! ## With others in between -/

/-- The caller asked for a refresh at that time, when the wrapper was in that state, and is on its
way or has come to the end of it. -/
def Pursues (k : Nat) (since : Time) (found : Refreshable Nat)
    (callers : List (RefreshCaller γ ε)) (i : RefreshCore γ ε) : Prop :=
  ∃ c, callers[k]? = some c ∧
    ((∃ phase, c.phase = .holding since found phase) ∨
      ∃ r ∈ i.refreshes, r.caller = k ∧ r.began = since ∧ r.found = found ∧
        (c.phase = .counting r.outcome ∨ c.phase = .done (some r.outcome)))

theorem pursues_of_asking (hc : s.callers[k]? = some c) (hphase : c.phase = .asking)
    (hs : s.step now (.act k) = some s') : Pursues k now s.wrapper s'.callers s'.core := by
  obtain ⟨d, hd, hact⟩ := Option.bind_eq_some_iff.1 hs
  cases hc.symm.trans hd
  obtain ⟨-, p', hcallers, hturn⟩ := turn_of_act hact
  have hself : s'.callers[k]? = some { c with phase := p' } := by
    rw [hcallers, List.getElem?_set_self (List.getElem?_eq_some_iff.1 hc).1]
  refine ⟨_, hself, ?_⟩
  rw [hphase] at hturn
  generalize hcore : s'.core = i' at hturn ⊢
  cases hturn with
  | aside before => rcases before with ⟨_, h⟩ | ⟨_, h⟩ <;> cases h
  | refuse busy =>
    exact .inr ⟨_, List.mem_append_right _ (List.mem_singleton_self _), rfl, rfl, rfl, .inr rfl⟩
  | acquire free => exact .inl ⟨.acquired, rfl⟩

theorem Pursues.turn (h : Pursues k since found s.callers s.core) {j : Nat}
    (ht : s.HasTurn now j c c' s') : Pursues k since found s'.callers s'.core := by
  obtain ⟨d, hd, hphase⟩ := h
  have hmono {r : RefreshRecord} (hr : r ∈ s.core.refreshes) : r ∈ s'.core.refreshes := by
    rcases refreshes_of_turn ht.turn with heq | ⟨r', heq, -⟩
    · rw [heq]
      exact hr
    · rw [heq]
      exact List.mem_append_left _ hr
  by_cases hjk : j = k
  · subst hjk
    cases ht.caller.symm.trans hd
    refine ⟨c', by rw [ht.callers, List.getElem?_set_self (List.getElem?_eq_some_iff.1 hd).1], ?_⟩
    rcases hphase with ⟨phase, hphase⟩ | ⟨r, hr, hk, hbegan, hfound, hphase⟩
    · have hturn := ht.turn
      rw [hphase] at hturn
      generalize c'.phase = p' at hturn ⊢
      generalize s'.core = i' at hturn ⊢
      cases hturn with
      | aside before => rcases before with ⟨_, h⟩ | ⟨_, h⟩ <;> cases h
      | proceed turn => exact .inl ⟨_, rfl⟩
      | release outcome =>
        exact .inr ⟨_, List.mem_append_right _ (List.mem_singleton_self _), rfl, rfl, rfl, .inl rfl⟩
    · exact .inr ⟨r, hmono hr, hk, hbegan, hfound, .inr (ended_of_turn ht.turn hphase)⟩
  · refine ⟨d, by rw [ht.callers, List.getElem?_set_ne hjk, hd], ?_⟩
    rcases hphase with hphase | ⟨r, hr, hrest⟩
    · exact .inl hphase
    · exact .inr ⟨r, hmono hr, hrest⟩

theorem Pursues.step (h : Pursues k since found s.callers s.core)
    (hs : s.step now e = some s') : Pursues k since found s'.callers s'.core := by
  rcases step_cases hs with ⟨hcallers, hcore⟩ | ⟨c, hcallers, hcore, -⟩ | ⟨j, c, c', hturn⟩
  · rw [hcallers, hcore]
    exact h
  · rw [hcallers, hcore]
    obtain ⟨d, hd, hrest⟩ := h
    exact ⟨d, getElem?_append_of_some hd _, hrest⟩
  · exact h.turn hturn

theorem Pursues.run (run : Run x events y) (h : Pursues k since found x.2.callers x.2.core) :
    Pursues k since found y.2.callers y.2.core := by
  induction run with
  | refl => exact h
  | wait _ _ ih => exact ih
  | event _ e hs ih => exact ih.step hs

/-- Whatever others do, the caller comes to what an uninterrupted refresh comes to. -/
theorem Pursues.comesTo (h : Pursues k since found callers i) (hs : Sound policy now callers i)
    (hc : callers[k]? = some c) {outcome : RefreshOutcome}
    (hphase : c.phase = .done (some outcome)) :
    ∃ left, found.ComesTo since now outcome left := by
  obtain ⟨d, hd, hpursued⟩ := h
  cases hc.symm.trans hd
  rcases hpursued with ⟨phase, hholding⟩ | ⟨r, hr, -, rfl, rfl, hended⟩
  · cases hphase.symm.trans hholding
  · obtain ⟨hatomic, hle⟩ := hs.consistent.atomic r hr
    rw [hphase] at hended
    rcases hended with hended | hended
    · cases hended
    · cases hended
      exact ⟨r.left, Refreshable.ComesTo.mono hatomic hle⟩

/-! ## With nobody in between -/

/-- The events that are turns of that caller in a refresh. -/
def Event.isTurnOf (k : Nat) : Event γ ε → Bool
  | .act j => j = k
  | .connected j _ => j = k
  | _ => false

/-- Nobody is still at work that was called from inside the connecting of that caller. -/
def Unattended (s : LiveRefreshable γ ε) (k : Nat) : Prop :=
  ∀ d ∈ s.callers, d.inside = some k → d.phase.isDone = true

theorem Orderly.unattended (h : Orderly s.callers s.core) (hc : s.callers[k]? = some c)
    (hphase : c.phase.isConnecting = false) : s.Unattended k := by
  intro d hd hinside
  obtain ⟨j, hj⟩ := List.mem_iff_getElem?.1 hd
  cases hdone : d.phase.isDone with
  | true => rfl
  | false =>
    obtain ⟨b, hb, hconnecting⟩ := h.inside j d k hj hinside hdone
    cases hc.symm.trans hb
    rw [hphase] at hconnecting
    cases hconnecting

/-- The caller comes to that phase and makes that of the core at once, with nobody in between. -/
def Alone (now : Time) (s : LiveRefreshable γ ε) (k : Nat) (p : CallerPhase γ ε)
    (i : RefreshCore γ ε) : Prop :=
  ∃ events s', Run (now, s) events (now, s') ∧ (∀ e ∈ events, e.isTurnOf k = true) ∧
    s'.Unattended k ∧ s'.core = i ∧ ∃ c, s'.callers[k]? = some c ∧ c.phase = p

theorem Unattended.set (h : s.Unattended k) (hc : s.callers[k]? = some c)
    (hdone : c.phase.isDone = false) {p : CallerPhase γ ε}
    (hcallers : s'.callers = s.callers.set k { c with phase := p }) : s'.Unattended k := by
  intro d hd hinside
  rw [hcallers] at hd
  rcases List.mem_or_eq_of_mem_set hd with hd | rfl
  · exact h d hd hinside
  · rw [h c (List.mem_of_getElem? hc) hinside] at hdone
    cases hdone

theorem Alone.snoc {p p' : CallerPhase γ ε} (h : Alone now s k p i) (hdone : p.isDone = false)
    (e : Event γ ε) (he : e.isTurnOf k = true)
    (hnext : ∀ (s₁ : LiveRefreshable γ ε) (c : RefreshCaller γ ε), s₁.Unattended k → s₁.core = i →
      s₁.callers[k]? = some c → c.phase = p → ∃ s', s₁.step now e = some s' ∧
        s'.callers = s₁.callers.set k { c with phase := p' } ∧ s'.core = i') :
    Alone now s k p' i' := by
  obtain ⟨events, s₁, run, hevents, hunattended, hcore, c, hc, hphase⟩ := h
  obtain ⟨s', hs, hcallers, hcore'⟩ := hnext s₁ c hunattended hcore hc hphase
  refine ⟨events ++ [e], s', run.event e hs, ?_, hunattended.set hc (hphase ▸ hdone) hcallers,
    hcore', _, by rw [hcallers, List.getElem?_set_self (List.getElem?_eq_some_iff.1 hc).1], rfl⟩
  intro e' he'
  rcases List.mem_append.1 he' with he' | he'
  · exact hevents e' he'
  · rw [List.mem_singleton.1 he']
    exact he

theorem step_act (hc : s.callers[k]? = some c) : s.step now (.act k) = s.act now k c := by
  simp [step, hc]

/-- Each turn of a caller with the right to refresh is possible, apart from connecting. -/
theorem actHolding_of_turn (h : HolderTurn now phase s.core phase' i')
    (hne : (CallerPhase.holding since found phase : CallerPhase γ ε).isConnecting = false) :
    ∃ s', s.actHolding now k c since found phase = some s' ∧
      s'.callers = s.callers.set k { c with phase := .holding since found phase' } ∧
        s'.core = i' := by
  generalize hi : s.core = i at h
  cases h with
  | rest rested =>
    subst hi
    have hrested : s.wrapper.rested now = true := rested
    exact ⟨_, rfl, by rw [if_pos hrested]; rfl, rfl⟩
  | cool cooling =>
    subst hi
    have hcooling : ¬s.wrapper.rested now = true := by
      rw [show s.wrapper.rested now = false from cooling]
      decide
    exact ⟨_, rfl, by rw [if_neg hcooling]; rfl, rfl⟩
  | time => exact ⟨_, rfl, rfl, hi⟩
  | stamp time => subst hi; exact ⟨_, rfl, rfl, rfl⟩
  | connect => exact ⟨_, rfl, rfl, hi⟩
  | connected client => cases hne
  | failed failure => cases hne
  | swap client => subst hi; exact ⟨_, rfl, rfl, rfl⟩
  | count old => subst hi; exact ⟨_, rfl, rfl, rfl⟩
  | retire old => exact ⟨_, rfl, callers_retire _ _ _, (core_retire _ _ _).trans hi⟩

theorem Alone.proceed (h : Alone now s k (.holding since found phase) i)
    (ht : HolderTurn now phase i phase' i')
    (hne : (CallerPhase.holding since found phase : CallerPhase γ ε).isConnecting = false) :
    Alone now s k (.holding since found phase') i' := by
  refine h.snoc rfl (.act k) (decide_eq_true rfl) fun s₁ c _ hcore hc hphase ↦ ?_
  rw [step_act hc, act, hphase]
  exact actHolding_of_turn (hcore ▸ ht) hne

theorem Alone.connected (h : Alone now s k (.holding since found .connecting) i)
    (result : Except ε γ) (hphase' : phase' = match result with
      | .ok client => .connected client
      | .error _ => .leaving .failed) :
    Alone now s k (.holding since found phase') { i with connects := i.connects ++ [result] } := by
  subst hphase'
  refine h.snoc rfl (.connected k result) (decide_eq_true rfl)
    fun s₁ c hunattended hcore hc hphase ↦ ?_
  have hnested :
      (s₁.callers.any fun d ↦ decide (d.inside = some k) && !d.phase.isDone) = false := by
    refine List.any_eq_false.2 fun d hd ↦ ?_
    by_cases hinside : d.inside = some k
    · simp [hinside, hunattended d hd hinside]
    · simp [hinside]
  simp only [step, hc, Option.bind_eq_bind, Option.bind_some, hphase, hnested, Bool.false_eq_true,
    if_false]
  exact ⟨_, rfl, rfl, by rw [← hcore]; rfl⟩

theorem Alone.release {outcome : RefreshOutcome}
    (h : Alone now s k (.holding since found (.leaving outcome)) i) :
    Alone now s k (.done (some outcome))
      { i with
        wrapper := i.wrapper.release
        refreshes := i.refreshes ++ [⟨k, since, found, now, i.wrapper.release, outcome⟩] } := by
  have hcounting : Alone now s k (.counting outcome)
      { i with
        wrapper := i.wrapper.release
        refreshes := i.refreshes ++ [⟨k, since, found, now, i.wrapper.release, outcome⟩] } := by
    refine h.snoc rfl (.act k) (decide_eq_true rfl) fun s₁ c _ hcore hc hphase ↦ ?_
    rw [step_act hc, act, hphase]
    subst hcore
    exact ⟨_, rfl, rfl, rfl⟩
  refine hcounting.snoc rfl (.act k) (decide_eq_true rfl) fun s₁ c _ hcore hc hphase ↦ ?_
  rw [step_act hc, act, hphase]
  exact ⟨_, rfl, rfl, hcore⟩

theorem alone_of_asking (hc : s.callers[k]? = some c) (hphase : c.phase = .asking)
    (hunattended : s.Unattended k) : Alone now s k .asking s.core :=
  ⟨[], s, .refl, fun _ he ↦ (List.not_mem_nil he).elim, hunattended, rfl, c, hc, hphase⟩

/-- A caller that asks while another one refreshes is turned away. -/
theorem Alone.refused (h : Alone now s k .asking i) (hbusy : i.wrapper.busy = true) :
    Alone now s k (.done (some .inProgress))
      { i with
        refreshes := i.refreshes ++ [⟨k, now, i.wrapper, now, i.wrapper, .inProgress⟩] } := by
  refine h.snoc rfl (.act k) (decide_eq_true rfl) fun s₁ c _ hcore hc hphase ↦ ?_
  subst hcore
  have hacquire : s₁.wrapper.acquire = none := (Refreshable.acquire_eq_none_iff _).2 hbusy
  simp only [step_act hc, act, hphase, hacquire]
  exact ⟨_, rfl, rfl, rfl⟩

theorem Alone.acquired (h : Alone now s k .asking i) (hfree : i.wrapper.busy = false) :
    Alone now s k (.holding now i.wrapper .acquired)
      { i with wrapper := { i.wrapper with busy := true } } := by
  refine h.snoc rfl (.act k) (decide_eq_true rfl) fun s₁ c _ hcore hc hphase ↦ ?_
  subst hcore
  have hacquire : s₁.wrapper.acquire = some { s₁.wrapper with busy := true } :=
    Refreshable.acquire_of_not_busy hfree
  simp only [step_act hc, act, hphase, hacquire]
  exact ⟨_, rfl, rfl, rfl⟩

/-- A caller that asks when the wrapper is healthy gets to connecting. -/
theorem Alone.connecting (h : Alone now s k .asking i) (hfree : i.wrapper.busy = false)
    (hrested : i.wrapper.rested now = true) :
    Alone now s k (.holding now i.wrapper .connecting)
      { i with
        wrapper := ({ i.wrapper with busy := true } : Refreshable Nat).stamp now
        attempts := i.attempts ++ [now] } :=
  ((((h.acquired hfree).proceed (.rest hrested) rfl).proceed .time rfl).proceed
    (.stamp now) rfl).proceed .connect rfl

/-- If nobody comes in between, a caller comes to the outcome that the state of the wrapper
foretells, and it tries to connect just when the wrapper is healthy. -/
theorem refresh_alone (hc : s.callers[k]? = some c) (hphase : c.phase = .asking)
    (hunattended : s.Unattended k) (result : Except ε γ) :
    ∃ events s', Run (now, s) events (now, s') ∧ (∀ e ∈ events, e.isTurnOf k = true) ∧
      (∃ c', s'.callers[k]? = some c' ∧ c'.phase = .done (some
        (s.wrapper.refresh now (result.map fun _ ↦ s.instances.length)).outcome)) ∧
      s'.wrapper = (s.wrapper.refresh now (result.map fun _ ↦ s.instances.length)).wrapper ∧
      (s.wrapper.state now = .healthy →
        s'.connects = s.connects ++ [result] ∧ s'.attempts = s.attempts ++ [now]) ∧
      (s.wrapper.state now ≠ .healthy →
        s'.connects = s.connects ∧ s'.attempts = s.attempts) := by
  have hasking : Alone now s k .asking s.core := alone_of_asking hc hphase hunattended
  cases hfree : s.wrapper.busy with
  | true =>
    have hbegin : s.wrapper.begin? now = .error .inProgress := Refreshable.begin?_of_busy hfree
    have hstate : s.wrapper.state now ≠ .healthy := by simp [Refreshable.state, hfree]
    obtain ⟨events, s', run, hevents, -, hcore, hdone⟩ := hasking.refused hfree
    refine ⟨events, s', run, hevents, ?_, ?_, fun h ↦ absurd h hstate, fun _ ↦ ?_⟩
    · simpa [Refreshable.refresh, hbegin] using hdone
    · simpa [Refreshable.refresh, hbegin, core] using congrArg RefreshCore.wrapper hcore
    · exact ⟨congrArg RefreshCore.connects hcore, congrArg RefreshCore.attempts hcore⟩
  | false =>
    have hacquire := Refreshable.acquire_of_not_busy hfree
    cases hrested : s.wrapper.rested now with
    | false =>
      have hbegin := Refreshable.begin?_of_cooling hacquire hrested
      have hstate : s.wrapper.state now ≠ .healthy := by simp [Refreshable.state, hfree, hrested]
      obtain ⟨events, s', run, hevents, -, hcore, hdone⟩ :=
        ((hasking.acquired hfree).proceed (.cool hrested) rfl).release
      refine ⟨events, s', run, hevents, ?_, ?_, fun h ↦ absurd h hstate, fun _ ↦ ?_⟩
      · simpa [Refreshable.refresh, hbegin] using hdone
      · have hwrapper : s'.wrapper = { s.wrapper with busy := false } :=
          congrArg RefreshCore.wrapper hcore
        simp [Refreshable.refresh, hbegin, hwrapper, ← hfree]
      · exact ⟨congrArg RefreshCore.connects hcore, congrArg RefreshCore.attempts hcore⟩
    | true =>
      have hbegin := Refreshable.begin?_of_rested hacquire hrested
      have hstate : s.wrapper.state now = .healthy := by simp [Refreshable.state, hfree, hrested]
      have hconnecting := hasking.connecting hfree hrested
      cases result with
      | error failure =>
        obtain ⟨events, s', run, hevents, -, hcore, hdone⟩ :=
          (hconnecting.connected (.error failure) rfl).release
        refine ⟨events, s', run, hevents, ?_, ?_, fun _ ↦ ?_, fun h ↦ absurd hstate h⟩
        · simpa [Refreshable.refresh, hbegin, Refreshable.finish, Except.map] using hdone
        · simpa [Refreshable.refresh, hbegin, Refreshable.finish, Except.map, core] using
            congrArg RefreshCore.wrapper hcore
        · exact ⟨congrArg RefreshCore.connects hcore, congrArg RefreshCore.attempts hcore⟩
      | ok client =>
        obtain ⟨events, s', run, hevents, -, hcore, hdone⟩ :=
          ((((hconnecting.connected (.ok client) rfl).proceed (.swap client) rfl).proceed
            (.count _) rfl).proceed (.retire _) rfl).release
        refine ⟨events, s', run, hevents, ?_, ?_, fun _ ↦ ?_, fun h ↦ absurd hstate h⟩
        · simpa [Refreshable.refresh, hbegin, Refreshable.finish, Except.map,
            Refreshable.install_eq] using hdone
        · simpa [Refreshable.refresh, hbegin, Refreshable.finish, Except.map,
            Refreshable.install_eq, core] using congrArg RefreshCore.wrapper hcore
        · exact ⟨congrArg RefreshCore.connects hcore, congrArg RefreshCore.attempts hcore⟩

/-! ## Records and runs -/

/-- The states in a run at which the records of refreshes were taken. -/
structure Traced (x y : Time × LiveRefreshable γ ε) : Prop where
  holder : ∀ (j : Nat) (c : RefreshCaller γ ε) (since : Time) (found : Refreshable Nat)
    (phase : HolderPhase γ), y.2.callers[j]? = some c → c.phase = .holding since found phase →
      ∃ s₁ events₁ events₂, Run x events₁ (since, s₁) ∧ Run (since, s₁) events₂ y ∧
        s₁.wrapper = found
  record : ∀ r ∈ y.2.refreshes, ∃ s₁ s₂ events₁ events₂ events₃, Run x events₁ (r.began, s₁) ∧
    Run (r.began, s₁) events₂ (r.ended, s₂) ∧ Run (r.ended, s₂) events₃ y ∧
      s₁.wrapper = r.found ∧ s₂.wrapper = r.left

theorem Traced.wait (h : Traced x (now, s)) (hle : now ≤ later) : Traced x (later, s) := by
  refine ⟨fun j c since found phase hc hphase ↦ ?_, fun r hr ↦ ?_⟩
  · obtain ⟨s₁, es₁, es₂, run₁, run₂, hfound⟩ := h.holder j c since found phase hc hphase
    exact ⟨s₁, es₁, es₂, run₁, run₂.wait hle, hfound⟩
  · obtain ⟨s₁, s₂, es₁, es₂, es₃, run₁, run₂, run₃, hfound, hleft⟩ := h.record r hr
    exact ⟨s₁, s₂, es₁, es₂, es₃, run₁, run₂, run₃.wait hle, hfound, hleft⟩

theorem Traced.event (h : Traced x (now, s)) (run : Run x events (now, s))
    (hs : s.step now e = some s') : Traced x (now, s') := by
  have hone : Run (now, s) [e] (now, s') := Run.refl.event e hs
  have hholder {j : Nat} {c : RefreshCaller γ ε} {since : Time} {found : Refreshable Nat}
      {phase : HolderPhase γ} (hc : s.callers[j]? = some c)
      (hphase : c.phase = .holding since found phase) : ∃ s₁ events₁ events₂,
        Run x events₁ (since, s₁) ∧ Run (since, s₁) events₂ (now, s') ∧ s₁.wrapper = found := by
    obtain ⟨s₁, es₁, es₂, run₁, run₂, hfound⟩ := h.holder j c since found phase hc hphase
    exact ⟨s₁, es₁, _, run₁, run₂.trans hone, hfound⟩
  have hrecord {r : RefreshRecord} (hr : r ∈ s.core.refreshes) :
      ∃ s₁ s₂ events₁ events₂ events₃, Run x events₁ (r.began, s₁) ∧
        Run (r.began, s₁) events₂ (r.ended, s₂) ∧ Run (r.ended, s₂) events₃ (now, s') ∧
          s₁.wrapper = r.found ∧ s₂.wrapper = r.left := by
    obtain ⟨s₁, s₂, es₁, es₂, es₃, run₁, run₂, run₃, hfound, hleft⟩ := h.record r hr
    exact ⟨s₁, s₂, es₁, es₂, _, run₁, run₂, run₃.trans hone, hfound, hleft⟩
  rcases step_cases hs with ⟨hcallers, hcore⟩ | ⟨d, hcallers, hcore, hd⟩ | ⟨k, d, d', ht⟩
  · refine ⟨fun j c since found phase hc hphase ↦ hholder (hcallers ▸ hc) hphase, fun r hr ↦ ?_⟩
    exact hrecord (hcore ▸ show r ∈ s'.core.refreshes from hr)
  · refine ⟨fun j c since found phase hc hphase ↦ ?_, fun r hr ↦ ?_⟩
    · rw [hcallers] at hc
      rcases getElem?_concat_cases hc with ⟨-, rfl⟩ | hc
      · have hnot := hd.not_holding
        rw [hphase] at hnot
        cases hnot
      · exact hholder hc hphase
    · exact hrecord (hcore ▸ show r ∈ s'.core.refreshes from hr)
  · refine ⟨fun j c since found phase hc hphase ↦ ?_, fun r hr ↦ ?_⟩
    · rw [ht.callers] at hc
      rcases getElem?_set_cases hc with ⟨rfl, rfl⟩ | ⟨-, hc⟩
      · rcases holding_of_turn ht.turn hphase with ⟨phase', hold⟩ | ⟨-, rfl, rfl, -⟩
        · exact hholder ht.caller hold
        · exact ⟨s, events, [e], run, hone, rfl⟩
      · exact hholder hc hphase
    · have hr' : r ∈ s'.core.refreshes := hr
      rcases refreshes_of_turn ht.turn with heq | ⟨r', heq, -, hended, hleft, hbegan⟩
      · rw [heq] at hr'
        exact hrecord hr'
      · rw [heq] at hr'
        rcases List.mem_append.1 hr' with hr' | hr'
        · exact hrecord hr'
        · cases List.mem_singleton.1 hr'
          rcases hbegan with ⟨-, -, hbegan, hfound⟩ | ⟨phase, hphase, -⟩
          · exact ⟨s, s', events, [e], [], hbegan ▸ run, hbegan ▸ hended ▸ hone, hended ▸ .refl,
              hfound.symm, hleft.symm⟩
          · obtain ⟨s₁, es₁, es₂, run₁, run₂, hfound⟩ := h.holder k d _ _ phase ht.caller hphase
            exact ⟨s₁, s', es₁, es₂ ++ [e], [], run₁, hended ▸ run₂.trans hone, hended ▸ .refl,
              hfound, hleft.symm⟩

theorem traced_of_run {factory : Factory ε} {runtime : Bool} {connected : Except ε γ}
    {s₀ : LiveRefreshable γ ε} (hnew : new factory policy runtime connected = .ok s₀)
    (run : Run (start, s₀) events y) : Traced (start, s₀) y := by
  induction run with
  | refl =>
    obtain ⟨client, -, rfl⟩ := new_eq_ok hnew
    exact ⟨fun j c since found phase hc ↦ by simp at hc, fun r hr ↦ (List.not_mem_nil hr).elim⟩
  | wait _ hle ih => exact ih.wait hle
  | event run e hs ih => exact ih.event run hs

end LiveRefreshable

end Outbound
