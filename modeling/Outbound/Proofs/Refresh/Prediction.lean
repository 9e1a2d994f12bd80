import Outbound.Proofs.Refresh.Outcomes

/-!
# The state of a wrapper tells its history and its future

Outside a refresh, the replacements and the current instance are those of the successful connects.
The state foretells what a refresh comes to at that moment, also from inside a connecting.
-/

namespace Outbound

variable {γ ε : Type}

/-- What a refresh comes to at a moment when that is the state. -/
def RefreshState.Foretells (state : RefreshState) (outcome : RefreshOutcome) : Prop :=
  (state = .refreshInProgress ↔ outcome = .inProgress) ∧
    (state = .cooldown ↔ outcome = .cooldown) ∧
      (state = .healthy ↔ outcome = .refreshed ∨ outcome = .failed)

namespace Refreshable

variable {w left : Refreshable Nat} {since now : Time} {outcome : RefreshOutcome}

theorem state_foretells {ε : Type} (w : Refreshable Nat) (now : Time) (connected : Except ε Nat) :
    (w.state now).Foretells (w.refresh now connected).outcome := by
  cases hfree : w.busy with
  | true => simp [RefreshState.Foretells, state, hfree, refresh, begin?_of_busy hfree]
  | false =>
    have hacquire := acquire_of_not_busy hfree
    cases hrested : w.rested now with
    | false =>
      simp [RefreshState.Foretells, state, hfree, hrested, refresh,
        begin?_of_cooling hacquire hrested]
    | true =>
      cases connected <;>
        simp [RefreshState.Foretells, state, hfree, hrested, refresh,
          begin?_of_rested hacquire hrested, finish]

theorem ComesTo.foretold (h : w.ComesTo now now outcome left) :
    (w.state now).Foretells outcome := by
  obtain ⟨t, hsince, hnow, connected, -, rfl, -⟩ := h
  cases Nat.le_antisymm hsince hnow
  exact state_foretells w _ connected

/-- What stays as it was if nothing was replaced. -/
theorem ComesTo.unchanged (h : w.ComesTo since now outcome left) :
    (outcome ≠ .refreshed → left.current = w.current ∧ left.generation = w.generation) ∧
      (outcome = .cooldown ∨ outcome = .inProgress → left.lastAttempt = w.lastAttempt) := by
  rcases h.cases with ⟨rfl, -, rfl⟩ | ⟨rfl, -, rfl, -⟩ | ⟨-, t, -, -, -, ⟨rfl, rfl⟩ | ⟨rfl, rfl⟩⟩
  · exact ⟨fun _ ↦ ⟨rfl, rfl⟩, fun _ ↦ rfl⟩
  · exact ⟨fun _ ↦ ⟨rfl, rfl⟩, fun _ ↦ rfl⟩
  · exact ⟨fun _ ↦ ⟨rfl, rfl⟩, fun h ↦ by simp at h⟩
  · exact ⟨fun h ↦ absurd rfl h, fun h ↦ by simp at h⟩

end Refreshable

namespace LiveRefreshable

variable {policy : RefreshPolicy} {start now later : Time} {s s' : LiveRefreshable γ ε}
  {k : Nat} {c c' : RefreshCaller γ ε} {since : Time} {found : Refreshable Nat}
  {e : Event γ ε} {events : List (Event γ ε)} {y : Time × LiveRefreshable γ ε}

theorem Sound.history (h : Sound policy now s.callers s.core) (hfree : s.wrapper.busy = false) :
    s.wrapper.generation + 1 = (s.connects.filterMap Except.toOption).length ∧
      s.instances[s.wrapper.current]? = (s.connects.filterMap Except.toOption).getLast? := by
  have hbalanced := (h.free hfree).balanced
  have hclients : s.connects.filterMap Except.toOption = s.instances :=
    hbalanced.clients.trans (List.append_nil _)
  have hcounted : s.wrapper.current = s.wrapper.generation := hbalanced.counted
  have hnumbered : s.instances.length = s.wrapper.current + 1 := h.consistent.numbered
  rw [hclients, hnumbered, hcounted]
  refine ⟨rfl, ?_⟩
  rw [List.getLast?_eq_getElem?, hnumbered, hcounted, Nat.add_sub_cancel]

/-- While a caller connects, the instance that it will replace is current. -/
theorem current_of_connecting (h : Sound policy now s.callers s.core)
    (hc : s.callers[k]? = some c) (hphase : c.phase = .holding since found .connecting) :
    s.wrapper.busy = true ∧ s.wrapper.current = found.current := by
  have htaken := h.taken hc hphase
  obtain ⟨t, -, -, hbegin⟩ := htaken.made
  obtain ⟨-, -, hw⟩ := Refreshable.begin?_eq_ok hbegin
  refine ⟨htaken.busy, ?_⟩
  change s.core.wrapper.current = found.current
  rw [hw]
  rfl

theorem old_of_swapped (h : Sound policy later s.callers s.core)
    (hpursues : Pursues k since found s.callers s.core) (hc : s.callers[k]? = some c)
    {since' : Time} {found' : Refreshable Nat} {old : Nat}
    (hphase : c.phase = .holding since' found' (.swapped old)) : old = found.current := by
  obtain ⟨d, hd, hpursued⟩ := hpursues
  cases hc.symm.trans hd
  rcases hpursued with ⟨phase, hholding⟩ | ⟨r, -, -, -, -, hended | hended⟩
  · cases hphase.symm.trans hholding
    obtain ⟨held, ⟨t, -, -, hbegin⟩, rfl, -⟩ := (h.taken hc hphase).made
    obtain ⟨-, -, rfl⟩ := Refreshable.begin?_eq_ok hbegin
    rfl
  · cases hphase.symm.trans hended
  · cases hphase.symm.trans hended

theorem refused_of_busy (hc : s.callers[k]? = some c) (hphase : c.phase = .asking)
    (hbusy : s.wrapper.busy = true) :
    ∃ s', s.step now (.act k) = some s' ∧ s'.wrapper = s.wrapper ∧
      ∃ c', s'.callers[k]? = some c' ∧ c'.phase = .done (some .inProgress) := by
  have hacquire : s.wrapper.acquire = none := (Refreshable.acquire_eq_none_iff _).2 hbusy
  simp only [step_act hc, act, hphase, hacquire]
  exact ⟨_, rfl, rfl, _, List.getElem?_set_self (List.getElem?_eq_some_iff.1 hc).1, rfl⟩

/-- Outside a refresh, the wrapper has the client of the last successful connect and counts all of
them but the first. A refresh that does not replace leaves the instance and the count, and one that
does not connect leaves the time of the last attempt. The state foretells what a refresh at the
same moment comes to. From inside a connecting, a refresh is running, another one is turned away,
and the instance to be replaced is current. -/
theorem state_tells_history_and_outcome {factory : Factory ε} {runtime : Bool}
    {connected : Except ε γ} {s₀ : LiveRefreshable γ ε}
    (hnew : new factory policy runtime connected = .ok s₀)
    (run : Run (start, s₀) events (now, s)) :
    (s.wrapper.busy = false →
      s.wrapper.generation + 1 = (s.connects.filterMap Except.toOption).length ∧
        s.instances[s.wrapper.current]? = (s.connects.filterMap Except.toOption).getLast?) ∧
    (∀ r ∈ s.refreshes,
      (r.outcome ≠ .refreshed →
        r.left.current = r.found.current ∧ r.left.generation = r.found.generation) ∧
      (r.outcome = .cooldown ∨ r.outcome = .inProgress →
        r.left.lastAttempt = r.found.lastAttempt) ∧
      ∃ s₁ s₂ events₁ events₂ events₃, Run (start, s₀) events₁ (r.began, s₁) ∧
        Run (r.began, s₁) events₂ (r.ended, s₂) ∧ Run (r.ended, s₂) events₃ (now, s) ∧
          s₁.wrapper = r.found ∧ s₂.wrapper = r.left) ∧
    (∀ (k : Nat) (c : RefreshCaller γ ε), s.callers[k]? = some c → c.phase = .asking →
      (∀ result : Except ε γ, ∃ events' s', Run (now, s) events' (now, s') ∧
        (∀ e ∈ events', e.isTurnOf k = true) ∧
        (∃ c' outcome, s'.callers[k]? = some c' ∧ c'.phase = .done (some outcome) ∧
          (s.wrapper.state now).Foretells outcome) ∧
        (s.wrapper.state now = .healthy →
          s'.connects = s.connects ++ [result] ∧ s'.attempts = s.attempts ++ [now]) ∧
        (s.wrapper.state now ≠ .healthy →
          s'.connects = s.connects ∧ s'.attempts = s.attempts)) ∧
      ∀ s₁ events' s₂ c₂ outcome, s.step now (.act k) = some s₁ → Run (now, s₁) events' (now, s₂) →
        s₂.callers[k]? = some c₂ → c₂.phase = .done (some outcome) →
          (s.wrapper.state now).Foretells outcome) ∧
    (∀ (k : Nat) (c : RefreshCaller γ ε) (since : Time) (found : Refreshable Nat),
      s.callers[k]? = some c → c.phase = .holding since found .connecting →
      (∀ t, s.wrapper.state t = .refreshInProgress) ∧
      (∀ (j : Nat) (d : RefreshCaller γ ε), s.callers[j]? = some d → d.phase = .asking →
        ∃ s', s.step now (.act j) = some s' ∧ s'.wrapper = s.wrapper ∧
          ∃ d', s'.callers[j]? = some d' ∧ d'.phase = .done (some .inProgress)) ∧
      ∀ events' later s₂ c₂ since' found' old, Run (now, s) events' (later, s₂) →
        s₂.callers[k]? = some c₂ → c₂.phase = .holding since' found' (.swapped old) →
          old = s.wrapper.current) ∧
    ∀ (j k : Nat) (d : RefreshCaller γ ε), s.callers[j]? = some d → d.inside = some k →
      d.phase.isDone = false → s.isConnecting k = true := by
  have hsound : Sound policy now s.callers s.core := (sound_new hnew start).run run
  have horderly : Orderly s.callers s.core := orderly_of_run hnew run
  refine ⟨hsound.history, fun r hr ↦ ?_, fun k c hc hphase ↦ ⟨fun result ↦ ?_, ?_⟩,
    fun k c since found hc hphase ↦ ⟨fun t ↦ ?_, fun j d hd hdphase ↦ ?_, ?_⟩, ?_⟩
  · obtain ⟨hkept, hattempt⟩ := (hsound.consistent.atomic r hr).1.unchanged
    exact ⟨hkept, hattempt, (traced_of_run hnew run).record r hr⟩
  · have hunattended : s.Unattended k := horderly.unattended hc (by rw [hphase]; rfl)
    obtain ⟨events', s', run', hevents, ⟨c', hc', hdone⟩, -, hhealthy, hother⟩ :=
      refresh_alone hc hphase hunattended result
    exact ⟨events', s', run', hevents,
      ⟨c', _, hc', hdone, Refreshable.state_foretells s.wrapper now _⟩, hhealthy, hother⟩
  · intro s₁ events' s₂ c₂ outcome hs₁ run' hc₂ hdone
    have hpursues := (pursues_of_asking hc hphase hs₁).run run'
    obtain ⟨left, hcomes⟩ := hpursues.comesTo (Sound.run run' (hsound.step hs₁)) hc₂ hdone
    exact hcomes.foretold
  · exact (Refreshable.state_eq_refreshInProgress_iff _ _).2
      (current_of_connecting hsound hc hphase).1
  · exact refused_of_busy hd hdphase (current_of_connecting hsound hc hphase).1
  · intro events' later s₂ c₂ since' found' old run' hc₂ hswapped
    rw [(current_of_connecting hsound hc hphase).2]
    have hpursues : Pursues k since found s.callers s.core := ⟨c, hc, .inl ⟨_, hphase⟩⟩
    exact old_of_swapped (Sound.run run' hsound) (hpursues.run run') hc₂ hswapped
  · intro j k d hd hinside hdone
    obtain ⟨b, hb, hconnecting⟩ := horderly.inside j d k hd hinside hdone
    exact (Option.any_eq_true _ _).2 ⟨b, hb, hconnecting⟩

/-- A first refresh fails, and a second one is connecting, when a call from inside asks. -/
theorem nested_refresh_in_progress :
    ∃ s₀ s : LiveRefreshable Nat String,
      new ⟨"fake", fun _ ↦ true⟩ ⟨10, 60⟩ true (.ok 7) = .ok s₀ ∧
      Run (0, s₀) [.call none .refresh, .act 0, .act 0, .act 0, .act 0, .act 0,
        .connected 0 (.error "down"), .act 0, .act 0, .call none (.observe "refused"), .act 1,
        .act 1, .act 1, .act 1, .act 1, .act 1, .call (some 1) .refresh] (10, s) ∧
      s.wrapper.state 10 = .refreshInProgress ∧ s.refreshes.length = 1 ∧
      (∃ s', s.step 10 (.act 2) = some s' ∧ s'.wrapper = s.wrapper ∧
        ∃ d', s'.callers[2]? = some d' ∧ d'.phase = .done (some .inProgress)) ∧
      ∀ r ∈ s.refreshes, r.outcome ≠ .refreshed →
        r.left.current = r.found.current ∧ r.left.generation = r.found.generation := by
  obtain ⟨s₀, hnew, s, hplay, ⟨c, since, found, hc, hphase⟩, ⟨d, hd, hdphase⟩, hlength⟩ :
      ∃ s₀ : LiveRefreshable Nat String,
        new ⟨"fake", fun _ ↦ true⟩ ⟨10, 60⟩ true (.ok 7) = .ok s₀ ∧
        ∃ s, play (0, s₀) [(0, .call none .refresh), (0, .act 0), (0, .act 0), (0, .act 0),
          (0, .act 0), (0, .act 0), (0, .connected 0 (.error "down")), (0, .act 0), (0, .act 0),
          (10, .call none (.observe "refused")), (0, .act 1), (0, .act 1), (0, .act 1), (0, .act 1),
          (0, .act 1), (0, .act 1), (0, .call (some 1) .refresh)] = some (10, s) ∧
        (∃ c since found, s.callers[1]? = some c ∧ c.phase = .holding since found .connecting) ∧
        (∃ d, s.callers[2]? = some d ∧ d.phase = .asking) ∧ s.refreshes.length = 1 :=
    ⟨_, rfl, _, rfl, ⟨_, _, _, rfl, rfl⟩, ⟨_, rfl, rfl⟩, rfl⟩
  have run := run_of_play hplay
  obtain ⟨-, hrecords, -, hconnecting, -⟩ := state_tells_history_and_outcome hnew run
  obtain ⟨hstate, hrefused, -⟩ := hconnecting 1 c since found hc hphase
  exact ⟨s₀, s, hnew, run, hstate 10, hlength, hrefused 2 d hd hdphase,
    fun r hr ↦ (hrecords r hr).1⟩

end LiveRefreshable

end Outbound
