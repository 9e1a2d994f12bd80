import Outbound.Proofs.Refresh.Prediction

/-!
# Which instance a failed operation replaces

A caller does not remember on which instance its operation ran. Its refresh replaces the instance
that is current when the caller takes the right to refresh. What keeps late failures of one outage
from replacing again is the cooldown alone.
-/

namespace Outbound

variable {γ ε : Type}

namespace LiveRefreshable

variable {policy : RefreshPolicy} {start now later : Time} {s s' : LiveRefreshable γ ε}
  {k : Nat} {c c' : RefreshCaller γ ε} {events : List (Event γ ε)}

/-- Each refresh that came of an operation has replaced the instance on which the operation ran. -/
def ReplacesOwnInstance (s : LiveRefreshable γ ε) : Prop :=
  ∀ r ∈ s.refreshes, r.outcome = .refreshed →
    ∀ c n, s.callers[r.caller]? = some c → c.ranOn = some n → r.found.current = n

/-- Two operations run on the first instance. One fails at once, the other one after the cooldown,
and either refreshes. -/
def lateFailure : List (Time × Event Nat String) :=
  [(0, .call none .execute), (0, .call none .execute),
    (0, .finish 1 (some "connection refused")), (0, .act 1), (0, .act 1), (0, .act 1), (0, .act 1),
    (0, .act 1), (0, .act 1), (0, .connected 1 (.ok 1)), (0, .act 1), (0, .act 1), (0, .act 1),
    (0, .act 1), (0, .act 1), (50, .finish 0 (some "connection refused")), (0, .act 0),
    (0, .act 0), (0, .act 0), (0, .act 0), (0, .act 0), (0, .act 0), (0, .connected 0 (.ok 2)),
    (0, .act 0), (0, .act 0), (0, .act 0), (0, .act 0), (0, .act 0)]

/-- The late failure replaces an instance that is healthy. -/
theorem late_failure_replaces_healthy_instance :
    ∃ s₀ s : LiveRefreshable Nat String,
      new ⟨"fake", fun failure ↦ failure == "connection refused"⟩ ⟨10, 1000⟩ true (.ok 0) = .ok s₀ ∧
      play (0, s₀) lateFailure = some (50, s) ∧ s.wrapper.current = 2 ∧
        ¬s.ReplacesOwnInstance := by
  refine ⟨_, _, rfl, rfl, rfl, fun h ↦ ?_⟩
  have hown := h ⟨0, 50, _, 50, _, .refreshed⟩ (List.mem_cons_of_mem _ List.mem_cons_self) rfl
    _ _ rfl rfl
  cases hown

theorem Sound.attempts_spaced (h : Sound policy now s.callers s.core) :
    s.refreshes.Pairwise fun r r' ↦
      ∀ t, r.attempt? = some t → ∀ t', r'.attempt? = some t' → t + policy.cooldown ≤ t' := by
  obtain ⟨pending, hattempts⟩ :
      ∃ pending, s.attempts = s.refreshes.filterMap RefreshRecord.attempt? ++ pending := by
    rcases h.right with hfree | ⟨_, _, _, _, htaken⟩
    · exact ⟨_, hfree.balanced.attempts⟩
    · exact ⟨_, htaken.balanced.attempts⟩
  have hspaced : s.attempts.Pairwise fun a b ↦ a + policy.cooldown ≤ b := h.consistent.spaced
  rw [hattempts] at hspaced
  have hrecorded := (List.pairwise_append.1 hspaced).1
  rw [List.pairwise_filterMap] at hrecorded
  exact hrecorded

/-- The replacements are recorded in order: first that of the first instance, and so on. -/
theorem Sound.replaced_range (h : Sound policy now s.callers s.core) :
    ∃ n, s.refreshes.filterMap RefreshRecord.replaced? = List.range n := by
  rcases h.right with hfree | ⟨_, _, _, _, htaken⟩
  · exact ⟨_, hfree.replaced⟩
  · exact ⟨_, htaken.replaced⟩

theorem Sound.replaced_before (h : Sound policy now s.callers s.core) {r : RefreshRecord}
    (hr : r ∈ s.refreshes) (houtcome : r.outcome = .refreshed) {n : Nat}
    (hn : n < r.found.current) : ∃ r' ∈ s.refreshes, r'.replaced? = some n := by
  obtain ⟨m, hrange⟩ := h.replaced_range
  have hmem : r.found.current ∈ s.refreshes.filterMap RefreshRecord.replaced? :=
    List.mem_filterMap.2 ⟨r, hr, if_pos houtcome⟩
  rw [hrange, List.mem_range] at hmem
  have hn' : n ∈ s.refreshes.filterMap RefreshRecord.replaced? := by
    rw [hrange, List.mem_range]
    exact hn.trans hmem
  exact List.mem_filterMap.1 hn'

/-- When an attempt was made that a record tells of. -/
theorem Sound.attempted (h : Sound policy now s.callers s.core) {r : RefreshRecord}
    (hr : r ∈ s.refreshes) (houtcome : r.outcome = .refreshed ∨ r.outcome = .failed) :
    ∃ t, r.attempt? = some t ∧ r.began ≤ t ∧ t ≤ r.ended := by
  have hcases := Refreshable.ComesTo.cases (h.consistent.atomic r hr).1
  rcases hcases with ⟨ho, -⟩ | ⟨ho, -⟩ | ⟨-, t, hbegan, hended, -, ⟨ho, hleft⟩ | ⟨ho, hleft⟩⟩
  · simp [ho] at houtcome
  · simp [ho] at houtcome
  · exact ⟨t, by simp [RefreshRecord.attempt?, ho, hleft, Refreshable.stamp], hbegan, hended⟩
  · refine ⟨t, ?_, hbegan, hended⟩
    simp [RefreshRecord.attempt?, ho, hleft, Refreshable.stamp, Refreshable.swap,
      Refreshable.countReplacement]

/-- What an operation's failure replaces. Its refresh replaces nothing while another one runs or
within the cooldown, and otherwise the instance that is current when it takes the right, if
connecting succeeds. That is the instance on which the operation ran, or a later one if that had
been replaced already. Attempts, and so replacements, keep the cooldown between them. -/
theorem failure_replaces_current_instance {factory : Factory ε} {runtime : Bool}
    {connected : Except ε γ} {s₀ : LiveRefreshable γ ε}
    (hnew : new factory policy runtime connected = .ok s₀)
    (run : Run (start, s₀) events (now, s)) :
    (∀ r ∈ s.refreshes,
      (r.found.busy = true → r.outcome = .inProgress) ∧
      (r.found.busy = false → r.found.rested r.ended = false → r.outcome = .cooldown) ∧
      (r.found.busy = false → r.found.rested r.began = true →
        r.outcome = .refreshed ∨ r.outcome = .failed) ∧
      (r.outcome ≠ .refreshed → r.left.current = r.found.current) ∧
      (r.outcome = .refreshed → r.left.current = r.found.current + 1 ∧ r.replaced? =
        some r.found.current ∧ ∃ t, r.attempt? = some t ∧ r.began ≤ t ∧ t ≤ r.ended) ∧
      ∃ c, s.callers[r.caller]? = some c ∧
        (c.request = .execute → ∃ n, c.ranOn = some n ∧ n ≤ r.found.current ∧
          (r.outcome = .refreshed → n ≠ r.found.current →
            ∃ r' ∈ s.refreshes, r'.replaced? = some n))) ∧
    (s.refreshes.filterMap RefreshRecord.replaced?).Nodup ∧
    s.refreshes.Pairwise fun r r' ↦
      ∀ t, r.attempt? = some t → ∀ t', r'.attempt? = some t' → t + policy.cooldown ≤ t' := by
  have hsound : Sound policy now s.callers s.core := (sound_new hnew start).run run
  have horderly : Orderly s.callers s.core := orderly_of_run hnew run
  refine ⟨fun r hr ↦ ?_, ?_, hsound.attempts_spaced⟩
  · have hatomic : r.found.ComesTo r.began r.ended r.outcome r.left :=
      (hsound.consistent.atomic r hr).1
    refine ⟨hatomic.of_busy, hatomic.of_cooling, hatomic.of_rested, fun hne ↦ ?_,
      fun houtcome ↦ ?_, ?_⟩
    · rcases hatomic.current with ⟨ho, -⟩ | ⟨-, hcurrent⟩
      · exact absurd ho hne
      · exact hcurrent
    · rcases hatomic.current with ⟨-, hcurrent⟩ | ⟨hne, -⟩
      · exact ⟨hcurrent, if_pos houtcome, hsound.attempted hr (.inl houtcome)⟩
      · exact absurd houtcome hne
    · obtain ⟨c, hc, -, hran⟩ := horderly.recorded r hr
      refine ⟨c, hc, fun hexecute ↦ ?_⟩
      obtain ⟨n, hn⟩ := horderly.executes _ c hc hexecute
      refine ⟨n, hn, hran n hn, fun houtcome hne ↦ ?_⟩
      exact hsound.replaced_before hr houtcome (Nat.lt_of_le_of_ne (hran n hn) hne)
  · obtain ⟨n, hrange⟩ := hsound.replaced_range
    rw [hrange]
    exact List.nodup_range

/-- The late failure comes after the cooldown of the first attempt, and its own caller had run on
the instance that the first attempt replaced. -/
theorem late_failure_keeps_cooldown :
    ∃ s₀ s : LiveRefreshable Nat String,
      new ⟨"fake", fun failure ↦ failure == "connection refused"⟩ ⟨10, 1000⟩ true (.ok 0) = .ok s₀ ∧
      play (0, s₀) lateFailure = some (50, s) ∧
      s.refreshes.filterMap RefreshRecord.attempt? = [0, 50] ∧
      s.refreshes.filterMap RefreshRecord.replaced? = [0, 1] ∧
      (s.refreshes.Pairwise fun r r' ↦
        ∀ t, r.attempt? = some t → ∀ t', r'.attempt? = some t' → t + 10 ≤ t') ∧
      ∀ r ∈ s.refreshes, ∃ c, s.callers[r.caller]? = some c ∧
        (c.request = .execute → ∃ n, c.ranOn = some n ∧ n ≤ r.found.current) := by
  obtain ⟨s₀, s, hnew, hplay, hattempts, hreplaced⟩ :
      ∃ s₀ s : LiveRefreshable Nat String,
        new ⟨"fake", fun failure ↦ failure == "connection refused"⟩ ⟨10, 1000⟩ true (.ok 0) =
          .ok s₀ ∧
        play (0, s₀) lateFailure = some (50, s) ∧
        s.refreshes.filterMap RefreshRecord.attempt? = [0, 50] ∧
        s.refreshes.filterMap RefreshRecord.replaced? = [0, 1] :=
    ⟨_, _, rfl, rfl, rfl, rfl⟩
  obtain ⟨hrecords, -, hspaced⟩ := failure_replaces_current_instance hnew (run_of_play hplay)
  refine ⟨s₀, s, hnew, hplay, hattempts, hreplaced, hspaced, fun r hr ↦ ?_⟩
  obtain ⟨-, -, -, -, -, c, hc, hran⟩ := hrecords r hr
  refine ⟨c, hc, fun hexecute ↦ ?_⟩
  obtain ⟨n, hn, hle, -⟩ := hran hexecute
  exact ⟨n, hn, hle⟩

end LiveRefreshable

end Outbound
