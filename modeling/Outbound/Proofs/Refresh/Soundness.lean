import Outbound.Proofs.Refresh.Turns

/-!
# Every refresh is done as if nobody came in between

Only the caller that has the right to refresh changes the wrapper. So the wrapper is, in every
phase of that caller, what its own acts have made of the state that it found, and the refresh comes
to what `Refreshable.refresh` says of that state.
-/

namespace Outbound

variable {γ ε : Type}

namespace Refreshable

variable {w held left : Refreshable Nat} {since now later t : Time} {outcome : RefreshOutcome}

theorem acquire_eq_some (h : w.acquire = some held) :
    w.busy = false ∧ held = { w with busy := true } := by
  cases hbusy : w.busy with
  | false => exact ⟨rfl, by simpa [acquire, hbusy] using h.symm⟩
  | true => simp [acquire, hbusy] at h

theorem begin?_eq_ok (h : w.begin? t = .ok held) :
    w.busy = false ∧ w.rested t = true ∧
      held = ({ w with busy := true } : Refreshable Nat).stamp t := by
  cases hacquire : w.acquire with
  | none => simp [begin?, hacquire] at h
  | some found =>
    obtain ⟨hfree, rfl⟩ := acquire_eq_some hacquire
    cases hrested : ({ w with busy := true } : Refreshable Nat).rested t with
    | false => simp [begin?, hacquire, hrested] at h
    | true =>
      simp only [begin?, hacquire, hrested, if_true, Except.ok.injEq] at h
      exact ⟨hfree, hrested, h.symm⟩

/-- A refresh of `w` that began in a certain time has got to connecting, and made `held` of it. -/
def ConnectsWithin (w : Refreshable Nat) (since now : Time) (held : Refreshable Nat) : Prop :=
  ∃ t, since ≤ t ∧ t ≤ now ∧ w.begin? t = .ok held

/-- An uninterrupted refresh of `w` at a certain time comes to an outcome, and leaves `left`. -/
def ComesTo (w : Refreshable Nat) (since now : Time) (outcome : RefreshOutcome)
    (left : Refreshable Nat) : Prop :=
  ∃ t, since ≤ t ∧ t ≤ now ∧ ∃ connected : Except Unit Nat,
    (connected = .error () ∨ connected = .ok (w.current + 1)) ∧
      (w.refresh t connected).outcome = outcome ∧ (w.refresh t connected).wrapper = left

theorem ConnectsWithin.mono (h : w.ConnectsWithin since now held) (hle : now ≤ later) :
    w.ConnectsWithin since later held := by
  obtain ⟨t, hsince, hnow, hbegin⟩ := h
  exact ⟨t, hsince, hnow.trans hle, hbegin⟩

theorem ComesTo.mono (h : w.ComesTo since now outcome left) (hle : now ≤ later) :
    w.ComesTo since later outcome left := by
  obtain ⟨t, hsince, hnow, hrest⟩ := h
  exact ⟨t, hsince, hnow.trans hle, hrest⟩

theorem ConnectsWithin.failed (h : w.ConnectsWithin since now held) :
    w.ComesTo since now .failed held.release := by
  obtain ⟨t, hsince, hnow, hbegin⟩ := h
  refine ⟨t, hsince, hnow, .error (), .inl rfl, ?_, ?_⟩ <;> simp [refresh, hbegin, finish]

theorem ConnectsWithin.refreshed (h : w.ConnectsWithin since now held) :
    w.ComesTo since now .refreshed (held.swap (held.current + 1)).countReplacement.release := by
  obtain ⟨t, hsince, hnow, hbegin⟩ := h
  obtain ⟨-, -, rfl⟩ := begin?_eq_ok hbegin
  refine ⟨t, hsince, hnow, .ok (w.current + 1), .inr rfl, ?_, ?_⟩ <;>
    simp only [refresh, hbegin, finish, install_eq]
  rfl

theorem comesTo_cooldown (hfree : w.busy = false) (h : w.rested now = false) (hle : since ≤ now) :
    w.ComesTo since now .cooldown w := by
  have hbegin := begin?_of_cooling (acquire_of_not_busy hfree) h
  refine ⟨now, hle, le_rfl, .error (), .inl rfl, ?_, ?_⟩ <;> simp [refresh, hbegin]

theorem comesTo_inProgress (h : w.busy = true) : w.ComesTo now now .inProgress w := by
  refine ⟨now, le_rfl, le_rfl, .error (), .inl rfl, ?_, ?_⟩ <;> simp [refresh, begin?_of_busy h]

/-- What an uninterrupted refresh leaves, by its outcome. -/
theorem ComesTo.cases (h : w.ComesTo since now outcome left) :
    (outcome = .inProgress ∧ w.busy = true ∧ left = w) ∨
      (outcome = .cooldown ∧ w.busy = false ∧ left = w ∧
        ∃ t, since ≤ t ∧ t ≤ now ∧ w.rested t = false) ∨
      w.busy = false ∧ ∃ t, since ≤ t ∧ t ≤ now ∧ w.rested t = true ∧
        (outcome = .failed ∧ left = w.stamp t ∨
          outcome = .refreshed ∧
            left = ((w.stamp t).swap (w.current + 1)).countReplacement) := by
  obtain ⟨t, hsince, hnow, connected, hconnected, rfl, rfl⟩ := h
  cases hfree : w.busy with
  | true => simp [refresh, begin?_of_busy hfree]
  | false =>
    have hacquire := acquire_of_not_busy hfree
    -- An uninterrupted refresh gives the right back, so that the flag is as it was.
    have hback : ({ w with busy := false } : Refreshable Nat) = w := by
      cases w
      cases hfree
      rfl
    cases hrested : w.rested t with
    | false =>
      have hbegin := begin?_of_cooling hacquire hrested
      exact .inr (.inl ⟨by simp [refresh, hbegin], rfl, by simp [refresh, hbegin], t, hsince, hnow,
        hrested⟩)
    | true =>
      have hbegin := begin?_of_rested hacquire hrested
      refine .inr (.inr ⟨rfl, t, hsince, hnow, hrested, ?_⟩)
      rcases hconnected with rfl | rfl
      · refine .inl ⟨by simp [refresh, hbegin, finish], ?_⟩
        simp only [refresh, hbegin, finish]
        conv_rhs => rw [← hback]
        rfl
      · refine .inr ⟨by simp [refresh, hbegin, finish], ?_⟩
        simp only [refresh, hbegin, finish]
        conv_rhs => rw [← hback]
        rfl

/-- A refresh that replaces puts the next instance in place, and any other leaves the instance. -/
theorem ComesTo.current (h : w.ComesTo since now outcome left) :
    (outcome = .refreshed ∧ left.current = w.current + 1) ∨
      (outcome ≠ .refreshed ∧ left.current = w.current) := by
  rcases h.cases with ⟨rfl, -, rfl⟩ | ⟨rfl, -, rfl, -⟩ | ⟨-, t, -, -, -, ⟨rfl, rfl⟩ | ⟨rfl, rfl⟩⟩
  · exact .inr ⟨by decide, rfl⟩
  · exact .inr ⟨by decide, rfl⟩
  · exact .inr ⟨by decide, rfl⟩
  · exact .inl ⟨rfl, rfl⟩

theorem ComesTo.of_busy (h : w.ComesTo since now outcome left) (hbusy : w.busy = true) :
    outcome = .inProgress := by
  rcases h.cases with ⟨ho, -⟩ | ⟨-, hfree, -⟩ | ⟨hfree, -⟩
  · exact ho
  · rw [hbusy] at hfree
    cases hfree
  · rw [hbusy] at hfree
    cases hfree

/-- The cooldown is not over when the refresh ends, so it was not over at any time before. -/
theorem ComesTo.of_cooling (h : w.ComesTo since now outcome left) (hfree : w.busy = false)
    (hcooling : w.rested now = false) : outcome = .cooldown := by
  rcases h.cases with ⟨-, hbusy, -⟩ | ⟨ho, -⟩ | ⟨-, t, -, hnow, hrested, -⟩
  · rw [hfree] at hbusy
    cases hbusy
  · exact ho
  · rw [rested_mono hrested hnow] at hcooling
    cases hcooling

theorem ComesTo.of_rested (h : w.ComesTo since now outcome left) (hfree : w.busy = false)
    (hrested : w.rested since = true) : outcome = .refreshed ∨ outcome = .failed := by
  rcases h.cases with ⟨-, hbusy, -⟩ | ⟨-, -, -, t, hsince, -, hcooling⟩ |
    ⟨-, -, -, -, -, ⟨ho, -⟩ | ⟨ho, -⟩⟩
  · rw [hfree] at hbusy
    cases hbusy
  · rw [rested_mono hrested hsince] at hcooling
    cases hcooling
  · exact .inr ho
  · exact .inl ho

end Refreshable

/-! ## What a caller has made of the wrapper -/

namespace HolderPhase

variable {since now later : Time} {found w : Refreshable Nat} {phase phase' : HolderPhase γ}

/-- What a caller in that phase has made of the wrapper that it found. -/
def Made (now since : Time) (found w : Refreshable Nat) : HolderPhase γ → Prop
  | .acquired => found.acquire = some w
  | .rested => found.acquire = some w ∧ w.rested now = true
  | .timed t => found.acquire = some w ∧ since ≤ t ∧ t ≤ now ∧ w.rested t = true
  | .stamped | .connecting | .connected _ => found.ConnectsWithin since now w
  | .swapped old => ∃ held, found.ConnectsWithin since now held ∧ old = held.current ∧
      w = held.swap (held.current + 1)
  | .counted old => ∃ held, found.ConnectsWithin since now held ∧ old = held.current ∧
      w = (held.swap (held.current + 1)).countReplacement
  | .leaving outcome => found.ComesTo since now outcome w.release

theorem Made.mono (h : phase.Made now since found w) (hle : now ≤ later) :
    phase.Made later since found w := by
  cases phase with
  | acquired => exact h
  | rested => exact ⟨h.1, Refreshable.rested_mono h.2 hle⟩
  | timed t => exact ⟨h.1, h.2.1, h.2.2.1.trans hle, h.2.2.2⟩
  | stamped => exact Refreshable.ConnectsWithin.mono h hle
  | connecting => exact Refreshable.ConnectsWithin.mono h hle
  | connected client => exact Refreshable.ConnectsWithin.mono h hle
  | swapped old =>
    obtain ⟨held, hheld, hrest⟩ := h
    exact ⟨held, hheld.mono hle, hrest⟩
  | counted old =>
    obtain ⟨held, hheld, hrest⟩ := h
    exact ⟨held, hheld.mono hle, hrest⟩
  | leaving outcome => exact Refreshable.ComesTo.mono h hle

/-- The clients that connecting has given and that are not in place yet. -/
def underway : HolderPhase γ → List γ
  | .connected client => [client]
  | _ => []

/-- The replacements that have not been counted. -/
def uncounted : HolderPhase γ → Nat
  | .swapped _ => 1
  | _ => 0

/-- The attempts of refreshes that have not ended. -/
def pending (w : Refreshable Nat) : HolderPhase γ → List Time
  | .acquired | .rested | .timed _ | .leaving .cooldown => []
  | _ => w.lastAttempt.toList

end HolderPhase

namespace RefreshRecord

/-- When a refresh tried to connect, if it did. -/
def attempt? (r : RefreshRecord) : Option Time :=
  match r.outcome with
  | .refreshed | .failed => r.left.lastAttempt
  | .inProgress | .cooldown => none

/-- The instance that a refresh replaced, if it did. -/
def replaced? (r : RefreshRecord) : Option Nat :=
  if r.outcome = .refreshed then some r.found.current else none

/-- The refresh came to what it comes to if nobody comes in between. -/
def Atomic (r : RefreshRecord) : Prop :=
  r.found.ComesTo r.began r.ended r.outcome r.left

end RefreshRecord

namespace RefreshCore

variable {policy : RefreshPolicy} {now later : Time} {i i' : RefreshCore γ ε}

/-- The instances, the replacements and the attempts add up, apart from those under way. -/
structure Balanced (i : RefreshCore γ ε) (underway : List γ) (uncounted : Nat)
    (pending : List Time) : Prop where
  clients : i.connects.filterMap Except.toOption = i.instances ++ underway
  counted : i.wrapper.current = i.wrapper.generation + uncounted
  attempts : i.attempts = i.refreshes.filterMap RefreshRecord.attempt? ++ pending

/-- What is true whoever has the right to refresh. -/
structure Consistent (policy : RefreshPolicy) (now : Time) (i : RefreshCore γ ε) : Prop where
  policy_eq : i.wrapper.policy = policy
  numbered : i.instances.length = i.wrapper.current + 1
  last : i.wrapper.lastAttempt = i.attempts.getLast?
  spaced : i.attempts.Pairwise fun a b ↦ a + policy.cooldown ≤ b
  past : ∀ t ∈ i.attempts, t ≤ now
  atomic : ∀ r ∈ i.refreshes, r.Atomic ∧ r.ended ≤ now

theorem Consistent.mono (h : Consistent policy now i) (hle : now ≤ later) :
    Consistent policy later i :=
  { h with
    past := fun t ht ↦ (h.past t ht).trans hle
    atomic := fun r hr ↦ ⟨(h.atomic r hr).1, (h.atomic r hr).2.trans hle⟩ }

theorem Consistent.ended (h : Consistent policy now i) {r : RefreshRecord} (hr : r.Atomic)
    (hended : r.ended = now) : ∀ r' ∈ i.refreshes ++ [r], r'.Atomic ∧ r'.ended ≤ now := by
  intro r' hr'
  rcases List.mem_append.1 hr' with hr' | hr'
  · exact h.atomic r' hr'
  · rw [List.mem_singleton.1 hr']
    exact ⟨hr, hended.le⟩

/-- An attempt that is noted when the cooldown was over comes late enough after all others. -/
theorem Consistent.le_of_rested (h : Consistent policy now i) {t : Time}
    (hrested : i.wrapper.rested t = true) : ∀ a ∈ i.attempts, a + policy.cooldown ≤ t := by
  intro a ha
  obtain ⟨earlier, last, hattempts⟩ : ∃ earlier last, i.attempts = earlier ++ [last] :=
    (List.eq_nil_or_concat' i.attempts).resolve_left (List.ne_nil_of_mem ha)
  have hlast : i.wrapper.lastAttempt = some last := by
    rw [h.last, hattempts, List.getLast?_concat]
  have hover : last + policy.cooldown ≤ t := by
    simpa [Refreshable.rested, hlast, h.policy_eq] using hrested
  have hspaced := h.spaced
  rw [hattempts] at ha hspaced
  rcases List.mem_append.1 ha with ha | ha
  · have hle : a + policy.cooldown ≤ last :=
      (List.pairwise_append.1 hspaced).2.2 a ha last (List.mem_singleton.2 rfl)
    exact (hle.trans (Nat.le_add_right last policy.cooldown)).trans hover
  · rw [List.mem_singleton.1 ha]
    exact hover

end RefreshCore

/-! ## What a turn of the caller with the right to refresh does -/

namespace HolderTurn

variable {policy : RefreshPolicy} {now since : Time} {found : Refreshable Nat}
  {phase phase' : HolderPhase γ} {i i' : RefreshCore γ ε}

theorem made (h : HolderTurn now phase i phase' i') (hi : i.Consistent policy now)
    (hle : since ≤ now) (hm : phase.Made now since found i.wrapper) :
    phase'.Made now since found i'.wrapper := by
  cases h with
  | rest rested => exact ⟨hm, rested⟩
  | cool cooling =>
    obtain ⟨hfree, hw⟩ := Refreshable.acquire_eq_some hm
    have hback : i.wrapper.release = found := by
      rw [hw]
      cases found
      cases hfree
      rfl
    simp only [HolderPhase.Made, hback]
    exact Refreshable.comesTo_cooldown hfree (by rw [hw] at cooling; exact cooling) hle
  | time => exact ⟨hm.1, hle, le_rfl, hm.2⟩
  | stamp time =>
    obtain ⟨hacquire, hsince, hnow, hrested⟩ := hm
    exact ⟨time, hsince, hnow, Refreshable.begin?_of_rested hacquire hrested⟩
  | connect => exact hm
  | connected client => exact hm
  | failed failure => exact Refreshable.ConnectsWithin.failed hm
  | swap client => exact ⟨_, hm, rfl, by rw [hi.numbered]⟩
  | count old =>
    obtain ⟨held, hheld, hold, hw⟩ := hm
    exact ⟨held, hheld, hold, by rw [hw]⟩
  | retire old =>
    obtain ⟨held, hheld, -, hw⟩ := hm
    simp only [HolderPhase.Made, hw]
    exact hheld.refreshed

theorem busy (h : HolderTurn now phase i phase' i') : i'.wrapper.busy = i.wrapper.busy := by
  cases h <;> rfl

theorem refreshes (h : HolderTurn now phase i phase' i') : i'.refreshes = i.refreshes := by
  cases h <;> rfl

theorem balanced (h : HolderTurn now phase i phase' i') (hi : i.Consistent policy now)
    (hb : i.Balanced phase.underway phase.uncounted (phase.pending i.wrapper)) :
    i'.Balanced phase'.underway phase'.uncounted (phase'.pending i'.wrapper) := by
  have hclients := hb.clients
  have hcounted := hb.counted
  have hattempts := hb.attempts
  cases h with
  | rest rested => exact ⟨hclients, hcounted, hattempts⟩
  | cool cooling => exact ⟨hclients, hcounted, hattempts⟩
  | time => exact ⟨hclients, hcounted, hattempts⟩
  | stamp time =>
    refine ⟨hclients, hcounted, ?_⟩
    simp only [HolderPhase.pending, List.append_nil] at hattempts
    simp [HolderPhase.pending, Refreshable.stamp, ← hattempts]
  | connect => exact ⟨hclients, hcounted, hattempts⟩
  | connected client =>
    refine ⟨?_, hcounted, hattempts⟩
    simp only [HolderPhase.underway, List.append_nil] at hclients
    simp [HolderPhase.underway, Except.toOption, hclients]
  | failed failure =>
    refine ⟨?_, hcounted, hattempts⟩
    simp only [HolderPhase.underway, List.append_nil] at hclients
    simp [HolderPhase.underway, Except.toOption, hclients]
  | swap client =>
    refine ⟨?_, ?_, hattempts⟩
    · rw [hclients]
      simp [HolderPhase.underway]
    · simp only [HolderPhase.uncounted, Nat.add_zero] at hcounted
      simp only [HolderPhase.uncounted, Refreshable.swap, hi.numbered, hcounted]
  | count old => exact ⟨hclients, hcounted, hattempts⟩
  | retire old => exact ⟨hclients, hcounted, hattempts⟩

theorem consistent (h : HolderTurn now phase i phase' i') (hi : i.Consistent policy now)
    (hm : phase.Made now since found i.wrapper) : i'.Consistent policy now := by
  cases h with
  | rest rested => exact hi
  | cool cooling => exact hi
  | time => exact hi
  | stamp time =>
    obtain ⟨-, -, hnow, hrested⟩ := hm
    refine ⟨hi.policy_eq, hi.numbered, ?_, ?_, ?_, hi.atomic⟩
    · rw [List.getLast?_concat]
      rfl
    · refine List.pairwise_append.2 ⟨hi.spaced, List.pairwise_singleton _ _, ?_⟩
      intro a ha b hb
      rw [List.mem_singleton.1 hb]
      exact hi.le_of_rested hrested a ha
    · intro t ht
      rcases List.mem_append.1 ht with ht | ht
      · exact hi.past t ht
      · rw [List.mem_singleton.1 ht]
        exact hnow
  | connect => exact hi
  | connected client => exact ⟨hi.policy_eq, hi.numbered, hi.last, hi.spaced, hi.past, hi.atomic⟩
  | failed failure => exact ⟨hi.policy_eq, hi.numbered, hi.last, hi.spaced, hi.past, hi.atomic⟩
  | swap client =>
    refine ⟨hi.policy_eq, ?_, hi.last, hi.spaced, hi.past, hi.atomic⟩
    rw [List.length_append]
    rfl
  | count old => exact ⟨hi.policy_eq, hi.numbered, hi.last, hi.spaced, hi.past, hi.atomic⟩
  | retire old => exact hi

end HolderTurn

/-! ## The invariant -/

namespace LiveRefreshable

variable {policy : RefreshPolicy} {now later : Time} {s s' : LiveRefreshable γ ε}
  {callers : List (RefreshCaller γ ε)} {i i' : RefreshCore γ ε} {k : Nat}
  {c c' : RefreshCaller γ ε} {since : Time} {found : Refreshable Nat} {phase : HolderPhase γ}

/-- Nobody has the right to refresh. -/
structure Free (callers : List (RefreshCaller γ ε)) (i : RefreshCore γ ε) : Prop where
  nobody : ∀ (j : Nat) (c : RefreshCaller γ ε), callers[j]? = some c →
    c.phase.isHolding = false
  not_busy : i.wrapper.busy = false
  balanced : i.Balanced [] 0 []
  replaced : i.refreshes.filterMap RefreshRecord.replaced? = List.range i.wrapper.current

/-- One caller has the right to refresh, and nobody else. -/
structure Taken (now : Time) (callers : List (RefreshCaller γ ε)) (i : RefreshCore γ ε) (k : Nat)
    (since : Time) (found : Refreshable Nat) (phase : HolderPhase γ) : Prop where
  holder : ∃ c, callers[k]? = some c ∧ c.phase = .holding since found phase
  only : ∀ (j : Nat) (c : RefreshCaller γ ε), callers[j]? = some c →
    c.phase.isHolding = true → j = k
  since_le : since ≤ now
  found_free : found.busy = false
  busy : i.wrapper.busy = true
  made : phase.Made now since found i.wrapper
  balanced : i.Balanced phase.underway phase.uncounted (phase.pending i.wrapper)
  replaced : i.refreshes.filterMap RefreshRecord.replaced? = List.range found.current

/-- All of the books, and who has the right to refresh. -/
structure Sound (policy : RefreshPolicy) (now : Time) (callers : List (RefreshCaller γ ε))
    (i : RefreshCore γ ε) : Prop where
  consistent : i.Consistent policy now
  right : Free callers i ∨ ∃ k since found phase, Taken now callers i k since found phase

theorem Taken.eq_of_holding (h : Taken now callers i k since found phase) {j : Nat} {since' : Time}
    {found' : Refreshable Nat} {phase' : HolderPhase γ} (hc : callers[j]? = some c)
    (hphase : c.phase = .holding since' found' phase') :
    j = k ∧ since' = since ∧ found' = found ∧ phase' = phase := by
  have hj := h.only j c hc (by rw [hphase]; rfl)
  subst hj
  obtain ⟨d, hd, hdphase⟩ := h.holder
  cases hc.symm.trans hd
  cases hphase.symm.trans hdphase
  exact ⟨rfl, rfl, rfl, rfl⟩

theorem Sound.taken (h : Sound policy now callers i) (hc : callers[k]? = some c)
    (hphase : c.phase = .holding since found phase) :
    Taken now callers i k since found phase := by
  rcases h.right with hfree | ⟨j, since', found', phase', htaken⟩
  · have hnobody := hfree.nobody k c hc
    rw [hphase] at hnobody
    cases hnobody
  · obtain ⟨rfl, rfl, rfl, rfl⟩ := htaken.eq_of_holding hc hphase
    exact htaken

theorem Sound.free (h : Sound policy now callers i) (hbusy : i.wrapper.busy = false) :
    Free callers i := by
  rcases h.right with hfree | ⟨j, since', found', phase', htaken⟩
  · exact hfree
  · rw [htaken.busy] at hbusy
    cases hbusy

theorem Sound.mono (h : Sound policy now callers i) (hle : now ≤ later) :
    Sound policy later callers i := by
  refine ⟨h.consistent.mono hle, ?_⟩
  rcases h.right with hfree | ⟨k, since, found, phase, htaken⟩
  · exact .inl hfree
  · exact .inr ⟨k, since, found, phase,
      { htaken with since_le := htaken.since_le.trans hle, made := htaken.made.mono hle }⟩

theorem Sound.add (h : Sound policy now callers i) (hc : c.phase.isHolding = false) :
    Sound policy now (callers ++ [c]) i := by
  refine ⟨h.consistent, ?_⟩
  rcases h.right with hfree | ⟨k, since, found, phase, htaken⟩
  · refine .inl { hfree with nobody := ?_ }
    intro j d hd
    rcases getElem?_concat_cases hd with ⟨-, rfl⟩ | hd
    · exact hc
    · exact hfree.nobody j d hd
  · refine .inr ⟨k, since, found, phase, { htaken with holder := ?_, only := ?_ }⟩
    · obtain ⟨d, hd, hphase⟩ := htaken.holder
      exact ⟨d, getElem?_append_of_some hd _, hphase⟩
    · intro j d hd hholding
      rcases getElem?_concat_cases hd with ⟨-, rfl⟩ | hd
      · simp [hc] at hholding
      · exact htaken.only j d hd hholding

/-- A turn of a caller that neither had nor gets the right to refresh. -/
theorem Sound.set (h : Sound policy now callers i) (hc : callers[k]? = some c)
    (hold : c.phase.isHolding = false) (hnew : c'.phase.isHolding = false) :
    Sound policy now (callers.set k c') i := by
  refine ⟨h.consistent, ?_⟩
  rcases h.right with hfree | ⟨j, since, found, phase, htaken⟩
  · refine .inl { hfree with nobody := ?_ }
    intro j d hd
    rcases getElem?_set_cases hd with ⟨-, rfl⟩ | ⟨-, hd⟩
    · exact hnew
    · exact hfree.nobody j d hd
  · refine .inr ⟨j, since, found, phase, { htaken with holder := ?_, only := ?_ }⟩
    · obtain ⟨d, hd, hphase⟩ := htaken.holder
      have hne : k ≠ j := by
        rintro rfl
        cases hc.symm.trans hd
        rw [hphase] at hold
        cases hold
      exact ⟨d, by rw [List.getElem?_set_ne hne, hd], hphase⟩
    · intro l d hd hholding
      rcases getElem?_set_cases hd with ⟨-, rfl⟩ | ⟨-, hd⟩
      · simp [hnew] at hholding
      · exact htaken.only l d hd hholding

theorem Sound.refuse (h : Sound policy now callers i) (hbusy : i.wrapper.busy = true) :
    Sound policy now callers
      { i with
        refreshes := i.refreshes ++ [⟨k, now, i.wrapper, now, i.wrapper, .inProgress⟩] } := by
  refine ⟨{ h.consistent with
    atomic := h.consistent.ended (Refreshable.comesTo_inProgress hbusy) rfl }, ?_⟩
  rcases h.right with hfree | ⟨j, since, found, phase, htaken⟩
  · rw [hfree.not_busy] at hbusy
    cases hbusy
  · refine .inr ⟨j, since, found, phase, { htaken with balanced := ?_, replaced := ?_ }⟩
    · refine ⟨htaken.balanced.clients, htaken.balanced.counted, ?_⟩
      rw [htaken.balanced.attempts]
      simp [RefreshRecord.attempt?]
    · rw [← htaken.replaced]
      simp [RefreshRecord.replaced?]

theorem Sound.acquire (h : Sound policy now callers i) (hc : callers[k]? = some c)
    (hfree : i.wrapper.busy = false) (hnew : c'.phase = .holding now i.wrapper .acquired) :
    Sound policy now (callers.set k c')
      { i with wrapper := { i.wrapper with busy := true } } := by
  have hnone := h.free hfree
  refine ⟨{ h.consistent with }, .inr ⟨k, now, i.wrapper, .acquired, ⟨?_, ?_, le_rfl, hfree, rfl,
    Refreshable.acquire_of_not_busy hfree, ?_, hnone.replaced⟩⟩⟩
  · exact ⟨c', List.getElem?_set_self (List.getElem?_eq_some_iff.1 hc).1, hnew⟩
  · intro j d hd hholding
    rcases getElem?_set_cases hd with ⟨rfl, -⟩ | ⟨-, hd⟩
    · rfl
    · simp [hnone.nobody j d hd] at hholding
  · exact ⟨hnone.balanced.clients, hnone.balanced.counted, hnone.balanced.attempts⟩

theorem Sound.proceed (h : Sound policy now callers i) (hc : callers[k]? = some c)
    (hold : c.phase = .holding since found phase) {phase' : HolderPhase γ}
    (hturn : HolderTurn now phase i phase' i') (hnew : c'.phase = .holding since found phase') :
    Sound policy now (callers.set k c') i' := by
  have htaken := h.taken hc hold
  refine ⟨hturn.consistent h.consistent htaken.made, .inr ⟨k, since, found, phase', ⟨?_, ?_,
    htaken.since_le, htaken.found_free, hturn.busy.trans htaken.busy,
    hturn.made h.consistent htaken.since_le htaken.made,
    hturn.balanced h.consistent htaken.balanced, by rw [hturn.refreshes, htaken.replaced]⟩⟩⟩
  · exact ⟨c', List.getElem?_set_self (List.getElem?_eq_some_iff.1 hc).1, hnew⟩
  · intro j d hd hholding
    rcases getElem?_set_cases hd with ⟨rfl, -⟩ | ⟨-, hd⟩
    · rfl
    · exact htaken.only j d hd hholding

theorem Sound.release (h : Sound policy now callers i) (hc : callers[k]? = some c)
    {outcome : RefreshOutcome} (hold : c.phase = .holding since found (.leaving outcome))
    (hnew : c'.phase = .counting outcome) :
    Sound policy now (callers.set k c')
      { i with
        wrapper := i.wrapper.release
        refreshes := i.refreshes ++ [⟨k, since, found, now, i.wrapper.release, outcome⟩] } := by
  have htaken := h.taken hc hold
  refine ⟨{ h.consistent with atomic := h.consistent.ended htaken.made rfl },
    .inl ⟨?_, rfl, ?_, ?_⟩⟩
  · intro j d hd
    rcases getElem?_set_cases hd with ⟨-, rfl⟩ | ⟨hne, hd⟩
    · rw [hnew]
      rfl
    · cases hholding : d.phase.isHolding with
      | false => rfl
      | true => exact absurd (htaken.only j d hd hholding) hne
  · have hclients := htaken.balanced.clients
    have hattempts := htaken.balanced.attempts
    refine ⟨hclients, htaken.balanced.counted, ?_⟩
    -- A caller that is refused never has the right to refresh.
    have hne : outcome ≠ .inProgress := by
      rintro rfl
      have hbusy := Refreshable.ComesTo.cases htaken.made
      simp [htaken.found_free] at hbusy
    rw [hattempts]
    cases outcome with
    | inProgress => exact absurd rfl hne
    | cooldown => simp [RefreshRecord.attempt?, HolderPhase.pending]
    | refreshed =>
      cases hlast : i.wrapper.lastAttempt <;>
        simp [RefreshRecord.attempt?, HolderPhase.pending, Refreshable.release, hlast]
    | failed =>
      cases hlast : i.wrapper.lastAttempt <;>
        simp [RefreshRecord.attempt?, HolderPhase.pending, Refreshable.release, hlast]
  · rw [List.filterMap_append, htaken.replaced]
    have hcomes : found.ComesTo since now outcome i.wrapper.release := htaken.made
    rcases hcomes.current with ⟨rfl, hcurrent⟩ | ⟨hne, hcurrent⟩
    · change List.range found.current ++ [found.current] = List.range i.wrapper.release.current
      rw [hcurrent, List.range_succ]
    · change _ = List.range i.wrapper.release.current
      simp [RefreshRecord.replaced?, hne, hcurrent]

theorem Sound.turn (h : Sound policy now callers i) (hc : callers[k]? = some c)
    (hturn : Turn now k c.phase i c'.phase i') : Sound policy now (callers.set k c') i' := by
  generalize hold : c.phase = p at hturn
  generalize hnew : c'.phase = p' at hturn
  cases hturn with
  | aside before after =>
    refine h.set hc ?_ ?_
    · rcases before with ⟨_, rfl⟩ | ⟨_, rfl⟩ <;> rw [hold] <;> rfl
    · rcases after with rfl | ⟨_, rfl⟩ | rfl <;> rw [hnew] <;> rfl
  | refuse busy => exact (h.set hc (hold ▸ rfl) (hnew ▸ rfl)).refuse busy
  | acquire free => exact h.acquire hc free hnew
  | proceed turn => exact h.proceed hc hold turn hnew
  | release outcome => exact h.release hc hold hnew
  | count outcome => exact h.set hc (hold ▸ rfl) (hnew ▸ rfl)

theorem Sound.step {e : Event γ ε} (h : Sound policy now s.callers s.core)
    (hs : s.step now e = some s') : Sound policy now s'.callers s'.core := by
  rcases step_cases hs with ⟨hcallers, hcore⟩ | ⟨c, hcallers, hcore, hc⟩ | ⟨k, c, c', hturn⟩
  · rw [hcallers, hcore]
    exact h
  · rw [hcallers, hcore]
    exact h.add hc.not_holding
  · rw [hturn.callers]
    exact h.turn hturn.caller hturn.turn

/-- A new wrapper with its factory, and what connecting gave. -/
theorem new_eq_ok {factory : Factory ε} {runtime : Bool} {connected : Except ε γ}
    (h : new factory policy runtime connected = .ok s) :
    ∃ client, connected = .ok client ∧ s =
      { factory, runtime
        wrapper := { policy, current := 0 }
        instances := [client]
        connects := [.ok client] } := by
  cases connected with
  | error e => cases h
  | ok client =>
    cases h
    exact ⟨client, rfl, rfl⟩

theorem sound_new {factory : Factory ε} {runtime : Bool} {connected : Except ε γ}
    (h : new factory policy runtime connected = .ok s) (now : Time) :
    Sound policy now s.callers s.core := by
  obtain ⟨client, -, rfl⟩ := new_eq_ok h
  exact ⟨⟨rfl, rfl, rfl, .nil, fun _ ht ↦ (List.not_mem_nil ht).elim,
    fun _ hr ↦ (List.not_mem_nil hr).elim⟩,
    .inl ⟨fun j c hc ↦ by simp at hc, rfl, ⟨rfl, rfl, rfl⟩, rfl⟩⟩

theorem Sound.run {x y : Time × LiveRefreshable γ ε} {events : List (Event γ ε)}
    (run : Run x events y) (h : Sound policy x.1 x.2.callers x.2.core) :
    Sound policy y.1 y.2.callers y.2.core := by
  induction run with
  | refl => exact h
  | wait _ hle ih => exact ih.mono hle
  | event _ e hs ih => exact ih.step hs

end LiveRefreshable

end Outbound
