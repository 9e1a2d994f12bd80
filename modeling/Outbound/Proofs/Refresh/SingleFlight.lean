import Outbound.Proofs.Refresh.Outcomes

/-!
# One refresh at a time, and a cooldown between attempts

A caller that asks when nobody refreshes and the cooldown is over gets to connecting by its own
acts, whatever others do in between. How many of its acts are left can be read off its phase.
-/

namespace Outbound

variable {γ ε : Type}

/-- How many acts a caller is away from connecting, if it is on its way or has got there. -/
def HolderPhase.actsToConnect : HolderPhase γ → Option Nat
  | .acquired => some 4
  | .rested => some 3
  | .timed _ => some 2
  | .stamped => some 1
  | .connecting | .connected _ | .swapped _ | .counted _ => some 0
  | .leaving .refreshed | .leaving .failed => some 0
  | .leaving .inProgress | .leaving .cooldown => none

def CallerPhase.actsToConnect : CallerPhase γ ε → Option Nat
  | .holding _ _ phase => phase.actsToConnect
  | .counting outcome | .done (some outcome) =>
    if outcome = .refreshed ∨ outcome = .failed then some 0 else none
  | _ => none

namespace LiveRefreshable

variable {policy : RefreshPolicy} {start now later : Time} {s s' : LiveRefreshable γ ε}
  {k n : Nat} {c c' : RefreshCaller γ ε} {since : Time} {found : Refreshable Nat}
  {i i' : RefreshCore γ ε} {e : Event γ ε} {events : List (Event γ ε)}
  {x y : Time × LiveRefreshable γ ε}

def Event.isActOf (k : Nat) : Event γ ε → Bool
  | .act j => j = k
  | _ => false

/-- What a step does to one caller: its own act, or its operation or connecting ends, or nothing. -/
theorem caller_of_step (hs : s.step now e = some s') (hc : s.callers[k]? = some c) :
    (e.isActOf k = true ∧ s.act now k c = some s') ∨
      e.isActOf k = false ∧ (s'.callers[k]? = some c ∨ (∃ client, c.phase = .operating client) ∨
        ∃ c' since found phase', c.phase = .holding since found .connecting ∧
          s'.callers[k]? = some c' ∧ c'.phase = .holding since found phase' ∧
          ((∃ client, phase' = .connected client) ∨ phase' = .leaving .failed)) := by
  have hlt := (List.getElem?_eq_some_iff.1 hc).1
  cases e with
  | call inside request =>
    obtain ⟨hinside, heq⟩ := Option.ite_none_right_eq_some.1 hs
    cases heq
    obtain ⟨d, hcallers, -⟩ := begun_begin s inside request hinside
    exact .inr ⟨rfl, .inl (hcallers ▸ getElem?_append_of_some hc _)⟩
  | finish j failure =>
    obtain ⟨d, hd, hs⟩ := Option.bind_eq_some_iff.1 hs
    split at hs
    · rename_i client hphase
      cases hs
      by_cases hj : j = k
      · subst hj
        cases hc.symm.trans hd
        exact .inr ⟨rfl, .inr (.inl ⟨client, hphase⟩)⟩
      · exact .inr ⟨rfl, .inl (by simp only [setPhase, List.getElem?_set_ne hj, hc])⟩
    · cases hs
  | abandon j =>
    obtain ⟨d, hd, hs⟩ := Option.bind_eq_some_iff.1 hs
    split at hs
    · rename_i client hphase
      cases hs
      by_cases hj : j = k
      · subst hj
        cases hc.symm.trans hd
        exact .inr ⟨rfl, .inr (.inl ⟨client, hphase⟩)⟩
      · exact .inr ⟨rfl, .inl (by simp only [setPhase, List.getElem?_set_ne hj, hc])⟩
    · cases hs
  | act j =>
    obtain ⟨d, hd, hs⟩ := Option.bind_eq_some_iff.1 hs
    by_cases hj : j = k
    · subst hj
      cases hc.symm.trans hd
      exact .inl ⟨decide_eq_true rfl, hs⟩
    · obtain ⟨-, p', hcallers, -⟩ := turn_of_act hs
      exact .inr ⟨decide_eq_false hj, .inl (by rw [hcallers, List.getElem?_set_ne hj, hc])⟩
  | connected j result =>
    obtain ⟨d, hd, hs⟩ := Option.bind_eq_some_iff.1 hs
    split at hs
    · rename_i since found hphase
      split at hs
      · cases hs
      · cases hs
        by_cases hj : j = k
        · subst hj
          cases hc.symm.trans hd
          refine .inr ⟨rfl, .inr (.inr ⟨_, since, found, _, hphase,
            List.getElem?_set_self hlt, rfl, ?_⟩)⟩
          cases result with
          | error failure => exact .inr rfl
          | ok client => exact .inl ⟨client, rfl⟩
        · exact .inr ⟨rfl, .inl (by simp only [setPhase, List.getElem?_set_ne hj, hc])⟩
    · cases hs
  | hold => cases hs; exact .inr ⟨rfl, .inl hc⟩
  | letGo client =>
    obtain ⟨-, heq⟩ := Option.ite_none_right_eq_some.1 hs
    cases heq
    exact .inr ⟨rfl, .inl hc⟩
  | grace n =>
    obtain ⟨grace, -, hs⟩ := Option.bind_eq_some_iff.1 hs
    rw [← (quiet_of_actGrace hs).1] at hc
    exact .inr ⟨rfl, .inl hc⟩

/-- An act brings a caller one nearer to connecting, if it found the cooldown to be over. -/
theorem actsToConnect_of_turn {p p' : CallerPhase γ ε} (h : Turn now k p i p' i')
    (hn : p.actsToConnect = some n)
    (hrested : ∀ since found, p = .holding since found .acquired → i.wrapper.rested now = true) :
    p'.actsToConnect = some (n - 1) := by
  cases h with
  | aside before => rcases before with ⟨_, rfl⟩ | ⟨_, rfl⟩ <;> cases hn
  | refuse => cases hn
  | acquire => cases hn
  | proceed turn =>
    cases turn with
    | cool cooling =>
      rw [hrested _ _ rfl] at cooling
      cases cooling
    | _ => cases hn; rfl
  | release outcome => cases outcome <;> cases hn <;> rfl
  | count outcome => cases outcome <;> cases hn <;> rfl

/-- A caller that is not there yet can act. -/
theorem act_of_actsToConnect (hn : c.phase.actsToConnect = some (n + 1)) :
    ∃ s', s.act now k c = some s' := by
  cases hphase : c.phase with
  | holding since found phase =>
    rw [hphase] at hn
    simp only [act, hphase]
    cases phase with
    | connecting => cases hn
    | leaving outcome => cases outcome <;> cases hn
    | _ => exact ⟨_, rfl⟩
  | counting outcome =>
    rw [hphase] at hn
    cases outcome <;> cases hn
  | done outcome =>
    rw [hphase] at hn
    rcases outcome with _ | _ | _ | _ | _ <;> cases hn
  | _ =>
    rw [hphase] at hn
    cases hn

/-- A caller that found the wrapper healthy is on its way to connecting. -/
def OnTheWay (k since : Nat) (found : Refreshable Nat) (n : Nat) (s : LiveRefreshable γ ε) : Prop :=
  ∃ c, s.callers[k]? = some c ∧ c.phase.actsToConnect = some n ∧
    ∀ since' found' phase, c.phase = .holding since' found' phase → since' = since ∧ found' = found

theorem OnTheWay.step (h : OnTheWay k since found n s) (hfound : found.rested since = true)
    (hsound : Sound policy now s.callers s.core) (hs : s.step now e = some s') :
    OnTheWay k since found (n - if e.isActOf k then 1 else 0) s' := by
  obtain ⟨c, hc, hn, hholding⟩ := h
  rcases caller_of_step hs hc with ⟨he, hact⟩ | ⟨he, hsame | ⟨client, hphase⟩ |
    ⟨c', since', found', phase', hphase, hc', hphase', hconnected⟩⟩
  · obtain ⟨-, p', hcallers, hturn⟩ := turn_of_act hact
    rw [he, if_pos rfl]
    refine ⟨{ c with phase := p' }, ?_, ?_, fun since' found' phase hp' ↦ ?_⟩
    · rw [hcallers, List.getElem?_set_self (List.getElem?_eq_some_iff.1 hc).1]
    · refine actsToConnect_of_turn hturn hn fun since' found' hphase ↦ ?_
      obtain ⟨rfl, rfl⟩ := hholding since' found' _ hphase
      have htaken := hsound.taken hc hphase
      obtain ⟨-, hw⟩ := Refreshable.acquire_eq_some htaken.made
      rw [hw]
      exact Refreshable.rested_mono hfound htaken.since_le
    · rcases holding_of_turn hturn hp' with ⟨phase', hold⟩ | ⟨hasking, -⟩
      · exact hholding since' found' phase' hold
      · rw [hasking] at hn
        cases hn
  · rw [he]
    exact ⟨c, hsame, hn, hholding⟩
  · rw [hphase] at hn
    cases hn
  · rw [he]
    obtain ⟨rfl, rfl⟩ := hholding since' found' _ hphase
    rw [hphase] at hn
    cases hn
    refine ⟨c', hc', ?_, fun since found phase hp ↦ ?_⟩
    · rw [hphase']
      rcases hconnected with ⟨client, rfl⟩ | rfl <;> rfl
    · rw [hphase'] at hp
      cases hp
      exact ⟨rfl, rfl⟩

-- Every act of the caller brings it one act closer, and no act of anybody else takes it back.
theorem OnTheWay.run (run : Run x events y) (h : OnTheWay k since found n x.2)
    (hfound : found.rested since = true) (hsound : Sound policy x.1 x.2.callers x.2.core) :
    OnTheWay k since found (n - events.countP (·.isActOf k)) y.2 := by
  induction run with
  | refl => exact h
  | wait _ _ ih => exact ih
  | event run e hs ih =>
    have hstep := ih.step hfound (hsound.run run) hs
    rw [List.countP_append, List.countP_singleton, ← Nat.sub_sub]
    exact hstep

theorem isHolding_of_isConnecting (h : c.phase.isConnecting = true) :
    c.phase.isHolding = true := by
  unfold CallerPhase.isConnecting at h
  split at h
  · rename_i hphase
    rw [hphase]
    rfl
  · cases h

namespace Sound

variable (h : Sound policy now s.callers s.core)

include h

theorem holder_unique {j : Nat} (hc : s.callers[j]? = some c) (hd : s.callers[k]? = some c')
    (hcholding : c.phase.isHolding = true) (hdholding : c'.phase.isHolding = true) : j = k := by
  rcases h.right with hfree | ⟨l, since, found, phase, htaken⟩
  · rw [hfree.nobody j c hc] at hcholding
    cases hcholding
  · exact (htaken.only j c hc hcholding).trans (htaken.only k c' hd hdholding).symm

theorem busy_iff : s.wrapper.busy = true ↔
    ∃ (k : Nat) (c : RefreshCaller γ ε), s.callers[k]? = some c ∧ c.phase.isHolding = true := by
  rcases h.right with hfree | ⟨l, since, found, phase, htaken⟩
  · have hnot : s.wrapper.busy = false := hfree.not_busy
    constructor
    · intro hbusy
      rw [hnot] at hbusy
      cases hbusy
    · rintro ⟨k, c, hc, hholds⟩
      rw [hfree.nobody k c hc] at hholds
      cases hholds
  · obtain ⟨c, hc, hphase⟩ := htaken.holder
    exact ⟨fun _ ↦ ⟨l, c, hc, by rw [hphase]; rfl⟩, fun _ ↦ htaken.busy⟩

theorem rested_of_over (hover : ∀ t, s.attempts.getLast? = some t → t + policy.cooldown ≤ now) :
    s.wrapper.rested now = true := by
  have hlast : s.wrapper.lastAttempt = s.attempts.getLast? := h.consistent.last
  have hpolicy : s.wrapper.policy = policy := h.consistent.policy_eq
  cases hgot : s.attempts.getLast? with
  | none => simp [Refreshable.rested, hlast, hgot]
  | some t => simpa [Refreshable.rested, hlast, hgot, hpolicy] using hover t hgot

/-- A caller that asks when it may get to connecting gets there by four more acts. -/
theorem gets_to_connect (hc : s.callers[k]? = some c) (hphase : c.phase = .asking)
    (hfree : s.wrapper.busy = false) (hrested : s.wrapper.rested now = true) :
    ∃ s₁, s.step now (.act k) = some s₁ ∧
      ∀ later events' s₂, Run (now, s₁) events' (later, s₂) →
        ∃ c₂, s₂.callers[k]? = some c₂ ∧
          c₂.phase.actsToConnect = some (4 - events'.countP (·.isActOf k)) ∧
          (events'.countP (·.isActOf k) < 4 → ∃ s₃, s₂.step later (.act k) = some s₃) := by
  have hact : s.step now (.act k) = some { s.setPhase k c (.holding now s.wrapper .acquired) with
      wrapper := { s.wrapper with busy := true } } := by
    simp only [step_act hc, act, hphase, Refreshable.acquire_of_not_busy hfree]
  refine ⟨_, hact, fun later events' s₂ run' ↦ ?_⟩
  have hway : OnTheWay k now s.wrapper 4 (s.setPhase k c (.holding now s.wrapper .acquired)) := by
    refine ⟨{ c with phase := .holding now s.wrapper .acquired },
      List.getElem?_set_self (List.getElem?_eq_some_iff.1 hc).1, rfl, fun _ _ _ hp ↦ ?_⟩
    cases hp
    exact ⟨rfl, rfl⟩
  obtain ⟨c₂, hc₂, hn, -⟩ := OnTheWay.run run' hway hrested (h.step hact)
  refine ⟨c₂, hc₂, hn, fun hlt ↦ ?_⟩
  obtain ⟨n, heq⟩ : ∃ n, 4 - events'.countP (·.isActOf k) = n + 1 :=
    ⟨3 - events'.countP (·.isActOf k), by omega⟩
  rw [heq] at hn
  rw [step_act hc₂]
  exact act_of_actsToConnect hn

end Sound

/-- Whoever calls and however their acts come in between: one caller at a time has the right to
refresh, connects do not overlap, attempts keep the cooldown between them, and a caller that asks
when nobody refreshes and the cooldown is over does try to connect. -/
theorem single_flight_with_cooldown {factory : Factory ε} {runtime : Bool}
    {connected : Except ε γ} {s₀ : LiveRefreshable γ ε}
    (hnew : new factory policy runtime connected = .ok s₀)
    (run : Run (start, s₀) events (now, s)) :
    (∀ (j k : Nat) (c d : RefreshCaller γ ε), s.callers[j]? = some c → s.callers[k]? = some d →
      c.phase.isHolding = true → d.phase.isHolding = true → j = k) ∧
    (s.wrapper.busy = true ↔
      ∃ (k : Nat) (c : RefreshCaller γ ε), s.callers[k]? = some c ∧ c.phase.isHolding = true) ∧
    (∀ (j k : Nat) (c d : RefreshCaller γ ε), s.callers[j]? = some c → s.callers[k]? = some d →
      c.phase.isConnecting = true → d.phase.isConnecting = true → j = k) ∧
    s.wrapper.lastAttempt = s.attempts.getLast? ∧
    s.attempts.Pairwise (fun a b ↦ a + policy.cooldown ≤ b) ∧
    (∀ (k : Nat) (c : RefreshCaller γ ε), s.callers[k]? = some c → c.phase = .asking →
      (∀ (j : Nat) (d : RefreshCaller γ ε), s.callers[j]? = some d → d.phase.isHolding = false) →
      (∀ t, s.attempts.getLast? = some t → t + policy.cooldown ≤ now) →
      ∃ s₁, s.step now (.act k) = some s₁ ∧
        ∀ later events' s₂, Run (now, s₁) events' (later, s₂) →
          ∃ c₂, s₂.callers[k]? = some c₂ ∧
            c₂.phase.actsToConnect = some (4 - events'.countP (·.isActOf k)) ∧
            (events'.countP (·.isActOf k) < 4 → ∃ s₃, s₂.step later (.act k) = some s₃)) ∧
    s₀.attempts = [] ∧ ∀ t, s₀.wrapper.state t = .healthy := by
  have hsound : Sound policy now s.callers s.core := (sound_new hnew start).run run
  refine ⟨fun j k c d hc hd hcholding hdholding ↦ hsound.holder_unique hc hd hcholding hdholding,
    hsound.busy_iff, fun j k c d hc hd hcc hdc ↦ hsound.holder_unique hc hd
      (isHolding_of_isConnecting hcc) (isHolding_of_isConnecting hdc),
    hsound.consistent.last, hsound.consistent.spaced, fun k c hc hphase hnobody hover ↦ ?_, ?_, ?_⟩
  · have hfree : s.wrapper.busy = false := by
      by_contra hbusy
      obtain ⟨j, d, hd, hholds⟩ := hsound.busy_iff.1 (by simpa using hbusy)
      rw [hnobody j d hd] at hholds
      cases hholds
    exact hsound.gets_to_connect hc hphase hfree (hsound.rested_of_over hover)
  · obtain ⟨client, -, rfl⟩ := new_eq_ok hnew
    rfl
  · obtain ⟨client, -, rfl⟩ := new_eq_ok hnew
    exact fun _ ↦ rfl

/-- The first attempt fails, and a call from inside it is turned away. The cooldown is just over
when the third caller asks. -/
theorem next_refresh_connects_after_failure :
    ∃ s₀ s : LiveRefreshable Nat String,
      new ⟨"fake", fun _ ↦ true⟩ ⟨10, 60⟩ true (.ok 0) = .ok s₀ ∧
      Run (0, s₀) [.call none .refresh, .act 0, .act 0, .act 0, .act 0, .act 0,
        .call (some 0) .refresh, .act 1, .connected 0 (.error "down"), .act 0, .act 0,
        .call none .refresh] (10, s) ∧
      s.attempts = [0] ∧ s.wrapper.lastAttempt = s.attempts.getLast? ∧
      ∃ s₁, s.step 10 (.act 2) = some s₁ ∧
        ∀ later events' s₂, Run (10, s₁) events' (later, s₂) →
          ∃ c₂, s₂.callers[2]? = some c₂ ∧
            c₂.phase.actsToConnect = some (4 - events'.countP (·.isActOf 2)) := by
  obtain ⟨s₀, hnew, hs₀⟩ : ∃ s₀ : LiveRefreshable Nat String,
      new ⟨"fake", fun _ ↦ true⟩ ⟨10, 60⟩ true (.ok 0) = .ok s₀ ∧
        ∃ s, play (0, s₀) [(0, .call none .refresh), (0, .act 0), (0, .act 0), (0, .act 0),
          (0, .act 0), (0, .act 0), (0, .call (some 0) .refresh), (0, .act 1),
          (0, .connected 0 (.error "down")), (0, .act 0), (0, .act 0),
          (10, .call none .refresh)] = some (10, s) ∧ s.attempts = [0] ∧
          (∃ c, s.callers[2]? = some c ∧ c.phase = .asking) ∧
          s.callers.all (fun c ↦ !c.phase.isHolding) = true :=
    ⟨_, rfl, _, rfl, rfl, ⟨_, rfl, rfl⟩, rfl⟩
  obtain ⟨s, hplay, hattempts, ⟨c, hc, hphase⟩, hnobody⟩ := hs₀
  have run := run_of_play hplay
  obtain ⟨-, -, -, hlast, -, hnext, -⟩ := single_flight_with_cooldown hnew run
  have hquiet (j : Nat) (d : RefreshCaller Nat String) (hd : s.callers[j]? = some d) :
      d.phase.isHolding = false := by
    simpa using List.all_eq_true.1 hnobody d (List.mem_of_getElem? hd)
  have hover (t : Time) (ht : s.attempts.getLast? = some t) : t + 10 ≤ 10 := by
    rw [hattempts] at ht
    cases ht
    decide
  obtain ⟨s₁, hs₁, hway⟩ := hnext 2 c hc hphase hquiet hover
  refine ⟨s₀, s, hnew, run, hattempts, hlast, s₁, hs₁, fun later events' s₂ run' ↦ ?_⟩
  obtain ⟨c₂, hc₂, hn, -⟩ := hway later events' s₂ run'
  exact ⟨c₂, hc₂, hn⟩

end LiveRefreshable

end Outbound
