import Mathlib
import Outbound.Proofs.Lookup
import Outbound.Refresh.Live

/-!
# What a caller can do in a turn

A step of a self-healing client is a new caller, a turn of one caller, or nothing that a refresh
looks at. A turn changes the phase of its caller and perhaps what refreshes work on.
-/

namespace Outbound

/-- What refreshes work on. -/
structure RefreshCore (γ ε : Type) where
  wrapper : Refreshable Nat
  instances : List γ
  connects : List (Except ε γ)
  attempts : List Time
  refreshes : List RefreshRecord

variable {γ ε : Type}

/-- What a turn of the caller with the right to refresh does to its phase and to the core. -/
inductive HolderTurn (now : Time) :
    HolderPhase γ → RefreshCore γ ε → HolderPhase γ → RefreshCore γ ε → Prop where
  | rest {i : RefreshCore γ ε} (rested : i.wrapper.rested now = true) :
    HolderTurn now .acquired i .rested i
  | cool {i : RefreshCore γ ε} (cooling : i.wrapper.rested now = false) :
    HolderTurn now .acquired i (.leaving .cooldown) i
  | time {i : RefreshCore γ ε} : HolderTurn now .rested i (.timed now) i
  | stamp {i : RefreshCore γ ε} (time : Time) :
    HolderTurn now (.timed time) i .stamped
      { i with wrapper := i.wrapper.stamp time, attempts := i.attempts ++ [time] }
  | connect {i : RefreshCore γ ε} : HolderTurn now .stamped i .connecting i
  | connected {i : RefreshCore γ ε} (client : γ) :
    HolderTurn now .connecting i (.connected client)
      { i with connects := i.connects ++ [.ok client] }
  | failed {i : RefreshCore γ ε} (failure : ε) :
    HolderTurn now .connecting i (.leaving .failed)
      { i with connects := i.connects ++ [.error failure] }
  | swap {i : RefreshCore γ ε} (client : γ) :
    HolderTurn now (.connected client) i (.swapped i.wrapper.current)
      { i with wrapper := i.wrapper.swap i.instances.length, instances := i.instances ++ [client] }
  | count {i : RefreshCore γ ε} (old : Nat) :
    HolderTurn now (.swapped old) i (.counted old)
      { i with wrapper := i.wrapper.countReplacement }
  | retire {i : RefreshCore γ ε} (old : Nat) :
    HolderTurn now (.counted old) i (.leaving .refreshed) i

/-- What a turn of a caller does to its phase and to the core. -/
inductive Turn (now : Time) (k : Nat) :
    CallerPhase γ ε → RefreshCore γ ε → CallerPhase γ ε → RefreshCore γ ε → Prop where
  | aside {p p' : CallerPhase γ ε} {i : RefreshCore γ ε}
    (before : (∃ client, p = .operating client) ∨ ∃ failure, p = .observing failure)
    (after : p' = .asking ∨ (∃ failure, p' = .observing failure) ∨ p' = .done none) :
    Turn now k p i p' i
  | refuse {i : RefreshCore γ ε} (busy : i.wrapper.busy = true) :
    Turn now k .asking i (.done (some .inProgress))
      { i with refreshes := i.refreshes ++ [⟨k, now, i.wrapper, now, i.wrapper, .inProgress⟩] }
  | acquire {i : RefreshCore γ ε} (free : i.wrapper.busy = false) :
    Turn now k .asking i (.holding now i.wrapper .acquired)
      { i with wrapper := { i.wrapper with busy := true } }
  | proceed {since : Time} {found : Refreshable Nat} {phase phase' : HolderPhase γ}
    {i i' : RefreshCore γ ε} (turn : HolderTurn now phase i phase' i') :
    Turn now k (.holding since found phase) i (.holding since found phase') i'
  | release {since : Time} {found : Refreshable Nat} {i : RefreshCore γ ε}
    (outcome : RefreshOutcome) :
    Turn now k (.holding since found (.leaving outcome)) i (.counting outcome)
      { i with
        wrapper := i.wrapper.release
        refreshes := i.refreshes ++ [⟨k, since, found, now, i.wrapper.release, outcome⟩] }
  | count {i : RefreshCore γ ε} (outcome : RefreshOutcome) :
    Turn now k (.counting outcome) i (.done (some outcome)) i

namespace LiveRefreshable

variable {now : Time} {s s' : LiveRefreshable γ ε} {k : Nat} {c : RefreshCaller γ ε}
  {e : Event γ ε}

def core (s : LiveRefreshable γ ε) : RefreshCore γ ε :=
  ⟨s.wrapper, s.instances, s.connects, s.attempts, s.refreshes⟩

/-- A caller has its turn. It keeps what it wants, from where it calls, and its instance. -/
structure HasTurn (now : Time) (s : LiveRefreshable γ ε) (k : Nat) (c c' : RefreshCaller γ ε)
    (s' : LiveRefreshable γ ε) : Prop where
  caller : s.callers[k]? = some c
  callers : s'.callers = s.callers.set k c'
  inside : c'.inside = c.inside
  request : c'.request = c.request
  ranOn : c'.ranOn = c.ranOn
  turn : Turn now k c.phase s.core c'.phase s'.core
  /-- Connecting does not end before the calls from inside have. -/
  inside_done : c.phase.isConnecting = true →
    ∀ d ∈ s.callers, d.inside = some k → d.phase.isDone = true

/-- A caller that has just begun. -/
structure Begun (s : LiveRefreshable γ ε) (c : RefreshCaller γ ε) : Prop where
  not_holding : c.phase.isHolding = false
  phase : (∃ client, c.phase = .operating client) ∨ (∃ failure, c.phase = .observing failure) ∨
    c.phase = .asking
  ranOn : ∀ n, c.ranOn = some n → n = s.wrapper.current
  executes : c.request = .execute → ∃ n, c.ranOn = some n
  inside : ∀ k, c.inside = some k → s.isConnecting k = true

theorem begun_begin (s : LiveRefreshable γ ε) (inside : Option Nat) (request : RefreshRequest ε)
    (h : inside.all s.isConnecting = true) :
    ∃ c, (s.begin inside request).callers = s.callers ++ [c] ∧
      (s.begin inside request).core = s.core ∧ s.Begun c := by
  have hinside : ∀ k, inside = some k → s.isConnecting k = true := by
    rintro k rfl
    exact h
  cases request with
  | execute =>
    refine ⟨_, rfl, rfl, rfl, .inl ⟨_, rfl⟩, ?_, fun _ ↦ ⟨_, rfl⟩, hinside⟩
    intro n hn
    exact (Option.some.inj hn).symm
  | observe failure =>
    exact ⟨_, rfl, rfl, rfl, .inr (.inl ⟨failure, rfl⟩), nofun, nofun, hinside⟩
  | refresh => exact ⟨_, rfl, rfl, rfl, .inr (.inr rfl), nofun, nofun, hinside⟩

theorem core_retire (now : Time) (s : LiveRefreshable γ ε) (old : Nat) :
    (s.retire now old).core = s.core := by
  simp only [retire]
  split <;> rfl

theorem callers_retire (now : Time) (s : LiveRefreshable γ ε) (old : Nat) :
    (s.retire now old).callers = s.callers := by
  simp only [retire]
  split <;> rfl

/-- An act of a caller that has the right to refresh. -/
theorem turn_of_actHolding {since : Time} {found : Refreshable Nat} {phase : HolderPhase γ}
    (hs : s.actHolding now k c since found phase = some s') :
    (CallerPhase.holding since found phase : CallerPhase γ ε).isConnecting = false ∧
      ∃ p', s'.callers = s.callers.set k { c with phase := p' } ∧
        Turn now k (.holding since found phase) s.core p' s'.core := by
  cases phase with
  | acquired =>
    cases hs
    refine ⟨rfl, _, rfl, ?_⟩
    cases hrested : s.wrapper.rested now with
    | false => exact .proceed (.cool hrested)
    | true => exact .proceed (.rest hrested)
  | rested => cases hs; exact ⟨rfl, _, rfl, .proceed .time⟩
  | timed time => cases hs; exact ⟨rfl, _, rfl, .proceed (.stamp time)⟩
  | stamped => cases hs; exact ⟨rfl, _, rfl, .proceed .connect⟩
  | connecting => cases hs
  | connected client => cases hs; exact ⟨rfl, _, rfl, .proceed (.swap client)⟩
  | swapped old => cases hs; exact ⟨rfl, _, rfl, .proceed (.count old)⟩
  | counted old =>
    cases hs
    refine ⟨rfl, _, callers_retire _ _ _, ?_⟩
    rw [core_retire]
    exact .proceed (.retire old)
  | leaving outcome => cases hs; exact ⟨rfl, _, rfl, .release outcome⟩

theorem turn_of_act (hs : s.act now k c = some s') :
    c.phase.isConnecting = false ∧ ∃ p', s'.callers = s.callers.set k { c with phase := p' } ∧
      Turn now k c.phase s.core p' s'.core := by
  simp only [act] at hs
  cases hphase : c.phase with
  | operating client => simp [hphase] at hs
  | observing failure =>
    simp only [hphase, Option.some.injEq] at hs
    subst hs
    refine ⟨rfl, _, rfl, .aside (.inr ⟨failure, rfl⟩) ?_⟩
    split
    · exact .inl rfl
    · exact .inr (.inr rfl)
  | asking =>
    simp only [hphase] at hs
    cases hbusy : s.wrapper.busy with
    | true =>
      simp only [Refreshable.acquire, hbusy, if_true, Option.some.injEq] at hs
      subst hs
      exact ⟨rfl, _, rfl, .refuse hbusy⟩
    | false =>
      simp only [Refreshable.acquire, hbusy, Bool.false_eq_true, if_false, Option.some.injEq] at hs
      subst hs
      exact ⟨rfl, _, rfl, .acquire hbusy⟩
  | holding since found phase =>
    simp only [hphase] at hs
    exact turn_of_actHolding hs
  | counting outcome =>
    simp only [hphase, Option.some.injEq] at hs
    subst hs
    exact ⟨rfl, _, rfl, .count outcome⟩
  | done outcome => simp [hphase] at hs

theorem quiet_of_actGrace {n : Nat} {grace : Grace} (hs : s.actGrace now n grace = some s') :
    s'.callers = s.callers ∧ s'.core = s.core := by
  simp only [actGrace] at hs
  split at hs
  · cases hs
    exact ⟨rfl, rfl⟩
  · split at hs
    · cases hs
      exact ⟨rfl, rfl⟩
    · cases hs
  · cases hs

/-- What a step does to the callers and to the core. -/
theorem step_cases (hs : s.step now e = some s') :
    (s'.callers = s.callers ∧ s'.core = s.core) ∨
      (∃ c, s'.callers = s.callers ++ [c] ∧ s'.core = s.core ∧ s.Begun c) ∨
      ∃ k c c', s.HasTurn now k c c' s' := by
  cases e with
  | call inside request =>
    obtain ⟨hinside, heq⟩ := Option.ite_none_right_eq_some.1 hs
    cases heq
    exact .inr (.inl (begun_begin s inside request hinside))
  | finish k failure =>
    obtain ⟨c, hc, hs⟩ := Option.bind_eq_some_iff.1 hs
    split at hs
    · rename_i client hphase
      cases hs
      refine .inr (.inr ⟨k, c, _, hc, rfl, rfl, rfl, rfl, ?_, fun h ↦ ?_⟩)
      · rw [hphase]
        refine .aside (.inl ⟨client, rfl⟩) ?_
        cases failure with
        | none => exact .inr (.inr rfl)
        | some failure => exact .inr (.inl ⟨failure, rfl⟩)
      · rw [hphase] at h
        cases h
    · cases hs
  | abandon k =>
    obtain ⟨c, hc, hs⟩ := Option.bind_eq_some_iff.1 hs
    split at hs
    · rename_i client hphase
      cases hs
      refine .inr (.inr ⟨k, c, _, hc, rfl, rfl, rfl, rfl, ?_, fun h ↦ ?_⟩)
      · rw [hphase]
        exact .aside (.inl ⟨client, rfl⟩) (.inr (.inr rfl))
      · rw [hphase] at h
        cases h
    · cases hs
  | act k =>
    obtain ⟨c, hc, hs⟩ := Option.bind_eq_some_iff.1 hs
    obtain ⟨hconnecting, p', hcallers, hturn⟩ := turn_of_act hs
    exact .inr <| .inr
      ⟨k, c, _, hc, hcallers, rfl, rfl, rfl, hturn, fun h ↦ by simp [hconnecting] at h⟩
  | connected k result =>
    obtain ⟨c, hc, hs⟩ := Option.bind_eq_some_iff.1 hs
    split at hs
    · rename_i since found hphase
      split at hs
      · cases hs
      · rename_i hnested
        cases hs
        refine .inr (.inr ⟨k, c, _, hc, rfl, rfl, rfl, rfl, ?_, fun _ d hd hinside ↦ ?_⟩)
        · rw [hphase]
          cases result with
          | error failure => exact .proceed (.failed failure)
          | ok client => exact .proceed (.connected client)
        · cases hdone : d.phase.isDone with
          | true => rfl
          | false => exact absurd (List.any_eq_true.2 ⟨d, hd, by simp [hinside, hdone]⟩) hnested
    · cases hs
  | hold => cases hs; exact .inl ⟨rfl, rfl⟩
  | letGo client =>
    obtain ⟨-, heq⟩ := Option.ite_none_right_eq_some.1 hs
    cases heq
    exact .inl ⟨rfl, rfl⟩
  | grace n =>
    obtain ⟨grace, -, hs⟩ := Option.bind_eq_some_iff.1 hs
    exact .inl (quiet_of_actGrace hs)

end LiveRefreshable

end Outbound
