import Outbound.Proofs.Refresh.Soundness

/-!
# What becomes of a caller

Where a call from inside a connecting stands, which instance an operation was given, and what a
caller comes to that has asked for a refresh, with others doing what they like in between or with
nobody else doing anything.
-/

namespace Outbound

variable {γ ε : Type}

namespace LiveRefreshable

variable {policy : RefreshPolicy} {start now later : Time} {s s' : LiveRefreshable γ ε}
  {callers : List (RefreshCaller γ ε)} {i i' : RefreshCore γ ε} {k : Nat}
  {c c' : RefreshCaller γ ε} {since : Time} {found : Refreshable Nat} {phase : HolderPhase γ}
  {e : Event γ ε} {events : List (Event γ ε)} {x y z : Time × LiveRefreshable γ ε}

theorem Run.trans {events' : List (Event γ ε)} (h : Run x events y) (h' : Run y events' z) :
    Run x (events ++ events') z := by
  induction h' with
  | refl => simpa using h
  | wait _ hle ih => exact ih.wait hle
  | event _ e hs ih =>
    rw [← List.append_assoc]
    exact ih.event e hs

theorem run_of_play {moves : List (Time × Event γ ε)} (h : play x moves = some y) :
    Run x (moves.map (·.2)) y := by
  induction moves generalizing x with
  | nil =>
    cases h
    exact .refl
  | cons move rest ih =>
    obtain ⟨s, hs, hrest⟩ := Option.bind_eq_some_iff.1 h
    have hfirst : Run x [move.2] (x.1 + move.1, s) :=
      (Run.refl.wait (Nat.le_add_right x.1 move.1)).event move.2 hs
    exact hfirst.trans (ih hrest)

/-! ## Numbers of instances -/

theorem current_le_of_turn {p p' : CallerPhase γ ε} (h : Turn now k p i p' i')
    (hi : i.Consistent policy now) : i.wrapper.current ≤ i'.wrapper.current := by
  cases h with
  | aside => exact le_rfl
  | count => exact le_rfl
  | refuse => exact le_rfl
  | acquire => exact le_rfl
  | proceed turn =>
    cases turn with
    | swap client =>
      change i.wrapper.current ≤ i.instances.length
      have := hi.numbered
      omega
    | _ => exact le_rfl
  | release => exact le_rfl

/-- The instances of operations were current when the operations began, and calls from inside a
connecting are made before it ends. -/
structure Orderly (callers : List (RefreshCaller γ ε)) (i : RefreshCore γ ε) : Prop where
  ranOn : ∀ (j : Nat) (c : RefreshCaller γ ε) (n : Nat), callers[j]? = some c → c.ranOn = some n →
    n ≤ i.wrapper.current ∧
      ∀ since found phase, c.phase = .holding since found phase → n ≤ found.current
  executes : ∀ (j : Nat) (c : RefreshCaller γ ε), callers[j]? = some c → c.request = .execute →
    ∃ n, c.ranOn = some n
  recorded : ∀ r ∈ i.refreshes, ∃ c, callers[r.caller]? = some c ∧
    (c.phase = .counting r.outcome ∨ c.phase = .done (some r.outcome)) ∧
      ∀ n, c.ranOn = some n → n ≤ r.found.current
  inside : ∀ (j : Nat) (c : RefreshCaller γ ε) (k : Nat), callers[j]? = some c →
    c.inside = some k → c.phase.isDone = false →
      ∃ d, callers[k]? = some d ∧ d.phase.isConnecting = true

theorem Orderly.add (h : Orderly s.callers s.core) (hc : s.Begun c) :
    Orderly (s.callers ++ [c]) s.core := by
  have hold {j : Nat} {d : RefreshCaller γ ε} (hd : s.callers[j]? = some d) :
      (s.callers ++ [c])[j]? = some d := getElem?_append_of_some hd _
  refine ⟨fun j d n hd hn ↦ ?_, fun j d hd hexecute ↦ ?_, fun r hr ↦ ?_,
    fun j d k hd hinside hdone ↦ ?_⟩
  · rcases getElem?_concat_cases hd with ⟨-, rfl⟩ | hd
    · refine ⟨(hc.ranOn n hn).le, fun since found phase hphase ↦ ?_⟩
      have hnot := hc.not_holding
      rw [hphase] at hnot
      cases hnot
    · exact h.ranOn j d n hd hn
  · rcases getElem?_concat_cases hd with ⟨-, rfl⟩ | hd
    · exact hc.executes hexecute
    · exact h.executes j d hd hexecute
  · obtain ⟨d, hd, hrest⟩ := h.recorded r hr
    exact ⟨d, hold hd, hrest⟩
  · rcases getElem?_concat_cases hd with ⟨-, rfl⟩ | hd
    · have hconnecting := hc.inside k hinside
      obtain ⟨b, hb, hphase⟩ := (Option.any_eq_true _ _).1 hconnecting
      exact ⟨b, hold hb, hphase⟩
    · obtain ⟨b, hb, hphase⟩ := h.inside j d k hd hinside hdone
      exact ⟨b, hold hb, hphase⟩

/-- A caller has the right to refresh after its turn if it had it before, or has just got it. -/
theorem holding_of_turn {p p' : CallerPhase γ ε} (h : Turn now k p i p' i')
    (hp' : p' = .holding since found phase) :
    (∃ phase', p = .holding since found phase') ∨
      p = .asking ∧ since = now ∧ found = i.wrapper ∧ i.wrapper.busy = false := by
  cases h with
  | aside before after => rcases after with rfl | ⟨_, rfl⟩ | rfl <;> cases hp'
  | refuse => cases hp'
  | acquire free =>
    cases hp'
    exact .inr ⟨rfl, rfl, rfl, free⟩
  | proceed turn =>
    cases hp'
    exact .inl ⟨_, rfl⟩
  | release => cases hp'
  | count => cases hp'

/-- A turn adds the record of its own caller, or none. -/
theorem refreshes_of_turn {p p' : CallerPhase γ ε} (h : Turn now k p i p' i') :
    i'.refreshes = i.refreshes ∨
      ∃ r : RefreshRecord, i'.refreshes = i.refreshes ++ [r] ∧ r.caller = k ∧ r.ended = now ∧
        r.left = i'.wrapper ∧
        (p = .asking ∧ p' = .done (some r.outcome) ∧ r.began = now ∧ r.found = i.wrapper ∨
          ∃ phase, p = .holding r.began r.found phase ∧ p' = .counting r.outcome) := by
  cases h with
  | aside => exact .inl rfl
  | refuse busy => exact .inr ⟨_, rfl, rfl, rfl, rfl, .inl ⟨rfl, rfl, rfl, rfl⟩⟩
  | acquire => exact .inl rfl
  | proceed turn => cases turn <;> exact .inl rfl
  | release outcome => exact .inr ⟨_, rfl, rfl, rfl, rfl, .inr ⟨_, rfl, rfl⟩⟩
  | count => exact .inl rfl

/-- A caller whose refresh has ended only counts it. -/
theorem ended_of_turn {p p' : CallerPhase γ ε} {outcome : RefreshOutcome}
    (h : Turn now k p i p' i') (hp : p = .counting outcome ∨ p = .done (some outcome)) :
    p' = .done (some outcome) := by
  cases h with
  | aside before after => rcases before with ⟨_, rfl⟩ | ⟨_, rfl⟩ <;> simp at hp
  | refuse => simp at hp
  | acquire => simp at hp
  | proceed => simp at hp
  | release => simp at hp
  | count outcome => simpa using hp

theorem not_done_of_turn {p p' : CallerPhase γ ε} (h : Turn now k p i p' i') :
    p.isDone = false := by
  cases h with
  | aside before after => rcases before with ⟨_, rfl⟩ | ⟨_, rfl⟩ <;> rfl
  | _ => rfl

theorem Orderly.turn (h : Orderly s.callers s.core) (hs : Sound policy now s.callers s.core)
    (ht : s.HasTurn now k c c' s') : Orderly s'.callers s'.core := by
  have hself : s'.callers[k]? = some c' := by
    rw [ht.callers, List.getElem?_set_self (List.getElem?_eq_some_iff.1 ht.caller).1]
  have hother {j : Nat} (hne : j ≠ k) : s'.callers[j]? = s.callers[j]? := by
    rw [ht.callers, List.getElem?_set_ne hne.symm]
  refine ⟨fun j d n hd hn ↦ ?_, fun j d hd hexecute ↦ ?_, fun r hr ↦ ?_,
    fun j d l hd hinside hdone ↦ ?_⟩
  · have hle := current_le_of_turn ht.turn hs.consistent
    rw [ht.callers] at hd
    rcases getElem?_set_cases hd with ⟨rfl, rfl⟩ | ⟨-, hd⟩
    · obtain ⟨hcurrent, hfound⟩ := h.ranOn j c n ht.caller (ht.ranOn.symm.trans hn)
      refine ⟨hcurrent.trans hle, fun since found phase hphase ↦ ?_⟩
      rcases holding_of_turn ht.turn hphase with ⟨phase', hold⟩ | ⟨-, -, rfl, -⟩
      · exact hfound since found phase' hold
      · exact hcurrent
    · obtain ⟨hcurrent, hfound⟩ := h.ranOn j d n hd hn
      exact ⟨hcurrent.trans hle, hfound⟩
  · rw [ht.callers] at hd
    rcases getElem?_set_cases hd with ⟨rfl, rfl⟩ | ⟨-, hd⟩
    · obtain ⟨n, hn⟩ := h.executes j c ht.caller (ht.request.symm.trans hexecute)
      exact ⟨n, ht.ranOn.trans hn⟩
    · exact h.executes j d hd hexecute
  · have hold (hr : r ∈ s.core.refreshes) : ∃ d, s'.callers[r.caller]? = some d ∧
        (d.phase = .counting r.outcome ∨ d.phase = .done (some r.outcome)) ∧
          ∀ n, d.ranOn = some n → n ≤ r.found.current := by
      obtain ⟨d, hd, hphase, hran⟩ := h.recorded r hr
      by_cases hk : r.caller = k
      · rw [hk] at hd ⊢
        cases ht.caller.symm.trans hd
        exact ⟨c', hself, .inr (ended_of_turn ht.turn hphase),
          fun n hn ↦ hran n (ht.ranOn.symm.trans hn)⟩
      · exact ⟨d, (hother hk).trans hd, hphase, hran⟩
    rcases refreshes_of_turn ht.turn with heq | ⟨r', heq, hk, -, -, hr'⟩
    · rw [heq] at hr
      exact hold hr
    · rw [heq] at hr
      rcases List.mem_append.1 hr with hr | hr
      · exact hold hr
      · cases List.mem_singleton.1 hr
        refine ⟨c', by rw [hk, hself], ?_, fun n hn ↦ ?_⟩
        · rcases hr' with ⟨-, hdone, -, -⟩ | ⟨-, -, hcounting⟩
          · exact .inr hdone
          · exact .inl hcounting
        · obtain ⟨hcurrent, hfound⟩ := h.ranOn k c n ht.caller (ht.ranOn.symm.trans hn)
          rcases hr' with ⟨-, -, -, hr'⟩ | ⟨phase, hphase, -⟩
          · rw [hr']
            exact hcurrent
          · exact hfound _ _ phase hphase
  · -- The caller from inside whose connecting the call is made cannot be the one that has a turn:
    -- it would have waited for the call.
    obtain ⟨d₀, hd₀, hinside₀, hdone₀⟩ : ∃ d₀, s.callers[j]? = some d₀ ∧ d₀.inside = some l ∧
        d₀.phase.isDone = false := by
      rw [ht.callers] at hd
      rcases getElem?_set_cases hd with ⟨rfl, rfl⟩ | ⟨-, hd⟩
      · exact ⟨c, ht.caller, ht.inside.symm.trans hinside, not_done_of_turn ht.turn⟩
      · exact ⟨d, hd, hinside, hdone⟩
    obtain ⟨b, hb, hconnecting⟩ := h.inside j d₀ l hd₀ hinside₀ hdone₀
    by_cases hl : l = k
    · subst hl
      cases ht.caller.symm.trans hb
      have := ht.inside_done hconnecting d₀ (List.mem_of_getElem? hd₀) hinside₀
      rw [hdone₀] at this
      cases this
    · exact ⟨b, (hother hl).trans hb, hconnecting⟩

theorem Orderly.step (h : Orderly s.callers s.core) (hs : Sound policy now s.callers s.core)
    (hstep : s.step now e = some s') : Orderly s'.callers s'.core := by
  rcases step_cases hstep with ⟨hcallers, hcore⟩ | ⟨c, hcallers, hcore, hc⟩ | ⟨k, c, c', hturn⟩
  · rw [hcallers, hcore]
    exact h
  · rw [hcallers, hcore]
    exact h.add hc
  · exact h.turn hs hturn

theorem orderly_of_run {factory : Factory ε} {runtime : Bool} {connected : Except ε γ}
    {s₀ : LiveRefreshable γ ε} (hnew : new factory policy runtime connected = .ok s₀)
    (run : Run (start, s₀) events y) : Orderly y.2.callers y.2.core := by
  induction run with
  | refl =>
    obtain ⟨client, -, rfl⟩ := new_eq_ok hnew
    exact ⟨fun j c n hc ↦ by simp at hc, fun j c hc ↦ by simp at hc,
      fun r hr ↦ (List.not_mem_nil hr).elim, fun j c n hc ↦ by simp at hc⟩
  | wait _ _ ih => exact ih
  | event run e hs ih => exact ih.step ((sound_new hnew start).run run) hs

end LiveRefreshable

end Outbound
