import Outbound.Proofs.Batch.Delivery

/-!
# A batcher that is closed

Closing ends the open window, and that window is the last one. From then on nothing is accepted,
and every timer that is left was awake already and comes too late. All that still happens is that
the callback gets the batches that are on their way.

Outside a runtime closing is as final, but no task can be spawned for the last batch. Its items are
lost, and a panic says so.
-/

namespace Outbound.LiveBatcher

open Relation

variable {α : Type} {limits : BatchLimits} {now : Time} {s s' s'' : LiveBatcher α}

/-- What closing at that time makes of a batcher. -/
structure Closes (now : Time) (s s' : LiveBatcher α) : Prop where
  closed : s'.batcher.closed = true
  emptied : s'.batcher.items = []
  accepted : s'.accepted = s.accepted
  handed : s'.handed = s.handed
  /-- The items of the open window are sent off as the last batch. -/
  windows : s'.windows =
    s.windows ++ if s.batcher.items = [] then [] else [(now, s.batcher.items)]
  leaving : s'.leaving =
    s.leaving ++ if s.batcher.items = [] then [] else [s.windows.length]
  /-- Timers that are not awake are stopped. -/
  stopped : ∀ t ∈ s'.timers, t.phase = .awake
  again : s.batcher.closed = true → s' = s

/-- The batcher is closed, and its timers come too late. -/
structure Stopped (s : LiveBatcher α) : Prop where
  closed : s.batcher.closed = true
  items : s.batcher.items = []
  timers : ∀ t ∈ s.timers, t.phase = .awake ∧ t.generation < s.batcher.generation

/-- All that can happen to a closed batcher. -/
inductive ClosedStep (now : Time) (s : LiveBatcher α) : Event α → LiveBatcher α → Prop where
  | clone : ClosedStep now s .clone { s with handles := s.handles + 1 }
  | drop : ClosedStep now s .drop { s with handles := s.handles - 1 }
  | refused (item : α) : ClosedStep now s (.submit item) s
  | closed : ClosedStep now s .close s
  /-- A timer that closes no window. -/
  | expire (generation : Nat) (ht : ⟨generation, .awake⟩ ∈ s.timers) :
    ClosedStep now s (.expire generation)
      { s with timers := s.timers.erase ⟨generation, .awake⟩ }
  | handOver (number : Nat) (hmem : number ∈ s.leaving) :
    ClosedStep now s (.handOver number)
      { s with
        leaving := s.leaving.erase number
        handed := s.handed ++ [(now, number)] }
  | free : ClosedStep now s .free s

/-- What is true for good of a batcher once it is closed. -/
structure StaysClosed (s s' : LiveBatcher α) : Prop where
  closed : s'.batcher.closed = true
  accepted : s'.accepted = s.accepted
  windows : s'.windows = s.windows
  /-- The callback gets what was on its way, each batch once. -/
  handed : ∃ more, s'.handed = s.handed ++ more ∧
    (more.map (·.2) ++ s'.leaving).Perm s.leaving
  refuses : ∀ item, s'.batcher.submit item = .error .closed
  steps : ∀ now e s'', s'.step now e = some s'' → ClosedStep now s' e s''
  hands_over : ∀ now, ∀ n ∈ s'.leaving, ∃ s'', s'.step now (.handOver n) = some s''

namespace Sound

/-- No timer of a closed batcher belongs to its window, so all of them are awake. -/
theorem stopped (h : Sound limits s) (hclosed : s.batcher.closed = true) : Stopped s where
  closed := hclosed
  items := h.closed hclosed
  timers t ht := by
    have hne := (h.unarmed (h.closed hclosed)).2 t ht
    have hlt := h.generation_lt_of_ne ht hne
    exact ⟨h.stale t ht hlt, hlt⟩

theorem closes (h : Sound limits s) (hs : s.step now .close = some s') : Closes now s s' := by
  have h' := h.step hs
  have hclosed : s'.batcher.closed = true := (closed_step_iff hs).2 (.inr rfl)
  have hemptied : s'.batcher.items = [] := h'.closed hclosed
  have hstopped (t : WindowTimer) (ht : t ∈ s'.timers) : t.phase = .awake :=
    ((h'.stopped hclosed).timers t ht).1
  obtain ⟨-, ⟨⟩⟩ := Option.ite_none_right_eq_some.1 hs
  refine ⟨hclosed, hemptied, accepted_apply _ _ _, handed_apply _ _ _, ?windows, ?leaving, hstopped,
    fun hc ↦ by rw [Batcher.close_of_closed hc, apply_nil]⟩
  all_goals
    cases hc : s.batcher.closed with
    | true =>
      rw [Batcher.close_of_closed hc, apply_nil, if_pos (h.closed hc), List.append_nil]
    | false => rw [Batcher.close_of_open hc, apply_flush]

end Sound

namespace Stopped

/-- A batcher that is closed has no window that could end. -/
theorem closedStep (h : Stopped s) {e : Event α} (hs : s.step now e = some s') :
    ClosedStep now s e s' := by
  cases e with
  | clone =>
    obtain ⟨-, ⟨⟩⟩ := Option.ite_none_right_eq_some.1 hs
    exact .clone
  | drop =>
    obtain ⟨-, ⟨⟩⟩ := Option.ite_none_right_eq_some.1 hs
    exact .drop
  | submit item =>
    obtain ⟨-, hs⟩ := Option.ite_none_right_eq_some.1 hs
    rw [Batcher.submit_of_closed h.closed] at hs
    cases hs
    exact .refused item
  | close =>
    obtain ⟨-, ⟨⟩⟩ := Option.ite_none_right_eq_some.1 hs
    rw [Batcher.close_of_closed h.closed, apply_nil]
    exact .closed
  | sleep generation =>
    obtain ⟨ht, -⟩ := Option.ite_none_right_eq_some.1 hs
    cases (h.timers _ ht).1
  | wake generation due =>
    obtain ⟨⟨ht, -⟩, -⟩ := Option.ite_none_right_eq_some.1 hs
    cases (h.timers _ ht).1
  | expire generation =>
    obtain ⟨ht, ⟨⟩⟩ := Option.ite_none_right_eq_some.1 hs
    have hlt : generation < s.batcher.generation := (h.timers _ ht).2
    rw [Batcher.expire_of_ne (Nat.ne_of_gt hlt), apply_nil]
    exact .expire generation ht
  | handOver number =>
    obtain ⟨hmem, ⟨⟩⟩ := Option.ite_none_right_eq_some.1 hs
    exact .handOver number hmem
  | free =>
    obtain ⟨-, ⟨⟩⟩ := Option.ite_none_right_eq_some.1 hs
    have hsame : ({ s with
        batcher := { s.batcher with items := [] }
        lost := s.lost ++ s.batcher.items } : LiveBatcher α) = s := by
      rw [h.items, List.append_nil, ← h.items]
    rw [hsame]
    exact .free

theorem step (h : Stopped s) {e : Event α} (hs : s.step now e = some s') : Stopped s' := by
  cases h.closedStep hs with
  | expire generation ht =>
    exact ⟨h.closed, h.items, fun t ht ↦ h.timers t (List.mem_of_mem_erase ht)⟩
  | _ => exact ⟨h.closed, h.items, h.timers⟩

theorem staysClosed_refl (h : Stopped s) : StaysClosed s s where
  closed := h.closed
  accepted := rfl
  windows := rfl
  handed := ⟨[], (List.append_nil _).symm, .refl _⟩
  refuses := Batcher.submit_of_closed h.closed
  steps _ _ _ hs := h.closedStep hs
  hands_over _ _ hn := ⟨_, if_pos hn⟩

end Stopped

theorem StaysClosed.step (h : StaysClosed s s') (hstopped : Stopped s') {e : Event α}
    (hs : s'.step now e = some s'') : StaysClosed s s'' := by
  obtain ⟨more, hhanded, hperm⟩ := h.handed
  have hsame (haccepted : s''.accepted = s'.accepted) (hwindows : s''.windows = s'.windows)
      (hhanded' : s''.handed = s'.handed) (hleaving : s''.leaving = s'.leaving) :
      StaysClosed s s'' :=
    { (hstopped.step hs).staysClosed_refl with
      accepted := haccepted.trans h.accepted
      windows := hwindows.trans h.windows
      handed := ⟨more, hhanded'.trans hhanded, hleaving ▸ hperm⟩ }
  cases h.steps _ _ _ hs with
  | handOver number hmem =>
    refine { (hstopped.step hs).staysClosed_refl with
      accepted := h.accepted
      windows := h.windows
      handed := ⟨more ++ [(now, number)], ?_, ?_⟩ }
    · rw [hhanded, List.append_assoc]
    · rw [List.map_append, List.append_assoc]
      exact ((List.perm_cons_erase hmem).symm.append_left _).trans hperm
  | _ => exact hsame rfl rfl rfl rfl

theorem stopped_of_run {x y : Time × LiveBatcher α} (run : ReflTransGen Move x y)
    (h : Stopped x.2) : Stopped y.2 := by
  induction run with
  | refl => exact h
  | tail _ hm ih =>
    cases hm with
    | wait _ => exact ih
    | event e hs => exact ih.step hs

theorem staysClosed_of_run {x y : Time × LiveBatcher α} (run : ReflTransGen Move x y)
    (h : Stopped x.2) : StaysClosed x.2 y.2 := by
  induction run with
  | refl => exact h.staysClosed_refl
  | tail run hm ih =>
    cases hm with
    | wait _ => exact ih
    | event e hs => exact ih.step (stopped_of_run run h) hs

/-! ## Outside a runtime -/

/-- Up to the last batch it makes no difference whether there is a runtime. -/
theorem closeOutside_eq (h : Sound limits s) (now : Time) :
    s.closeOutside now =
      ({ s with
          batcher := s.batcher.close.1
          timers := (s.apply now s.batcher.close).timers
          lost := s.batcher.items },
        s.batcher.items.isEmpty) := by
  have hlost := h.nothing_lost
  cases hc : s.batcher.closed with
  | true =>
    have hitems := h.closed hc
    have hsame : ({ s with lost := [] } : LiveBatcher α) = s := by rw [← hlost]
    simp only [closeOutside, Batcher.close_of_closed hc, apply_nil, performOutside, hitems, hsame,
      List.isEmpty_nil]
  | false =>
    have hclose := Batcher.close_of_open hc
    cases hitems : s.batcher.items <;> cases htimer : s.batcher.timer <;>
      simp [closeOutside, apply, hclose, Batcher.flush, Batcher.closeWindow, Batcher.dispatch,
        performOutside, perform, hitems, htimer, hlost]

/-- Closing outside a runtime is final as well, but what the open window held is lost for good, and
it ends in a panic exactly if that was anything. -/
theorem window_lost_outside_runtime {start : Time}
    (run : ReflTransGen Move (start, new limits) (now, s)) :
    ∃ s', s.closeOutside now = (s', s.batcher.items.isEmpty) ∧ s'.lost = s.batcher.items ∧
      s'.windows = s.windows ∧ s'.leaving = s.leaving ∧ s'.handed = s.handed ∧
      ∀ y, ReflTransGen Move (now, s') y → StaysClosed s' y.2 := by
  have h := sound_of_run run (sound_new limits)
  have hbatcher := batcher_apply now s s.batcher.close
  have hclosed : (s.apply now s.batcher.close).batcher.closed = true := by
    rw [hbatcher, Batcher.closed_close]
  have hstopped := h.close.stopped hclosed
  refine ⟨_, closeOutside_eq h now, rfl, rfl, rfl, rfl, fun y later ↦ ?_⟩
  exact staysClosed_of_run later
    ⟨hbatcher ▸ hstopped.closed, hbatcher ▸ hstopped.items, hbatcher ▸ hstopped.timers⟩

end Outbound.LiveBatcher
