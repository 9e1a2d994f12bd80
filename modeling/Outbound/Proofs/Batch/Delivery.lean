import Outbound.Proofs.Batch.Windows
import Outbound.Proofs.Lookup

/-!
# Every accepted item is handed over once

The tasks that a batcher spawned have a bounded amount of work left, and each of their acts does
some of it. When nothing is left, the open window has been closed by its timer and all batches are
with the callback. That needs no handle: the timer of an open window holds on to the batcher.
-/

namespace Outbound

/-- The acts that a timer task has before it. -/
def TimerPhase.remaining : TimerPhase → Nat
  | spawned => 3
  | sleeping _ => 2
  | awake => 1

namespace LiveBatcher

open Relation

variable {α : Type} {limits : BatchLimits} {now : Time} {s s' : LiveBatcher α}

/-- No task is left that could act, now or later. -/
def Quiet (s : LiveBatcher α) : Prop :=
  ∀ (now : Time) (e : Event α), e.isTask = true → s.step now e = none

/-- The work of the tasks, where handing over a batch is worth `weight`. -/
def work (weight : List α → Nat) (s : LiveBatcher α) : Nat :=
  (s.timers.map fun t ↦ t.phase.remaining).sum +
    (s.leaving.map fun n ↦ weight ((s.batch? n).getD [])).sum +
    if s.batcher.items = [] then 0 else weight s.batcher.items

/-- The batches that the callback got, in this order. -/
def dispatched (s : LiveBatcher α) : List (List α) :=
  s.handed.filterMap fun x ↦ s.batch? x.2

/-- Once no window is open or on its way, the batches hold what was accepted. -/
theorem Sound.sum_dispatched (h : Sound limits s) (hitems : s.batcher.items = [])
    (hleaving : s.leaving = []) : (s.dispatched.map List.length).sum = s.accepted.length := by
  have hnumbers : (s.handed.map (·.2)).Perm (List.range s.windows.length) := by
    have honce := h.handed_once
    rwa [hleaving, List.append_nil] at honce
  have hall : (List.range s.windows.length).filterMap s.batch? = s.windows.map (·.2) := by
    conv_rhs => rw [← filterMap_getElem?_range s.windows, List.map_filterMap]
    rfl
  have hperm : s.dispatched.Perm (s.windows.map (·.2)) := by
    rw [← hall, dispatched, ← Function.comp_def s.batch? Prod.snd, ← List.filterMap_map]
    exact hnumbers.filterMap s.batch?
  have hkept := congrArg List.length h.kept
  rw [hitems, List.append_nil, List.length_map, List.length_flatMap] at hkept
  rw [(hperm.map List.length).sum_nat, List.map_map]
  exact hkept

theorem Quiet.timers_eq_nil (h : s.Quiet) : s.timers = [] := by
  rcases htimers : s.timers with _ | ⟨⟨generation, phase⟩, rest⟩
  · rfl
  · have hmem : ⟨generation, phase⟩ ∈ s.timers := by
      rw [htimers]
      exact List.mem_cons_self
    cases phase with
    | spawned =>
      have hnone := h 0 (.sleep generation) rfl
      simp [step, hmem] at hnone
    | sleeping due =>
      have hnone := h due (.wake generation due) rfl
      simp [step, hmem] at hnone
    | awake =>
      have hnone := h 0 (.expire generation) rfl
      simp [step, hmem] at hnone

theorem Quiet.leaving_eq_nil (h : s.Quiet) : s.leaving = [] := by
  rcases hleaving : s.leaving with _ | ⟨number, rest⟩
  · rfl
  · have hnone := h 0 (.handOver number) rfl
    simp [step, hleaving] at hnone

/-- Unless all is quiet, time and one act of a task lead on. -/
theorem exists_taskMove_of_not_quiet (now : Time) (h : ¬s.Quiet) :
    ∃ later e s', now ≤ later ∧ e.isTask = true ∧ s.step later e = some s' := by
  simp only [Quiet, not_forall] at h
  obtain ⟨t, e, htask, hstep⟩ := h
  obtain ⟨s', hs⟩ := Option.ne_none_iff_exists'.1 hstep
  cases e with
  | sleep generation =>
    obtain ⟨ht, -⟩ := Option.ite_none_right_eq_some.1 hs
    exact ⟨now, .sleep generation, _, Nat.le_refl _, rfl, if_pos ht⟩
  | wake generation due =>
    obtain ⟨⟨ht, -⟩, -⟩ := Option.ite_none_right_eq_some.1 hs
    exact ⟨max now due, .wake generation due, _, Nat.le_max_left _ _, rfl,
      if_pos ⟨ht, Nat.le_max_right _ _⟩⟩
  | expire generation =>
    obtain ⟨ht, -⟩ := Option.ite_none_right_eq_some.1 hs
    exact ⟨now, .expire generation, _, Nat.le_refl _, rfl, if_pos ht⟩
  | handOver number =>
    obtain ⟨hmem, -⟩ := Option.ite_none_right_eq_some.1 hs
    exact ⟨now, .handOver number, _, Nat.le_refl _, rfl, if_pos hmem⟩
  | _ => cases htask

/-! ## What tasks do -/

theorem sum_remaining_erase {timers : List WindowTimer} {t : WindowTimer} (ht : t ∈ timers) :
    ((timers.erase t).map fun u ↦ u.phase.remaining).sum + t.phase.remaining =
      (timers.map fun u ↦ u.phase.remaining).sum := by
  have hperm := ((List.perm_cons_erase ht).map fun u ↦ u.phase.remaining).sum_nat
  rw [List.map_cons, List.sum_cons] at hperm
  omega

/-- The window of an awake timer is closed, if it is still open, and nothing else happens. -/
theorem Sound.expire_cases (h : Sound limits s) {generation : Nat}
    (ht : ⟨generation, .awake⟩ ∈ s.timers) (hs : s.step now (.expire generation) = some s') :
    (generation < s.batcher.generation ∧
        s' = { s with timers := s.timers.erase ⟨generation, .awake⟩ }) ∨
      (generation = s.batcher.generation ∧ s.batcher.items ≠ [] ∧
        s' = { s with
          batcher := s.batcher.flush.1
          timers := s.timers.erase ⟨generation, .awake⟩
          windows := s.windows ++ [(now, s.batcher.items)]
          leaving := s.leaving ++ [s.windows.length] }) := by
  obtain ⟨-, ⟨⟩⟩ := Option.ite_none_right_eq_some.1 hs
  by_cases hgen : generation = s.batcher.generation
  · refine .inr ⟨hgen, fun hitems ↦ (h.unarmed hitems).2 _ ht hgen, ?_⟩
    have hitems : s.batcher.items ≠ [] := fun hitems ↦ (h.unarmed hitems).2 _ ht hgen
    subst hgen
    have hall (timers : List WindowTimer) :
        timers.filter (fun t ↦ none != some t.generation || t.phase == .awake) = timers := by
      rw [List.filter_eq_self]
      intro t _
      rfl
    rw [Batcher.expire_self, apply_flush]
    simp only [hitems, if_false, hall]
    rfl
  · have hne : s.batcher.generation ≠ generation := fun heq ↦ hgen heq.symm
    refine .inl ⟨h.generation_lt_of_ne ht hgen, ?_⟩
    rw [Batcher.expire_of_ne hne, apply_nil]

/-- An act of a task accepts nothing and needs no handle. It leaves the windows alone or closes
the open one. -/
theorem Sound.task_step (h : Sound limits s) {e : Event α} (task : e.isTask = true)
    (hs : s.step now e = some s') :
    s'.accepted = s.accepted ∧ s'.handles = s.handles ∧
      ((s'.batcher.items = s.batcher.items ∧ s'.windows = s.windows) ∨
        (s.batcher.items ≠ [] ∧ s'.batcher.items = [] ∧
          s'.windows = s.windows ++ [(now, s.batcher.items)])) := by
  cases e with
  | sleep generation =>
    obtain ⟨-, ⟨⟩⟩ := Option.ite_none_right_eq_some.1 hs
    exact ⟨rfl, rfl, .inl ⟨rfl, rfl⟩⟩
  | wake generation due =>
    obtain ⟨-, ⟨⟩⟩ := Option.ite_none_right_eq_some.1 hs
    exact ⟨rfl, rfl, .inl ⟨rfl, rfl⟩⟩
  | expire generation =>
    obtain ⟨ht, -⟩ := Option.ite_none_right_eq_some.1 hs
    rcases h.expire_cases ht hs with ⟨-, rfl⟩ | ⟨-, hitems, rfl⟩
    · exact ⟨rfl, rfl, .inl ⟨rfl, rfl⟩⟩
    · exact ⟨rfl, rfl, .inr ⟨hitems, rfl, rfl⟩⟩
  | handOver number =>
    obtain ⟨-, ⟨⟩⟩ := Option.ite_none_right_eq_some.1 hs
    exact ⟨rfl, rfl, .inl ⟨rfl, rfl⟩⟩
  | _ => cases task

/-- Handing over a batch takes its weight from the work, any other act of a task takes one. -/
theorem Sound.work_step (h : Sound limits s) (weight : List α → Nat) {e : Event α}
    (task : e.isTask = true) (hs : s.step now e = some s') :
    match e with
    | .handOver number => s'.work weight + weight ((s.batch? number).getD []) = s.work weight
    | _ => s'.work weight + 1 = s.work weight := by
  cases e with
  | sleep generation =>
    obtain ⟨ht, ⟨⟩⟩ := Option.ite_none_right_eq_some.1 hs
    have hsum := sum_remaining_erase ht
    simp only [work, List.map_cons, List.sum_cons, TimerPhase.remaining, batch?] at hsum ⊢
    omega
  | wake generation due =>
    obtain ⟨⟨ht, -⟩, ⟨⟩⟩ := Option.ite_none_right_eq_some.1 hs
    have hsum := sum_remaining_erase ht
    simp only [work, List.map_cons, List.sum_cons, TimerPhase.remaining, batch?] at hsum ⊢
    omega
  | expire generation =>
    obtain ⟨ht, -⟩ := Option.ite_none_right_eq_some.1 hs
    have hsum := sum_remaining_erase ht
    rcases h.expire_cases ht hs with ⟨-, rfl⟩ | ⟨-, hitems, rfl⟩
    · simp only [work, TimerPhase.remaining, batch?] at hsum ⊢
      omega
    · -- What was due for the open window is now due for the last of the closed ones.
      have hold : s.leaving.map (fun n ↦
          weight (((s.windows ++ [(now, s.batcher.items)])[n]?.map (·.2)).getD [])) =
          s.leaving.map fun n ↦ weight ((s.windows[n]?.map (·.2)).getD []) := by
        apply List.map_congr_left
        intro n hn
        rw [List.getElem?_append_left (h.lt_of_mem_leaving hn)]
      simp only [work, batch?, List.map_append, List.sum_append, hold, hitems, if_false,
        Batcher.items_flush, if_true, TimerPhase.remaining] at hsum ⊢
      simp
      omega
  | handOver number =>
    obtain ⟨hmem, ⟨⟩⟩ := Option.ite_none_right_eq_some.1 hs
    have hsum := ((List.perm_cons_erase hmem).map fun n ↦
      weight ((s.batch? n).getD [])).sum_nat
    simp only [List.map_cons, List.sum_cons] at hsum
    simp only [work, batch?] at hsum ⊢
    omega
  | _ => cases task

theorem Sound.work_lt (h : Sound limits s) {e : Event α} (task : e.isTask = true)
    (hs : s.step now e = some s') : s'.work (fun _ ↦ 1) < s.work fun _ ↦ 1 := by
  have hwork := h.work_step (fun _ ↦ 1) task hs
  split at hwork <;> omega

/-! ## Runs of tasks -/

theorem exists_quiet (now : Time) (h : Sound limits s) :
    ∃ later s', ReflTransGen TaskMove (now, s) (later, s') ∧ s'.Quiet := by
  induction hwork : s.work (fun _ ↦ 1) using Nat.strongRecOn generalizing s now with
  | ind n ih =>
    by_cases hquiet : s.Quiet
    · exact ⟨now, s, .refl, hquiet⟩
    · obtain ⟨later, e, s₁, hle, task, hs⟩ := exists_taskMove_of_not_quiet now hquiet
      have hlt := h.work_lt task hs
      rw [hwork] at hlt
      obtain ⟨last, s', hrun, hquiet⟩ := ih _ hlt later (h.step hs) rfl
      exact ⟨last, s', .head (.wait hle) (.head (.event e task hs) hrun), hquiet⟩

theorem task_run {x y : Time × LiveBatcher α} (run : ReflTransGen TaskMove x y)
    (h : Sound limits x.2) :
    Sound limits y.2 ∧ y.2.accepted = x.2.accepted ∧ y.2.handles = x.2.handles ∧
      ((y.2.batcher.items = x.2.batcher.items ∧ y.2.windows = x.2.windows) ∨
        (x.2.batcher.items ≠ [] ∧ y.2.batcher.items = [] ∧
          ∃ t, y.2.windows = x.2.windows ++ [(t, x.2.batcher.items)])) := by
  induction run with
  | refl => exact ⟨h, rfl, rfl, .inl ⟨rfl, rfl⟩⟩
  | tail _ hm ih =>
    obtain ⟨hsound, haccepted, hhandles, hwindows⟩ := ih
    cases hm with
    | wait _ => exact ⟨hsound, haccepted, hhandles, hwindows⟩
    | event e task hs =>
      obtain ⟨haccepted', hhandles', hstep⟩ := hsound.task_step task hs
      refine ⟨hsound.step hs, haccepted'.trans haccepted, hhandles'.trans hhandles, ?_⟩
      rcases hstep with ⟨hitems', hwindows'⟩ | ⟨hitems, hnil, hclose⟩
      · rw [hitems', hwindows']
        exact hwindows
      · rcases hwindows with ⟨hitems', hwindows'⟩ | ⟨_, hnil', _⟩
        · rw [hitems'] at hitems
          rw [hitems', hwindows'] at hclose
          exact .inr ⟨hitems, hnil, _, hclose⟩
        · exact absurd hnil' hitems

/-- Whatever submitters, those who close, handles, the clock and timers did so far: the items of
the closed windows and then those of the open one are the accepted items in their order; the
callback gets each batch once, and no batch is empty or too large. From then on the tasks alone,
whatever handles are left, get through their work, and in the end all accepted items have been
handed over, those of the open window in one batch. -/
theorem every_item_handed_once {start now : Time} {s : LiveBatcher α}
    (run : ReflTransGen Move (start, new limits) (now, s)) :
    s.windows.flatMap (·.2) ++ s.batcher.items = s.accepted.map (·.2) ∧
      (s.handed.map (·.2) ++ s.leaving).Perm (List.range s.windows.length) ∧
      (∀ w ∈ s.windows, 1 ≤ w.2.length ∧ w.2.length ≤ limits.normalized.maxCount) ∧
      s.lost = [] ∧
      (∃ later s', ReflTransGen TaskMove (now, s) (later, s') ∧ s'.Quiet) ∧
      ∀ later s', ReflTransGen TaskMove (now, s) (later, s') → s'.Quiet →
        s'.handles = s.handles ∧ s'.accepted = s.accepted ∧
        (∃ t, s'.windows =
          s.windows ++ if s.batcher.items = [] then [] else [(t, s.batcher.items)]) ∧
        s'.windows.flatMap (·.2) = s.accepted.map (·.2) ∧
        (s'.handed.map (·.2)).Perm (List.range s'.windows.length) := by
  have h := sound_of_run run (sound_new limits)
  refine ⟨h.kept, h.handed_once, h.sizes, h.nothing_lost, exists_quiet now h, ?_⟩
  intro later s' hrun hquiet
  obtain ⟨h', haccepted, hhandles, hwindows⟩ := task_run hrun h
  have hitems := h'.items_eq_nil_of_timers_eq_nil hquiet.timers_eq_nil
  refine ⟨hhandles, haccepted, ?_, ?_, ?_⟩
  · rcases hwindows with ⟨hsame, hwindows⟩ | ⟨hne, -, t, hclose⟩
    · have hnil : s.batcher.items = [] := hsame.symm.trans hitems
      refine ⟨0, ?_⟩
      rw [if_pos hnil, List.append_nil]
      exact hwindows
    · refine ⟨t, ?_⟩
      rw [if_neg hne]
      exact hclose
  · have hkept := h'.kept
    rw [hitems, List.append_nil] at hkept
    rw [hkept]
    exact congrArg (List.map (·.2)) haccepted
  · have honce := h'.handed_once
    rwa [hquiet.leaving_eq_nil, List.append_nil] at honce

/-- The only handle is dropped while an item waits, and the callback still gets the item. -/
theorem item_handed_once_after_drop :
    ∃ s : LiveBatcher Nat,
      ReflTransGen Move (0, new ⟨5, 2⟩) (3, s) ∧ s.handles = 0 ∧ s.batcher.items = [7] ∧
        ∃ later s', ReflTransGen TaskMove (3, s) (later, s') ∧ s'.handles = 0 ∧
          s'.windows.map (·.2) = [[7]] ∧ (s'.handed.map (·.2)).Perm [0] := by
  have run : ReflTransGen Move (0, (new ⟨5, 2⟩ : LiveBatcher Nat)) (3, _) :=
    .tail (.tail (.tail .refl (.event (.submit 7) rfl)) (.wait (by decide))) (.event .drop rfl)
  obtain ⟨-, -, -, -, ⟨later, s', hrun, hquiet⟩, hlast⟩ := every_item_handed_once run
  obtain ⟨hhandles, -, ⟨t, hwindows⟩, -, honce⟩ := hlast later s' hrun hquiet
  refine ⟨_, run, rfl, rfl, later, s', hrun, hhandles, ?_, ?_⟩
  · rw [hwindows]
    rfl
  · rw [hwindows] at honce
    exact honce

end LiveBatcher

end Outbound
