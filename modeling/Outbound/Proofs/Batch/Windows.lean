import Mathlib
import Outbound.Batch.Live

/-!
# The windows of a batcher at work

An open window holds fewer items than fit in it, and it has a timer of its own. Every other timer
belongs to a window that is closed, and it is awake already, so it will find a later generation
and do nothing. These facts hold in every state that a batcher comes to, and with them no item is
lost.
-/

namespace Outbound

theorem BatchLimits.maxCount_normalized_pos (limits : BatchLimits) :
    0 < limits.normalized.maxCount := by
  simp only [normalized]
  split
  · decide
  · exact Nat.pos_of_ne_zero ‹_›

namespace Batcher

variable {α : Type}

theorem submit_full {b : Batcher α} {item : α} (hopen : b.closed = false)
    (h : b.limits.maxCount ≤ b.items.length + 1) :
    b.submit item = .ok ({ b with items := b.items ++ [item] } : Batcher α).flush := by
  simp [submit, hopen, h]

theorem submit_first {b : Batcher α} {item : α} (hopen : b.closed = false)
    (h : 1 < b.limits.maxCount) (hitems : b.items = []) :
    b.submit item =
      .ok ({ b with items := [item], timer := some b.generation }, [.arm b.generation]) := by
  have hroom : ¬b.limits.maxCount ≤ 1 := by omega
  simp [submit, hopen, hitems, hroom]

theorem submit_more {b : Batcher α} {item : α} (hopen : b.closed = false)
    (h : b.items.length + 1 < b.limits.maxCount) (hitems : b.items ≠ []) :
    b.submit item = .ok ({ b with items := b.items ++ [item] }, []) := by
  have hroom : ¬b.limits.maxCount ≤ b.items.length + 1 := by omega
  simp [submit, hopen, hroom, hitems]

/-- An item fills its window, begins one, or is added to one. -/
theorem submit_cases {b : Batcher α} {item : α} {result : Batcher α × List (BatchEffect α)}
    (h : b.submit item = .ok result) :
    b.closed = false ∧
      ((b.limits.maxCount ≤ b.items.length + 1 ∧
          result = ({ b with items := b.items ++ [item] } : Batcher α).flush) ∨
        (b.items = [] ∧ 1 < b.limits.maxCount ∧
          result = ({ b with items := [item], timer := some b.generation },
            [.arm b.generation])) ∨
        (b.items ≠ [] ∧ b.items.length + 1 < b.limits.maxCount ∧
          result = ({ b with items := b.items ++ [item] }, []))) := by
  by_cases hclosed : b.closed = true
  · rw [submit_of_closed hclosed] at h
    cases h
  · have hc : b.closed = false := by simpa using hclosed
    refine ⟨hc, ?_⟩
    by_cases hfull : b.limits.maxCount ≤ b.items.length + 1
    · rw [submit_full hc hfull] at h
      exact .inl ⟨hfull, (Except.ok.inj h).symm⟩
    · by_cases hitems : b.items = []
      · have hone : 1 < b.limits.maxCount := by
          rw [hitems, List.length_nil] at hfull
          omega
        rw [submit_first hc hone hitems] at h
        exact .inr (.inl ⟨hitems, hone, (Except.ok.inj h).symm⟩)
      · have hroom : b.items.length + 1 < b.limits.maxCount := by omega
        rw [submit_more hc hroom hitems] at h
        exact .inr (.inr ⟨hitems, hroom, (Except.ok.inj h).symm⟩)

theorem closed_of_submit {b : Batcher α} {item : α} {result : Batcher α × List (BatchEffect α)}
    (h : b.submit item = .ok result) : b.closed = false ∧ result.1.closed = false := by
  obtain ⟨hopen, ⟨-, rfl⟩ | ⟨-, -, rfl⟩ | ⟨-, -, rfl⟩⟩ := submit_cases h <;>
    exact ⟨hopen, hopen⟩

theorem submit_error {b : Batcher α} {item : α} {e : Error} (h : b.submit item = .error e) :
    e = .closed ∧ b.closed = true := by
  simp only [submit] at h
  split at h
  · exact ⟨(Except.error.inj h).symm, ‹_›⟩
  · split at h
    · cases h
    · split at h <;> cases h

end Batcher

namespace LiveBatcher

variable {α : Type} {limits : BatchLimits} {now : Time} {s s' : LiveBatcher α}

/-! ## What a step leaves behind -/

theorem foldl_perform (now : Time) (effects : List (BatchEffect α)) (s : LiveBatcher α) :
    ∃ timers windows leaving, effects.foldl (perform now) s =
      { s with timers, windows := s.windows ++ windows, leaving } := by
  induction effects generalizing s with
  | nil => exact ⟨_, [], _, by rw [List.append_nil]; rfl⟩
  | cons effect rest ih =>
    obtain ⟨timers, windows, leaving, heq⟩ := ih (perform now s effect)
    rw [List.foldl_cons, heq]
    cases effect with
    | arm generation => exact ⟨_, _, _, rfl⟩
    | disarm generation => exact ⟨_, _, _, rfl⟩
    | dispatch batch =>
      refine ⟨timers, (now, batch) :: windows, leaving, ?_⟩
      simp only [perform, List.append_assoc, List.singleton_append]

theorem apply_eq (now : Time) (s : LiveBatcher α) (result : Batcher α × List (BatchEffect α)) :
    ∃ timers windows leaving, s.apply now result =
      { s with batcher := result.1, timers, windows := s.windows ++ windows, leaving } :=
  foldl_perform now result.2 _

@[simp] theorem batcher_apply (now : Time) (s : LiveBatcher α)
    (result : Batcher α × List (BatchEffect α)) : (s.apply now result).batcher = result.1 := by
  obtain ⟨_, _, _, heq⟩ := apply_eq now s result
  rw [heq]

@[simp] theorem handles_apply (now : Time) (s : LiveBatcher α)
    (result : Batcher α × List (BatchEffect α)) : (s.apply now result).handles = s.handles := by
  obtain ⟨_, _, _, heq⟩ := apply_eq now s result
  rw [heq]

@[simp] theorem accepted_apply (now : Time) (s : LiveBatcher α)
    (result : Batcher α × List (BatchEffect α)) :
    (s.apply now result).accepted = s.accepted := by
  obtain ⟨_, _, _, heq⟩ := apply_eq now s result
  rw [heq]

@[simp] theorem handed_apply (now : Time) (s : LiveBatcher α)
    (result : Batcher α × List (BatchEffect α)) : (s.apply now result).handed = s.handed := by
  obtain ⟨_, _, _, heq⟩ := apply_eq now s result
  rw [heq]

theorem windows_apply (now : Time) (s : LiveBatcher α)
    (result : Batcher α × List (BatchEffect α)) :
    ∃ windows, (s.apply now result).windows = s.windows ++ windows := by
  obtain ⟨_, windows, _, heq⟩ := apply_eq now s result
  rw [heq]
  exact ⟨windows, rfl⟩

theorem apply_nil (now : Time) (s : LiveBatcher α) (b : Batcher α) :
    s.apply now (b, []) = { s with batcher := b } := rfl

theorem apply_arm (now : Time) (s : LiveBatcher α) (b : Batcher α) (generation : Nat) :
    s.apply now (b, [.arm generation]) =
      { s with batcher := b, timers := ⟨generation, .spawned⟩ :: s.timers } := rfl

/-- Closing a window stops its timer unless that is awake, and sends off its items. -/
theorem apply_flush (now : Time) (s : LiveBatcher α) (b : Batcher α) :
    s.apply now b.flush =
      { s with
        batcher := b.flush.1
        timers := s.timers.filter fun t ↦ b.timer != some t.generation || t.phase == .awake
        windows := s.windows ++ if b.items = [] then [] else [(now, b.items)]
        leaving := s.leaving ++ if b.items = [] then [] else [s.windows.length] } := by
  have hdispatch (s : LiveBatcher α) :
      (Batcher.dispatch b.items).foldl (perform now) s =
        { s with
          windows := s.windows ++ if b.items = [] then [] else [(now, b.items)]
          leaving := s.leaving ++ if b.items = [] then [] else [s.windows.length] } := by
    cases hitems : b.items with
    | nil => simp [Batcher.dispatch]
    | cons item rest => simp [Batcher.dispatch, perform]
  cases htimer : b.timer with
  | none =>
    have hall : s.timers.filter (fun t ↦ none != some t.generation || t.phase == .awake) =
        s.timers := by
      rw [List.filter_eq_self]
      intro t _
      rfl
    simp [apply, Batcher.flush, Batcher.closeWindow, htimer, hdispatch, hall]
  | some generation =>
    simp only [apply, Batcher.flush, Batcher.closeWindow, htimer, Option.toList_some,
      List.map_cons, List.map_nil, List.cons_append, List.nil_append, List.foldl_cons, perform,
      hdispatch]
    simp [bne, Bool.beq_comm]

/-- A closed batcher refuses an item, and an open one accepts it. -/
theorem submit_step_cases {item : α} (hs : s.step now (.submit item) = some s') :
    (s.batcher.closed = true ∧ s' = s) ∨
      ∃ result, s.batcher.submit item = .ok result ∧ s' = s.accept now item result := by
  obtain ⟨_, hs⟩ := Option.ite_none_right_eq_some.1 hs
  split at hs
  · rename_i hrefused
    exact .inl ⟨(Batcher.submit_error hrefused).2, (Option.some.inj hs).symm⟩
  · rename_i result haccepted
    exact .inr ⟨result, haccepted, (Option.some.inj hs).symm⟩

/-- Only a submission can accept an item, only handing over is recorded as such, and a window that
is closed stays as it is. -/
theorem step_frame {e : Event α} (hs : s.step now e = some s') :
    ((∀ item, e ≠ .submit item) → s'.accepted = s.accepted) ∧
      ((∀ n, e ≠ .handOver n) → s'.handed = s.handed) ∧
      ∃ windows, s'.windows = s.windows ++ windows := by
  have hsame : ∃ windows, s.windows = s.windows ++ windows := ⟨[], (List.append_nil _).symm⟩
  cases e with
  | submit item =>
    rcases submit_step_cases hs with ⟨-, rfl⟩ | ⟨result, -, rfl⟩
    · exact ⟨fun _ ↦ rfl, fun _ ↦ rfl, hsame⟩
    · exact ⟨fun h ↦ absurd rfl (h item), fun _ ↦ handed_apply _ _ _, windows_apply _ _ _⟩
  | close =>
    obtain ⟨_, ⟨⟩⟩ := Option.ite_none_right_eq_some.1 hs
    exact ⟨fun _ ↦ accepted_apply _ _ _, fun _ ↦ handed_apply _ _ _, windows_apply _ _ _⟩
  | expire generation =>
    obtain ⟨_, ⟨⟩⟩ := Option.ite_none_right_eq_some.1 hs
    exact ⟨fun _ ↦ accepted_apply _ _ _, fun _ ↦ handed_apply _ _ _, windows_apply _ _ _⟩
  | handOver number =>
    obtain ⟨_, ⟨⟩⟩ := Option.ite_none_right_eq_some.1 hs
    exact ⟨fun _ ↦ rfl, fun h ↦ absurd rfl (h number), hsame⟩
  | _ =>
    obtain ⟨_, ⟨⟩⟩ := Option.ite_none_right_eq_some.1 hs
    exact ⟨fun _ ↦ rfl, fun _ ↦ rfl, hsame⟩

theorem closed_of_step {e : Event α} (hs : s.step now e = some s')
    (hclosed : s.batcher.closed = true) : s'.batcher.closed = true := by
  cases e with
  | submit item =>
    rcases submit_step_cases hs with ⟨-, rfl⟩ | ⟨result, haccepted, -⟩
    · exact hclosed
    · rw [Batcher.submit_of_closed hclosed] at haccepted
      cases haccepted
  | close =>
    obtain ⟨_, ⟨⟩⟩ := Option.ite_none_right_eq_some.1 hs
    rw [batcher_apply]
    exact Batcher.closed_close _
  | expire generation =>
    obtain ⟨_, ⟨⟩⟩ := Option.ite_none_right_eq_some.1 hs
    rw [batcher_apply]
    simp only [Batcher.expire]
    split <;> exact hclosed
  | _ =>
    obtain ⟨_, ⟨⟩⟩ := Option.ite_none_right_eq_some.1 hs
    exact hclosed

/-- Nothing but closing closes a batcher, and nothing opens it again. -/
theorem closed_step_iff {e : Event α} (hs : s.step now e = some s') :
    s'.batcher.closed = true ↔ s.batcher.closed = true ∨ e = .close := by
  refine ⟨fun hclosed ↦ ?_, ?_⟩
  · cases e with
    | submit item =>
      rcases submit_step_cases hs with ⟨hclosed', -⟩ | ⟨result, haccepted, rfl⟩
      · exact .inl hclosed'
      · rw [LiveBatcher.accept, batcher_apply, (Batcher.closed_of_submit haccepted).2] at hclosed
        cases hclosed
    | close => exact .inr rfl
    | expire generation =>
      obtain ⟨_, ⟨⟩⟩ := Option.ite_none_right_eq_some.1 hs
      rw [batcher_apply, Batcher.expire] at hclosed
      split at hclosed <;> exact .inl hclosed
    | _ =>
      obtain ⟨_, ⟨⟩⟩ := Option.ite_none_right_eq_some.1 hs
      exact .inl hclosed
  · rintro (hclosed | rfl)
    · exact closed_of_step hs hclosed
    · obtain ⟨_, ⟨⟩⟩ := Option.ite_none_right_eq_some.1 hs
      rw [batcher_apply]
      exact Batcher.closed_close _

/-- A handle goes only by being dropped. -/
theorem handles_le_step {e : Event α} (hs : s.step now e = some s') (hdrop : e ≠ .drop) :
    s.handles ≤ s'.handles := by
  cases e with
  | clone =>
    obtain ⟨_, ⟨⟩⟩ := Option.ite_none_right_eq_some.1 hs
    exact Nat.le_succ _
  | drop => exact absurd rfl hdrop
  | submit item =>
    rcases submit_step_cases hs with ⟨-, rfl⟩ | ⟨result, -, rfl⟩
    · exact Nat.le_refl _
    · rw [LiveBatcher.accept, handles_apply]
  | close =>
    obtain ⟨_, ⟨⟩⟩ := Option.ite_none_right_eq_some.1 hs
    rw [handles_apply]
  | expire generation =>
    obtain ⟨_, ⟨⟩⟩ := Option.ite_none_right_eq_some.1 hs
    rw [handles_apply]
  | _ =>
    obtain ⟨_, ⟨⟩⟩ := Option.ite_none_right_eq_some.1 hs
    exact Nat.le_refl _

/-! ## What holds in every state -/

/-- What holds between any two acts. -/
structure Sound (limits : BatchLimits) (s : LiveBatcher α) : Prop where
  limits_eq : s.batcher.limits = limits.normalized
  kept : s.windows.flatMap (·.2) ++ s.batcher.items = s.accepted.map (·.2)
  sizes : ∀ w ∈ s.windows, 1 ≤ w.2.length ∧ w.2.length ≤ limits.normalized.maxCount
  handed_once : (s.handed.map (·.2) ++ s.leaving).Perm (List.range s.windows.length)
  nothing_lost : s.lost = []
  room : s.batcher.items.length < limits.normalized.maxCount
  /-- Whoever closes the batcher closes its window. -/
  closed : s.batcher.closed = true → s.batcher.items = []
  /-- A window that is open has a timer. -/
  armed : s.batcher.items ≠ [] →
    s.batcher.timer = some s.batcher.generation ∧
      ∃ t ∈ s.timers, t.generation = s.batcher.generation
  unarmed : s.batcher.items = [] →
    s.batcher.timer = none ∧ ∀ t ∈ s.timers, t.generation ≠ s.batcher.generation
  distinct : (s.timers.map WindowTimer.generation).Nodup
  recent : ∀ t ∈ s.timers, t.generation ≤ s.batcher.generation
  /-- The timers of other windows can only find that they come too late. -/
  stale : ∀ t ∈ s.timers, t.generation < s.batcher.generation → t.phase = .awake

theorem sound_new (limits : BatchLimits) : Sound limits (new limits : LiveBatcher α) where
  limits_eq := rfl
  kept := rfl
  sizes := by simp [new]
  handed_once := by simp [new]
  nothing_lost := rfl
  room := by simpa [new, Batcher.new] using limits.maxCount_normalized_pos
  closed := fun _ ↦ rfl
  armed := fun h ↦ absurd rfl h
  unarmed := fun _ ↦ ⟨rfl, by simp [new]⟩
  distinct := by simp [new]
  recent := by simp [new]
  stale := by simp [new]

namespace Sound

theorem generation_lt_of_ne (h : Sound limits s) {t : WindowTimer} (ht : t ∈ s.timers)
    (hne : t.generation ≠ s.batcher.generation) : t.generation < s.batcher.generation :=
  Nat.lt_of_le_of_ne (h.recent t ht) hne

theorem eq_of_generation_eq (h : Sound limits s) {t u : WindowTimer} (ht : t ∈ s.timers)
    (hu : u ∈ s.timers) (heq : t.generation = u.generation) : t = u :=
  List.inj_on_of_nodup_map h.distinct ht hu heq

/-- Closing a window keeps everything sound, whether it was full, its timer ran out or the batcher
is being closed. In the second case the timer is gone from the list, and nobody looks for it. -/
theorem of_flush {b : Batcher α} (hlimits : b.limits = limits.normalized)
    (hkept : s.windows.flatMap (·.2) ++ b.items = s.accepted.map (·.2))
    (hsizes : ∀ w ∈ s.windows, 1 ≤ w.2.length ∧ w.2.length ≤ limits.normalized.maxCount)
    (hroom : b.items.length ≤ limits.normalized.maxCount)
    (hhanded : (s.handed.map (·.2) ++ s.leaving).Perm (List.range s.windows.length))
    (hlost : s.lost = []) (hdistinct : (s.timers.map WindowTimer.generation).Nodup)
    (hrecent : ∀ t ∈ s.timers, t.generation ≤ b.generation)
    (hstale : ∀ t ∈ s.timers, t.generation < b.generation → t.phase = .awake)
    (hcurrent : ∀ t ∈ s.timers, t.generation = b.generation → b.timer = some b.generation) :
    Sound limits (s.apply now b.flush) := by
  rw [apply_flush]
  refine ⟨hlimits, ?_, ?_, ?_, hlost, ?_, fun _ ↦ rfl, fun h ↦ absurd rfl h, fun _ ↦ ⟨rfl, ?_⟩,
    ?_, ?_, ?_⟩
  · rw [← hkept]
    cases b.items <;> simp
  · intro w hw
    rcases List.mem_append.1 hw with hw | hw
    · exact hsizes w hw
    · split at hw
      · simp at hw
      · rename_i hne
        rw [List.mem_singleton.1 hw]
        exact ⟨List.length_pos_iff.2 hne, hroom⟩
  · split
    · simpa using hhanded
    · simp only [List.length_append, List.length_cons, List.length_nil, Nat.zero_add,
        List.range_succ, ← List.append_assoc]
      exact hhanded.append_right _
  · exact limits.maxCount_normalized_pos
  · intro t ht
    have hle := hrecent t (List.mem_filter.1 ht).1
    simp only [Batcher.generation_flush]
    omega
  · exact hdistinct.sublist ((List.filter_sublist).map _)
  · intro t ht
    have hle := hrecent t (List.mem_filter.1 ht).1
    simp only [Batcher.generation_flush]
    omega
  · intro t ht _
    obtain ⟨hmem, hkeep⟩ := List.mem_filter.1 ht
    by_cases heq : t.generation = b.generation
    · rw [hcurrent t hmem heq, heq] at hkeep
      simpa using hkeep
    · exact hstale t hmem (Nat.lt_of_le_of_ne (hrecent t hmem) heq)

/-- What an act leaves alone if it is about timers only. -/
theorem of_timers (h : Sound limits s) {timers : List WindowTimer}
    (hgenerations : (timers.map WindowTimer.generation).Perm
      (s.timers.map WindowTimer.generation))
    (hstale : ∀ t ∈ timers, t.generation < s.batcher.generation → t.phase = .awake) :
    Sound limits { s with timers } := by
  have hmem {g : Nat} : (∃ t ∈ timers, t.generation = g) ↔ ∃ t ∈ s.timers, t.generation = g := by
    simpa only [List.mem_map] using hgenerations.mem_iff (a := g)
  refine { h with
    armed := fun hitems ↦ ⟨(h.armed hitems).1, hmem.2 (h.armed hitems).2⟩
    unarmed := fun hitems ↦ ⟨(h.unarmed hitems).1, fun t ht heq ↦ ?_⟩
    distinct := hgenerations.nodup_iff.2 h.distinct
    recent := fun t ht ↦ ?_
    stale := hstale }
  · obtain ⟨u, hu, hgen⟩ := hmem.1 ⟨t, ht, heq⟩
    exact (h.unarmed hitems).2 u hu hgen
  · obtain ⟨u, hu, hgen⟩ := hmem.1 ⟨t, ht, rfl⟩
    rw [← hgen]
    exact h.recent u hu

theorem generations_cons_erase {timers : List WindowTimer} {t u : WindowTimer} (ht : t ∈ timers)
    (h : u.generation = t.generation) :
    ((u :: timers.erase t).map WindowTimer.generation).Perm
      (timers.map WindowTimer.generation) := by
  have hperm := (List.perm_cons_erase ht).map WindowTimer.generation
  rw [List.map_cons, h, ← List.map_cons]
  exact hperm.symm

/-! ## One lemma for each act -/

theorem accept_full (h : Sound limits s) {item : α}
    (hfull : limits.normalized.maxCount ≤ s.batcher.items.length + 1) :
    Sound limits (s.accept now item
      ({ s.batcher with items := s.batcher.items ++ [item] } : Batcher α).flush) := by
  have hroom := h.room
  refine of_flush h.limits_eq ?_ h.sizes ?_ h.handed_once h.nothing_lost h.distinct h.recent
    h.stale ?_
  · simp only [List.map_append, List.map_cons, List.map_nil, ← h.kept, List.append_assoc]
  · simp only [List.length_append, List.length_cons, List.length_nil]
    omega
  · intro t ht heq
    by_cases hitems : s.batcher.items = []
    · exact absurd heq ((h.unarmed hitems).2 t ht)
    · exact (h.armed hitems).1

theorem accept_first (h : Sound limits s) {item : α} (hitems : s.batcher.items = [])
    (hone : 1 < limits.normalized.maxCount) (hopen : s.batcher.closed = false) :
    Sound limits (s.accept now item
      ({ s.batcher with items := [item], timer := some s.batcher.generation },
        [.arm s.batcher.generation])) := by
  have hkept := h.kept
  rw [hitems, List.append_nil] at hkept
  refine ⟨h.limits_eq, ?_, h.sizes, h.handed_once, h.nothing_lost, hone, ?_, ?_, ?_, ?_, ?_, ?_⟩
  · simp only [accept, apply_arm, List.map_append, List.map_cons, List.map_nil, ← hkept]
  · intro hclosed
    change s.batcher.closed = true at hclosed
    rw [hopen] at hclosed
    cases hclosed
  · exact fun _ ↦ ⟨rfl, ⟨_, .spawned⟩, List.mem_cons_self, rfl⟩
  · intro hnil
    change [item] = [] at hnil
    cases hnil
  · refine List.nodup_cons.2 ⟨?_, h.distinct⟩
    intro hmem
    obtain ⟨t, ht, heq⟩ := List.mem_map.1 hmem
    exact (h.unarmed hitems).2 t ht heq
  · intro t ht
    rcases List.mem_cons.1 ht with rfl | ht
    · exact Nat.le_refl _
    · exact h.recent t ht
  · intro t ht hlt
    rcases List.mem_cons.1 ht with rfl | ht
    · exact absurd hlt (Nat.lt_irrefl _)
    · exact h.stale t ht hlt

theorem accept_more (h : Sound limits s) {item : α} (hitems : s.batcher.items ≠ [])
    (hroom : s.batcher.items.length + 1 < limits.normalized.maxCount)
    (hopen : s.batcher.closed = false) :
    Sound limits (s.accept now item
      ({ s.batcher with items := s.batcher.items ++ [item] }, [])) := by
  refine { h with
    kept := ?_
    room := ?_
    closed := ?_
    armed := fun _ ↦ h.armed hitems
    unarmed := ?_ }
  · simp only [accept, apply_nil, List.map_append, List.map_cons, List.map_nil, ← h.kept,
      List.append_assoc]
  · simpa [accept, apply_nil] using hroom
  · intro hclosed
    change s.batcher.closed = true at hclosed
    rw [hopen] at hclosed
    cases hclosed
  · intro hnil
    change s.batcher.items ++ [item] = [] at hnil
    simp at hnil

theorem close (h : Sound limits s) : Sound limits (s.apply now s.batcher.close) := by
  cases hc : s.batcher.closed with
  | true =>
    rw [Batcher.close_of_closed hc, apply_nil]
    exact h
  | false =>
    rw [Batcher.close_of_open hc]
    refine of_flush h.limits_eq h.kept h.sizes (Nat.le_of_lt h.room) h.handed_once h.nothing_lost
      h.distinct h.recent h.stale ?_
    intro t ht heq
    by_cases hitems : s.batcher.items = []
    · exact absurd heq ((h.unarmed hitems).2 t ht)
    · exact (h.armed hitems).1

theorem expire (h : Sound limits s) {generation : Nat}
    (ht : ⟨generation, .awake⟩ ∈ s.timers) :
    Sound limits (apply now { s with timers := s.timers.erase ⟨generation, .awake⟩ }
      (s.batcher.expire generation)) := by
  have hsub : (s.timers.erase ⟨generation, .awake⟩).Sublist s.timers := List.erase_sublist
  by_cases hgen : s.batcher.generation = generation
  · subst hgen
    rw [Batcher.expire_self]
    refine of_flush h.limits_eq h.kept h.sizes (Nat.le_of_lt h.room) h.handed_once h.nothing_lost
      (h.distinct.sublist (hsub.map _)) (fun t ht ↦ h.recent t (hsub.subset ht))
      (fun t ht ↦ h.stale t (hsub.subset ht)) ?_
    -- The timer of the window is the one that ran out, so none is left.
    intro t hmem heq
    have hsame := h.eq_of_generation_eq (hsub.subset hmem) ht heq
    have hnodup : s.timers.Nodup := List.Nodup.of_map _ h.distinct
    rw [hsame] at hmem
    exact absurd hmem hnodup.not_mem_erase
  · rw [Batcher.expire_of_ne hgen, apply_nil]
    have hother (t : WindowTimer) (hmem : t ∈ s.timers) (heq : t.generation = s.batcher.generation) :
        t ∈ s.timers.erase ⟨generation, .awake⟩ := by
      refine (List.mem_erase_of_ne ?_).2 hmem
      rintro rfl
      exact hgen heq.symm
    refine { h with
      armed := fun hitems ↦ ⟨(h.armed hitems).1, ?_⟩
      unarmed := fun hitems ↦ ⟨(h.unarmed hitems).1, fun t ht ↦
        (h.unarmed hitems).2 t (hsub.subset ht)⟩
      distinct := h.distinct.sublist (hsub.map _)
      recent := fun t ht ↦ h.recent t (hsub.subset ht)
      stale := fun t ht ↦ h.stale t (hsub.subset ht) }
    obtain ⟨t, hmem, heq⟩ := (h.armed hitems).2
    exact ⟨t, hother t hmem heq, heq⟩

theorem sleep (h : Sound limits s) {generation due : Nat}
    (ht : ⟨generation, .spawned⟩ ∈ s.timers) :
    Sound limits { s with
      timers := ⟨generation, .sleeping due⟩ :: s.timers.erase ⟨generation, .spawned⟩ } := by
  refine h.of_timers (generations_cons_erase ht rfl) fun t hmem hlt ↦ ?_
  rcases List.mem_cons.1 hmem with rfl | hmem
  · have hphase := h.stale _ ht hlt
    cases hphase
  · exact h.stale t (List.mem_of_mem_erase hmem) hlt

theorem wake (h : Sound limits s) {generation due : Nat}
    (ht : ⟨generation, .sleeping due⟩ ∈ s.timers) :
    Sound limits { s with
      timers := ⟨generation, .awake⟩ :: s.timers.erase ⟨generation, .sleeping due⟩ } := by
  refine h.of_timers (generations_cons_erase ht rfl) fun t hmem hlt ↦ ?_
  rcases List.mem_cons.1 hmem with rfl | hmem
  · rfl
  · exact h.stale t (List.mem_of_mem_erase hmem) hlt

theorem handOver (h : Sound limits s) {number : Nat} (hmem : number ∈ s.leaving) :
    Sound limits { s with
      leaving := s.leaving.erase number
      handed := s.handed ++ [(now, number)] } := by
  refine { h with handed_once := .trans ?_ h.handed_once }
  simp only [List.map_append, List.map_cons, List.map_nil, List.append_assoc]
  exact (List.perm_cons_erase hmem).symm.append_left _

theorem items_eq_nil_of_timers_eq_nil (h : Sound limits s) (htimers : s.timers = []) :
    s.batcher.items = [] := by
  by_contra hitems
  obtain ⟨t, ht, -⟩ := (h.armed hitems).2
  rw [htimers] at ht
  cases ht

theorem free (h : Sound limits s) (htimers : s.timers = []) :
    Sound limits { s with
      batcher := { s.batcher with items := [] }
      lost := s.lost ++ s.batcher.items } := by
  have hitems := h.items_eq_nil_of_timers_eq_nil htimers
  refine { h with
    kept := ?_
    nothing_lost := ?_
    room := limits.maxCount_normalized_pos
    closed := fun _ ↦ rfl
    armed := fun hne ↦ absurd rfl hne
    unarmed := fun _ ↦ h.unarmed hitems }
  · rw [← h.kept, hitems]
  · rw [hitems, List.append_nil]
    exact h.nothing_lost

theorem submit (h : Sound limits s) {item : α} {result : Batcher α × List (BatchEffect α)}
    (hsubmit : s.batcher.submit item = .ok result) : Sound limits (s.accept now item result) := by
  obtain ⟨hopen, hcases⟩ := Batcher.submit_cases hsubmit
  rcases hcases with ⟨hfull, rfl⟩ | ⟨hitems, hone, rfl⟩ | ⟨hitems, hroom, rfl⟩
  · exact h.accept_full (h.limits_eq ▸ hfull)
  · exact h.accept_first hitems (h.limits_eq ▸ hone) hopen
  · exact h.accept_more hitems (h.limits_eq ▸ hroom) hopen

theorem step (h : Sound limits s) {e : Event α} (hs : s.step now e = some s') :
    Sound limits s' := by
  cases e with
  | clone =>
    obtain ⟨_, ⟨⟩⟩ := Option.ite_none_right_eq_some.1 hs
    exact { h with }
  | drop =>
    obtain ⟨_, ⟨⟩⟩ := Option.ite_none_right_eq_some.1 hs
    exact { h with }
  | submit item =>
    rcases submit_step_cases hs with ⟨-, rfl⟩ | ⟨result, haccepted, rfl⟩
    · exact h
    · exact h.submit haccepted
  | close =>
    obtain ⟨_, ⟨⟩⟩ := Option.ite_none_right_eq_some.1 hs
    exact h.close
  | sleep generation =>
    obtain ⟨ht, ⟨⟩⟩ := Option.ite_none_right_eq_some.1 hs
    exact h.sleep ht
  | wake generation due =>
    obtain ⟨⟨ht, _⟩, ⟨⟩⟩ := Option.ite_none_right_eq_some.1 hs
    exact h.wake ht
  | expire generation =>
    obtain ⟨ht, ⟨⟩⟩ := Option.ite_none_right_eq_some.1 hs
    exact h.expire ht
  | handOver number =>
    obtain ⟨hmem, ⟨⟩⟩ := Option.ite_none_right_eq_some.1 hs
    exact h.handOver hmem
  | free =>
    obtain ⟨⟨_, htimers⟩, ⟨⟩⟩ := Option.ite_none_right_eq_some.1 hs
    exact h.free htimers

end Sound

/-! ## Batches by number -/

theorem batch?_of_lt {windows : List (Time × List α)} (h : s'.windows = s.windows ++ windows)
    {number : Nat} (hlt : number < s.windows.length) : s'.batch? number = s.batch? number := by
  rw [batch?, batch?, h, List.getElem?_append_left hlt]

theorem Sound.lt_of_mem_leaving (h : Sound limits s) {number : Nat} (hmem : number ∈ s.leaving) :
    number < s.windows.length :=
  List.mem_range.1 (h.handed_once.subset (List.mem_append_right _ hmem))

theorem Sound.batch_sublist (h : Sound limits s) {number : Nat} {batch : List α}
    (hbatch : s.batch? number = some batch) : batch.Sublist (s.accepted.map (·.2)) := by
  obtain ⟨w, hw, rfl⟩ := Option.map_eq_some_iff.1 hbatch
  have hmem := List.mem_of_getElem? hw
  rw [← h.kept]
  refine List.Sublist.trans ?_ (List.sublist_append_left _ _)
  rw [List.flatMap_def]
  exact List.sublist_flatten_of_mem (List.mem_map_of_mem hmem)

/-- Two batches have nothing in common that the accepted items have not. -/
theorem Sound.disjoint_batches (h : Sound limits s) {β : Type} {f : α → β}
    (hnodup : (s.accepted.map fun x ↦ f x.2).Nodup) {m n : Nat} {b c : List α} (hne : m ≠ n)
    (hb : s.batch? m = some b) (hc : s.batch? n = some c) :
    List.Disjoint (b.map f) (c.map f) := by
  obtain ⟨v, hv, rfl⟩ := Option.map_eq_some_iff.1 hb
  obtain ⟨w, hw, rfl⟩ := Option.map_eq_some_iff.1 hc
  have hall : (s.windows.flatMap fun w ↦ w.2.map f).Nodup := by
    have hflat : (s.windows.flatMap fun w ↦ w.2.map f) = (s.windows.flatMap (·.2)).map f := by
      rw [List.map_flatMap]
    have haccepted : (s.accepted.map fun x ↦ f x.2) = (s.accepted.map (·.2)).map f := by
      rw [List.map_map]
      rfl
    rw [haccepted, ← h.kept, List.map_append] at hnodup
    rw [hflat]
    exact (List.nodup_append.1 hnodup).1
  have hpairs := (List.nodup_flatMap.1 hall).2
  obtain ⟨hm, rfl⟩ := List.getElem?_eq_some_iff.1 hv
  obtain ⟨hn, rfl⟩ := List.getElem?_eq_some_iff.1 hw
  rcases Nat.lt_or_gt_of_ne hne with hlt | hlt
  · exact List.pairwise_iff_getElem.1 hpairs m n hm hn hlt
  · exact (List.pairwise_iff_getElem.1 hpairs n m hn hm hlt).symm

theorem Move.sound {limits : BatchLimits} {x y : Time × LiveBatcher α} (hm : Move x y)
    (h : Sound limits x.2) : Sound limits y.2 := by
  cases hm with
  | wait _ => exact h
  | event e hs => exact h.step hs

theorem sound_of_run {limits : BatchLimits} {x y : Time × LiveBatcher α}
    (run : Relation.ReflTransGen Move x y) (h : Sound limits x.2) : Sound limits y.2 := by
  induction run with
  | refl => exact h
  | tail _ hm ih => exact hm.sound ih

end LiveBatcher

end Outbound
