import Outbound.Proofs.Batch.Timing

/-!
# Any sequence of items is cut into greedy windows

For items that arrive at given times, with either choice where an item and a timer come at once,
there is a prompt run in which just these items are accepted. Between two arrivals the batcher
settles: no batch is on its way, and the only timer is the sleeping one of the open window.
-/

namespace Outbound

namespace LiveBatcher

open OpenWindow Relation

variable {α : Type} {limits : BatchLimits} {now later : Time} {s s' : LiveBatcher α}
  {w : Option (OpenWindow α)}

/-- All tasks have done what they can do at present. -/
structure Settled (limits : BatchLimits) (s : LiveBatcher α) (w : Option (OpenWindow α)) :
    Prop where
  limits_eq : s.batcher.limits = limits.normalized
  held : 0 < s.handles
  not_closed : s.batcher.closed = false
  items : s.batcher.items = (w.map fun v ↦ v.items.map (·.2)).getD []
  timer : s.batcher.timer = w.map fun _ ↦ s.batcher.generation
  timers : s.timers =
    (w.map fun v ↦ ⟨s.batcher.generation, .sleeping (v.deadline limits.normalized)⟩).toList
  leaving : s.leaving = []

theorem settled_new (limits : BatchLimits) : Settled limits (new limits : LiveBatcher α) none where
  limits_eq := rfl
  held := Nat.one_pos
  not_closed := rfl
  items := rfl
  timer := rfl
  timers := rfl
  leaving := rfl

/-- From one settled state to another, with the items that were accepted and the windows that were
closed in between. -/
def Leads (limits : BatchLimits) (now : Time) (s : LiveBatcher α) (later : Time)
    (w : Option (OpenWindow α)) (items : List (Time × α)) (closed : List (ClosedWindow α)) :
    Prop :=
  ∃ s', ReflTransGen PromptMove (now, s) (later, s') ∧ Settled limits s' w ∧
    s'.accepted = s.accepted ++ items ∧ s'.windows = s.windows ++ closed.map untimed

theorem Leads.trans {middle : Time} {w₁ w₂ : Option (OpenWindow α)}
    {items₁ items₂ : List (Time × α)} {closed₁ closed₂ : List (ClosedWindow α)}
    (h₁ : Leads limits now s middle w₁ items₁ closed₁)
    (h₂ : ∀ s, Settled limits s w₁ → Leads limits middle s later w₂ items₂ closed₂) :
    Leads limits now s later w₂ (items₁ ++ items₂) (closed₁ ++ closed₂) := by
  obtain ⟨s₁, run₁, hs₁, haccepted₁, hwindows₁⟩ := h₁
  obtain ⟨s₂, run₂, hs₂, haccepted₂, hwindows₂⟩ := h₂ s₁ hs₁
  refine ⟨s₂, run₁.trans run₂, hs₂, ?_, ?_⟩
  · rw [haccepted₂, haccepted₁, List.append_assoc]
  · rw [hwindows₂, hwindows₁, List.map_append, List.append_assoc]

theorem Leads.of_wait {items : List (Time × α)} {closed : List (ClosedWindow α)}
    (h : Leads limits later s later w items closed) (hle : now ≤ later)
    (idle : s.IdleUntil later) : Leads limits now s later w items closed := by
  obtain ⟨s', run, hrest⟩ := h
  exact ⟨s', .head (.wait hle idle) run, hrest⟩

/-- No window is open that was due before. -/
def NotOverdue (limits : BatchLimits) (now : Time) (w : Option (OpenWindow α)) : Prop :=
  ∀ v, w = some v → now ≤ v.deadline limits.normalized

theorem notOverdue_arrive (w : Option (OpenWindow α)) (x : Arrival α) :
    NotOverdue limits x.time (arrive limits.normalized w x).2 := by
  have hstart : NotOverdue limits x.time (start limits.normalized x).2 := by
    intro v hv
    simp only [start] at hv
    split at hv
    · cases hv
    · cases hv
      exact Nat.le_add_right _ _
  cases w with
  | none => exact hstart
  | some v =>
    simp only [arrive]
    split
    · intro v' hv
      simp only [join] at hv
      split at hv
      · cases hv
      · cases hv
        exact le_deadline_of_inTime ‹_›
    · exact hstart

namespace Settled

theorem timers_none (h : Settled limits s none) : s.timers = [] := h.timers

theorem idle_none (h : Settled limits s none) (later : Time) : s.IdleUntil later := by
  refine ⟨h.leaving, fun t ht ↦ ?_⟩
  rw [h.timers_none] at ht
  exact (List.not_mem_nil ht).elim

theorem idle_some {v : OpenWindow α} (h : Settled limits s (some v))
    (hle : later ≤ v.deadline limits.normalized) : s.IdleUntil later := by
  refine ⟨h.leaving, fun t ht ↦ ?_⟩
  rw [h.timers] at ht
  rw [List.mem_singleton.1 ht]
  exact ⟨_, rfl, hle⟩

theorem quiet (h : Settled limits s none) : s.Quiet := by
  intro now e task
  cases e with
  | sleep generation => simp [LiveBatcher.step, h.timers_none]
  | wake generation due => simp [LiveBatcher.step, h.timers_none]
  | expire generation => simp [LiveBatcher.step, h.timers_none]
  | handOver number => simp [LiveBatcher.step, h.leaving]
  | _ => cases task

theorem timers_flush (h : Settled limits s w) :
    s.timers.filter (fun t ↦ s.batcher.timer != some t.generation || t.phase == .awake) = [] := by
  rw [h.timers, h.timer]
  cases w with
  | none => rfl
  | some v => simp

/-- An item arrives that fills its window, and the callback gets the batch. -/
theorem fill (h : Settled limits s w) (x : Arrival α)
    (hfull : limits.normalized.maxCount ≤ s.batcher.items.length + 1) :
    Leads limits x.time s x.time none [x.timed]
      [(x.time, (w.map OpenWindow.items).getD [] ++ [x.timed])] := by
  let result := ({ s.batcher with items := s.batcher.items ++ [x.item] } : Batcher α).flush
  have hsubmit : s.step x.time (.submit x.item) = some (s.accept x.time x.item result) := by
    have hok := @Batcher.submit_full _ s.batcher x.item h.not_closed (h.limits_eq ▸ hfull)
    simp only [LiveBatcher.step, h.held, if_true, hok]
    rfl
  have haccept : s.accept x.time x.item result =
      { s with
        batcher := result.1
        timers := []
        accepted := s.accepted ++ [x.timed]
        windows := s.windows ++ [(x.time, s.batcher.items ++ [x.item])]
        leaving := [s.windows.length] } := by
    simp only [LiveBatcher.accept, result, apply_flush, h.timers_flush, h.leaving]
    simp [Arrival.timed]
  have hitems : s.batcher.items ++ [x.item] =
      ((w.map OpenWindow.items).getD [] ++ [x.timed]).map (·.2) := by
    rw [h.items, List.map_append]
    cases w <;> rfl
  rw [haccept] at hsubmit
  refine ⟨_, .tail (.tail .refl (.event _ hsubmit)) (.event (.handOver s.windows.length)
    (if_pos List.mem_cons_self)), ⟨h.limits_eq, h.held, h.not_closed, rfl, rfl, rfl, ?_⟩, rfl, ?_⟩
  · simp
  · rw [hitems]
    rfl

theorem first (h : Settled limits s none) (x : Arrival α)
    (hone : 1 < limits.normalized.maxCount) :
    Leads limits x.time s x.time (some ⟨x.timed, []⟩) [x.timed] [] := by
  have hitems : s.batcher.items = [] := h.items
  have hsubmit : s.step x.time (.submit x.item) =
      some { s with
        batcher := { s.batcher with items := [x.item], timer := some s.batcher.generation }
        timers := [⟨s.batcher.generation, .spawned⟩]
        accepted := s.accepted ++ [x.timed] } := by
    have hok := @Batcher.submit_first _ s.batcher x.item h.not_closed (h.limits_eq ▸ hone) hitems
    simp only [LiveBatcher.step, h.held, if_true, hok, LiveBatcher.accept, apply_arm,
      h.timers_none]
    rfl
  refine ⟨_, .tail (.tail .refl (.event _ hsubmit)) (.event (.sleep s.batcher.generation)
    (if_pos List.mem_cons_self)), ⟨h.limits_eq, h.held, h.not_closed, rfl, rfl, ?_, h.leaving⟩,
    rfl, ?_⟩
  · simp [deadline, Arrival.timed, h.limits_eq]
  · simp

theorem more {v : OpenWindow α} (h : Settled limits s (some v)) (x : Arrival α)
    (hroom : s.batcher.items.length + 1 < limits.normalized.maxCount) :
    Leads limits x.time s x.time (some { v with rest := v.rest ++ [x.timed] }) [x.timed] [] := by
  have hitems : s.batcher.items = v.items.map (·.2) := h.items
  have hne : s.batcher.items ≠ [] := by
    rw [hitems]
    simp [OpenWindow.items]
  have hsubmit : s.step x.time (.submit x.item) =
      some { s with
        batcher := { s.batcher with items := s.batcher.items ++ [x.item] }
        accepted := s.accepted ++ [x.timed] } := by
    have hok := @Batcher.submit_more _ s.batcher x.item h.not_closed (h.limits_eq ▸ hroom) hne
    simp only [LiveBatcher.step, h.held, if_true, hok, LiveBatcher.accept, apply_nil]
    rfl
  refine ⟨_, .single (.event _ hsubmit), ⟨h.limits_eq, h.held, h.not_closed, ?_, h.timer,
    h.timers, h.leaving⟩, rfl, ?_⟩
  · simp [hitems, OpenWindow.items, Arrival.timed]
  · simp

theorem due {v : OpenWindow α} (h : Settled limits s (some v))
    (hle : now ≤ v.deadline limits.normalized) :
    Leads limits now s (v.deadline limits.normalized) none []
      [(v.deadline limits.normalized, v.items)] := by
  have hitems : s.batcher.items = v.items.map (·.2) := h.items
  have hne : s.batcher.items ≠ [] := by
    rw [hitems]
    simp [OpenWindow.items]
  have hwake : s.step (v.deadline limits.normalized)
      (.wake s.batcher.generation (v.deadline limits.normalized)) =
      some { s with timers := [⟨s.batcher.generation, .awake⟩] } := by
    have htimers : s.timers =
        [⟨s.batcher.generation, .sleeping (v.deadline limits.normalized)⟩] := h.timers
    simp [LiveBatcher.step, htimers]
  have hexpire : LiveBatcher.step (v.deadline limits.normalized)
      { s with timers := [⟨s.batcher.generation, .awake⟩] } (.expire s.batcher.generation) =
      some { s with
        batcher := s.batcher.flush.1
        timers := []
        windows := s.windows ++ [(v.deadline limits.normalized, s.batcher.items)]
        leaving := [s.windows.length] } := by
    simp only [LiveBatcher.step, List.mem_singleton, if_true, List.erase_cons_head,
      Batcher.expire_self, apply_flush, List.filter_nil, hne, if_false, h.leaving]
    rfl
  refine ⟨_, .tail (.tail (.tail (.single (.wait hle (h.idle_some (Nat.le_refl _))))
    (.event _ hwake)) (.event _ hexpire)) (.event (.handOver s.windows.length)
    (if_pos List.mem_cons_self)), ⟨h.limits_eq, h.held, h.not_closed, rfl, rfl, rfl, ?_⟩, ?_, ?_⟩
  · simp
  · exact (List.append_nil _).symm
  · rw [hitems]
    rfl

/-! ## Arrivals -/

theorem start (h : Settled limits s none) (x : Arrival α) :
    Leads limits x.time s x.time (OpenWindow.start limits.normalized x).2 [x.timed]
      (OpenWindow.start limits.normalized x).1 := by
  simp only [OpenWindow.start]
  split
  · refine h.fill x ?_
    rw [h.items]
    assumption
  · exact h.first x (Nat.lt_of_not_le ‹_›)

theorem join {v : OpenWindow α} (h : Settled limits s (some v)) (x : Arrival α) :
    Leads limits x.time s x.time (v.join limits.normalized x).2 [x.timed]
      (v.join limits.normalized x).1 := by
  have hlength : s.batcher.items.length = v.items.length := by
    rw [h.items]
    exact List.length_map _
  simp only [OpenWindow.join]
  split
  · refine h.fill x ?_
    rw [hlength]
    assumption
  · refine h.more x ?_
    rw [hlength]
    exact Nat.lt_of_not_le ‹_›

theorem arrive (h : Settled limits s w) (x : Arrival α) (hle : now ≤ x.time)
    (hw : NotOverdue limits now w) :
    Leads limits now s x.time (OpenWindow.arrive limits.normalized w x).2 [x.timed]
      (OpenWindow.arrive limits.normalized w x).1 := by
  cases w with
  | none => exact (h.start x).of_wait hle (h.idle_none _)
  | some v =>
    simp only [OpenWindow.arrive]
    split
    · exact (h.join x).of_wait hle (h.idle_some (le_deadline_of_inTime ‹_›))
    · have hlate : v.deadline limits.normalized ≤ x.time := by
        apply Nat.le_of_not_lt
        intro hlt
        have hin : v.inTime limits.normalized x = true := by simp [inTime, hlt]
        contradiction
      exact (h.due (hw v rfl)).trans fun s hs ↦
        (hs.start x).of_wait hlate (hs.idle_none _)

theorem arrivals (xs : List (Arrival α)) (hsorted : xs.Pairwise (·.time ≤ ·.time))
    (h : Settled limits s w) (hle : ∀ x ∈ xs, now ≤ x.time) (hw : NotOverdue limits now w) :
    ∃ later, Leads limits now s later none (xs.map Arrival.timed)
      (greedyWindows limits.normalized w xs) := by
  induction xs generalizing s w now with
  | nil =>
    cases w with
    | none => exact ⟨now, s, .refl, h, (List.append_nil _).symm, (List.append_nil _).symm⟩
    | some v => exact ⟨_, h.due (hw v rfl)⟩
  | cons x rest ih =>
    obtain ⟨hx, hrest⟩ := List.pairwise_cons.1 hsorted
    have hfirst := h.arrive x (hle x List.mem_cons_self) hw
    obtain ⟨s₁, run, hs₁, haccepted, hwindows⟩ := hfirst
    obtain ⟨later, hlast⟩ := ih hrest hs₁ hx (notOverdue_arrive w x)
    obtain ⟨s', run', hs', haccepted', hwindows'⟩ := hlast
    refine ⟨later, s', run.trans run', hs', ?_, ?_⟩
    · rw [haccepted', haccepted, List.append_assoc]
      rfl
    · rw [hwindows', hwindows, List.append_assoc, ← List.map_append]
      rfl

end Settled

/-- The timer of a window that is closed does nothing any more. -/
theorem Sound.expire_other (h : Sound limits s) {generation : Nat}
    (hne : generation ≠ s.batcher.generation)
    (hs : s.step now (.expire generation) = some s') :
    s'.batcher = s.batcher ∧ s'.windows = s.windows := by
  obtain ⟨ht, -⟩ := Option.ite_none_right_eq_some.1 hs
  rcases h.expire_cases ht hs with ⟨-, rfl⟩ | ⟨heq, -⟩
  · exact ⟨rfl, rfl⟩
  · exact absurd heq hne

theorem Prompt.pending {past : List (Arrival α)} {closed : List (ClosedWindow α)}
    (h : Prompt limits now s past closed w) :
    ∃ pending, greedyWindows limits.normalized none past = closed ++ pending ∧
      (s.batcher.items = [] → pending = []) ∧
      (s.batcher.items ≠ [] → ∃ v : OpenWindow α, s.batcher.items = v.items.map (·.2) ∧
        pending = [(v.deadline limits.normalized, v.items)]) := by
  have hgreedy := h.greedy_eq [] fun x hx ↦ by cases hx
  rw [List.append_nil] at hgreedy
  refine ⟨_, hgreedy, fun hitems ↦ ?_, fun hitems ↦ ?_⟩
  · rw [h.items_eq_nil_iff.1 hitems]
    rfl
  · cases w with
    | none => exact absurd (h.items_eq_nil_iff.2 rfl) hitems
    | some v => exact ⟨v, h.items, rfl⟩

/-- The items that an open batcher has accepted fall into its windows as they fall into the greedy
ones, and a window ends and its batch is handed over when the greedy one ends. The only freedom is
where an item goes that arrives when a window is due. Any items at any times, with any choice in
those cases, can be accepted like this. -/
theorem windows_eq_greedyWindows (limits : BatchLimits) (start : Time) :
    (∀ now (s : LiveBatcher α), ReflTransGen PromptMove (start, new limits) (now, s) →
      s.batcher.closed = false →
      ∃ (xs : List (Arrival α)) (closed pending : List (ClosedWindow α)),
        xs.map Arrival.timed = s.accepted ∧ xs.Pairwise (·.time ≤ ·.time) ∧
        greedyWindows limits.normalized none xs = closed ++ pending ∧
        s.windows = closed.map untimed ∧
        (s.batcher.items = [] → pending = []) ∧
        (s.batcher.items ≠ [] → ∃ v : OpenWindow α, s.batcher.items = v.items.map (·.2) ∧
          pending = [(v.deadline limits.normalized, v.items)]) ∧
        (∀ c ∈ closed ++ pending, Waited limits.normalized c) ∧
        (s.handed.map (·.2) ++ s.leaving).Perm (List.range s.windows.length) ∧
        (∀ x ∈ s.handed, ∃ batch, s.windows[x.2]? = some (x.1, batch)) ∧
        (∀ n ∈ s.leaving, ∃ batch, s.windows[n]? = some (now, batch)) ∧
        ∀ generation s', generation ≠ s.batcher.generation →
          s.step now (.expire generation) = some s' →
          s'.batcher = s.batcher ∧ s'.windows = s.windows) ∧
    ∀ xs : List (Arrival α), xs.Pairwise (·.time ≤ ·.time) → (∀ x ∈ xs, start ≤ x.time) →
      ∃ later s, ReflTransGen PromptMove (start, new limits) (later, s) ∧
        s.batcher.closed = false ∧ s.Quiet ∧ s.accepted = xs.map Arrival.timed ∧
        s.windows = (greedyWindows limits.normalized none xs).map untimed ∧
        (s.handed.map (·.2)).Perm (List.range s.windows.length) ∧
        ∀ x ∈ s.handed, ∃ batch, s.windows[x.2]? = some (x.1, batch) := by
  have hnew : ∃ past closed w, Prompt limits start (new limits : LiveBatcher α) past closed w :=
    ⟨[], [], none, prompt_new limits start⟩
  constructor
  · intro now s run hopen
    obtain ⟨xs, closed, w, h⟩ := prompt_of_run run hnew hopen
    obtain ⟨pending, hgreedy, hnil, hsome⟩ := h.pending
    refine ⟨xs, closed, pending, h.accepted, h.ordered, hgreedy, h.windows, hnil, hsome, ?_,
      h.sound.handed_once, h.handed, h.leaving, fun _ _ ↦ h.sound.expire_other⟩
    rw [← hgreedy]
    exact greedyWindows_waited h.ordered fun v hv ↦ by cases hv
  · intro xs hsorted hstart
    obtain ⟨later, s, run, hs, haccepted, hwindows⟩ :=
      (settled_new limits).arrivals xs hsorted hstart fun v hv ↦ by cases hv
    obtain ⟨_, _, _, h⟩ := prompt_of_run run hnew hs.not_closed
    have honce := h.sound.handed_once
    rw [hs.leaving, List.append_nil] at honce
    exact ⟨later, s, run, hs.not_closed, hs.quiet, haccepted, hwindows, honce, h.handed⟩

/-- The second item arrives when the window of the first one is due. -/
example (early : Bool) :
    greedyWindows ⟨10, 3⟩ none [⟨0, 'a', false⟩, ⟨10, 'b', early⟩, ⟨12, 'c', false⟩] =
      if early then [(10, [(0, 'a'), (10, 'b')]), (22, [(12, 'c')])]
      else [(10, [(0, 'a')]), (20, [(10, 'b'), (12, 'c')])] := by
  cases early <;> rfl

end LiveBatcher

end Outbound
