import Outbound.Proofs.Batch.Delivery
import Outbound.Proofs.Batch.Greedy

/-!
# The windows of a prompt batcher are the greedy ones

On a clock that stands still while a task can run, a timer closes its window at the very time the
window is due. So what has happened to a batcher is a function of the times of the items: its
windows are the greedy ones, apart from the order of an item and of a timer that come at once. The
step lemmas carry along the window that is open and what the greedy windows of any later items
will be.
-/

namespace Outbound

/-- Where the timer of a window can be, given when the window began and when it is due. -/
def TimerPhase.OnTime (now opened deadline : Time) : TimerPhase → Prop
  | spawned => now = opened
  | sleeping due => due = deadline ∧ now ≤ due
  | awake => now = deadline

namespace LiveBatcher

open OpenWindow Relation

variable {α : Type} {limits : BatchLimits} {now : Time} {s s' : LiveBatcher α}
  {past : List (Arrival α)} {closed : List (ClosedWindow α)} {w : Option (OpenWindow α)}

/-- Those items can still come. If a window was closed at the present time, an item that comes at
this time is behind its end. -/
def Follows (now : Time) (w : Option (OpenWindow α)) (later : List (Arrival α)) : Prop :=
  ∀ x ∈ later.head?, now < x.time ∨ now = x.time ∧ (w = none → x.early = false)

/-- What holds between any two acts on a prompt batcher: the items of `past` have arrived, the
windows of `closed` have ended, and `w` is the open one. -/
structure Prompt (limits : BatchLimits) (now : Time) (s : LiveBatcher α)
    (past : List (Arrival α)) (closed : List (ClosedWindow α)) (w : Option (OpenWindow α)) :
    Prop where
  sound : Sound limits s
  accepted : past.map Arrival.timed = s.accepted
  windows : s.windows = closed.map untimed
  items : s.batcher.items = (w.map fun v ↦ v.items.map (·.2)).getD []
  ordered : past.Pairwise (·.time ≤ ·.time)
  before : ∀ x ∈ past, x.time ≤ now
  greedy_eq : ∀ later, Follows now w later →
    greedyWindows limits.normalized none (past ++ later) =
      closed ++ greedyWindows limits.normalized w later
  timer : ∀ v, w = some v → ∀ t ∈ s.timers, t.generation = s.batcher.generation →
    t.phase.OnTime now v.first.1 (v.deadline limits.normalized)
  /-- A batch waits for the callback at the time its window was closed, and no longer. -/
  leaving : ∀ n ∈ s.leaving, ∃ batch, s.windows[n]? = some (now, batch)
  handed : ∀ x ∈ s.handed, ∃ batch, s.windows[x.2]? = some (x.1, batch)

theorem prompt_new (limits : BatchLimits) (start : Time) :
    Prompt limits start (new limits : LiveBatcher α) [] [] none where
  sound := sound_new limits
  accepted := rfl
  windows := rfl
  items := rfl
  ordered := .nil
  before := fun _ hx ↦ (List.not_mem_nil hx).elim
  greedy_eq := fun _ _ ↦ rfl
  timer := fun _ hv ↦ by cases hv
  leaving := fun _ hn ↦ (List.not_mem_nil hn).elim
  handed := fun _ hx ↦ (List.not_mem_nil hx).elim

namespace Prompt

theorem items_eq_nil_iff (h : Prompt limits now s past closed w) :
    s.batcher.items = [] ↔ w = none := by
  rw [h.items]
  cases w with
  | none => simp
  | some v => simp [OpenWindow.items]

/-- No window stays open beyond its deadline. -/
theorem le_deadline {v : OpenWindow α} (h : Prompt limits now s past closed (some v)) :
    now ≤ v.deadline limits.normalized := by
  have hitems : s.batcher.items ≠ [] := fun hitems ↦ by cases h.items_eq_nil_iff.1 hitems
  obtain ⟨t, ht, hgen⟩ := (h.sound.armed hitems).2
  have htime := h.timer v rfl t ht hgen
  cases hphase : t.phase with
  | spawned =>
    rw [hphase] at htime
    rw [show now = v.first.1 from htime]
    exact Nat.le_add_right _ _
  | sleeping due =>
    rw [hphase] at htime
    obtain ⟨rfl, hle⟩ := htime
    exact hle
  | awake =>
    rw [hphase] at htime
    exact Nat.le_of_eq htime

/-! ## One lemma for each act -/

theorem windows_append {closes : List (Time × List α)} {n : Nat} {t : Time} {batch : List α}
    (h : s.windows[n]? = some (t, batch)) :
    (s.windows ++ closes)[n]? = some (t, batch) := by
  rw [List.getElem?_append_left (List.getElem?_eq_some_iff.1 h).1]
  exact h

theorem leaving_append (h : Prompt limits now s past closed w) (batch : List α) :
    ∀ n ∈ s.leaving ++ [s.windows.length],
      ∃ b, (s.windows ++ [(now, batch)])[n]? = some (now, b) := by
  intro n hn
  rcases List.mem_append.1 hn with hn | hn
  · obtain ⟨b, hb⟩ := h.leaving n hn
    exact ⟨b, windows_append hb⟩
  · rw [List.mem_singleton.1 hn]
    exact ⟨batch, by simp⟩

theorem inTime_of_early {v : OpenWindow α} (h : Prompt limits now s past closed (some v))
    {x : Arrival α} (htime : x.time = now) (hearly : x.early = true) :
    v.inTime limits.normalized x = true := by
  have hle := h.le_deadline
  rw [← htime] at hle
  rcases Nat.lt_or_eq_of_le hle with hlt | heq
  · simp [inTime, hlt]
  · simp [inTime, heq, hearly]

/-- An item that arrives at the present time, ahead of the end of a window that is still open. -/
theorem greedy_eq_append (h : Prompt limits now s past closed w) {x : Arrival α}
    (htime : x.time = now) (hearly : x.early = w.isSome) (later : List (Arrival α)) :
    greedyWindows limits.normalized none (past ++ [x] ++ later) =
      closed ++ (arrive limits.normalized w x).1 ++
        greedyWindows limits.normalized (arrive limits.normalized w x).2 later := by
  have hfollows : Follows now w (x :: later) := by
    intro y hy
    cases hy
    refine .inr ⟨htime.symm, fun hw ↦ ?_⟩
    rw [hearly, hw]
    rfl
  rw [List.append_assoc, List.append_assoc]
  exact h.greedy_eq _ hfollows

/-- What an accepted item does to the open window is what its arrival does in the greedy ones. -/
theorem accept_core (h : Prompt limits now s past closed w) {item : α}
    {result : Batcher α × List (BatchEffect α)} (hsubmit : s.batcher.submit item = .ok result)
    {x : Arrival α} (hx : x.timed = (now, item)) (hearly : x.early = w.isSome) :
    let s' := s.accept now item result
    let r := arrive limits.normalized w x
    s'.windows = (closed ++ r.1).map untimed ∧
      s'.batcher.items = (r.2.map fun v ↦ v.items.map (·.2)).getD [] ∧
      (∀ v, r.2 = some v → ∀ t ∈ s'.timers, t.generation = s'.batcher.generation →
        t.phase.OnTime now v.first.1 (v.deadline limits.normalized)) ∧
      ∀ n ∈ s'.leaving, ∃ batch, s'.windows[n]? = some (now, batch) := by
  have htime : x.time = now := congrArg Prod.fst hx
  obtain ⟨-, hcases⟩ := Batcher.submit_cases hsubmit
  rw [h.sound.limits_eq] at hcases
  cases w with
  | none =>
    have hitems : s.batcher.items = [] := h.items_eq_nil_iff.2 rfl
    rcases hcases with ⟨hfull, rfl⟩ | ⟨-, hone, rfl⟩ | ⟨hne, -, -⟩
    · have hstart : limits.normalized.maxCount ≤ 1 := by
        rw [hitems] at hfull
        exact hfull
      simp only [arrive, start, hstart, if_true, accept, apply_flush, hitems, List.nil_append,
        List.cons_ne_nil, if_false]
      refine ⟨?_, rfl, ?_, h.leaving_append [item]⟩
      · rw [h.windows, List.map_append]
        simp [untimed, hx, htime]
      · intro v hv
        cases hv
    · have hstart : ¬limits.normalized.maxCount ≤ 1 := Nat.not_le.2 hone
      simp only [arrive, start, hstart, if_false, accept, apply_arm, List.append_nil]
      refine ⟨h.windows, ?_, fun v hv t ht hgen ↦ ?_, h.leaving⟩
      · simp [OpenWindow.items, hx]
      · cases hv
        rcases List.mem_cons.1 ht with rfl | ht
        · exact htime.symm
        · exact absurd hgen ((h.sound.unarmed hitems).2 t ht)
    · exact absurd hitems hne
  | some v =>
    have hitems : s.batcher.items = v.items.map (·.2) := h.items
    have hne : s.batcher.items ≠ [] := fun hnil ↦ by cases h.items_eq_nil_iff.1 hnil
    have hin := h.inTime_of_early htime hearly
    have hlength : s.batcher.items.length = v.items.length := by
      rw [hitems, List.length_map]
    rcases hcases with ⟨hfull, rfl⟩ | ⟨hnil, -, -⟩ | ⟨-, hroom, rfl⟩
    · rw [hlength] at hfull
      have hsome : s.batcher.items ++ [item] ≠ [] := by simp
      simp only [arrive, hin, if_true, join, hfull, accept, apply_flush, hsome, if_false]
      refine ⟨?_, rfl, ?_, h.leaving_append _⟩
      · rw [h.windows, List.map_append]
        simp [untimed, hx, htime, hitems]
      · intro v hv
        cases hv
    · exact absurd hnil hne
    · rw [hlength] at hroom
      have hopen : ¬limits.normalized.maxCount ≤ v.items.length + 1 := Nat.not_le.2 hroom
      simp only [arrive, hin, if_true, join, hopen, if_false, accept, apply_nil, List.append_nil]
      refine ⟨h.windows, ?_, fun v' hv ↦ ?_, h.leaving⟩
      · simp [OpenWindow.items, hitems, hx]
      · cases hv
        exact h.timer v rfl

theorem accept (h : Prompt limits now s past closed w) {item : α}
    {result : Batcher α × List (BatchEffect α)} (hsubmit : s.batcher.submit item = .ok result) :
    ∃ past closed w, Prompt limits now (s.accept now item result) past closed w := by
  let x : Arrival α := ⟨now, item, w.isSome⟩
  obtain ⟨hwindows, hitems, htimer, hleaving⟩ := h.accept_core hsubmit (x := x) rfl rfl
  refine ⟨past ++ [x], closed ++ (arrive limits.normalized w x).1,
    (arrive limits.normalized w x).2, h.sound.submit hsubmit, ?_, hwindows, hitems, ?_, ?_,
    fun later _ ↦ h.greedy_eq_append rfl rfl later, htimer, hleaving, ?_⟩
  · rw [LiveBatcher.accept, accepted_apply, List.map_append, h.accepted]
    rfl
  · refine List.pairwise_append.2 ⟨h.ordered, List.pairwise_singleton _ _, fun y hy z hz ↦ ?_⟩
    rw [List.mem_singleton.1 hz]
    exact h.before y hy
  · intro y hy
    rcases List.mem_append.1 hy with hy | hy
    · exact h.before y hy
    · exact Nat.le_of_eq (congrArg Arrival.time (List.mem_singleton.1 hy))
  · intro y hy
    rw [LiveBatcher.accept, handed_apply] at hy
    obtain ⟨batch, hbatch⟩ := h.handed y hy
    refine ⟨batch, ?_⟩
    rw [hwindows, List.map_append, ← h.windows]
    exact windows_append hbatch

theorem sleep (h : Prompt limits now s past closed w) {generation : Nat}
    (ht : ⟨generation, .spawned⟩ ∈ s.timers) :
    Prompt limits now { s with
      timers := ⟨generation, .sleeping (now + s.batcher.limits.maxWait)⟩ ::
        s.timers.erase ⟨generation, .spawned⟩ } past closed w := by
  refine { h with sound := h.sound.sleep ht, timer := fun v hv t hmem hgen ↦ ?_ }
  rcases List.mem_cons.1 hmem with rfl | hmem
  · have htime : now = v.first.1 := h.timer v hv _ ht hgen
    refine ⟨?_, Nat.le_add_right _ _⟩
    rw [h.sound.limits_eq, htime]
    rfl
  · exact h.timer v hv t (List.mem_of_mem_erase hmem) hgen

theorem wake (h : Prompt limits now s past closed w) {generation due : Nat}
    (ht : ⟨generation, .sleeping due⟩ ∈ s.timers) (hdue : due ≤ now) :
    Prompt limits now { s with
      timers := ⟨generation, .awake⟩ :: s.timers.erase ⟨generation, .sleeping due⟩ }
      past closed w := by
  refine { h with sound := h.sound.wake ht, timer := fun v hv t hmem hgen ↦ ?_ }
  rcases List.mem_cons.1 hmem with rfl | hmem
  · obtain ⟨heq, hle⟩ := h.timer v hv _ ht hgen
    rw [← heq]
    exact Nat.le_antisymm hle hdue
  · exact h.timer v hv t (List.mem_of_mem_erase hmem) hgen

/-- Items that come after a window has ended at its deadline do not join it. -/
theorem greedy_of_follows {v : OpenWindow α} {later : List (Arrival α)}
    (h : Follows (v.deadline limits) none later) :
    greedyWindows limits (some v) later =
      (v.deadline limits, v.items) :: greedyWindows limits none later := by
  cases later with
  | nil => rfl
  | cons x later =>
    have hlate : v.inTime limits x = false := by
      rcases h x rfl with hlt | ⟨heq, hearly⟩
      · simp [inTime, Nat.not_lt_of_lt hlt, Nat.ne_of_gt hlt]
      · simp [inTime, ← heq, hearly rfl]
    simp [greedyWindows, arrive, hlate]

theorem expire (h : Prompt limits now s past closed w) {generation : Nat}
    (ht : ⟨generation, .awake⟩ ∈ s.timers) (hs : s.step now (.expire generation) = some s') :
    ∃ closed w, Prompt limits now s' past closed w := by
  have hsound := h.sound.step hs
  rcases h.sound.expire_cases ht hs with ⟨hlt, rfl⟩ | ⟨rfl, hitems, rfl⟩
  · exact ⟨closed, w, { h with
      sound := hsound
      timer := fun v hv t hmem ↦ h.timer v hv t (List.mem_of_mem_erase hmem) }⟩
  · cases w with
    | none => exact absurd (h.items_eq_nil_iff.2 rfl) hitems
    | some v =>
      have hnow : now = v.deadline limits.normalized := h.timer v rfl _ ht rfl
      refine ⟨closed ++ [(now, v.items)], none, { h with
        sound := hsound
        windows := ?_
        items := rfl
        greedy_eq := fun later hlater ↦ ?_
        timer := fun v hv ↦ by cases hv
        leaving := h.leaving_append _
        handed := fun x hx ↦ ?_ }⟩
      · rw [List.map_append, ← h.windows, show s.batcher.items = v.items.map (·.2) from h.items]
        rfl
      · have hstill : Follows now (some v) later := by
          intro x hx
          rcases hlater x hx with hlt | ⟨heq, -⟩
          · exact .inl hlt
          · exact .inr ⟨heq, fun hv ↦ by cases hv⟩
        rw [h.greedy_eq later hstill, greedy_of_follows (hnow ▸ hlater), hnow, List.append_assoc]
        rfl
      · obtain ⟨batch, hbatch⟩ := h.handed x hx
        exact ⟨batch, windows_append hbatch⟩

theorem handOver (h : Prompt limits now s past closed w) {number : Nat}
    (hmem : number ∈ s.leaving) :
    Prompt limits now { s with
      leaving := s.leaving.erase number
      handed := s.handed ++ [(now, number)] } past closed w := by
  refine { h with
    sound := h.sound.handOver hmem
    leaving := fun n hn ↦ h.leaving n (List.mem_of_mem_erase hn)
    handed := fun x hx ↦ ?_ }
  rcases List.mem_append.1 hx with hx | hx
  · exact h.handed x hx
  · rw [List.mem_singleton.1 hx]
    exact h.leaving number hmem

theorem free (h : Prompt limits now s past closed w) (htimers : s.timers = []) :
    Prompt limits now { s with
      batcher := { s.batcher with items := [] }
      lost := s.lost ++ s.batcher.items } past closed w := by
  refine { h with sound := h.sound.free htimers, items := ?_ }
  rw [← h.items]
  exact (h.sound.items_eq_nil_of_timers_eq_nil htimers).symm

theorem step (h : Prompt limits now s past closed w) {e : Event α}
    (hs : s.step now e = some s') (hopen : s'.batcher.closed = false) :
    ∃ past closed w, Prompt limits now s' past closed w := by
  cases e with
  | clone =>
    obtain ⟨_, ⟨⟩⟩ := Option.ite_none_right_eq_some.1 hs
    exact ⟨past, closed, w, { h with sound := { h.sound with } }⟩
  | drop =>
    obtain ⟨_, ⟨⟩⟩ := Option.ite_none_right_eq_some.1 hs
    exact ⟨past, closed, w, { h with sound := { h.sound with } }⟩
  | submit item =>
    rcases submit_step_cases hs with ⟨-, rfl⟩ | ⟨result, haccepted, rfl⟩
    · exact ⟨past, closed, w, h⟩
    · exact h.accept haccepted
  | close =>
    obtain ⟨_, ⟨⟩⟩ := Option.ite_none_right_eq_some.1 hs
    rw [batcher_apply, Batcher.closed_close] at hopen
    cases hopen
  | sleep generation =>
    obtain ⟨ht, ⟨⟩⟩ := Option.ite_none_right_eq_some.1 hs
    exact ⟨past, closed, w, h.sleep ht⟩
  | wake generation due =>
    obtain ⟨⟨ht, hdue⟩, ⟨⟩⟩ := Option.ite_none_right_eq_some.1 hs
    exact ⟨past, closed, w, h.wake ht hdue⟩
  | expire generation =>
    obtain ⟨ht, -⟩ := Option.ite_none_right_eq_some.1 hs
    obtain ⟨closed, w, h'⟩ := h.expire ht hs
    exact ⟨past, closed, w, h'⟩
  | handOver number =>
    obtain ⟨hmem, ⟨⟩⟩ := Option.ite_none_right_eq_some.1 hs
    exact ⟨past, closed, w, h.handOver hmem⟩
  | free =>
    obtain ⟨⟨_, htimers⟩, ⟨⟩⟩ := Option.ite_none_right_eq_some.1 hs
    exact ⟨past, closed, w, h.free htimers⟩

theorem wait (h : Prompt limits now s past closed w) {later : Time} (hle : now ≤ later)
    (idle : s.IdleUntil later) : Prompt limits later s past closed w := by
  obtain ⟨hleaving, hsleeping⟩ := idle
  refine { h with
    before := fun x hx ↦ Nat.le_trans (h.before x hx) hle
    greedy_eq := fun xs hxs ↦ h.greedy_eq xs fun x hx ↦ ?_
    timer := fun v hv t ht hgen ↦ ?_
    leaving := fun n hn ↦ ?_ }
  · rcases hxs x hx with hlt | ⟨heq, hearly⟩
    · exact .inl (Nat.lt_of_le_of_lt hle hlt)
    · rcases Nat.lt_or_eq_of_le hle with hlt | hsame
      · exact .inl (heq ▸ hlt)
      · exact .inr ⟨hsame.trans heq, hearly⟩
  · obtain ⟨due, hphase, hdue⟩ := hsleeping t ht
    have htime := h.timer v hv t ht hgen
    rw [hphase] at htime ⊢
    exact ⟨htime.1, hdue⟩
  · rw [hleaving] at hn
    exact (List.not_mem_nil hn).elim

end Prompt

theorem prompt_of_run {x y : Time × LiveBatcher α} (run : ReflTransGen PromptMove x y)
    (h : ∃ past closed w, Prompt limits x.1 x.2 past closed w)
    (hopen : y.2.batcher.closed = false) :
    ∃ past closed w, Prompt limits y.1 y.2 past closed w := by
  induction run with
  | refl => exact h
  | tail _ hm ih =>
    cases hm with
    | wait hle idle =>
      obtain ⟨past, closed, w, h⟩ := ih hopen
      exact ⟨past, closed, w, h.wait hle idle⟩
    | @event now s s' e hs =>
      have hbefore : s.batcher.closed = false := by
        by_contra hclosed
        have hclosed' := closed_of_step hs (by simpa using hclosed)
        rw [hclosed'] at hopen
        cases hopen
      obtain ⟨past, closed, w, h⟩ := ih hbefore
      exact h.step hs hopen

end LiveBatcher

end Outbound
