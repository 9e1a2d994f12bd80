import Outbound.Batch.Chronicle
import Outbound.Proofs.Batch.Delivery

/-!
# The open window and its timer

Between two acts an open window has exactly one timer, which sleeps from the time when its task
first ran. On a prompt clock it is due when the first item of the window has waited long enough;
otherwise it may be due later, but never before that. All other timers are of windows on record, and
nothing comes of them any more. The generation counts the windows on record, of which only the one
that closing has ended may be empty.
-/

namespace Outbound

/-- What is sent off of a closed window. -/
def WindowEnd.batch? {α : Type} (w : WindowEnd α) : Option (Time × List α) :=
  match w.items with
  | [] => none
  | _ => some (w.time, w.items)

/-- Where the timer of a window can be, given when its first item was accepted. It sleeps from the
time when its task first ran, so on a prompt clock it is due at one time only, and otherwise not
before that. -/
def TimerPhase.Timed (prompt : Prop) (now opened maxWait : Time) : TimerPhase → Prop
  | spawned => opened ≤ now ∧ (prompt → now = opened)
  | sleeping due => opened + maxWait ≤ due ∧ (prompt → due = opened + maxWait) ∧
      due ≤ now + maxWait
  | awake => opened + maxWait ≤ now

theorem TimerPhase.Timed.wait {prompt : Prop} {now later opened maxWait : Time} {phase : TimerPhase}
    (h : phase.Timed prompt now opened maxWait) (hle : now ≤ later)
    (hphase : prompt → phase ≠ .spawned) : phase.Timed prompt later opened maxWait := by
  cases phase with
  | spawned => exact ⟨h.1.trans hle, fun hprompt ↦ (hphase hprompt rfl).elim⟩
  | sleeping due =>
    obtain ⟨hearliest, hexact, hlatest⟩ := h
    exact ⟨hearliest, hexact, hlatest.trans (Nat.add_le_add_right hle maxWait)⟩
  | awake => exact Nat.le_trans h hle

namespace LiveBatcher

open Relation

variable {α : Type} {prompt : Prop} {limits : BatchLimits} {now : Time} {s s' : LiveBatcher α}
  {ends : List (WindowEnd α)}

/-! ## Windows on record -/

theorem windows_flush (now : Time) (s : LiveBatcher α) (b : Batcher α) (w : WindowEnd α)
    (htime : w.time = now) (hitems : w.items = b.items) :
    (s.apply now b.flush).windows = s.windows ++ [w].filterMap WindowEnd.batch? := by
  rw [apply_flush, ← hitems, ← htime]
  cases w with
  | mk time cause items => cases items <;> rfl

/-- What the record and the batcher have in common after an act. -/
structure Records (s s' : LiveBatcher α) (ending : Option (WindowEnd α)) : Prop where
  generation : s'.batcher.generation = s.batcher.generation + ending.toList.length
  windows : s'.windows = s.windows ++ ending.toList.filterMap WindowEnd.batch?

theorem Records.none (hgeneration : s'.batcher.generation = s.batcher.generation)
    (hwindows : s'.windows = s.windows) : Records s s' none :=
  ⟨hgeneration, hwindows.trans (List.append_nil _).symm⟩

theorem Records.flush {b : Batcher α} {w : WindowEnd α} {r : LiveBatcher α}
    (hgeneration : b.generation = s.batcher.generation) (hwindows : r.windows = s.windows)
    (htime : w.time = now) (hitems : w.items = b.items) :
    Records s (r.apply now b.flush) (some w) where
  generation := by rw [batcher_apply, Batcher.generation_flush, hgeneration]; rfl
  windows := by rw [windows_flush now r b w htime hitems, hwindows]; rfl

theorem records_accept {item : α} {result : Batcher α × List (BatchEffect α)}
    (hsubmit : s.batcher.submit item = .ok result) :
    Records s (s.accept now item result) (s.ending? now (.submit item)) := by
  obtain ⟨hopen, ⟨hfull, rfl⟩ | ⟨hitems, hone, rfl⟩ | ⟨-, hroom, rfl⟩⟩ :=
    Batcher.submit_cases hsubmit
  · have hending : s.ending? now (.submit item) =
        some ⟨now, .full, s.batcher.items ++ [item]⟩ := by
      simp [ending?, hopen, hfull]
    rw [hending]
    exact .flush rfl rfl rfl rfl
  · have hending : s.ending? now (.submit item) = none := by
      simp [ending?, hitems, hone]
    rw [hending]
    exact .none rfl rfl
  · have hending : s.ending? now (.submit item) = none := by
      simp [ending?, hroom]
    rw [hending]
    exact .none rfl rfl

/-- Each window that is closed raises the generation by one, and its items are sent off. -/
theorem records_step {e : Event α} (hs : s.step now e = some s') :
    Records s s' (s.ending? now e) := by
  cases e with
  | submit item =>
    rcases submit_step_cases hs with ⟨hclosed, rfl⟩ | ⟨result, haccepted, rfl⟩
    · have hending : s'.ending? now (.submit item) = none := by simp [ending?, hclosed]
      rw [hending]
      exact .none rfl rfl
    · exact records_accept haccepted
  | close =>
    obtain ⟨-, ⟨⟩⟩ := Option.ite_none_right_eq_some.1 hs
    simp only [Batcher.close, ending?]
    split
    · exact .none rfl rfl
    · exact .flush rfl rfl rfl rfl
  | expire generation =>
    obtain ⟨-, ⟨⟩⟩ := Option.ite_none_right_eq_some.1 hs
    simp only [Batcher.expire, ending?]
    split
    · exact .flush rfl rfl rfl rfl
    · exact .none rfl rfl
  | _ =>
    obtain ⟨-, ⟨⟩⟩ := Option.ite_none_right_eq_some.1 hs
    exact .none rfl rfl

/-- Only closing the batcher closes a window without items. -/
theorem Sound.items_ne_nil_of_ending (h : Sound limits s) {e : Event α} {w : WindowEnd α}
    (hs : s.step now e = some s') (hw : s.ending? now e = some w) (he : e ≠ .close) :
    w.items ≠ [] ∧ w.cause ≠ .closed := by
  cases e with
  | submit item =>
    obtain ⟨-, ⟨⟩⟩ := Option.ite_none_right_eq_some.1 hw
    exact ⟨List.concat_ne_nil _ _, nofun⟩
  | expire generation =>
    obtain ⟨hgen, ⟨⟩⟩ := Option.ite_none_right_eq_some.1 hw
    obtain ⟨ht, -⟩ := Option.ite_none_right_eq_some.1 hs
    exact ⟨fun hitems ↦ (h.unarmed hitems).2 _ ht hgen.symm, nofun⟩
  | close => exact (he rfl).elim
  | _ => cases hw

/-- The windows that a batcher has closed are those on record. -/
structure OnRecord (ends : List (WindowEnd α)) (s : LiveBatcher α) : Prop where
  generation : s.batcher.generation = ends.length
  windows : s.windows = ends.filterMap WindowEnd.batch?
  empty : ∀ w ∈ ends, w.items = [] → w.cause = .closed
  closings : (ends.map WindowEnd.cause).count .closed = if s.batcher.closed then 1 else 0

theorem onRecord_new (limits : BatchLimits) : OnRecord [] (new limits : LiveBatcher α) where
  generation := rfl
  windows := rfl
  empty _ hw := (List.not_mem_nil hw).elim
  closings := rfl

theorem OnRecord.step (h : OnRecord ends s) (hsound : Sound limits s) {e : Event α}
    (hs : s.step now e = some s') : OnRecord (ends ++ (s.ending? now e).toList) s' := by
  have hrecords := records_step hs
  refine ⟨?_, ?_, fun w hw hitems ↦ ?_, ?_⟩
  · rw [hrecords.generation, h.generation, List.length_append]
  · rw [hrecords.windows, h.windows, List.filterMap_append]
  · rcases List.mem_append.1 hw with hw | hw
    · exact h.empty w hw hitems
    · have hending : s.ending? now e = some w := Option.mem_toList.1 hw
      by_cases he : e = .close
      · subst he
        obtain ⟨-, ⟨⟩⟩ := Option.ite_none_left_eq_some.1 hending
        rfl
      · exact ((hsound.items_ne_nil_of_ending hs hending he).1 hitems).elim
  · have hclosed := closed_step_iff hs
    rw [List.map_append, List.count_append, h.closings]
    by_cases he : e = .close
    · subst he
      rw [if_pos (hclosed.2 (.inr rfl))]
      cases hc : s.batcher.closed <;> simp [ending?, hc]
    · have hcount : ((s.ending? now e).toList.map WindowEnd.cause).count .closed = 0 := by
        rw [List.count_eq_zero, List.mem_map]
        rintro ⟨w, hw, hcause⟩
        exact (hsound.items_ne_nil_of_ending hs (Option.mem_toList.1 hw) he).2 hcause
      rw [hcount, Nat.add_zero]
      simp only [hclosed, he, or_false]

/-! ## The items that wait -/

theorem pending_eq_nil (h : s.batcher.items = []) : s.pending = [] := by
  rw [pending, h, List.length_nil, Nat.sub_zero, List.drop_length]

theorem Sound.length_accepted (h : Sound limits s) :
    (s.windows.flatMap (·.2)).length + s.batcher.items.length = s.accepted.length := by
  have hlength := congrArg List.length h.kept
  rwa [List.length_append, List.length_map] at hlength

theorem Sound.map_pending (h : Sound limits s) : s.pending.map Prod.snd = s.batcher.items := by
  rw [pending, List.map_drop, ← h.kept, ← h.length_accepted, Nat.add_sub_cancel, List.drop_left]

theorem pending_submit {x : Time × α} (haccepted : s'.accepted = s.accepted ++ [x])
    (hitems : s'.batcher.items = s.batcher.items ++ [x.2]) : s'.pending = s.pending ++ [x] := by
  have hle : s.accepted.length - s.batcher.items.length ≤ s.accepted.length := Nat.sub_le _ _
  rw [pending, pending, haccepted, hitems, List.length_append, List.length_append,
    List.length_singleton, List.length_singleton, Nat.add_sub_add_right,
    List.drop_append_of_le_length hle]

/-! ## The timer of the open window -/

/-- The timer of the open window is where it should be. -/
def OnSchedule (prompt : Prop) (now : Time) (s : LiveBatcher α) : Prop :=
  ∀ x ∈ s.pending.head?, ∀ t ∈ s.timers, t.generation = s.batcher.generation →
    t.phase.Timed prompt now x.1 s.batcher.limits.maxWait

namespace OnSchedule

theorem of_items_eq_nil (h : s.batcher.items = []) : OnSchedule prompt now s := by
  intro x hx
  rw [pending_eq_nil h] at hx
  cases hx

theorem wait (h : OnSchedule prompt now s) {later : Time} (hle : now ≤ later)
    (hstarted : prompt → s.allStarted = true) : OnSchedule prompt later s := by
  intro x hx t ht hgen
  refine (h x hx t ht hgen).wait hle fun hprompt ↦ ?_
  exact bne_iff_ne.1 (List.all_eq_true.1 (hstarted hprompt) t ht)

/-- No act disturbs the schedule that leaves the first item and the timer as they are. -/
theorem of_frame (h : OnSchedule prompt now s) (hfirst : s'.pending.head? = s.pending.head?)
    (htimers : s'.timers ⊆ s.timers) (hgeneration : s'.batcher.generation = s.batcher.generation)
    (hlimits : s'.batcher.limits = s.batcher.limits) : OnSchedule prompt now s' := by
  intro x hx t ht hgen
  rw [hlimits]
  exact h x (hfirst ▸ hx) t (htimers ht) (hgen.trans hgeneration)

/-- A timer goes on to its next phase. -/
theorem of_phase (h : OnSchedule prompt now s) {generation : ℕ} {phase next : TimerPhase}
    (ht : ⟨generation, phase⟩ ∈ s.timers)
    (hnext : ∀ opened, phase.Timed prompt now opened s.batcher.limits.maxWait →
      next.Timed prompt now opened s.batcher.limits.maxWait) :
    OnSchedule prompt now { s with
      timers := ⟨generation, next⟩ :: s.timers.erase ⟨generation, phase⟩ } := by
  intro x hx t hmem hgen
  rcases List.mem_cons.1 hmem with rfl | hmem
  · exact hnext x.1 (h x hx _ ht hgen)
  · exact h x hx t (List.mem_of_mem_erase hmem) hgen

theorem first (hsound : Sound limits s) (hitems : s.batcher.items = []) (item : α) :
    OnSchedule prompt now (s.accept now item
      ({ s.batcher with items := [item], timer := some s.batcher.generation },
        [.arm s.batcher.generation])) := by
  intro x hx t ht hgen
  rw [accept, apply_arm] at hx ht hgen
  rw [pending_submit (x := (now, item)) rfl (by rw [hitems]; rfl), pending_eq_nil hitems] at hx
  cases hx
  -- Nothing was open before, so the new timer is the only one of its generation.
  rcases List.mem_cons.1 ht with rfl | ht
  · exact ⟨Nat.le_refl _, fun _ ↦ rfl⟩
  · exact absurd hgen ((hsound.unarmed hitems).2 t ht)

theorem more (h : OnSchedule prompt now s) (hsound : Sound limits s)
    (hitems : s.batcher.items ≠ []) (item : α) :
    OnSchedule prompt now (s.accept now item
      ({ s.batcher with items := s.batcher.items ++ [item] }, [])) := by
  have hne : s.pending ≠ [] := fun hnil ↦ hitems (by rw [← hsound.map_pending, hnil]; rfl)
  refine h.of_frame ?_ (List.Subset.refl _) rfl rfl
  rw [pending_submit (x := (now, item)) rfl rfl, List.head?_append_of_ne_nil _ hne]

theorem step (h : OnSchedule prompt now s) (hsound : Sound limits s) {e : Event α}
    (hs : s.step now e = some s') : OnSchedule prompt now s' := by
  cases e with
  | submit item =>
    rcases submit_step_cases hs with ⟨-, rfl⟩ | ⟨result, haccepted, rfl⟩
    · exact h
    · obtain ⟨-, ⟨-, rfl⟩ | ⟨hitems, -, rfl⟩ | ⟨hitems, -, rfl⟩⟩ := Batcher.submit_cases haccepted
      · refine of_items_eq_nil ?_
        rw [accept, batcher_apply, Batcher.items_flush]
      · exact first hsound hitems item
      · exact h.more hsound hitems item
  | close =>
    have hclosed : s'.batcher.closed = true := (closed_step_iff hs).2 (.inr rfl)
    exact of_items_eq_nil ((hsound.step hs).closed hclosed)
  | sleep generation =>
    obtain ⟨ht, ⟨⟩⟩ := Option.ite_none_right_eq_some.1 hs
    refine h.of_phase ht fun opened hphase ↦ ?_
    obtain ⟨hopened, hexact⟩ := hphase
    exact ⟨Nat.add_le_add_right hopened _, fun hprompt ↦ by rw [hexact hprompt], Nat.le_refl _⟩
  | wake generation due =>
    obtain ⟨⟨ht, hdue⟩, ⟨⟩⟩ := Option.ite_none_right_eq_some.1 hs
    refine h.of_phase ht fun opened hphase ↦ ?_
    obtain ⟨hearliest, -⟩ := hphase
    exact Nat.le_trans hearliest hdue
  | expire generation =>
    obtain ⟨ht, -⟩ := Option.ite_none_right_eq_some.1 hs
    rcases hsound.expire_cases ht hs with ⟨-, rfl⟩ | ⟨-, -, rfl⟩
    · exact h.of_frame rfl List.erase_subset rfl rfl
    · exact of_items_eq_nil rfl
  | free =>
    obtain ⟨-, ⟨⟩⟩ := Option.ite_none_right_eq_some.1 hs
    exact of_items_eq_nil rfl
  | _ =>
    obtain ⟨-, ⟨⟩⟩ := Option.ite_none_right_eq_some.1 hs
    exact h.of_frame rfl (List.Subset.refl _) rfl rfl

end OnSchedule

theorem generation_le_of_run {x y : Time × LiveBatcher α} (run : ReflTransGen Move x y) :
    x.2.batcher.generation ≤ y.2.batcher.generation := by
  induction run with
  | refl => exact Nat.le_refl _
  | tail _ hm ih =>
    cases hm with
    | wait _ => exact ih
    | event e hs => exact ih.trans ((records_step hs).generation ▸ Nat.le_add_right _ _)

namespace Sound

theorem timer_isSome_iff (h : Sound limits s) :
    s.batcher.items ≠ [] ↔ s.batcher.timer.isSome = true := by
  by_cases hitems : s.batcher.items = []
  · simp [hitems, (h.unarmed hitems).1]
  · simp [hitems, (h.armed hitems).1]

theorem exists_only_timer (h : Sound limits s) (hitems : s.batcher.items ≠ []) :
    ∃ t ∈ s.timers, t.generation = s.batcher.generation ∧
      s.timers.filter (·.generation = s.batcher.generation) = [t] := by
  obtain ⟨t, ht, hgen⟩ := (h.armed hitems).2
  -- No two timers have one generation, so that it is enough to count.
  have hcount := List.count_eq_one_of_mem h.distinct (List.mem_map_of_mem ht)
  rw [hgen, List.count, List.countP_map, List.countP_eq_length_filter] at hcount
  obtain ⟨u, hu⟩ := List.length_eq_one_iff.1 hcount
  have hfilter : s.timers.filter (·.generation = s.batcher.generation) = [u] := hu
  have hmem : t ∈ s.timers.filter (·.generation = s.batcher.generation) :=
    List.mem_filter.2 ⟨ht, decide_eq_true hgen⟩
  rw [hfilter, List.mem_singleton] at hmem
  exact ⟨t, ht, hgen, hmem ▸ hfilter⟩

/-- Whatever happens next, the timer of an earlier window only goes away. -/
theorem expire_stale (h : Sound limits s) {generation : ℕ}
    (hlt : generation < s.batcher.generation) {x : Time × LiveBatcher α}
    (run : ReflTransGen Move (now, s) x) (hs : x.2.step x.1 (.expire generation) = some s') :
    s' = { x.2 with timers := x.2.timers.erase ⟨generation, .awake⟩ } := by
  have hx := sound_of_run run h
  have hle := generation_le_of_run run
  obtain ⟨ht, -⟩ := Option.ite_none_right_eq_some.1 hs
  rcases hx.expire_cases ht hs with ⟨-, heq⟩ | ⟨heq, -⟩
  · exact heq
  · exact absurd heq (Nat.ne_of_lt (Nat.lt_of_lt_of_le hlt hle))

end Sound

/-! ## Whole runs -/

theorem Chronicle.run {start : Time} {x : Time × LiveBatcher α}
    (h : Chronicle prompt limits start ends x) :
    ReflTransGen Move (start, LiveBatcher.new limits) x := by
  induction h with
  | new => exact .refl
  | wait _ hle _ ih => exact ih.tail (.wait hle)
  | event _ e hs ih => exact ih.tail (.event e hs)

/-- All that can happen to a batcher can be put on record. -/
theorem exists_chronicle {start : Time} {x : Time × LiveBatcher α}
    (run : ReflTransGen Move (start, new limits) x) :
    ∃ ends, Chronicle False limits start ends x := by
  induction run with
  | refl => exact ⟨[], .new⟩
  | tail _ hm ih =>
    obtain ⟨ends, h⟩ := ih
    cases hm with
    | wait hle => exact ⟨ends, h.wait hle nofun⟩
    | event e hs => exact ⟨_, h.event e hs⟩

theorem IdleUntil.allStarted {later : Time} (h : s.IdleUntil later) : s.allStarted = true := by
  refine List.all_eq_true.2 fun t ht ↦ ?_
  obtain ⟨due, hphase, -⟩ := h.2 t ht
  rw [hphase]
  rfl

/-- While a task can run, the clock stands still for the record as well. -/
theorem exists_prompt_chronicle {start : Time} {x : Time × LiveBatcher α}
    (run : ReflTransGen PromptMove (start, new limits) x) :
    ∃ ends, Chronicle True limits start ends x := by
  induction run with
  | refl => exact ⟨[], .new⟩
  | tail _ hm ih =>
    obtain ⟨ends, h⟩ := ih
    cases hm with
    | wait hle idle => exact ⟨ends, h.wait hle fun _ ↦ idle.allStarted⟩
    | event e hs => exact ⟨_, h.event e hs⟩

theorem Chronicle.sound {start : Time} {x : Time × LiveBatcher α}
    (h : Chronicle prompt limits start ends x) : Sound limits x.2 :=
  sound_of_run h.run (sound_new limits)

theorem Chronicle.onRecord {start : Time} {x : Time × LiveBatcher α}
    (h : Chronicle prompt limits start ends x) : OnRecord ends x.2 := by
  induction h with
  | new => exact onRecord_new limits
  | wait _ _ _ ih => exact ih
  | event run e hs ih => exact ih.step run.sound hs

theorem Chronicle.onSchedule {start : Time} {x : Time × LiveBatcher α}
    (h : Chronicle prompt limits start ends x) : OnSchedule prompt x.1 x.2 := by
  induction h with
  | new => exact .of_items_eq_nil rfl
  | wait _ hle hstarted ih => exact ih.wait hle hstarted
  | event run e hs ih => exact ih.step run.sound hs

/-- What the window and the timers are like between two acts, when the windows of `ends` have been
closed. -/
structure KeepsTime (prompt : Prop) (limits : BatchLimits) (ends : List (WindowEnd α)) (now : Time)
    (s : LiveBatcher α) : Prop where
  room : s.batcher.items.length < limits.normalized.maxCount
  items : s.pending.map Prod.snd = s.batcher.items
  timer_iff : s.batcher.items ≠ [] ↔ s.batcher.timer.isSome = true
  /-- The open window has one timer. -/
  timer : ∀ x ∈ s.pending.head?, s.batcher.timer = some s.batcher.generation ∧
    ∃ t, s.timers.filter (·.generation = s.batcher.generation) = [t] ∧
      t.phase.Timed prompt now x.1 limits.normalized.maxWait
  no_timer : s.batcher.items = [] → ∀ t ∈ s.timers, t.generation ≠ s.batcher.generation
  /-- The timer of any other window is past its sleep, and it never closes a window any more. -/
  stale : ∀ t ∈ s.timers, t.generation ≠ s.batcher.generation →
    t.generation < s.batcher.generation ∧ t.phase = .awake ∧
      ∀ x, ReflTransGen Move (now, s) x → ∀ s', x.2.step x.1 (.expire t.generation) = some s' →
        s' = { x.2 with timers := x.2.timers.erase ⟨t.generation, .awake⟩ }
  onRecord : OnRecord ends s
  closed : s.batcher.closed = true → s.batcher.items = [] ∧ s.batcher.timer = none
  /-- The timer of the open window finds items when it runs out. -/
  expire : ∀ later s', s.step later (.expire s.batcher.generation) = some s' →
    s.batcher.items ≠ [] ∧ s'.batcher.items = [] ∧
      s'.windows = s.windows ++ [(later, s.batcher.items)]

/-- Every run of a batcher can be put on record, and between any two acts of it the open window has
one timer, which began with its first item, and the timers of other windows do nothing any more. -/
theorem open_window_has_one_timer (limits : BatchLimits) (start : Time) :
    (∀ x : Time × LiveBatcher α, ReflTransGen Move (start, new limits) x →
      ∃ ends, Chronicle False limits start ends x) ∧
    (∀ x : Time × LiveBatcher α, ReflTransGen PromptMove (start, new limits) x →
      ∃ ends, Chronicle True limits start ends x) ∧
    ∀ (prompt : Prop) (ends : List (WindowEnd α)) (now : Time) (s : LiveBatcher α),
      Chronicle prompt limits start ends (now, s) → KeepsTime prompt limits ends now s := by
  refine ⟨fun x ↦ exists_chronicle, fun x ↦ exists_prompt_chronicle, fun prompt ends now s run ↦ ?_⟩
  have h := run.sound
  refine ⟨h.room, h.map_pending, h.timer_isSome_iff, fun x hx ↦ ?_,
    fun hitems ↦ (h.unarmed hitems).2, fun t ht hne ↦ ?_, run.onRecord, fun hclosed ↦ ?_,
    fun later s' hs ↦ ?_⟩
  · have hitems : s.batcher.items ≠ [] := fun hnil ↦ by
      rw [pending_eq_nil hnil] at hx
      cases hx
    obtain ⟨t, ht, hgen, hfilter⟩ := h.exists_only_timer hitems
    exact ⟨(h.armed hitems).1, t, hfilter, h.limits_eq ▸ run.onSchedule x hx t ht hgen⟩
  · have hlt := h.generation_lt_of_ne ht hne
    exact ⟨hlt, h.stale t ht hlt, fun x hrun s' hs ↦ h.expire_stale hlt hrun hs⟩
  · have hitems := h.closed hclosed
    exact ⟨hitems, (h.unarmed hitems).1⟩
  · obtain ⟨ht, -⟩ := Option.ite_none_right_eq_some.1 hs
    rcases h.expire_cases ht hs with ⟨hlt, -⟩ | ⟨-, hitems, rfl⟩
    · exact absurd hlt (Nat.lt_irrefl _)
    · exact ⟨hitems, rfl, rfl⟩

/-- The second item comes when the timer of its window is past its sleep. The third one begins a
window of its own, which that timer leaves alone. -/
theorem late_timer_beside_open_window :
    ∃ s : LiveBatcher Char, Chronicle True ⟨5, 2⟩ 0 [⟨5, .full, ['a', 'b']⟩] (5, s) ∧
      s.pending = [(5, 'c')] ∧ s.timers = [⟨1, .spawned⟩, ⟨0, .awake⟩] ∧
      s.batcher.generation = 1 ∧
      (∃ t, s.timers.filter (·.generation = 1) = [t] ∧ t.phase.Timed True 5 5 5) ∧
      ∀ s', s.step 5 (.expire 0) = some s' → s'.batcher = s.batcher := by
  have slept : Chronicle True ⟨5, 2⟩ 0 [] (5, _) :=
    .wait (.event (.event .new (.submit 'a') rfl) (.sleep 0) rfl) (by decide) fun _ ↦ rfl
  have run : Chronicle True ⟨5, 2⟩ 0 [⟨5, .full, ['a', 'b']⟩] (5, _) :=
    .event (.event (.event slept (.wake 0 5) rfl) (.submit 'b') rfl) (.submit 'c') rfl
  have h := (open_window_has_one_timer ⟨5, 2⟩ 0).2.2 _ _ _ _ run
  obtain ⟨-, ht⟩ := h.timer (5, 'c') rfl
  obtain ⟨-, -, hstale⟩ := h.stale ⟨0, .awake⟩ (.tail _ (.head _)) (by decide)
  refine ⟨_, run, rfl, rfl, rfl, ht, fun s' hs ↦ ?_⟩
  rw [hstale _ .refl s' hs]

/-- The timer task of the first batcher runs late, and the item waits longer than it should. The
limits of the second one say that no item is to wait, but zero stands for ten. -/
theorem deadline_after_configured_wait :
    (∃ s : LiveBatcher Nat, Chronicle False ⟨5, 2⟩ 0 [] (3, s) ∧ s.pending = [(0, 7)] ∧
      s.batcher.generation = 0 ∧ s.timers = [⟨0, .sleeping 8⟩] ∧
      ¬TimerPhase.Timed True 3 0 5 (.sleeping 8)) ∧
    ∃ s : LiveBatcher Nat, Chronicle True ⟨0, 2⟩ 0 [] (0, s) ∧ s.pending = [(0, 7)] ∧
      s.batcher.generation = 0 ∧ s.timers = [⟨0, .sleeping 10⟩] ∧
      ¬TimerPhase.Timed True 0 0 0 (.sleeping 10) := by
  have late : Chronicle False ⟨5, 2⟩ 0 [] (3, _) :=
    .event (.wait (.event .new (.submit 7) rfl) (by decide) nofun) (.sleep 0) rfl
  have default : Chronicle True ⟨0, 2⟩ 0 [] (0, _) :=
    .event (.event .new (.submit 7) rfl) (.sleep 0) rfl
  refine ⟨⟨_, late, rfl, rfl, rfl, fun htimed ↦ ?_⟩, _, default, rfl, rfl, rfl, fun htimed ↦ ?_⟩
  · exact absurd (htimed.2.1 trivial) (by decide)
  · exact absurd (htimed.2.1 trivial) (by decide)

end LiveBatcher

end Outbound
