import Outbound.Eth.VirtualClock
import Outbound.Proofs.Batch.Timing
import Outbound.Proofs.Lookup

/-!
# The windows of a lane follow from what was done from outside

Callers and times of all windows are what the log of the lane says. The log tells that a window
has ended only with the next deed, so a window whose timer has run out can still be the last one
of the log.
-/

namespace Outbound.Eth

open LiveBatcher OpenWindow

variable {ι : Type} {limits : BatchLimits} {now : Time}
  {live live' : LiveBatcher (PendingCall ι)} {log : LaneLog ι} {v : OpenWindow ι}

/-- Who is in a window, and when it ended. -/
def callersOf (w : Time × List (PendingCall ι)) : Time × List ι :=
  (w.1, w.2.map (·.caller))

namespace LaneLog

/-- The last window has ended by its timer. -/
def lapse (limits : BatchLimits) (log : LaneLog ι) (v : OpenWindow ι) : LaneLog ι :=
  { log with
    ended := log.ended ++ [(v.deadline limits, v.items)]
    last? := none }

/-- The windows of a lane are those of the log, the last of which is open. -/
structure Matches (limits : BatchLimits) (now : Time) (live : LiveBatcher (PendingCall ι))
    (log : LaneLog ι) : Prop where
  sound : live.Sound limits
  shut : log.shut = live.batcher.closed
  windows : live.windows.map callersOf = log.ended.map untimed
  items : live.batcher.items.map (·.caller) =
    (log.last?.map fun v ↦ v.items.map (·.2)).getD []
  timer : ∀ v, log.last? = some v → ∀ t ∈ live.timers, t.generation = live.batcher.generation →
    t.phase.OnTime now v.first.1 (v.deadline limits.normalized)
  leaving : ∀ n ∈ live.leaving, ∃ window, live.windows[n]? = some (now, window)

/-- The same, where the last window of the log may have ended by its timer. -/
def Tracks (limits : BatchLimits) (now : Time) (live : LiveBatcher (PendingCall ι))
    (log : LaneLog ι) : Prop :=
  Matches limits now live log ∨
    ∃ v, log.shut = false ∧ log.last? = some v ∧ v.deadline limits.normalized ≤ now ∧
      Matches limits now live (log.lapse limits.normalized v)

/-- All windows, the last one as its timer ends it. -/
def windows (limits : BatchLimits) (log : LaneLog ι) : List (ClosedWindow ι) :=
  log.ended ++ (log.last?.map fun v ↦ (v.deadline limits, v.items)).toList

theorem matches_new (limits : BatchLimits) (now : Time) :
    Matches limits now (.new limits) ({} : LaneLog ι) where
  sound := sound_new limits
  shut := rfl
  windows := rfl
  items := rfl
  timer := fun _ hv ↦ by cases hv
  leaving := fun _ hn ↦ (List.not_mem_nil hn).elim

namespace Matches

theorem items_eq_nil_iff (h : Matches limits now live log) :
    live.batcher.items = [] ↔ log.last? = none := by
  have hitems := h.items
  constructor
  · intro hnil
    cases hlast : log.last? with
    | none => rfl
    | some v =>
      rw [hlast, hnil] at hitems
      simp [OpenWindow.items] at hitems
  · intro hnone
    rw [hnone] at hitems
    exact List.map_eq_nil_iff.1 hitems

theorem items_ne_nil (h : Matches limits now live log) (hlast : log.last? = some v) :
    live.batcher.items ≠ [] := by
  rw [Ne, h.items_eq_nil_iff, hlast]
  exact Option.some_ne_none v

theorem length_items (h : Matches limits now live log) (hlast : log.last? = some v) :
    live.batcher.items.length = v.items.length := by
  have hitems := congrArg List.length h.items
  rw [hlast] at hitems
  simpa using hitems

/-- No window stays open beyond its deadline. -/
theorem le_deadline (h : Matches limits now live log) (hlast : log.last? = some v) :
    now ≤ v.deadline limits.normalized := by
  obtain ⟨t, ht, hgen⟩ := (h.sound.armed (h.items_ne_nil hlast)).2
  have htime := h.timer v hlast t ht hgen
  cases hphase : t.phase with
  | spawned =>
    rw [hphase] at htime
    rw [show now = v.first.1 from htime]
    exact Nat.le_add_right _ _
  | sleeping due =>
    rw [hphase] at htime
    obtain ⟨rfl, hle⟩ := htime
    exact hle
  | awake =>
    rw [hphase] at htime
    exact Nat.le_of_eq htime

theorem not_shut (h : Matches limits now live log) (hlast : log.last? = some v) :
    log.shut = false := by
  rw [h.shut]
  by_contra hclosed
  exact h.items_ne_nil hlast (h.sound.closed (by simpa using hclosed))

theorem leaving_append (h : Matches limits now live log) (window : List (PendingCall ι)) :
    ∀ n ∈ live.leaving ++ [live.windows.length],
      ∃ w, (live.windows ++ [(now, window)])[n]? = some (now, w) := by
  intro n hn
  rcases List.mem_append.1 hn with hn | hn
  · obtain ⟨w, hw⟩ := h.leaving n hn
    exact ⟨w, getElem?_append_of_some hw _⟩
  · rw [List.mem_singleton.1 hn]
    exact ⟨window, List.getElem?_concat_length⟩

/-! ## Deeds -/

theorem refuse (h : Matches limits now live log) (hclosed : live.batcher.closed = true)
    (x : Arrival ι) : Matches limits now live (log.arrive limits.normalized x) := by
  have hshut : log.shut = true := h.shut.trans hclosed
  simp only [arrive, hshut, if_true]
  exact { h with shut := hclosed.symm }

/-- An accepted call does to the last window of the log what it does to the open one, if it comes
before the end of that. -/
theorem accept (h : Matches limits now live log) {call : PendingCall ι}
    {result : Batcher (PendingCall ι) × List (BatchEffect (PendingCall ι))}
    (hsubmit : live.batcher.submit call = .ok result) {x : Arrival ι}
    (hx : x.timed = (now, call.caller))
    (hin : ∀ v, log.last? = some v → v.inTime limits.normalized x = true) :
    Matches limits now (live.accept now call result) (log.arrive limits.normalized x) := by
  have htime : x.time = now := congrArg Prod.fst hx
  have hsound : (live.accept now call result).Sound limits := h.sound.submit hsubmit
  obtain ⟨hopen, hcases⟩ := Batcher.submit_cases hsubmit
  have hshut : log.shut = false := h.shut.trans hopen
  rw [h.sound.limits_eq] at hcases
  simp only [arrive, hshut, Bool.false_eq_true, if_false]
  cases hlast : log.last? with
  | none =>
    have hitems : live.batcher.items = [] := h.items_eq_nil_iff.2 hlast
    simp only [OpenWindow.arrive, start]
    rcases hcases with ⟨hfull, rfl⟩ | ⟨-, hone, rfl⟩ | ⟨hne, -, -⟩
    · have hstart : limits.normalized.maxCount ≤ 1 := by
        rw [hitems] at hfull
        exact hfull
      simp only [hstart, if_true]
      refine ⟨hsound, ?_, ?_, ?_, (fun v hv ↦ by cases hv), ?_⟩
      · simp [LiveBatcher.accept, apply_flush, hopen]
      · simp only [LiveBatcher.accept, apply_flush, hitems, List.nil_append, List.cons_ne_nil,
          if_false, List.map_append, h.windows]
        simp [untimed, callersOf, hx, htime]
      · simp [LiveBatcher.accept, apply_flush]
      · simp only [LiveBatcher.accept, apply_flush, hitems, List.nil_append, List.cons_ne_nil,
          if_false]
        exact h.leaving_append [call]
    · have hstart : ¬limits.normalized.maxCount ≤ 1 := Nat.not_le.2 hone
      simp only [hstart, if_false, List.append_nil]
      refine ⟨hsound, ?_, h.windows, ?_, fun v hv t ht hgen ↦ ?_, h.leaving⟩
      · simp [LiveBatcher.accept, apply_arm, hopen]
      · simp [LiveBatcher.accept, apply_arm, OpenWindow.items, hx]
      · cases hv
        rcases List.mem_cons.1 ht with rfl | ht
        · exact htime.symm
        · exact absurd hgen ((h.sound.unarmed hitems).2 t ht)
    · exact absurd hitems hne
  | some v =>
    have hlength := h.length_items hlast
    have hitems : live.batcher.items.map (·.caller) = v.items.map (·.2) := by
      have hall := h.items
      rwa [hlast] at hall
    have hne := h.items_ne_nil hlast
    simp only [OpenWindow.arrive, hin v hlast, if_true, join]
    rcases hcases with ⟨hfull, rfl⟩ | ⟨hnil, -, -⟩ | ⟨-, hroom, rfl⟩
    · rw [hlength] at hfull
      have hsome : live.batcher.items ++ [call] ≠ [] := by simp
      simp only [hfull, if_true]
      refine ⟨hsound, ?_, ?_, ?_, (fun v hv ↦ by cases hv), ?_⟩
      · simp [LiveBatcher.accept, apply_flush, hopen]
      · simp only [LiveBatcher.accept, apply_flush, hsome, if_false, List.map_append, h.windows]
        simp [untimed, callersOf, hx, htime, hitems]
      · simp [LiveBatcher.accept, apply_flush]
      · simp only [LiveBatcher.accept, apply_flush, hsome, if_false]
        exact h.leaving_append _
    · exact absurd hnil hne
    · rw [hlength] at hroom
      have hmore : ¬limits.normalized.maxCount ≤ v.items.length + 1 := Nat.not_le.2 hroom
      simp only [hmore, if_false, List.append_nil]
      refine ⟨hsound, ?_, h.windows, ?_, fun v' hv ↦ ?_, h.leaving⟩
      · simp [LiveBatcher.accept, apply_nil, hopen]
      · simp only [LiveBatcher.accept, apply_nil, List.map_append, hitems]
        simp [OpenWindow.items, hx]
      · cases hv
        exact h.timer v hlast

theorem close (h : Matches limits now live log) :
    Matches limits now (live.apply now live.batcher.close)
      (log.close limits.normalized now) := by
  have hsound : (live.apply now live.batcher.close).Sound limits := h.sound.close
  cases hclosed : live.batcher.closed with
  | true =>
    have hlast : log.last? = none := h.items_eq_nil_iff.1 (h.sound.closed hclosed)
    rw [Batcher.close_of_closed hclosed, apply_nil] at hsound ⊢
    simp only [LaneLog.close, hlast, Option.map_none, Option.toList_none, List.append_nil]
    refine { h with shut := hclosed.symm, items := ?_, timer := fun v hv ↦ by cases hv }
    rw [h.items, hlast]
  | false =>
    rw [Batcher.close_of_open hclosed, apply_flush] at hsound ⊢
    refine ⟨hsound, rfl, ?_, rfl, (fun v hv ↦ by cases hv), ?_⟩
    · cases hlast : log.last? with
      | none =>
        have hitems := h.items_eq_nil_iff.2 hlast
        simp [LaneLog.close, hlast, hitems, h.windows]
      | some v =>
        have hle := h.le_deadline hlast
        have hitems := h.items
        have hne := h.items_ne_nil hlast
        rw [hlast] at hitems
        simp only [LaneLog.close, hlast, hne, if_false, List.map_append, h.windows,
          Option.map_some, Option.toList_some, Nat.min_eq_left hle]
        simp [untimed, callersOf, hitems]
    · by_cases hnil : live.batcher.items = []
      · simp only [hnil, if_true, List.append_nil]
        exact h.leaving
      · simp only [hnil, if_false]
        exact h.leaving_append _

/-! ## Tasks -/

theorem sleep (h : Matches limits now live log) {generation : Nat}
    (ht : ⟨generation, .spawned⟩ ∈ live.timers) :
    Matches limits now { live with
      timers := ⟨generation, .sleeping (now + live.batcher.limits.maxWait)⟩ ::
        live.timers.erase ⟨generation, .spawned⟩ } log := by
  refine { h with sound := h.sound.sleep ht, timer := fun v hv t hmem hgen ↦ ?_ }
  rcases List.mem_cons.1 hmem with rfl | hmem
  · have htime : now = v.first.1 := h.timer v hv _ ht hgen
    refine ⟨?_, Nat.le_add_right _ _⟩
    rw [h.sound.limits_eq, htime]
    rfl
  · exact h.timer v hv t (List.mem_of_mem_erase hmem) hgen

theorem wake (h : Matches limits now live log) {generation due : Nat}
    (ht : ⟨generation, .sleeping due⟩ ∈ live.timers) (hdue : due ≤ now) :
    Matches limits now { live with
      timers := ⟨generation, .awake⟩ :: live.timers.erase ⟨generation, .sleeping due⟩ } log := by
  refine { h with sound := h.sound.wake ht, timer := fun v hv t hmem hgen ↦ ?_ }
  rcases List.mem_cons.1 hmem with rfl | hmem
  · obtain ⟨heq, hle⟩ := h.timer v hv _ ht hgen
    rw [← heq]
    exact Nat.le_antisymm hle hdue
  · exact h.timer v hv t (List.mem_of_mem_erase hmem) hgen

theorem expire (h : Matches limits now live log) {generation : Nat}
    (hs : live.step now (.expire generation) = some live') : Tracks limits now live' log := by
  have hsound := h.sound.step hs
  obtain ⟨ht, -⟩ := Option.ite_none_right_eq_some.1 hs
  rcases h.sound.expire_cases ht hs with ⟨-, rfl⟩ | ⟨rfl, hne, rfl⟩
  · exact .inl { h with
      sound := hsound
      timer := fun v hv t hmem ↦ h.timer v hv t (List.mem_of_mem_erase hmem) }
  · cases hlast : log.last? with
    | none => exact absurd (h.items_eq_nil_iff.2 hlast) hne
    | some v =>
      have hnow : now = v.deadline limits.normalized := h.timer v hlast _ ht rfl
      have hitems := h.items
      rw [hlast] at hitems
      refine .inr ⟨v, h.not_shut hlast, hlast, Nat.le_of_eq hnow.symm, hsound, h.shut, ?_, rfl,
        (fun v hv ↦ by cases hv), h.leaving_append _⟩
      simp only [lapse, List.map_append, h.windows]
      simp [untimed, callersOf, hitems, hnow]

theorem handOver (h : Matches limits now live log) {number : Nat}
    (hmem : number ∈ live.leaving) :
    Matches limits now { live with
      leaving := live.leaving.erase number
      handed := live.handed ++ [(now, number)] } log :=
  { h with
    sound := h.sound.handOver hmem
    leaving := fun n hn ↦ h.leaving n (List.mem_of_mem_erase hn) }

theorem free (h : Matches limits now live log) (htimers : live.timers = []) :
    Matches limits now { live with
      batcher := { live.batcher with items := [] }
      lost := live.lost ++ live.batcher.items } log := by
  refine { h with sound := h.sound.free htimers, items := ?_ }
  rw [← h.items, h.sound.items_eq_nil_of_timers_eq_nil htimers]

theorem wait (h : Matches limits now live log) {later : Time} (idle : live.IdleUntil later) :
    Matches limits later live log := by
  obtain ⟨hleaving, hsleeping⟩ := idle
  refine { h with
    timer := fun v hv t ht hgen ↦ ?_
    leaving := fun n hn ↦ ?_ }
  · obtain ⟨due, hphase, hdue⟩ := hsleeping t ht
    have htime := h.timer v hv t ht hgen
    rw [hphase] at htime ⊢
    exact ⟨htime.1, hdue⟩
  · rw [hleaving] at hn
    exact (List.not_mem_nil hn).elim

end Matches

/-! ## Those who came too late -/

theorem refused_arrive (log : LaneLog ι) (x : Arrival ι) :
    (log.arrive limits x).refused = log.refused ++ if log.shut then [x.item] else [] := by
  simp only [arrive]
  split
  · rfl
  · exact (List.append_nil _).symm

/-- A deed adds nobody to those who came too late but somebody who calls when the lane is shut. -/
theorem refused_record (env : Surroundings ι) (l : Lane) (log : LaneLog ι) (x : Time × Deed ι)
    (id : ι) : id ∈ (env.record limits l log x).refused ↔
      id ∈ log.refused ∨
        ∃ call, x.2 = .call call ∧ call.caller = id ∧ .ofBlock call.block = l ∧
          log.shut = true := by
  obtain ⟨now, d⟩ := x
  cases d with
  | call call =>
    simp only [Surroundings.record]
    by_cases hl : Lane.ofBlock call.block = l
    · rw [if_pos hl, refused_arrive, List.mem_append]
      refine or_congr_right ?_
      cases hshut : log.shut with
      | true => simp [hl, eq_comm]
      | false => simp
    · rw [if_neg hl]
      simp [hl]
  | close l' =>
    simp only [Surroundings.record]
    split <;> simp [close]
  | _ => simp [Surroundings.record]

/-! ## A window that has ended by its timer -/

theorem arrive_lapse (hopen : log.shut = false) (hlast : log.last? = some v) {x : Arrival ι}
    (hlate : v.inTime limits x = false) :
    (log.lapse limits v).arrive limits x = log.arrive limits x := by
  simp only [arrive, lapse, hopen, hlast, OpenWindow.arrive, hlate, Bool.false_eq_true, if_false,
    List.append_assoc]
  rfl

theorem close_lapse (hlast : log.last? = some v) (hle : v.deadline limits ≤ now) :
    (log.lapse limits v).close limits now = log.close limits now := by
  simp [close, lapse, hlast, Nat.min_eq_right hle]

namespace Tracks

theorem shut (h : Tracks limits now live log) : log.shut = live.batcher.closed := by
  rcases h with h | ⟨v, -, -, -, h⟩
  · exact h.shut
  · exact h.shut

theorem leaving (h : Tracks limits now live log) :
    ∀ n ∈ live.leaving, ∃ window, live.windows[n]? = some (now, window) := by
  rcases h with h | ⟨v, -, -, -, h⟩
  · exact h.leaving
  · exact h.leaving

/-- A call comes before the end of the last window of the log if that window is open, and after it
otherwise. -/
theorem arrive (h : Tracks limits now live log) (call : PendingCall ι) (early : Bool)
    (hearly : ∀ v, log.last? = some v → v.deadline limits.normalized = now →
      (early = true ↔ live.batcher.items ≠ [])) :
    (∀ result, live.batcher.submit call = .ok result →
        Tracks limits now (live.accept now call result)
          (log.arrive limits.normalized ⟨now, call.caller, early⟩)) ∧
      ∀ e, live.batcher.submit call = .error e →
        Tracks limits now live (log.arrive limits.normalized ⟨now, call.caller, early⟩) := by
  rcases h with h | ⟨v, hopen, hlast, hle, h⟩
  · refine ⟨fun result hsubmit ↦ .inl (h.accept hsubmit rfl fun v hlast ↦ ?_), fun e he ↦
      .inl (h.refuse (Batcher.submit_error he).2 _)⟩
    rcases Nat.lt_or_eq_of_le (h.le_deadline hlast) with hlt | heq
    · simp [inTime, hlt]
    · have htrue := (hearly v hlast heq.symm).2 (h.items_ne_nil hlast)
      simp [inTime, heq, htrue]
  · -- The timer has ended the window, and by this call the log learns of it.
    have hnil : live.batcher.items = [] := h.items_eq_nil_iff.2 rfl
    have hlate : v.inTime limits.normalized ⟨now, call.caller, early⟩ = false := by
      rcases Nat.lt_or_eq_of_le hle with hlt | heq
      · simp [inTime, Nat.not_lt_of_lt hlt, Nat.ne_of_gt hlt]
      · have hfalse : early = false := by
          by_contra htrue
          exact (hearly v hlast heq).1 (by simpa using htrue) hnil
        simp [inTime, heq, hfalse]
    rw [← arrive_lapse hopen hlast hlate]
    exact ⟨fun result hsubmit ↦ .inl (h.accept hsubmit rfl fun v hv ↦ by cases hv), fun e he ↦
      .inl (h.refuse (Batcher.submit_error he).2 _)⟩

theorem close (h : Tracks limits now live log) :
    Tracks limits now (live.apply now live.batcher.close) (log.close limits.normalized now) := by
  rcases h with h | ⟨v, -, hlast, hle, h⟩
  · exact .inl h.close
  · rw [← close_lapse hlast hle]
    exact .inl h.close

/-- What keeps the windows that are open or have ended keeps those of the log. -/
theorem of_matches (h : Tracks limits now live log)
    (hkeep : ∀ log : LaneLog ι, Matches limits now live log → Matches limits now live' log) :
    Tracks limits now live' log := by
  rcases h with h | ⟨v, hopen, hlast, hle, h⟩
  · exact .inl (hkeep _ h)
  · exact .inr ⟨v, hopen, hlast, hle, hkeep _ h⟩

theorem expire (h : Tracks limits now live log) {generation : Nat}
    (hs : live.step now (.expire generation) = some live') : Tracks limits now live' log := by
  rcases h with h | ⟨v, hopen, hlast, hle, h⟩
  · exact h.expire hs
  · rcases h.expire hs with h | ⟨w, -, hw, -⟩
    · exact .inr ⟨v, hopen, hlast, hle, h⟩
    · cases hw

/-- A task or somebody who makes or drops a handle. -/
theorem step (h : Tracks limits now live log) {e : LiveBatcher.Event (PendingCall ι)}
    (hs : live.step now e = some live') (hsubmit : ∀ call, e ≠ .submit call)
    (hclose : e ≠ .close) : Tracks limits now live' log := by
  cases e with
  | clone =>
    obtain ⟨_, ⟨⟩⟩ := Option.ite_none_right_eq_some.1 hs
    exact h.of_matches fun _ h ↦ { h with sound := { h.sound with } }
  | drop =>
    obtain ⟨_, ⟨⟩⟩ := Option.ite_none_right_eq_some.1 hs
    exact h.of_matches fun _ h ↦ { h with sound := { h.sound with } }
  | submit call => exact absurd rfl (hsubmit call)
  | close => exact absurd rfl hclose
  | sleep generation =>
    obtain ⟨ht, ⟨⟩⟩ := Option.ite_none_right_eq_some.1 hs
    exact h.of_matches fun _ h ↦ h.sleep ht
  | wake generation due =>
    obtain ⟨⟨ht, hdue⟩, ⟨⟩⟩ := Option.ite_none_right_eq_some.1 hs
    exact h.of_matches fun _ h ↦ h.wake ht hdue
  | expire generation => exact h.expire hs
  | handOver number =>
    obtain ⟨hmem, ⟨⟩⟩ := Option.ite_none_right_eq_some.1 hs
    exact h.of_matches fun _ h ↦ h.handOver hmem
  | free =>
    obtain ⟨⟨_, htimers⟩, ⟨⟩⟩ := Option.ite_none_right_eq_some.1 hs
    exact h.of_matches fun _ h ↦ h.free htimers

theorem wait (h : Tracks limits now live log) {later : Time} (hle : now ≤ later)
    (idle : live.IdleUntil later) : Tracks limits later live log := by
  rcases h with h | ⟨v, hopen, hlast, hdue, h⟩
  · exact .inl (h.wait idle)
  · exact .inr ⟨v, hopen, hlast, Nat.le_trans hdue hle, h.wait idle⟩

/-- The windows that have ended before the present time are those of the log that end before. -/
theorem window_iff (h : Tracks limits now live log) {number : Nat} {ended : Time} {ids : List ι}
    (hlt : ended < now) :
    (live.windows.map callersOf)[number]? = some (ended, ids) ↔
      ((log.windows limits.normalized).map untimed)[number]? = some (ended, ids) := by
  rcases h with h | ⟨v, -, hlast, -, h⟩
  · rw [h.windows]
    cases hlast : log.last? with
    | none => simp [LaneLog.windows, hlast]
    | some v =>
      -- This window is open, so it does not end before the present time.
      have hle := h.le_deadline hlast
      have hall : (log.windows limits.normalized).map untimed =
          log.ended.map untimed ++ [untimed (v.deadline limits.normalized, v.items)] := by
        simp [LaneLog.windows, hlast]
      rw [hall]
      constructor
      · intro hget
        exact getElem?_append_of_some hget _
      · intro hget
        rcases getElem?_append_cases hget with hold | hnew
        · exact hold
        · have heq := List.mem_singleton.1 hnew
          have hended : ended = v.deadline limits.normalized := congrArg Prod.fst heq
          rw [hended] at hlt
          exact absurd hlt (Nat.not_lt.2 hle)
  · rw [h.windows]
    simp [LaneLog.windows, lapse, hlast]

end Tracks

end LaneLog

end Outbound.Eth
