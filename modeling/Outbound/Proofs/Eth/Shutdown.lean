import Outbound.Proofs.Batch.Closing
import Outbound.Proofs.Eth.Frames
import Outbound.Proofs.Eth.Preservation

/-!
# A client that is shut down

Shutting a client down closes its lanes one after the other. What had been accepted by a lane is in
a job or in a window on its way to one, and a call that comes later is refused and leaves no trace
but its caller.
-/

namespace Outbound.Eth.BatchingClient

open Relation

variable {ι : Type} [DecidableEq ι] {limits : BatchLimits} {now : Time}
  {s s' s'' : BatchingClient ι}

/-- An accepted call is in a job, or its window can become one at any time. -/
def Dispatched (s : BatchingClient ι) (l : Lane) (call : PendingCall ι) : Prop :=
  (∃ job ∈ s.jobs, job.lane = l ∧ call ∈ job.window) ∨
    ∃ number window, number ∈ (s.lane l).leaving ∧ call ∈ window ∧
      ∀ t, ∃ s', s.step t (.lane l (.handOver number)) = some s' ∧
        s'.jobs = s.jobs ++ [{ lane := l, number, window, phase := .checking window }]

/-- What is true for good of a lane once it is closed, where `s` is the client at some moment after
that and `s'` the client later. -/
structure StaysShut (l : Lane) (s s' : BatchingClient ι) : Prop where
  lane : (s.lane l).StaysClosed (s'.lane l)
  /-- All that a call does is that its caller has its answer. -/
  refuses : ∀ now id msg block ctx s'', Lane.ofBlock block = l →
    s'.step now (.call id msg block ctx) = some s'' →
      s'' = s'.setCaller id
        ⟨msg, block, ctx, false, ⟨none, true, true⟩, some (now, .error .closed)⟩
  again : ∀ now s'', s'.step now (.lane l .close) = some s'' → s'' = s'
  dispatched : ∀ x ∈ (s.lane l).accepted, s'.Dispatched l x.2

omit [DecidableEq ι] in
theorem setLane_lane (s : BatchingClient ι) (l : Lane) : s.setLane (s.lane l) l = s := by
  cases l <;> rfl

theorem submit_of_closed {id : ι} {msg : CallMsg} {block : BlockRef} {ctx : Context}
    (hclosed : (s.lane (.ofBlock block)).batcher.closed = true) :
    s.submit now id msg block ctx =
      s.setCaller id ⟨msg, block, ctx, false, ⟨none, true, true⟩, some (now, .error .closed)⟩ := by
  simp only [submit, Batcher.submit_of_closed hclosed]

theorem step_handOver {l : Lane} {number : Nat} {live : LiveBatcher (PendingCall ι)}
    {window : List (PendingCall ι)} (hlive : (s.lane l).step now (.handOver number) = some live)
    (hwindow : live.batch? number = some window) :
    s.step now (.lane l (.handOver number)) = some { s.setLane live l with
      jobs := s.jobs ++ [{ lane := l, number, window, phase := .checking window }]
      metrics := s.metrics.record (.batchSize l.name) window.length } := by
  simp [step, stepLane, hlive, hwindow]

/-- While no window is open, every accepted call is on its way or has come to a job. -/
theorem Sound.dispatched (h : Sound limits now s) {l : Lane}
    (hitems : (s.lane l).batcher.items = [])
    {x : Time × PendingCall ι} (hx : x ∈ (s.lane l).accepted) : s.Dispatched l x.2 := by
  have hsound := h.lanes l
  have hkept : x.2 ∈ (s.lane l).accepted.map (·.2) := List.mem_map_of_mem hx
  rw [← hsound.kept, hitems, List.append_nil] at hkept
  obtain ⟨w, hw, hcall⟩ := List.mem_flatMap.1 hkept
  obtain ⟨number, hnumber⟩ := List.getElem?_of_mem hw
  have hbatch : (s.lane l).batch? number = some w.2 := congrArg (Option.map Prod.snd) hnumber
  have hlt : number < (s.lane l).windows.length := (List.getElem?_eq_some_iff.1 hnumber).1
  rcases List.mem_append.1 (hsound.handed_once.mem_iff.2 (List.mem_range.2 hlt)) with
    hhanded | hleaving
  · rw [← h.numbered l] at hhanded
    obtain ⟨job, hjob, rfl⟩ := List.mem_map.1 hhanded
    obtain ⟨hjob, hlane⟩ := List.mem_filter.1 hjob
    have hlane : job.lane = l := of_decide_eq_true hlane
    have hwindow := h.windows job hjob
    rw [hlane, hbatch] at hwindow
    exact .inl ⟨job, hjob, hlane, Option.some.inj hwindow ▸ hcall⟩
  · exact .inr ⟨number, w.2, hleaving, hcall, fun t ↦
      ⟨_, step_handOver (if_pos hleaving) hbatch, rfl⟩⟩

theorem staysClosed_step {live : LiveBatcher (PendingCall ι)} {e : Event ι}
    (hs : s.step now e = some s') {l : Lane} (hstopped : (s.lane l).Stopped)
    (h : live.StaysClosed (s.lane l)) : live.StaysClosed (s'.lane l) := by
  rcases lane_step hs l with hsame | ⟨event, -, -, hlive⟩ | ⟨id, msg, block, ctx, -, rfl⟩
  · rw [hsame]
    exact h
  · exact h.step hstopped hlive
  · rcases lane_submit s id msg block ctx l with ⟨-, hsame⟩ | ⟨rfl, -⟩
    · rw [hsame]
      exact h
    · rw [submit_of_closed h.closed]
      exact h

theorem staysClosed_of_run {x y : Time × BatchingClient ι} (run : ReflTransGen Move x y)
    (hsound : Sound limits x.1 x.2) {l : Lane} (hclosed : (x.2.lane l).batcher.closed = true) :
    (x.2.lane l).StaysClosed (y.2.lane l) := by
  induction run with
  | refl => exact ((hsound.lanes l).stopped hclosed).staysClosed_refl
  | tail run hm ih =>
    cases hm with
    | wait _ => exact ih
    | event e hs =>
      have hlane := (sound_of_run run hsound).lanes l
      exact staysClosed_step hs (hlane.stopped ih.closed) ih

theorem staysShut_of_run {x y : Time × BatchingClient ι} (run : ReflTransGen Move x y)
    (hsound : Sound limits x.1 x.2) {l : Lane} (hclosed : (x.2.lane l).batcher.closed = true) :
    StaysShut l x.2 y.2 := by
  have hstays := staysClosed_of_run run hsound hclosed
  have hsound' := sound_of_run run hsound
  refine ⟨hstays, fun t id msg block ctx s'' hl hs ↦ ?_, fun t s'' hs ↦ ?_, fun x hx ↦ ?_⟩
  · subst hl
    cases act_of_step hs with
    | call hnew hlt hfree => exact submit_of_closed hstays.closed
    | job hk => cases hk
  · cases act_of_step hs with
    | lane hlive hsubmit hhand =>
      cases hstays.steps _ _ _ hlive with
      | closed => exact setLane_lane _ _
    | job hk => cases hk
  · rw [← hstays.accepted] at hx
    exact hsound'.dispatched ((hsound'.lanes l).closed hstays.closed) hx

/-- What closing a lane makes of a client. -/
theorem Sound.closes (h : Sound limits now s) {l : Lane}
    (hs : s.step now (.lane l .close) = some s') :
    (s.lane l).Closes now (s'.lane l) ∧ s' = s.setLane (s'.lane l) l := by
  cases act_of_step hs with
  | lane hlive hsubmit hhand =>
    rw [lane_setLane, if_pos rfl]
    exact ⟨(h.lanes l).closes hlive, rfl⟩
  | job hk => cases hk

/-- Closing is final, for a batcher with any handles and tasks and for both lanes of a client. -/
theorem closed_for_good {α : Type} (limits : BatchLimits) (start : Time) :
    (∀ {now : Time} {s s' : LiveBatcher α},
      ReflTransGen LiveBatcher.Move (start, .new limits) (now, s) →
      s.step now .close = some s' →
      s.Closes now s' ∧ ∀ {later s''},
        ReflTransGen LiveBatcher.Move (now, s') (later, s'') → s'.StaysClosed s'') ∧
    ∀ (client : Client) (policy : BackoffPolicy) {t₁ t₂ : Time} {s₁ s₂ s₃ s₄ : BatchingClient ι},
      ReflTransGen Move (start, new client policy limits) (t₁, s₁) →
      s₁.step t₁ (.lane .latest .close) = some s₂ →
      ReflTransGen Move (t₁, s₂) (t₂, s₃) →
      s₃.step t₂ (.lane .archive .close) = some s₄ →
      (s₁.latest.Closes t₁ s₂.latest ∧ s₂ = { s₁ with latest := s₂.latest }) ∧
        (s₃.archive.Closes t₂ s₄.archive ∧ s₄ = { s₃ with archive := s₄.archive }) ∧
        (∀ {later s}, ReflTransGen Move (t₁, s₂) (later, s) → StaysShut .latest s₂ s) ∧
        ∀ {later s}, ReflTransGen Move (t₂, s₄) (later, s) → ∀ l, StaysShut l s₄ s := by
  refine ⟨fun {now s s'} run hclose ↦ ?_, fun client policy t₁ t₂ s₁ s₂ s₃ s₄ run hlatest run'
    harchive ↦ ?_⟩
  · have h := LiveBatcher.sound_of_run run (LiveBatcher.sound_new limits)
    have hcloses := h.closes hclose
    exact ⟨hcloses, fun run' ↦
      LiveBatcher.staysClosed_of_run run' ((h.step hclose).stopped hcloses.closed)⟩
  · have h₁ := sound_of_run run (sound_new client policy limits start)
    have h₂ := h₁.step hlatest
    have h₃ := sound_of_run run' h₂
    have h₄ := h₃.step harchive
    obtain ⟨hclosesLatest, heqLatest⟩ := h₁.closes hlatest
    obtain ⟨hclosesArchive, heqArchive⟩ := h₃.closes harchive
    refine ⟨⟨hclosesLatest, heqLatest⟩, ⟨hclosesArchive, heqArchive⟩,
      fun run'' ↦ staysShut_of_run run'' h₂ hclosesLatest.closed,
      fun run'' l ↦ staysShut_of_run run'' h₄ ?_⟩
    cases l with
    | latest =>
      have hstays := staysClosed_of_run run' h₂ hclosesLatest.closed
      have hsame : s₄.lane .latest = s₃.lane .latest := by
        rw [heqArchive]
        rfl
      rw [hsame]
      exact hstays.closed
    | archive => exact hclosesArchive.closed

/-- A timer that was awake comes too late, and of three calls the last one meets a client that is
shut down. -/
theorem late_timer_and_call_do_nothing :
    (∃ s : LiveBatcher Nat, ReflTransGen LiveBatcher.Move (0, .new ⟨5, 2⟩) (5, s) ∧
      s.timers = [] ∧ s.windows = [(5, [7])] ∧ s.batcher.submit 8 = .error .closed) ∧
    ∃ s : BatchingClient Nat,
      s.Dispatched .latest ⟨0, {}, none, ⟨0, none, none⟩⟩ ∧
      s.Dispatched .archive ⟨1, {}, some 7, ⟨0, none, none⟩⟩ ∧
      ∀ s', s.step 0 (.call 2 {} none ⟨0, none, none⟩) = some s' →
        s' = s.setCaller 2
          ⟨{}, none, ⟨0, none, none⟩, false, ⟨none, true, true⟩, some (0, .error .closed)⟩ := by
  constructor
  · have run : ReflTransGen LiveBatcher.Move (0, (.new ⟨5, 2⟩ : LiveBatcher Nat)) (5, _) :=
      .tail (.tail (.tail (.tail .refl (.event (.submit 7) rfl)) (.event (.sleep 0) rfl))
        (.wait (by decide))) (.event (.wake 0 5) rfl)
    obtain ⟨hcloses, hstays⟩ := (closed_for_good (ι := Nat) ⟨5, 2⟩ 0).1 run rfl
    have h := hstays (.tail .refl (.event (.expire 0) rfl))
    refine ⟨_, ?_, ?_, h.windows.trans hcloses.windows, h.refuses 8⟩
    · exact (run.tail (.event .close rfl)).tail (.event (.expire 0) rfl)
    · rfl
  · have run : ReflTransGen Move (0, (new ⟨false⟩ {} ⟨5, 2⟩ : BatchingClient Nat)) (0, _) :=
      .tail (.tail .refl (.event (.derive none) rfl))
        (.event (.call 0 {} none ⟨0, none, none⟩) rfl)
    obtain ⟨-, -, -, hshut⟩ := (closed_for_good (α := Nat) ⟨5, 2⟩ 0).2 ⟨false⟩ {} run rfl
      (.tail .refl (.event (.call 1 {} (some 7) ⟨0, none, none⟩) rfl)) rfl
    have hlatest := hshut .refl .latest
    exact ⟨_, hlatest.dispatched _ (.head _), (hshut .refl .archive).dispatched _ (.head _),
      fun s' hs ↦ hlatest.refuses _ _ _ _ _ _ rfl hs⟩

end Outbound.Eth.BatchingClient
