import Outbound.Proofs.Eth.FanOut
import Outbound.Proofs.Eth.Frames

/-!
# Calls that come too late

A lane is open until somebody closes it, and it stays closed. A call is taken if its lane is open at
that moment, and refused otherwise. No call that was taken ever returns that its lane is closed,
unless the transport says so.
-/

namespace Outbound.Eth.BatchingClient

variable {ι : Type} [DecidableEq ι] {limits : BatchLimits} {now : Time} {s s' : BatchingClient ι}
  {e : Event ι}

theorem lane_closed_iff (hs : s.step now e = some s') (l : Lane) :
    (s'.lane l).batcher.closed = true ↔
      (s.lane l).batcher.closed = true ∨ e = .lane l .close := by
  by_cases he : e = .lane l .close
  · subst he
    cases act_of_step hs with
    | @lane l event live hlive hsubmit hhand =>
      rw [lane_setLane, if_pos rfl]
      exact (LiveBatcher.closed_step_iff hlive).trans (by simp)
    | job hk => cases hk
  · simp only [he, or_false]
    rcases lane_step hs l with h | ⟨event, rfl, -, hlive⟩ | ⟨id, msg, block, ctx, rfl, rfl⟩
    · rw [h]
    · have hclose : event ≠ .close := fun heq ↦ he (congrArg (Event.lane l) heq)
      simpa [hclose] using LiveBatcher.closed_step_iff hlive
    · rcases lane_submit s id msg block ctx l with ⟨-, h⟩ | ⟨-, ⟨err, -, h⟩ | ⟨result, hresult, h⟩⟩
      · rw [h]
      · rw [h]
      · obtain ⟨hopen, hopen'⟩ := Batcher.closed_of_submit hresult
        rw [h, LiveBatcher.accept, LiveBatcher.batcher_apply, hopen, hopen']

theorem lane_handles_le (hs : s.step now e = some s') {l : Lane} (hdrop : e ≠ .lane l .drop) :
    (s.lane l).handles ≤ (s'.lane l).handles := by
  rcases lane_step hs l with h | ⟨event, rfl, -, hlive⟩ | ⟨id, msg, block, ctx, rfl, rfl⟩
  · rw [h]
  · exact LiveBatcher.handles_le_step hlive fun heq ↦ hdrop (congrArg (Event.lane l) heq)
  · rcases lane_submit s id msg block ctx l with ⟨-, h⟩ | ⟨-, ⟨err, -, h⟩ | ⟨result, -, h⟩⟩
    · rw [h]
    · rw [h]
    · rw [h, LiveBatcher.accept, LiveBatcher.handles_apply]

/-- What a lane takes it takes while it is open. -/
theorem accepted_step (hs : s.step now e = some s') {l : Lane} {x : Time × PendingCall ι}
    (hx : x ∈ (s'.lane l).accepted) :
    x ∈ (s.lane l).accepted ∨ x.1 = now ∧ (s.lane l).batcher.closed = false := by
  rcases lane_step hs l with h | ⟨event, -, hsubmit, hlive⟩ | ⟨id, msg, block, ctx, -, rfl⟩
  · rw [h] at hx
    exact .inl hx
  · rw [(LiveBatcher.step_frame hlive).1 hsubmit] at hx
    exact .inl hx
  · rcases lane_submit s id msg block ctx l with ⟨-, h⟩ | ⟨-, ⟨err, -, h⟩ | ⟨result, hresult, h⟩⟩
    · rw [h] at hx
      exact .inl hx
    · rw [h] at hx
      exact .inl hx
    · rw [h, LiveBatcher.accept, LiveBatcher.accepted_apply] at hx
      rcases List.mem_append.1 hx with hx | hx
      · exact .inl hx
      · rw [List.mem_singleton.1 hx]
        exact .inr ⟨rfl, (Batcher.closed_of_submit hresult).1⟩

/-- A caller that was refused has its answer, and nothing happens to it any more. -/
theorem Sound.refused_step (h : Sound limits now s) (hs : s.step now e = some s') {id : ι}
    {c : Caller} (hc : s'.callers id = some c) (hrefused : c.accepted = false) :
    (∃ b, s.callers id = some b ∧ b.accepted = false ∧ b.returned = c.returned) ∨
      c.returned = some (now, .error .closed) ∧
        (s.lane (.ofBlock c.block)).batcher.closed = true := by
  cases hb : s.callers id with
  | none =>
    rcases new_caller_step hs hb with hnone | ⟨msg, block, ctx, rfl⟩
    · rw [hnone] at hc
      cases hc
    · cases act_of_step hs with
      | call hnew hlt hfree =>
        rcases callers_submit s id msg block ctx with ⟨hclosed, hd⟩ | ⟨-, hd⟩
        · rw [hd] at hc
          cases hc
          exact .inr ⟨rfl, hclosed⟩
        · rw [hd] at hc
          cases hc
          cases hrefused
      | job hk => cases hk
  | some b =>
    obtain ⟨d, hd, hnext⟩ := caller_step hs hb
    rw [hd] at hc
    cases hc
    have hrefused' : b.accepted = false := hnext.call_eq.2.2.2.symm.trans hrefused
    have hgone := (h.fine id b hb).rejected hrefused'
    cases hnext with
    | same hcore hstays =>
      exact .inl ⟨b, rfl, hrefused', (congrArg (fun c ↦ c.returned) hcore).symm⟩
    | look hanswer =>
      obtain ⟨-, hwaits, -⟩ := answer?_eq_some.1 hanswer
      rw [hwaits] at hgone
      cases hgone
    | leave hwaits =>
      rw [hwaits] at hgone
      cases hgone

/-- Only a call that was refused returns that its lane is closed, if the transport never says so. -/
theorem refused_of_returned {client : Client} {policy : BackoffPolicy} {start : Time}
    {events : List (Event ι)} (run : Run (start, new client policy limits) events (now, s))
    (hreplies : ∀ k outcome next?, .reply k outcome next? ∈ events →
      ¬BatchOutcome.reports outcome .closed)
    {id : ι} {c : Caller} {t : Time} (hc : s.callers id = some c)
    (hreturned : c.returned = some (t, .error .closed)) : c.accepted = false := by
  have h := sound_of_run run.moves (sound_new client policy limits start)
  by_contra hrefused
  have haccepted : c.accepted = true := by simpa using hrefused
  rcases h.position_of_returned hc haccepted hreturned with
    ⟨reason, heq, -⟩ | ⟨job, hjob, batch, outcome, i, hresult, -, heq⟩
  · cases heq
  · obtain ⟨k, hk⟩ := List.getElem?_of_mem hjob
    have hlast := ((tried_of_run run).1 k job hk).outcome
    rw [hresult] at hlast
    obtain ⟨attempt, hattempt, rfl⟩ := List.mem_map.1 (mem_of_lastOutcome? hlast.symm)
    obtain ⟨event, hevent, hsome⟩ := List.mem_filterMap.1 hattempt
    split at hsome
    · cases event with
      | reply n outcome next? =>
        cases hsome
        exact hreplies n outcome next? hevent
          (reports_of_outcomeAt_eq heq.symm fun _ hdecode ↦ nomatch hdecode)
      | _ => cases hsome
    · cases hsome

end Outbound.Eth.BatchingClient
