import Outbound.Proofs.Eth.Generations
import Outbound.Proofs.Eth.Refusals

/-!
# Lanes are closed by closing tasks alone

A lane of a client is closed exactly if one of the closing tasks of the client has closed it. On a
prompt clock each of these tasks does so at the time when it is due. So the calls that a lane takes
come no later than the first of these times, and those that it refuses come no earlier.
-/

namespace Outbound.Eth

variable {ι : Type} {callBytes : Nat}

namespace Closing

def due (task : Closing) : Time := task.since + clientCloseDelay

/-- How far a task is at a time, and on a prompt clock no later than it should be. -/
def OnTime (prompt : Prop) (now : Time) (task : Closing) : Prop :=
  match task.phase with
  | .spawned => task.since ≤ now ∧ (prompt → task.since = now)
  | .sleeping time => task.due ≤ time ∧ (prompt → time = task.due ∧ now ≤ task.due)
  | .halfway => task.due ≤ now ∧ (prompt → now ≤ task.due)
  | .done => task.due ≤ now

variable {prompt : Prop} {now later : Time} {task task' : Closing}

theorem onTime_new (prompt : Prop) (now : Time) : ({ since := now } : Closing).OnTime prompt now :=
  ⟨Nat.le_refl now, fun _ ↦ rfl⟩

theorem OnTime.wait (h : task.OnTime prompt now) (hle : now ≤ later)
    (idle : prompt → task.phase.idleUntil later = true) : task.OnTime prompt later := by
  cases hphase : task.phase with
  | spawned =>
    simp only [OnTime, hphase] at h idle ⊢
    exact ⟨h.1.trans hle, fun hprompt ↦ nomatch idle hprompt⟩
  | sleeping time =>
    simp only [OnTime, hphase] at h idle ⊢
    refine ⟨h.1, fun hprompt ↦ ⟨(h.2 hprompt).1, ?_⟩⟩
    rw [← (h.2 hprompt).1]
    exact of_decide_eq_true (idle hprompt)
  | halfway =>
    simp only [OnTime, hphase] at h idle ⊢
    exact ⟨h.1.trans hle, fun hprompt ↦ nomatch idle hprompt⟩
  | done =>
    simp only [OnTime, hphase] at h ⊢
    exact h.trans hle

theorem OnTime.due_le (h : task.OnTime prompt now) {l : Lane}
    (hclosed : task.phase.hasClosed l = true) : task.due ≤ now := by
  unfold OnTime at h
  split at h <;> rename_i hphase <;> rw [hphase] at hclosed
  · cases hclosed
  · cases hclosed
  · exact h.1
  · exact h

theorem OnTime.le_due (h : task.OnTime prompt now) (hprompt : prompt) {l : Lane}
    (hopen : task.phase.hasClosed l = false) : now ≤ task.due := by
  unfold OnTime at h
  split at h <;> rename_i hphase <;> rw [hphase] at hopen
  · rw [← h.2 hprompt]
    exact Nat.le_add_right _ _
  · exact (h.2 hprompt).2
  · exact h.2 hprompt
  · cases hopen

theorem OnTime.sleep (h : task.OnTime prompt now) (hphase : task.phase = .spawned) :
    ({ task with phase := .sleeping (now + clientCloseDelay) } : Closing).OnTime prompt now := by
  simp only [OnTime, hphase] at h
  refine ⟨Nat.add_le_add_right h.1 _, fun hprompt ↦ ?_⟩
  rw [← h.2 hprompt]
  exact ⟨rfl, Nat.le_add_right _ _⟩

theorem OnTime.close (h : task.OnTime prompt now) {l : Lane}
    (hnext : task.close? now l = some task') : task'.OnTime prompt now := by
  unfold OnTime at h
  unfold close? at hnext
  split at hnext
  · rename_i time hphase
    obtain ⟨hle, ⟨⟩⟩ := Option.ite_none_right_eq_some.1 hnext
    simp only [hphase] at h
    exact ⟨h.1.trans hle, fun hprompt ↦ (h.2 hprompt).2⟩
  · rename_i hphase
    cases hnext
    simp only [hphase] at h
    exact h.1
  · cases hnext

theorem hasClosed_of_close? {l : Lane} (hnext : task.close? now l = some task') (l' : Lane) :
    task'.phase.hasClosed l' = true ↔ task.phase.hasClosed l' = true ∨ l' = l := by
  unfold close? at hnext
  split at hnext
  · rename_i time hphase
    obtain ⟨-, ⟨⟩⟩ := Option.ite_none_right_eq_some.1 hnext
    cases l' <;> simp [hphase, ClosingPhase.hasClosed]
  · rename_i hphase
    cases hnext
    cases l' <;> simp [hphase, ClosingPhase.hasClosed]
  · cases hnext

end Closing

namespace Generation

/-- A closing task has closed that lane of the client. -/
def HasClosed (g : Generation ι) (l : Lane) : Prop :=
  ∃ task ∈ g.closings, task.phase.hasClosed l = true

def dues (g : Generation ι) : List Time :=
  g.closings.map Closing.due

variable [DecidableEq ι]

/-- What holds of a client and of the tasks that close it, where `seen` are the events of the
client. -/
structure Fine (prompt : Prop) (now : Time) (seen : List (BatchingClient.Event ι))
    (g : Generation ι) (client : BatchingClient ι) : Prop where
  run : ∃ endpoints trace, g.edition.endpoints = some endpoints ∧ trace ⊆ seen ∧
    BatchingClient.Run (g.since, g.edition.settings.client endpoints) trace (now, client)
  tasks : ∀ task ∈ g.closings, task.OnTime prompt now
  closed_iff : ∀ l, (client.lane l).batcher.closed = true ↔ g.HasClosed l
  accepted : ∀ l, ∀ x ∈ (client.lane l).accepted,
    x.1 ≤ now ∧ (prompt → ∀ t ∈ g.dues, x.1 ≤ t)
  refused : ∀ id c, client.callers id = some c → c.accepted = false →
    ∃ t, c.returned = some (t, .error .closed) ∧ ∃ t' ∈ g.dues, t' ≤ t

structure Kept (prompt : Prop) (now : Time) (seen : List (BatchingClient.Event ι))
    (g : Generation ι) : Prop where
  connected : g.client.isSome = g.edition.endpoints.isSome
  fine : ∀ client, g.client = some client → g.Fine prompt now seen client

variable {prompt : Prop} {now later : Time} {seen seen' : List (BatchingClient.Event ι)}
  {g g' : Generation ι} {client client' : BatchingClient ι}

namespace Fine

theorem limits (h : g.Fine prompt now seen client) :
    client.Sound g.edition.settings.limits now := by
  obtain ⟨endpoints, trace, -, -, run⟩ := h.run
  exact BatchingClient.sound_of_run run.moves (BatchingClient.sound_new _ _ _ _)

theorem mono (h : g.Fine prompt now seen client) (hsub : seen ⊆ seen') :
    g.Fine prompt now seen' client :=
  have ⟨endpoints, trace, hendpoints, htrace, run⟩ := h.run
  { h with run := ⟨endpoints, trace, hendpoints, List.Subset.trans htrace hsub, run⟩ }

theorem wait (h : g.Fine prompt now seen client) (hle : now ≤ later)
    (idle : prompt → ∀ task ∈ g.closings, task.phase.idleUntil later = true) :
    g.Fine prompt later seen client where
  run :=
    have ⟨endpoints, trace, hendpoints, htrace, run⟩ := h.run
    ⟨endpoints, trace, hendpoints, htrace, run.wait hle⟩
  tasks task htask := (h.tasks task htask).wait hle fun hprompt ↦ idle hprompt task htask
  closed_iff := h.closed_iff
  accepted l x hx := ⟨(h.accepted l x hx).1.trans hle, (h.accepted l x hx).2⟩
  refused := h.refused

theorem le_dues (h : g.Fine prompt now seen client) (hprompt : prompt) {l : Lane}
    (hopen : (client.lane l).batcher.closed = false) : ∀ t ∈ g.dues, now ≤ t := by
  intro t ht
  obtain ⟨task, htask, rfl⟩ := List.mem_map.1 ht
  refine (h.tasks task htask).le_due hprompt (l := l) ?_
  by_contra hclosed
  have := (h.closed_iff l).2 ⟨task, htask, by simpa using hclosed⟩
  rw [hopen] at this
  cases this

theorem exists_due (h : g.Fine prompt now seen client) {l : Lane}
    (hclosed : (client.lane l).batcher.closed = true) : ∃ t ∈ g.dues, t ≤ now := by
  obtain ⟨task, htask, hphase⟩ := (h.closed_iff l).1 hclosed
  exact ⟨task.due, List.mem_map_of_mem htask, (h.tasks task htask).due_le hphase⟩

/-- The client does something, and its closing tasks go on. -/
theorem step (h : g.Fine prompt now seen client) {e : BatchingClient.Event ι}
    (hs : client.step now e = some client') (hseen : e ∈ seen) (hedition : g'.edition = g.edition)
    (hsince : g'.since = g.since) (hdues : g'.dues = g.dues)
    (htasks : ∀ task ∈ g'.closings, task.OnTime prompt now)
    (hclosed : ∀ l, g'.HasClosed l ↔ g.HasClosed l ∨ e = .lane l .close) :
    g'.Fine prompt now seen client' where
  run := by
    obtain ⟨endpoints, trace, hendpoints, htrace, run⟩ := h.run
    rw [hedition, hsince]
    exact ⟨endpoints, trace ++ [e], hendpoints,
      List.append_subset.2 ⟨htrace, List.cons_subset.2 ⟨hseen, List.nil_subset seen⟩⟩,
      run.event e hs⟩
  tasks := htasks
  closed_iff l := by
    rw [BatchingClient.lane_closed_iff hs, h.closed_iff, hclosed]
  accepted l x hx := by
    rw [hdues]
    rcases BatchingClient.accepted_step hs hx with hx | ⟨rfl, hopen⟩
    · exact h.accepted l x hx
    · exact ⟨Nat.le_refl _, fun hprompt ↦ h.le_dues hprompt hopen⟩
  refused id c hc hrefused := by
    rw [hdues]
    rcases h.limits.refused_step hs hc hrefused with ⟨b, hb, hrefused, hsame⟩ | ⟨hnew, hshut⟩
    · rw [← hsame]
      exact h.refused id b hb hrefused
    · exact ⟨now, hnew, h.exists_due hshut⟩

theorem retire (h : g.Fine prompt now seen client) : (g.retire now).Fine prompt now seen client where
  run := h.run
  tasks task htask := by
    rcases List.mem_append.1 htask with htask | htask
    · exact h.tasks task htask
    · rw [List.mem_singleton.1 htask]
      exact Closing.onTime_new prompt now
  closed_iff l := by
    rw [h.closed_iff]
    simp [HasClosed, Generation.retire, or_and_right, exists_or, ClosingPhase.hasClosed]
  accepted l x hx := by
    obtain ⟨hle, hdues⟩ := h.accepted l x hx
    refine ⟨hle, fun hprompt t ht ↦ ?_⟩
    rw [dues, Generation.retire, List.map_append] at ht
    rcases List.mem_append.1 ht with ht | ht
    · exact hdues hprompt t ht
    · rw [List.mem_singleton.1 ht]
      exact hle.trans (Nat.le_add_right _ _)
  refused id c hc hrefused := by
    obtain ⟨t, hreturned, t', ht', hle⟩ := h.refused id c hc hrefused
    refine ⟨t, hreturned, t', ?_, hle⟩
    rw [dues, Generation.retire, List.map_append]
    exact List.mem_append_left _ ht'

theorem sleep (h : g.Fine prompt now seen client) {n : Nat} {task : Closing}
    (htask : g.closings[n]? = some task) (hphase : task.phase = .spawned) :
    ({ g with closings := g.closings.set n { task with
      phase := .sleeping (now + clientCloseDelay) } } : Generation ι).Fine prompt now seen client :=
    by
  have hdues : (g.closings.set n { task with phase := .sleeping (now + clientCloseDelay) }).map
      Closing.due = g.dues := map_set_of_eq htask rfl
  refine ⟨h.run, fun x hx ↦ ?_, fun l ↦ ?_, ?_, ?_⟩
  · rcases List.mem_or_eq_of_mem_set hx with hx | rfl
    · exact h.tasks x hx
    · exact (h.tasks task (List.mem_of_getElem? htask)).sleep hphase
  · have hsame := exists_mem_set_iff (p := fun x : Closing ↦ x.phase.hasClosed l = true) (q := False)
      (y := { task with phase := .sleeping (now + clientCloseDelay) }) htask
      (by simp [hphase, ClosingPhase.hasClosed])
    rw [or_false] at hsame
    exact (h.closed_iff l).trans hsame.symm
  · rw [dues, hdues]
    exact h.accepted
  · rw [dues, hdues]
    exact h.refused

end Fine

theorem kept_new (prompt : Prop) (now : Time) (seen : List (BatchingClient.Event ι)) (v : Edition) :
    (new now v : Generation ι).Kept prompt now seen where
  connected := Option.isSome_map
  fine client hclient := by
    obtain ⟨endpoints, hendpoints, rfl⟩ := Option.map_eq_some_iff.1 hclient
    refine ⟨⟨endpoints, [], hendpoints, List.nil_subset seen, .refl⟩, fun _ h ↦ (nomatch h),
      fun l ↦ ?_, fun l x hx ↦ ?_, fun _ _ h ↦ nomatch h⟩
    · have hopen : ((v.settings.client endpoints : BatchingClient ι).lane l).batcher.closed = false := by
        cases l <;> rfl
      simp [hopen, HasClosed, new]
    · cases l <;> cases hx

namespace Kept

theorem mono (h : g.Kept prompt now seen) (hsub : seen ⊆ seen') : g.Kept prompt now seen' :=
  ⟨h.connected, fun client hclient ↦ (h.fine client hclient).mono hsub⟩

theorem wait (h : g.Kept prompt now seen) (hle : now ≤ later)
    (idle : prompt → ∀ task ∈ g.closings, task.phase.idleUntil later = true) :
    g.Kept prompt later seen :=
  ⟨h.connected, fun client hclient ↦ (h.fine client hclient).wait hle idle⟩

theorem retire (h : g.Kept prompt now seen) : (g.retire now).Kept prompt now seen :=
  ⟨h.connected, fun client hclient ↦ (h.fine client hclient).retire⟩

theorem fail (h : g.Kept prompt now seen) : (g.fail now).Kept prompt now seen :=
  ⟨h.connected, fun client hclient ↦
    have hfine := h.fine client hclient
    ⟨hfine.run, hfine.tasks, hfine.closed_iff, hfine.accepted, hfine.refused⟩⟩

theorem next (h : g.Kept prompt now seen) {e : Option (BatchingClient.Event ι)}
    (hnext : g.Next now e g') (hseen : ∀ event, e = some event → event ∈ seen) :
    g'.Kept prompt now seen := by
  cases hnext with
  | @client event client client' hclient hs hclose =>
    refine ⟨?_, ?_⟩
    · rw [← h.connected, hclient]
      rfl
    · rintro _ ⟨⟩
      have hfine := h.fine client hclient
      exact hfine.step hs (hseen event rfl) rfl rfl rfl hfine.tasks fun l ↦
        (or_iff_left (hclose l)).symm
  | sleep htask hphase =>
    exact ⟨h.connected, fun client hclient ↦ (h.fine client hclient).sleep htask hphase⟩
  | @close n task task' l client client' htask hnext hclient hs =>
    refine ⟨?_, ?_⟩
    · rw [← h.connected, hclient]
      rfl
    · rintro _ ⟨⟩
      have hfine := h.fine client hclient
      have hdue : task'.due = task.due :=
        congrArg (· + clientCloseDelay) (Closing.since_of_close? hnext)
      refine hfine.step hs (hseen _ rfl) rfl rfl (map_set_of_eq htask hdue) (fun x hx ↦ ?_)
        fun l' ↦ ?_
      · rcases List.mem_or_eq_of_mem_set hx with hx | rfl
        · exact hfine.tasks x hx
        · exact (hfine.tasks task (List.mem_of_getElem? htask)).close hnext
      · refine exists_mem_set_iff htask ?_
        rw [Closing.hasClosed_of_close? hnext]
        exact or_congr_right ⟨fun heq ↦ by rw [heq], fun heq ↦ by cases heq; rfl⟩

end Kept

end Generation

namespace Reloading

variable [DecidableEq ι] {prompt : Prop} {settings : BatchingSettings} {start now : Time}
  {first s s' : Reloading ι} {events : List (Time × Event ι)}

theorem kept_replaced {seen : List (BatchingClient.Event ι)} {g : Generation ι}
    (h : g.Kept prompt now seen) : (s.replaced now g).Kept prompt now seen := by
  unfold replaced
  split
  · exact h.retire
  · exact h

theorem kept_of_run (hfirst : new callBytes start settings = some first) {y : Time × Reloading ι}
    (run : Run callBytes prompt (start, first) events y) :
    ∀ (k : Nat) (g : Generation ι), y.2.generations[k]? = some g →
      g.Kept prompt y.1 (seen k events) := by
  induction run with
  | refl =>
    obtain ⟨-, ⟨⟩⟩ := Option.ite_none_right_eq_some.1 hfirst
    intro k g hg
    rw [List.mem_singleton.1 (List.mem_of_getElem? hg)]
    exact Generation.kept_new prompt start _ _
  | wait run h idle ih =>
    intro k g hg
    refine (ih k g hg).wait h fun hprompt task htask ↦ ?_
    have hidle := List.all_eq_true.1 (idle hprompt) g (List.mem_of_getElem? hg)
    exact List.all_eq_true.1 hidle task htask
  | @event events now s s' run e h ih =>
    intro k x hx
    have hold {g : Generation ι} (hg : s.generations[k]? = some g) :
        g.Kept prompt now (seen k (events ++ [(now, e)])) :=
      (ih k g hg).mono (seen_subset_append k events [(now, e)])
    cases act_of_step h with
    | update settings =>
      cases (orderly_of_run hfirst run).origin_of_update hx with
      | new hk hbuilds => exact Generation.kept_new prompt now _ _
      | kept hg hk => exact hold hg
      | replaced hg hk hbuilds => exact kept_replaced (hold hg)
      | failed hg hk hfails => exact (kept_replaced (hold hg)).fail
    | load => exact hold hx
    | forget i => exact hold hx
    | generation hupdate hg hnext hother hdrop =>
      rcases getElem?_set_cases hx with ⟨rfl, rfl⟩ | ⟨-, hx⟩
      · exact (hold hg).next hnext fun event hevent ↦ mem_seen_snoc hevent events now
      · exact hold hx

end Reloading

end Outbound.Eth
