import Outbound.Proofs.Batch.Windows
import Outbound.Proofs.Eth.Acts
import Outbound.Proofs.Eth.Answers
import Outbound.Proofs.Lookup

/-!
# Lanes, callers and jobs

Every accepted call is in the lane of its block, and when its window is handed over it is in the
window of one job. The results that jobs have given are the results that callers have, one for
each call that was not left out. A caller loses its producer only when it has a result or has
stopped waiting, so nobody ever waits for a producer that is gone.
-/

namespace Outbound.Eth

open LiveBatcher (Move)

variable {ι : Type} [DecidableEq ι]

namespace Caller

/-- The call that a caller puts into its lane. -/
def call (id : ι) (c : Caller) : PendingCall ι := ⟨id, c.msg, c.block, c.ctx⟩

/-- What holds of a caller by itself. -/
structure Fine (tokens : Tokens) (now : Time) (c : Caller) : Prop where
  /-- The producing half goes last. -/
  produced : c.accepted = true → c.slot.producerGone = true → c.slot.isAbandoned = true
  rejected : c.accepted = false → c.slot.waiterGone = true
  /-- A call returns the result given to it, or the reason for which its context has ended, or that
  its lane was closed. -/
  returned : ∀ t r, c.returned = some (t, r) →
    c.slot.result = some r ∨
      (∃ reason, r = .error (.ended reason) ∧ c.ctx.endedBy tokens now reason = true) ∨
      c.accepted = false ∧ r = .error .closed

end Caller

namespace BatchJob

/-- The calls of the window that were not left out. -/
def kept (job : BatchJob ι) : List (PendingCall ι) :=
  job.window.filter fun call ↦ !job.gone.contains call.caller

omit [DecidableEq ι] in
/-- The results that the job has given. -/
def resolved (job : BatchJob ι) : List (ι × Outcome (List UInt8)) :=
  match job.phase with
  | .delivering batch outcome left =>
    (answers batch.calls outcome).take (batch.calls.length - left.length)
  | .done (some (batch, outcome)) => answers batch.calls outcome
  | _ => []

/-- The batch of a job holds the calls that were not left out. -/
def Shaped (job : BatchJob ι) : Prop :=
  match job.phase with
  | .checking rest => rest <:+ job.window
  | .ready batch _ => batch.calls = job.kept
  | .sent batch => batch.calls = job.kept
  | .delivering batch outcome left =>
    batch.calls = job.kept ∧ left <:+ answers batch.calls outcome
  | .done (some (batch, _)) => batch.calls = job.kept
  | .done none => job.kept = []

theorem kept_sublist (job : BatchJob ι) : job.kept.Sublist job.window :=
  List.filter_sublist

theorem Shaped.resolved_sublist {job : BatchJob ι} (h : job.Shaped) :
    (job.resolved.map Prod.fst).Sublist (job.kept.map (·.caller)) := by
  unfold Shaped at h
  unfold resolved
  split at h
  · rename_i hphase
    simp [hphase]
  · rename_i hphase
    simp [hphase]
  · rename_i hphase
    simp [hphase]
  · rename_i batch outcome left hphase
    simp only [hphase]
    rw [← h.1, ← map_fst_answers batch.calls outcome]
    exact (List.take_sublist _ _).map _
  · rename_i batch outcome hphase
    simp only [hphase]
    rw [← h, map_fst_answers]
  · rename_i hphase
    simp [hphase]

omit [DecidableEq ι] in
theorem filter_lane {jobs : List (BatchJob ι)} {l : Lane} (h : ∀ job ∈ jobs, job.lane = l)
    (l' : Lane) : jobs.filter (fun job ↦ job.lane = l') = if l' = l then jobs else [] := by
  split
  · rename_i heq
    rw [List.filter_eq_self]
    intro job hjob
    simpa [heq] using h job hjob
  · rename_i hne
    rw [List.filter_eq_nil_iff]
    intro job hjob
    rw [h job hjob]
    simpa using fun heq ↦ hne heq.symm

omit [DecidableEq ι] in
/-- A job has given its next result once it has let go of it. -/
theorem resolved_deliver {job : BatchJob ι} {batch : CallBatch ι} {outcome : BatchOutcome}
    {x : ι × Outcome (List UInt8)} {left : List (ι × Outcome (List UInt8))}
    (hphase : job.phase = .delivering batch outcome (x :: left))
    (hleft : x :: left <:+ answers batch.calls outcome) :
    ({ job with phase := .delivering batch outcome left } : BatchJob ι).resolved =
      job.resolved ++ [x] := by
  obtain ⟨before, hanswers⟩ := hleft
  have hlength : batch.calls.length = before.length + (left.length + 1) := by
    rw [← length_answers batch.calls outcome, ← hanswers, List.length_append, List.length_cons]
  have hbefore : job.resolved = before := by
    simp only [resolved, hphase, List.length_cons]
    rw [hlength, Nat.add_sub_cancel, ← hanswers, List.take_left]
  have hafter : before.length + (left.length + 1) - left.length = before.length + 1 := by omega
  rw [hbefore]
  simp only [resolved]
  rw [hlength, hafter, ← hanswers, List.take_length_add_append]
  rfl

end BatchJob

/-! ## Replacing one job in a list -/

section Set

variable {α β : Type} {xs : List α} {k : Nat} {x x' : α}

theorem flatMap_set_append {f : α → List β} (hk : xs[k]? = some x) {ys : List β}
    (h : f x' = f x ++ ys) : ((xs.set k x').flatMap f).Perm (xs.flatMap f ++ ys) := by
  induction xs generalizing k with
  | nil => cases hk
  | cons y rest ih =>
    cases k with
    | zero =>
      cases hk
      simp only [List.set_cons_zero, List.flatMap_cons, h, List.append_assoc]
      exact List.perm_append_comm.append_left _
    | succ k =>
      simp only [List.set_cons_succ, List.flatMap_cons, List.append_assoc]
      exact (ih hk).append_left _

end Set

namespace BatchingClient

def resolved (s : BatchingClient ι) : List (ι × Outcome (List UInt8)) :=
  s.jobs.flatMap BatchJob.resolved

/-! ## What holds in every state -/

/-- Where the calls are between any two acts. -/
structure Booked (limits : BatchLimits) (now : Time) (s : BatchingClient ι) : Prop where
  lanes : ∀ l, (s.lane l).Sound limits
  known : ∀ l, ∀ x ∈ (s.lane l).accepted, Lane.ofBlock x.2.block = l ∧
    ∃ c, s.callers x.2.caller = some c ∧ c.accepted = true ∧ c.call x.2.caller = x.2
  listed : ∀ id c, s.callers id = some c → c.accepted = true →
    c.call id ∈ (s.lane (.ofBlock c.block)).accepted.map (·.2)
  rejecting : ∀ id c, s.callers id = some c → c.accepted = false →
    (s.lane (.ofBlock c.block)).batcher.closed = true
  distinct : ∀ l, ((s.lane l).accepted.map fun x ↦ x.2.caller).Nodup
  /-- The jobs of a lane are its windows that were handed over. -/
  numbered : ∀ l, (s.jobs.filter fun job ↦ job.lane = l).map (·.number) =
    (s.lane l).handed.map (·.2)
  windows : ∀ job ∈ s.jobs, (s.lane job.lane).batch? job.number = some job.window
  shaped : ∀ job ∈ s.jobs, job.Shaped
  gone : ∀ job ∈ s.jobs, ∀ id ∈ job.gone,
    id ∈ job.window.map (·.caller) ∧ s.isAbandoned id = true
  fine : ∀ id c, s.callers id = some c → c.Fine s.tokens now

/-- What holds between any two acts: callers have the results that jobs have given. -/
structure Sound (limits : BatchLimits) (now : Time) (s : BatchingClient ι) : Prop
    extends Booked limits now s where
  result_iff : ∀ id c, s.callers id = some c →
    ∀ r, c.slot.result = some r ↔ (id, r) ∈ s.resolved
  given : (s.given.map fun g ↦ (g.1, g.2.1)).Perm s.resolved
  first : ∀ g ∈ s.given, g.2.2 = true

theorem sound_new (client : Client) (policy : BackoffPolicy) (limits : BatchLimits)
    (now : Time) : Sound limits now (new client policy limits : BatchingClient ι) where
  lanes := by
    intro l
    cases l <;> exact LiveBatcher.sound_new limits
  known := by
    intro l x hx
    cases l <;> exact (List.not_mem_nil hx).elim
  listed := fun _ _ h ↦ by cases h
  rejecting := fun _ _ h ↦ by cases h
  distinct := by
    intro l
    cases l <;> exact .nil
  numbered := by
    intro l
    cases l <;> rfl
  windows := fun _ h ↦ (List.not_mem_nil h).elim
  shaped := fun _ h ↦ (List.not_mem_nil h).elim
  gone := fun _ h ↦ (List.not_mem_nil h).elim
  result_iff := fun _ _ h ↦ by cases h
  given := .nil
  first := fun _ h ↦ (List.not_mem_nil h).elim
  fine := fun _ _ h ↦ by cases h

namespace Booked

variable {limits : BatchLimits} {now : Time} {s s' : BatchingClient ι}

theorem call_known (h : Booked limits now s) {job : BatchJob ι} (hjob : job ∈ s.jobs)
    {call : PendingCall ι} (hcall : call ∈ job.window) :
    Lane.ofBlock call.block = job.lane ∧
      ∃ c, s.callers call.caller = some c ∧ c.accepted = true ∧ c.call call.caller = call := by
  have hmem := ((h.lanes _).batch_sublist (h.windows job hjob)).subset hcall
  obtain ⟨x, hx, rfl⟩ := List.mem_map.1 hmem
  exact h.known _ x hx

theorem window_nodup (h : Booked limits now s) {job : BatchJob ι} (hjob : job ∈ s.jobs) :
    (job.window.map (·.caller)).Nodup := by
  have hsub := ((h.lanes _).batch_sublist (h.windows job hjob)).map (·.caller)
  rw [List.map_map] at hsub
  exact (h.distinct job.lane).sublist hsub

/-- No caller is in the windows of two jobs. -/
theorem disjoint_windows (h : Booked limits now s) :
    s.jobs.Pairwise fun a b ↦ List.Disjoint (a.window.map (·.caller)) (b.window.map (·.caller)) := by
  have hnumbers : s.jobs.Pairwise fun a b ↦ a.lane = b.lane → a.number ≠ b.number := by
    have hlane (l : Lane) : s.jobs.Pairwise fun a b ↦
        a.lane = l → b.lane = l → a.number ≠ b.number := by
      have hnodup : ((s.lane l).handed.map (·.2)).Nodup := by
        have hrange := (h.lanes l).handed_once.nodup_iff.2 List.nodup_range
        exact (List.nodup_append.1 hrange).1
      rw [← h.numbered l, List.Nodup, List.pairwise_map, List.pairwise_filter] at hnodup
      simpa using hnodup
    refine (hlane .latest).imp₂ (fun a b hlatest harchive heq ↦ ?_) (hlane .archive)
    cases hb : b.lane with
    | latest => exact hlatest (heq.trans hb) hb
    | archive => exact harchive (heq.trans hb) hb
  refine hnumbers.imp_of_mem fun {a b} ha hb hne ↦ ?_
  by_cases heq : a.lane = b.lane
  · have hwindow := h.windows b hb
    rw [← heq] at hwindow
    exact (h.lanes a.lane).disjoint_batches (h.distinct a.lane) (hne heq) (h.windows a ha) hwindow
  · intro id hida hidb
    obtain ⟨x, hx, rfl⟩ := List.mem_map.1 hida
    obtain ⟨y, hy, hsame⟩ := List.mem_map.1 hidb
    obtain ⟨hla, c, hc, -, hcx⟩ := h.call_known ha hx
    obtain ⟨hlb, c', hc', -, hcy⟩ := h.call_known hb hy
    rw [hsame, hc] at hc'
    cases hc'
    rw [hsame] at hcy
    exact heq (hla.symm.trans ((congrArg (fun z ↦ Lane.ofBlock z.block)
      (hcx.symm.trans hcy)).trans hlb))

theorem job_unique (h : Booked limits now s) {a b : BatchJob ι} (ha : a ∈ s.jobs)
    (hb : b ∈ s.jobs) {id : ι} (hida : id ∈ a.window.map (·.caller))
    (hidb : id ∈ b.window.map (·.caller)) : a = b := by
  have hsymm : Std.Symm fun a b : BatchJob ι ↦
      List.Disjoint (a.window.map (·.caller)) (b.window.map (·.caller)) :=
    ⟨fun _ _ hdisjoint ↦ hdisjoint.symm⟩
  by_contra hne
  exact h.disjoint_windows.forall ha hb hne hida hidb

theorem resolved_nodup (h : Booked limits now s) : (s.resolved.map Prod.fst).Nodup := by
  rw [resolved, List.map_flatMap, List.nodup_flatMap]
  have hsub {job : BatchJob ι} (hjob : job ∈ s.jobs) :
      (job.resolved.map Prod.fst).Sublist (job.window.map (·.caller)) :=
    (h.shaped job hjob).resolved_sublist.trans (job.kept_sublist.map _)
  refine ⟨fun job hjob ↦ (h.window_nodup hjob).sublist (hsub hjob), ?_⟩
  refine h.disjoint_windows.imp_of_mem fun {a b} ha hb hdisjoint id hida hidb ↦ ?_
  exact hdisjoint ((hsub ha).subset hida) ((hsub hb).subset hidb)

theorem caller_of_resolved (h : Booked limits now s) {id : ι} {r : Outcome (List UInt8)}
    (hmem : (id, r) ∈ s.resolved) : ∃ c, s.callers id = some c ∧ c.accepted = true := by
  obtain ⟨job, hjob, hr⟩ := List.mem_flatMap.1 hmem
  have hid := (h.shaped job hjob).resolved_sublist.subset (List.mem_map_of_mem hr)
  obtain ⟨call, hcall, rfl⟩ := List.mem_map.1 hid
  obtain ⟨-, c, hc, haccepted, -⟩ := h.call_known hjob (job.kept_sublist.subset hcall)
  exact ⟨c, hc, haccepted⟩

/-! ## Replacing a caller or a job -/

/-- A caller changes in nothing but its own affairs. -/
theorem setCaller (h : Booked limits now s) {id : ι} {c c' : Caller} (hc : s.callers id = some c)
    (hcall : c'.call id = c.call id) (haccepted : c'.accepted = c.accepted)
    (habandoned : c.slot.isAbandoned = true → c'.slot.isAbandoned = true)
    (hfine : c'.Fine s.tokens now) : Booked limits now (s.setCaller id c') := by
  have hblock : c'.block = c.block := congrArg PendingCall.block hcall
  refine { h with
    known := fun l x hx ↦ ?_
    listed := fun id' d hd hacc ↦ ?_
    rejecting := fun id' d hd hacc ↦ ?_
    gone := fun job hjob id' hid ↦ ⟨(h.gone job hjob id' hid).1, ?_⟩
    fine := fun id' d hd ↦ ?_ }
  · obtain ⟨hl, d, hd, hacc, hdx⟩ := h.known l x hx
    refine ⟨hl, ?_⟩
    by_cases heq : x.2.caller = id
    · rw [heq, hc] at hd
      cases hd
      refine ⟨c', ?_, haccepted.trans hacc, ?_⟩
      · rw [heq]
        exact callers_setCaller_self s id c'
      · rw [heq] at hdx ⊢
        exact hcall.trans hdx
    · exact ⟨d, (callers_setCaller_of_ne s heq c').trans hd, hacc, hdx⟩
  · rcases setCaller_cases hd with ⟨rfl, rfl⟩ | ⟨-, hd⟩
    · rw [hcall, hblock]
      exact h.listed id' c hc (haccepted.symm.trans hacc)
    · exact h.listed id' d hd hacc
  · rcases setCaller_cases hd with ⟨rfl, rfl⟩ | ⟨-, hd⟩
    · rw [hblock]
      exact h.rejecting id' c hc (haccepted.symm.trans hacc)
    · exact h.rejecting id' d hd hacc
  · have hgone := (h.gone job hjob id' hid).2
    by_cases heq : id' = id
    · subst heq
      rw [isAbandoned_of_some (callers_setCaller_self s id' c')]
      rw [isAbandoned_of_some hc] at hgone
      exact habandoned hgone
    · rw [isAbandoned, callers_setCaller_of_ne s heq]
      exact hgone
  · rcases setCaller_cases hd with ⟨-, rfl⟩ | ⟨-, hd⟩
    · exact hfine
    · exact h.fine id' d hd

/-- The producing halves of calls that nobody waits for can go. -/
theorem release (h : Booked limits now s) {calls : List (PendingCall ι)}
    (hcalls : ∀ call ∈ calls, s.isAbandoned call.caller = true) :
    Booked limits now (s.release calls) := by
  have hkeep {id : ι} {c : Caller} (hc : s.callers id = some c) :
      ∃ d, (s.release calls).callers id = some d ∧ d.call id = c.call id ∧
        d.accepted = c.accepted ∧ d.slot.isAbandoned = c.slot.isAbandoned := by
    rw [callers_release, hc]
    split
    · exact ⟨_, rfl, rfl, rfl, rfl⟩
    · exact ⟨c, rfl, rfl, rfl, rfl⟩
  refine { h with
    known := fun l x hx ↦ ?_
    listed := fun id d hd hacc ↦ ?_
    rejecting := fun id d hd hacc ↦ ?_
    gone := fun job hjob id hid ↦ ⟨(h.gone job hjob id hid).1, ?_⟩
    fine := fun id d hd ↦ ?_ }
  · obtain ⟨hl, c, hc, hacc, hcx⟩ := h.known l x hx
    obtain ⟨d, hd, hcall, hacc', -⟩ := hkeep hc
    exact ⟨hl, d, hd, hacc'.trans hacc, hcall.trans hcx⟩
  · obtain ⟨c, hc, rfl | ⟨-, rfl⟩⟩ := release_cases hd
    · exact h.listed id d hc hacc
    · exact h.listed id c hc hacc
  · obtain ⟨c, hc, rfl | ⟨-, rfl⟩⟩ := release_cases hd
    · exact h.rejecting id d hc hacc
    · exact h.rejecting id c hc hacc
  · have hgone := (h.gone job hjob id hid).2
    cases hc : s.callers id with
    | none => simp [isAbandoned, callers_release, hc]
    | some c =>
      obtain ⟨d, hd, -, -, hsame⟩ := hkeep hc
      rw [isAbandoned_of_some hd, hsame]
      rw [isAbandoned_of_some hc] at hgone
      exact hgone
  · obtain ⟨c, hc, rfl | ⟨hmem, rfl⟩⟩ := release_cases hd
    · exact h.fine id d hc
    · obtain ⟨call, hcall, rfl⟩ := List.mem_map.1 hmem
      have hfine := h.fine _ c hc
      have habandoned := hcalls call hcall
      rw [isAbandoned_of_some hc] at habandoned
      exact ⟨fun _ _ ↦ habandoned, hfine.rejected, hfine.returned⟩

theorem setJob (h : Booked limits now s) {k : Nat} {job : BatchJob ι}
    (hjob : s.jobs[k]? = some job) (job' : BatchJob ι) (hlane : job'.lane = job.lane)
    (hnumber : job'.number = job.number) (hwindow : job'.window = job.window)
    (hshaped : job'.Shaped)
    (hgone : ∀ id ∈ job'.gone, id ∈ job'.window.map (·.caller) ∧ s.isAbandoned id = true) :
    Booked limits now (s.setJob k job') := by
  have hmem := List.mem_of_getElem? hjob
  have hcases {j : BatchJob ι} (hj : j ∈ (s.setJob k job').jobs) : j ∈ s.jobs ∨ j = job' :=
    List.mem_or_eq_of_mem_set hj
  refine { h with
    numbered := fun l ↦ ?_
    windows := fun j hj ↦ ?_
    shaped := fun j hj ↦ ?_
    gone := fun j hj ↦ ?_ }
  · have hkeys (jobs : List (BatchJob ι)) :
        (jobs.filter fun j ↦ j.lane = l).map (·.number) =
          ((jobs.map fun j ↦ (j.lane, j.number)).filter fun x ↦ x.1 = l).map (·.2) := by
      rw [List.filter_map, List.map_map]
      rfl
    rw [BatchingClient.setJob, hkeys, map_set_of_eq hjob (by rw [hlane, hnumber]), ← hkeys]
    exact h.numbered l
  · rcases hcases hj with hj | rfl
    · exact h.windows j hj
    · rw [hlane, hnumber, hwindow]
      exact h.windows job hmem
  · rcases hcases hj with hj | rfl
    · exact h.shaped j hj
    · exact hshaped
  · rcases hcases hj with hj | rfl
    · exact h.gone j hj
    · exact hgone

end Booked

namespace Sound

variable {limits : BatchLimits} {now : Time} {s s' : BatchingClient ι}

theorem caller_of_resolved (h : Sound limits now s) {id : ι} {r : Outcome (List UInt8)}
    (hmem : (id, r) ∈ s.resolved) :
    ∃ c, s.callers id = some c ∧ c.accepted = true ∧ c.slot.result = some r := by
  obtain ⟨c, hc, haccepted⟩ := h.toBooked.caller_of_resolved hmem
  exact ⟨c, hc, haccepted, (h.result_iff _ c hc r).2 hmem⟩

theorem setCaller (h : Sound limits now s) {id : ι} {c c' : Caller} (hc : s.callers id = some c)
    (hcall : c'.call id = c.call id) (haccepted : c'.accepted = c.accepted)
    (hresult : c'.slot.result = c.slot.result)
    (habandoned : c.slot.isAbandoned = true → c'.slot.isAbandoned = true)
    (hfine : c'.Fine s.tokens now) : Sound limits now (s.setCaller id c') := by
  refine { h.toBooked.setCaller hc hcall haccepted habandoned hfine with
    result_iff := fun id' d hd ↦ ?_
    given := h.given
    first := h.first }
  rcases setCaller_cases hd with ⟨rfl, rfl⟩ | ⟨-, hd⟩
  · rw [hresult]
    exact h.result_iff id' c hc
  · exact h.result_iff id' d hd

theorem release (h : Sound limits now s) {calls : List (PendingCall ι)}
    (hcalls : ∀ call ∈ calls, s.isAbandoned call.caller = true) :
    Sound limits now (s.release calls) := by
  refine { h.toBooked.release hcalls with
    result_iff := fun id d hd ↦ ?_
    given := h.given
    first := h.first }
  obtain ⟨c, hc, rfl | ⟨-, rfl⟩⟩ := release_cases hd
  · exact h.result_iff id d hc
  · exact h.result_iff id c hc

/-- The same job in another phase, from which no new result comes. -/
theorem setJob (h : Sound limits now s) {k : Nat} {job : BatchJob ι}
    (hjob : s.jobs[k]? = some job) (job' : BatchJob ι) (hlane : job'.lane = job.lane)
    (hnumber : job'.number = job.number) (hwindow : job'.window = job.window)
    (hshaped : job'.Shaped) (hresolved : job'.resolved = job.resolved)
    (hgone : ∀ id ∈ job'.gone, id ∈ job'.window.map (·.caller) ∧ s.isAbandoned id = true) :
    Sound limits now (s.setJob k job') := by
  have hsame : (s.setJob k job').resolved = s.resolved := by
    simp only [BatchingClient.resolved, BatchingClient.setJob, List.flatMap_def]
    rw [map_set_of_eq hjob hresolved]
  refine { h.toBooked.setJob hjob job' hlane hnumber hwindow hshaped hgone with
    result_iff := ?_
    given := ?_
    first := h.first }
  · rw [hsame]
    exact h.result_iff
  · rw [hsame]
    exact h.given

end Sound

end BatchingClient

end Outbound.Eth
