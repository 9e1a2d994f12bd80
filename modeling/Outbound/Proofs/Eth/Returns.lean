import Outbound.Proofs.Eth.Frames
import Outbound.Proofs.Eth.JobTimes

/-!
# What a caller returns, and when

On a virtual clock a caller returns the first result that there is for it: what its call comes to,
or why its context has ended. Results that there are stay, and new ones come at the present time.
-/

namespace Outbound.Eth

open BatchingClient LaneLog

variable {ι : Type}

theorem Below.append {parents : List (Option Nat)} {above i : Nat} (h : Below parents above i)
    (more : List (Option Nat)) : Below (parents ++ more) above i := by
  induction h with
  | self => exact .self
  | child hparent _ ih =>
    exact .child (getElem?_append_of_some hparent more) ih

namespace Watched

variable {env : Surroundings ι} {limits : BatchLimits} {policy : BackoffPolicy}
  {w w' : Watched ι} {call : PendingCall ι} {t : Time} {r : Outcome (List UInt8)}

/-! ## Results that there are for a call -/

/-- What is new has happened at the present time. -/
structure Extends (w w' : Watched ι) : Prop where
  now : w'.now = w.now
  policy : w'.client.policy = w.client.policy
  windows : ∀ l, ∃ more, (w'.client.lane l).windows = (w.client.lane l).windows ++ more ∧
    ∀ x ∈ more, x.1 = w.now
  script : ∃ more, w'.script = w.script ++ more ∧ ∀ x ∈ more, x.1 = w.now
  outer : ∃ more, w'.outer = w.outer ++ more

theorem Available.extend (h : w.Available env call t r) (hext : w.Extends w') :
    w'.Available env call t r := by
  obtain ⟨deeds, hscript, -⟩ := hext.script
  cases h with
  | @answer l number ended time window failure? hwindow hmem hends hle =>
    obtain ⟨more, hwindows, -⟩ := hext.windows l
    refine .answer ?_ hmem (hext.policy ▸ hends) hle
    rw [hwindows]
    exact getElem?_append_of_some hwindow more
  | @canceled time token hcancel hbelow hle =>
    have hmem : (time, Deed.cancel token) ∈ w'.script := by
      rw [hscript]
      exact List.mem_append_left _ hcancel
    refine .canceled hmem ?_ hle
    rw [hscript, Script.parents_append]
    exact hbelow.append _
  | late hdeadline hle => exact .late hdeadline hle

/-- What happens at the present time gives nobody a result at an earlier one. -/
theorem Available.restrict (h : w'.Available env call t r) (hext : w.Extends w')
    (htraced : Traced w.script w.client.tokens w.outer)
    (htoken : call.ctx.token < w.outer.length) (hlt : t < w.now) :
    w.Available env call t r := by
  obtain ⟨deeds, hscript, hdeeds⟩ := hext.script
  cases h with
  | @answer l number ended time window failure? hwindow hmem hends hle =>
    obtain ⟨more, hwindows, hmore⟩ := hext.windows l
    refine .answer ?_ hmem (hext.policy ▸ hends) hle
    rw [hwindows] at hwindow
    rcases getElem?_append_cases hwindow with hold | hnew
    · exact hold
    · have hended : ended = w.now := hmore _ hnew
      rw [hended] at hle
      exact absurd hlt (Nat.not_lt.2 (Nat.le_trans (Nat.le_add_right _ _) hle))
  | @canceled time token hcancel hbelow hle =>
    rw [hscript, Script.parents_append] at hbelow
    rw [htraced.length_eq] at htoken
    refine .canceled ?_ ((below_append_iff _ htraced.older htoken).1 hbelow) hle
    rw [hscript] at hcancel
    rcases List.mem_append.1 hcancel with hold | hnew
    · exact hold
    · have htime : time = w.now := hdeeds _ hnew
      rw [htime] at hle
      exact absurd hlt (Nat.not_lt.2 hle)
  | late hdeadline hle => exact .late hdeadline hle

theorem available_wait_iff {later : Time} :
    ({ w with now := later } : Watched ι).Available env call t r ↔ w.Available env call t r := by
  constructor
  · intro h
    cases h with
    | answer hwindow hmem hends hle => exact .answer hwindow hmem hends hle
    | canceled hcancel hbelow hle => exact .canceled hcancel hbelow hle
    | late hdeadline hle => exact .late hdeadline hle
  · intro h
    cases h with
    | answer hwindow hmem hends hle => exact .answer hwindow hmem hends hle
    | canceled hcancel hbelow hle => exact .canceled hcancel hbelow hle
    | late hdeadline hle => exact .late hdeadline hle

/-! ## What holds between any two acts -/

/-- What has become of a call that was made at that time. -/
inductive Fate (env : Surroundings ι) (w : Watched ι) (called : Time) (call : PendingCall ι)
    (c : Caller) : Prop where
  | refused (hrefused : call.caller ∈ (w.log env (.ofBlock call.block)).refused)
    (haccepted : c.accepted = false) (hgone : c.slot.waiterGone = true)
    (hreturned : c.returned = some (called, .error .closed))
    (hstayed : ∀ t, (t, .leave call.caller) ∉ w.script)
  | waiting (haccepted : c.accepted = true) (hwaits : c.slot.waiterGone = false)
    (hreturned : c.returned = none)
    (hnothing : ∀ t r, called ≤ t → t < w.now → ¬w.Available env call t r)
    (hstayed : ∀ t, (t, .leave call.caller) ∉ w.script)
  | left {t : Time} (haccepted : c.accepted = true) (hgone : c.slot.waiterGone = true)
    (hreturned : c.returned = none) (hleft : (t, .leave call.caller) ∈ w.script)
  | returned {t : Time} {r : Outcome (List UInt8)} (haccepted : c.accepted = true)
    (hgone : c.slot.waiterGone = true) (hreturned : c.returned = some (t, r))
    (hcalled : called ≤ t) (hle : t ≤ w.now) (hresult : w.Available env call t r)
    (hnothing : ∀ t' r', called ≤ t' → t' < t → ¬w.Available env call t' r')
    (hstayed : ∀ t, (t, .leave call.caller) ∉ w.script)

theorem Fate.of_waits {called : Time} {c : Caller} (h : Fate env w called call c)
    (hwaits : c.slot.waiterGone = false) :
    c.accepted = true ∧ c.returned = none ∧
      (∀ t r, called ≤ t → t < w.now → ¬w.Available env call t r) ∧
      ∀ t, (t, .leave call.caller) ∉ w.script := by
  have hnot : c.slot.waiterGone ≠ true := by simp [hwaits]
  cases h with
  | refused _ _ hgone => exact absurd hgone hnot
  | waiting haccepted _ hreturned hnothing hstayed =>
    exact ⟨haccepted, hreturned, hnothing, hstayed⟩
  | left _ hgone => exact absurd hgone hnot
  | returned _ hgone => exact absurd hgone hnot

theorem Fate.of_not_accepted {called : Time} {c : Caller} (h : Fate env w called call c)
    (hrejected : c.accepted = false) : c.returned = some (called, .error .closed) := by
  have hnot : c.accepted ≠ true := by simp [hrejected]
  cases h with
  | refused _ _ _ hreturned => exact hreturned
  | waiting haccepted => exact absurd haccepted hnot
  | left haccepted => exact absurd haccepted hnot
  | returned haccepted => exact absurd haccepted hnot

/-- A caller is as the deed says by which it has called. -/
structure Accounted (env : Surroundings ι) (w : Watched ι) (called : Time)
    (call : PendingCall ι) (c : Caller) : Prop where
  msg : c.msg = call.msg
  block : c.block = call.block
  token : w.outer[call.ctx.token]? = some c.ctx.token
  deadline : c.ctx.deadline = call.ctx.deadline
  called_le : called ≤ w.now
  fate : Fate env w called call c

/-- What holds between any two acts on a virtual clock. -/
structure Kept [DecidableEq ι] (env : Surroundings ι) (limits : BatchLimits)
    (policy : BackoffPolicy) (w : Watched ι) : Prop where
  sound : w.client.Sound limits w.now
  policy_eq : w.client.policy = policy
  traced : Traced w.script w.client.tokens w.outer
  times : ∀ x ∈ w.script, x.1 ≤ w.now
  lanes : ∀ l, Tracks limits w.now (w.client.lane l) (w.log env l)
  jobs : ∀ (k : Nat) job, w.client.jobs[k]? = some job →
    ∃ ended, (w.client.lane job.lane).windows[job.number]? = some (ended, job.window) ∧
      job.OnTime env w.client.policy w.now (w.sent k) ended
  known : ∀ id c, w.client.callers id = some c →
    ∃ called call, (called, .call call) ∈ w.script ∧ call.caller = id
  leavers : ∀ t id, (t, .leave id) ∈ w.script → w.client.callers id ≠ none
  callers : ∀ called call, (called, .call call) ∈ w.script →
    ∃ c, w.client.callers call.caller = some c ∧ Accounted env w called call c
  refused : ∀ l, ∀ id ∈ (w.log env l).refused,
    ∃ c, w.client.callers id = some c ∧ c.accepted = false

variable [DecidableEq ι] {client : BatchingClient ι} {e : BatchingClient.Event ι} {d : Deed ι}

/-! ## Deeds and tasks -/

theorem extends_deed (hs : w.client.step w.now e = some client) :
    w.Extends (w.afterDeed d client) where
  now := rfl
  policy := (settings_step hs).2
  windows := lane_windows_step hs
  script := ⟨[(w.now, d)], rfl, fun x hx ↦ by rw [List.mem_singleton.1 hx]⟩
  outer := ⟨_, rfl⟩

theorem extends_task (hs : w.client.step w.now e = some client) :
    w.Extends (w.afterTask e client) where
  now := rfl
  policy := (settings_step hs).2
  windows := lane_windows_step hs
  script := ⟨[], (List.append_nil _).symm, fun _ hx ↦ (List.not_mem_nil hx).elim⟩
  outer := ⟨[], (List.append_nil _).symm⟩

end Watched

end Outbound.Eth
