import Outbound.Context.Work
import Outbound.Proofs.Context.Reasons
import Outbound.Proofs.Context.Tree

/-!
# Work ends with its result or with its context

The first poll that finds the work ready or the context ended is the last one. The task runs when
the context is canceled and when its deadline comes, so that it never waits any longer.
-/

namespace Outbound

open Relation (ReflTransGen)

/-! ## A row of polls -/

namespace Poll

variable {α : Type} {p : Poll α} {polls : List (Poll α)} {result : Outcome α}

theorem answer_eq_some_iff : p.answer = some result ↔ p.ready = some result ∨
    p.ready = none ∧ ∃ reason, p.ended = some reason ∧ result = .error (.ended reason) := by
  cases hready : p.ready with
  | some r => simp [answer, hready]
  | none => cases hended : p.ended <;> simp [answer, hready, hended, eq_comm]

theorem first_eq_none (h : ∀ p ∈ polls, p.answer = none) : first polls = none := by
  induction polls with
  | nil => rfl
  | cons p rest ih =>
    obtain ⟨hp, hrest⟩ := List.forall_mem_cons.1 h
    rw [first, hp, ih hrest]
    rfl

theorem first_concat (h : ∀ q ∈ polls, q.answer = none) (hp : p.answer = some result) :
    first (polls ++ [p]) = some (polls.length, result) := by
  induction polls with
  | nil => simp [first, hp]
  | cons q rest ih =>
    obtain ⟨hq, hrest⟩ := List.forall_mem_cons.1 h
    rw [List.cons_append, first, hq, ih hrest]
    rfl

theorem not_mem_map_ready (h : ∀ p ∈ polls, p.answer = none) (result : Outcome α) :
    some result ∉ polls.map ready := by
  rw [List.mem_map]
  rintro ⟨p, hp, hready⟩
  rw [((answer_eq_none_iff p).1 (h p hp)).1] at hready
  cases hready

end Poll

namespace LiveWork

variable {α : Type} {f : ContextFamily} {ctx : Context} {start first now later : Time}
  {before : List ContextFamily.Event} {events events' : List (Event α)} {e : Event α}
  {s s' : LiveWork α} {polls : List (Poll α)} {p : Poll α} {result : Context.RunResult α}

theorem step_cases (hs : s.step now e = some s') :
    (∃ c family, e = .contexts c ∧ s.family.step now c = some family ∧ s' = { s with family }) ∨
    (e = .begin ∧ s.phase = .new ∧ s' = s.afterStart (s.ctx.err s.family.tokens now)) ∨
    (∃ found, e = .ask (some found) ∧ s.phase = .waiting ∧
      s' = s.afterPoll ⟨some found, s.ctx.err s.family.tokens now⟩) ∨
    (e = .ask none ∧ s.phase = .waiting ∧ s' = { s with phase := .unready }) ∨
    ∃ reason, e = .look reason ∧ s.phase = .unready ∧
      s' = s.afterPoll ⟨none, s.ctx.done s.family.tokens now reason⟩ := by
  cases e with
  | contexts c =>
    obtain ⟨family, hfamily, heq⟩ := Option.map_eq_some_iff.1 hs
    exact .inl ⟨c, family, rfl, hfamily, heq.symm⟩
  | begin =>
    simp only [step] at hs
    split at hs
    · rename_i hphase
      cases hs
      exact .inr (.inl ⟨rfl, hphase, rfl⟩)
    · cases hs
  | ask found =>
    simp only [step] at hs
    split at hs
    · rename_i found hphase
      cases hs
      exact .inr (.inr (.inl ⟨found, rfl, hphase, rfl⟩))
    · rename_i hphase
      cases hs
      exact .inr (.inr (.inr (.inl ⟨rfl, hphase, rfl⟩)))
    · cases hs
  | look reason =>
    simp only [step] at hs
    split at hs
    · rename_i hphase
      cases hs
      exact .inr (.inr (.inr (.inr ⟨reason, rfl, hphase, rfl⟩)))
    · cases hs

/-! ## How far a task has come -/

/-- What is known of the start and of the polls when a task has come this far and the work, whenever
it was polled, was found like this. -/
def Stage (s : LiveWork α) (found : List (Option (Outcome α))) : Prop :=
  match s.phase with
  | .new => s.atStart? = none ∧ s.polls = [] ∧ found = []
  | .waiting =>
    s.atStart? = some none ∧ (∀ p ∈ s.polls, p.answer = none) ∧ found = s.polls.map Poll.ready
  | .unready =>
    s.atStart? = some none ∧ (∀ p ∈ s.polls, p.answer = none) ∧
      found = s.polls.map Poll.ready ++ [none]
  | .finished (.refused reason) => s.atStart? = some (some reason) ∧ s.polls = [] ∧ found = []
  | .finished (.answered waited result) =>
    s.atStart? = some none ∧ found = s.polls.map Poll.ready ∧ ∃ polls p, s.polls = polls ++ [p] ∧
      polls.length = waited ∧ (∀ q ∈ polls, q.answer = none) ∧ p.answer = some result
  | .finished .pending => False

theorem stage_afterStart (hpolls : s.polls = []) (atStart : Option Reason) :
    (s.afterStart atStart).Stage [] := by
  cases atStart with
  | some reason => exact ⟨rfl, hpolls, rfl⟩
  | none =>
    refine ⟨rfl, fun p hp ↦ ?_, ?_⟩
    · rw [afterStart, hpolls] at hp
      cases hp
    · rw [afterStart, hpolls]
      rfl

theorem stage_afterPoll (hatStart : s.atStart? = some none) (h : ∀ q ∈ s.polls, q.answer = none)
    (p : Poll α) : (s.afterPoll p).Stage (s.polls.map Poll.ready ++ [p.ready]) := by
  have hready : s.polls.map Poll.ready ++ [p.ready] = (s.polls ++ [p]).map Poll.ready := by
    rw [List.map_append, List.map_singleton]
  cases hp : p.answer with
  | some result =>
    simp only [Stage, afterPoll, hp]
    exact ⟨hatStart, hready, s.polls, p, rfl, rfl, h, hp⟩
  | none =>
    simp only [Stage, afterPoll, hp]
    refine ⟨hatStart, fun q hq ↦ ?_, hready⟩
    rcases List.mem_append.1 hq with hq | hq
    · exact h q hq
    · rw [List.mem_singleton.1 hq]
      exact hp

structure Sound (f : ContextFamily) (ctx : Context) (first : Time) (events : List (Event α))
    (now : Time) (s : LiveWork α) : Prop where
  ctx_eq : s.ctx = ctx
  family : ContextFamily.Run (first, f) (events.filterMap Event.contexts?) (now, s.family)
  stage : s.Stage (events.filterMap Event.found?)
  atStart : ∀ reason, s.atStart? = some (some reason) →
    ctx.endedBy s.family.tokens now reason = true
  seen : ∀ p ∈ s.polls, ∀ reason, p.ended = some reason →
    ctx.endedBy s.family.tokens now reason = true

theorem sound_new (f : ContextFamily) (ctx : Context) (first : Time) :
    Sound (α := α) f ctx first [] first (new f ctx) := by
  refine ⟨rfl, .refl, ⟨rfl, rfl, rfl⟩, fun reason h ↦ ?_, fun p hp ↦ ?_⟩
  · cases h
  · cases hp

namespace Sound

variable (h : Sound f ctx first events now s)

include h

theorem wait (hle : now ≤ later) : Sound f ctx first events later s :=
  ⟨h.ctx_eq, h.family.wait hle, h.stage,
    fun reason hreason ↦ Context.endedBy_mono (fun _ hi ↦ hi) hle (h.atStart reason hreason),
    fun p hp reason hreason ↦
      Context.endedBy_mono (fun _ hi ↦ hi) hle (h.seen p hp reason hreason)⟩

theorem contexts {c : ContextFamily.Event} {family : ContextFamily}
    (hfamily : s.family.step now c = some family) :
    Sound f ctx first (events ++ [.contexts c]) now { s with family } := by
  have hlasts {reason : Reason} (hended : ctx.endedBy s.family.tokens now reason = true) :
      ctx.endedBy family.tokens now reason = true :=
    Context.endedBy_mono (fun _ hi ↦ ContextFamily.isCanceled_of_step hfamily hi) le_rfl hended
  refine ⟨h.ctx_eq, ?_, ?_, fun reason hreason ↦ hlasts (h.atStart reason hreason),
    fun p hp reason hreason ↦ hlasts (h.seen p hp reason hreason)⟩
  · rw [List.filterMap_append]
    exact h.family.event c hfamily
  · have hquiet : [Event.contexts (α := α) c].filterMap Event.found? = [] := rfl
    rw [List.filterMap_append, hquiet, List.append_nil]
    exact h.stage

/-- An event of the task leaves the contexts as they are. -/
theorem task (he : e.contexts? = none) (hctx : s'.ctx = s.ctx) (hfamily : s'.family = s.family)
    (hstage : s'.Stage (events.filterMap Event.found? ++ e.found?.toList))
    (hatStart : ∀ reason, s'.atStart? = some (some reason) →
      ctx.endedBy s.family.tokens now reason = true)
    (hseen : ∀ p ∈ s'.polls, ∀ reason, p.ended = some reason →
      ctx.endedBy s.family.tokens now reason = true) :
    Sound f ctx first (events ++ [e]) now s' := by
  refine ⟨hctx.trans h.ctx_eq, ?_, ?_, ?_, ?_⟩
  · rw [List.filterMap_append, hfamily]
    simpa [he] using h.family
  · have hfound : [e].filterMap Event.found? = e.found?.toList := by
      cases hf : e.found? <;> simp [hf]
    rw [List.filterMap_append, hfound]
    exact hstage
  · rw [hfamily]
    exact hatStart
  · rw [hfamily]
    exact hseen

theorem begin (hphase : s.phase = .new) : Sound f ctx first (events ++ [.begin]) now
    (s.afterStart (ctx.err s.family.tokens now)) := by
  have hstage := h.stage
  simp only [Stage, hphase] at hstage
  obtain ⟨-, hpolls, hfound⟩ := hstage
  refine h.task rfl rfl rfl ?_ (fun reason hreason ↦ ?_) h.seen
  · rw [hfound]
    exact stage_afterStart hpolls _
  · exact Context.endedBy_of_err (Option.some.inj hreason)

/-- The task has polled the work, and has looked at the context where it had to. -/
theorem poll (he : e.contexts? = none) (hatStart : s.atStart? = some none)
    (hpolls : ∀ q ∈ s.polls, q.answer = none)
    (hfound : events.filterMap Event.found? ++ e.found?.toList =
      s.polls.map Poll.ready ++ [p.ready])
    (hp : ∀ reason, p.ended = some reason → ctx.endedBy s.family.tokens now reason = true) :
    Sound f ctx first (events ++ [e]) now (s.afterPoll p) := by
  refine h.task he rfl rfl ?_ h.atStart fun q hq reason hreason ↦ ?_
  · rw [hfound]
    exact stage_afterPoll hatStart hpolls p
  · rcases List.mem_append.1 hq with hq | hq
    · exact h.seen q hq reason hreason
    · rw [List.mem_singleton.1 hq] at hreason
      exact hp reason hreason

theorem step (hs : s.step now e = some s') : Sound f ctx first (events ++ [e]) now s' := by
  rcases step_cases hs with ⟨c, family, rfl, hfamily, rfl⟩ | ⟨rfl, hphase, rfl⟩ |
    ⟨found, rfl, hphase, rfl⟩ | ⟨rfl, hphase, rfl⟩ | ⟨reason, rfl, hphase, rfl⟩
  · exact h.contexts hfamily
  · rw [h.ctx_eq]
    exact h.begin hphase
  all_goals
    have hstage := h.stage
    simp only [Stage, hphase] at hstage
    obtain ⟨hatStart, hpolls, hfound⟩ := hstage
  · refine h.poll rfl hatStart hpolls ?_ fun reason hreason ↦ ?_
    · rw [hfound]
      rfl
    · rw [← h.ctx_eq]
      exact Context.endedBy_of_err hreason
  · refine h.task rfl rfl rfl ⟨hatStart, hpolls, ?_⟩ h.atStart h.seen
    rw [hfound]
    rfl
  · refine h.poll rfl hatStart hpolls ?_ fun reason' hreason ↦ ?_
    · rw [hfound]
      exact List.append_nil _
    · rw [← h.ctx_eq]
      exact Context.endedBy_of_done hreason

end Sound

theorem sound_of_run {y : Time × LiveWork α} (run : Run (first, new f ctx) events y) :
    Sound f ctx first events y.1 y.2 := by
  induction run with
  | refl => exact sound_new f ctx first
  | wait _ hle ih => exact ih.wait hle
  | event _ e hs ih => exact ih.step hs

/-! ## What the work comes to -/

namespace Stage

variable {found : List (Option (Outcome α))} (h : s.Stage found)

include h

theorem result_eq {atStart : Option Reason} (hatStart : s.atStart? = some atStart) :
    s.result = Context.run atStart s.polls := by
  unfold Stage at h
  unfold result
  split at h
  · rename_i hphase
    rw [h.1] at hatStart
    cases hatStart
  · rename_i hphase
    rw [h.1] at hatStart
    cases hatStart
    rw [hphase, Context.run, Poll.first_eq_none h.2.1]
  · rename_i hphase
    rw [h.1] at hatStart
    cases hatStart
    rw [hphase, Context.run, Poll.first_eq_none h.2.1]
  · rename_i hphase
    rw [h.1] at hatStart
    cases hatStart
    rw [hphase, Context.run]
  · rename_i hphase
    obtain ⟨hnone, -, polls, p, hpolls, hlength, hold, hp⟩ := h
    rw [hnone] at hatStart
    cases hatStart
    rw [hphase, Context.run, hpolls, Poll.first_concat hold hp, hlength]
  · exact h.elim

theorem finished_of_found {r : Outcome α} (hmem : some r ∈ found) :
    ∃ waited, s.phase = .finished (.answered waited r) := by
  unfold Stage at h
  split at h
  · rw [h.2.2] at hmem
    cases hmem
  · rw [h.2.2] at hmem
    exact absurd hmem (Poll.not_mem_map_ready h.2.1 r)
  · rw [h.2.2, List.mem_append] at hmem
    rcases hmem with hmem | hmem
    · exact absurd hmem (Poll.not_mem_map_ready h.2.1 r)
    · cases List.mem_singleton.1 hmem
  · rw [h.2.2] at hmem
    cases hmem
  · rename_i hphase
    obtain ⟨-, hfound, polls, p, hpolls, -, hold, hp⟩ := h
    rw [hfound, hpolls, List.map_append, List.mem_append] at hmem
    rcases hmem with hmem | hmem
    · exact absurd hmem (Poll.not_mem_map_ready hold r)
    · rw [Poll.answer_of_ready (List.mem_singleton.1 hmem).symm] at hp
      cases hp
      exact ⟨_, hphase⟩
  · exact h.elim

theorem found_of_answered {waited : Nat} {r : Outcome α}
    (hphase : s.phase = .finished (.answered waited r)) :
    found.length = waited + 1 ∧ (some r ∈ found ∨
      ∃ p ∈ s.polls, ∃ reason, p.ended = some reason ∧ r = .error (.ended reason)) := by
  simp only [Stage, hphase] at h
  obtain ⟨-, hfound, polls, p, hpolls, hlength, -, hp⟩ := h
  have hmem : p ∈ s.polls := by
    rw [hpolls]
    exact List.mem_append_right _ (List.mem_singleton_self p)
  constructor
  · rw [hfound, hpolls, List.length_map, List.length_append, hlength, List.length_singleton]
  · rcases Poll.answer_eq_some_iff.1 hp with hready | ⟨-, hended⟩
    · rw [hfound, ← hready]
      exact .inl (List.mem_map_of_mem hmem)
    · exact .inr ⟨p, hmem, hended⟩

end Stage

/-- Once the work is over, only the contexts go on. -/
theorem over_of_step (hphase : s.phase = .finished result) (hs : s.step now e = some s') :
    s'.phase = .finished result ∧ e.found? = none := by
  rcases step_cases hs with ⟨_, _, rfl, -, rfl⟩ | ⟨-, hother, -⟩ | ⟨_, -, hother, -⟩ |
    ⟨-, hother, -⟩ | ⟨_, -, hother, -⟩
  · exact ⟨hphase, rfl⟩
  all_goals
    rw [hphase] at hother
    cases hother

theorem over_of_run {x y : Time × LiveWork α} (hphase : x.2.phase = .finished result)
    (run : Run x events y) :
    y.2.phase = .finished result ∧ ∀ found, Event.ask found ∉ events := by
  induction run with
  | refl => exact ⟨hphase, fun _ hmem ↦ by cases hmem⟩
  | wait _ _ ih => exact ih
  | event _ e hs ih =>
    obtain ⟨hover, hquiet⟩ := over_of_step ih.1 hs
    refine ⟨hover, fun found hmem ↦ ?_⟩
    rcases List.mem_append.1 hmem with hmem | hmem
    · exact ih.2 found hmem
    · rw [← List.mem_singleton.1 hmem] at hquiet
      cases hquiet

theorem mem_found_iff {found : Option (Outcome α)} :
    found ∈ events.filterMap Event.found? ↔ Event.ask found ∈ events := by
  rw [List.mem_filterMap]
  constructor
  · rintro ⟨e, he, hfound⟩
    cases e with
    | ask _ =>
      cases hfound
      exact he
    | _ => cases hfound
  · intro hmem
    exact ⟨_, hmem, rfl⟩

/-- When the work is not ready, a look at the context finishes it exactly if the context has ended. -/
theorem exists_step_look (hphase : s.phase = .unready) (now : Time) (look : Reason) :
    ∃ s', s.step now (.look look) = some s' ∧
      (s'.phase = .waiting ↔ s.ctx.err s.family.tokens now = none) ∧
      ∀ reason, s.ctx.err s.family.tokens now = some reason →
        ∃ reason', s'.phase = .finished (.answered s.polls.length (.error (.ended reason'))) ∧
          s.ctx.endedBy s.family.tokens now reason' = true ∧
          ((∃ other, s.ctx.endedBy s.family.tokens now other = false) → reason' = reason) := by
  refine ⟨_, step_look hphase now look, ?_⟩
  cases hdone : s.ctx.done s.family.tokens now look with
  | none =>
    have hlive := Context.done_eq_none_iff.1 hdone
    refine ⟨iff_of_true (phase_afterPoll_of_none rfl s) hlive, fun reason herr ↦ ?_⟩
    rw [hlive] at herr
    cases herr
  | some reason' =>
    have hphase' := phase_afterPoll (p := ⟨none, some reason'⟩) rfl s
    have hended : s.ctx.err s.family.tokens now ≠ none := by
      intro hlive
      rw [Context.done_eq_none_iff.2 hlive] at hdone
      cases hdone
    have hover : (s.afterPoll ⟨none, some reason'⟩).phase ≠ .waiting := by
      rw [hphase']
      intro hwaiting
      cases hwaiting
    refine ⟨iff_of_false hover hended, fun reason herr ↦
      ⟨reason', hphase', Context.endedBy_of_done hdone, ?_⟩⟩
    rintro ⟨other, hother⟩
    exact Context.reason_unique hother (Context.endedBy_of_done hdone)
      (Context.endedBy_of_err herr)

/-! ## Nothing waits past the end of the context -/

theorem endedBy_of_step {reason : Reason} (hs : s.step now e = some s')
    (h : s.ctx.endedBy s.family.tokens now reason = true) :
    s'.ctx.endedBy s'.family.tokens now reason = true := by
  rcases step_cases hs with ⟨_, family, -, hfamily, rfl⟩ | ⟨-, -, rfl⟩ | ⟨_, -, -, rfl⟩ |
    ⟨-, -, rfl⟩ | ⟨_, -, -, rfl⟩
  · exact Context.endedBy_mono (fun _ hi ↦ ContextFamily.isCanceled_of_step hfamily hi) le_rfl h
  all_goals exact h

theorem begun_of_step (hs : s.step now e = some s') (h : s.phase ≠ .new) : s'.phase ≠ .new := by
  intro hphase
  rcases step_cases hs with ⟨_, _, -, -, rfl⟩ | ⟨-, hnew, -⟩ | ⟨_, -, -, rfl⟩ | ⟨-, -, rfl⟩ |
    ⟨_, -, -, rfl⟩
  · exact h hphase
  · exact h hnew
  · rw [phase_afterPoll rfl] at hphase
    cases hphase
  · cases hphase
  · simp only [afterPoll] at hphase
    split at hphase <;> cases hphase

/-- A task that has begun is not idle when its context has ended, unless it is over. -/
theorem over_of_idle {reason : Reason} (idle : s.IdleUntil later) (hbegun : s.phase ≠ .new)
    (hended : s.ctx.endedBy s.family.tokens now reason = true) (hlt : now < later) :
    ∃ result, s.phase = .finished result := by
  unfold IdleUntil at idle
  split at idle
  · obtain ⟨-, hlives, hdeadline⟩ := idle
    cases reason with
    | canceled => exact absurd hended (by simp [Context.endedBy, hlives])
    | deadlineExceeded =>
      obtain ⟨d, hd, hle⟩ : ∃ d, s.ctx.deadline = some d ∧ d ≤ now := by
        cases hd : s.ctx.deadline <;> simp [Context.endedBy, Context.expired, hd] at hended ⊢
        exact hended
      exact absurd (hdeadline d hd) (hle.trans_lt hlt).not_ge
  · exact idle.elim
  · rename_i hwaiting hunready
    cases hphase : s.phase with
    | new => exact absurd hphase hbegun
    | waiting => exact absurd hphase hwaiting
    | unready => exact absurd hphase hunready
    | finished result => exact ⟨result, rfl⟩

/-- On a virtual clock a task whose context has ended is over before time goes on. -/
theorem over_in_time {reason : Reason} {y : Time × LiveWork α}
    (prompt : ReflTransGen PromptMove (now, s) y) (hbegun : s.phase ≠ .new)
    (hended : s.ctx.endedBy s.family.tokens now reason = true) :
    (y.1 = now ∧ y.2.phase ≠ .new ∧ y.2.ctx.endedBy y.2.family.tokens now reason = true) ∨
      ∃ s' result, ReflTransGen PromptMove (now, s) (now, s') ∧ s'.phase = .finished result ∧
        y.2.phase = .finished result := by
  induction prompt with
  | refl => exact .inl ⟨rfl, hbegun, hended⟩
  | tail before move ih =>
    rcases ih with ⟨htime, hbegun, hended⟩ | ⟨s', result, run, hover, hlast⟩
    · cases move with
      | @wait t later s' hle idle =>
        cases htime
        rcases hle.eq_or_lt with rfl | hlt
        · exact .inl ⟨rfl, hbegun, hended⟩
        · obtain ⟨result, hover⟩ := over_of_idle idle hbegun hended hlt
          exact .inr ⟨s', result, before, hover, hover⟩
      | event e hs =>
        cases htime
        exact .inl ⟨rfl, begun_of_step hs hbegun, endedBy_of_step hs hended⟩
    · cases move with
      | wait _ _ => exact .inr ⟨s', result, run, hover, hlast⟩
      | event e hs => exact .inr ⟨s', result, run, hover, (over_of_step hlast hs).1⟩

/-- Work that has begun can be finished as soon as its context has ended. -/
theorem exists_finished {reason : Reason} (hbegun : s.phase ≠ .new)
    (hended : s.ctx.endedBy s.family.tokens now reason = true) :
    ∃ s' result, ReflTransGen PromptMove (now, s) (now, s') ∧ s'.phase = .finished result := by
  have hlook {t : LiveWork α} (hphase : t.phase = .unready)
      (hended : t.ctx.endedBy t.family.tokens now reason = true) :
      ∃ s' result, PromptMove (now, t) (now, s') ∧ s'.phase = .finished result := by
    have hs := step_look hphase now reason
    rw [Context.done_of_endedBy hended] at hs
    exact ⟨_, _, .event _ hs, phase_afterPoll rfl t⟩
  cases hphase : s.phase with
  | new => exact absurd hphase hbegun
  | waiting =>
    have hs := step_ask_none hphase now
    obtain ⟨s', result, hmove, hfinished⟩ := hlook (t := { s with phase := .unready }) rfl hended
    exact ⟨s', result, .tail (.single (.event _ hs)) hmove, hfinished⟩
  | unready =>
    obtain ⟨s', result, hmove, hfinished⟩ := hlook hphase hended
    exact ⟨s', result, .single hmove, hfinished⟩
  | finished result => exact ⟨s, result, .refl, hphase⟩

/-! ## Every run -/

/-- Whatever contexts there are, whenever the task begins and whatever the polls find: work under a
context that has ended is never polled; other work goes on until the first poll that finds it ready
or its context ended, and a result that is there counts. Then the work is gone, and on a virtual
clock this is no later than the end of the context. -/
theorem finished_at_first_answer {n : Nat} {m : FamilyMember}
    (made : ContextFamily.Run (start, {}) before (first, f)) (hm : f.members[n]? = some m)
    (run : Run (first, new f m.ctx) events (now, s)) :
    (m.ctx.err s.family.tokens now = none ↔
      (¬ ∃ maker ∈ m.lineage.line,
        s.family.Canceled (before ++ events.filterMap Event.contexts?) maker) ∧
      ¬ ∃ d, m.lineage.deadlines.min? = some d ∧ d ≤ now) ∧
    (s.phase = .new → (∀ found, Event.ask found ∉ events) ∧
      ∃ s', s.step now .begin = some s' ∧
        s'.atStart? = some (m.ctx.err s.family.tokens now) ∧
        (m.ctx.err s.family.tokens now = none → s'.phase = .waiting) ∧
        ∀ reason, m.ctx.err s.family.tokens now = some reason →
          s'.phase = .finished (.refused reason)) ∧
    (s.phase = .waiting →
      (∃ s', s.step now (.ask none) = some s' ∧ s'.phase = .unready) ∧
      ∀ result, ∃ s', s.step now (.ask (some result)) = some s' ∧
        s'.phase = .finished (.answered s.polls.length result)) ∧
    (s.phase = .unready → ∀ look, ∃ s', s.step now (.look look) = some s' ∧
      (s'.phase = .waiting ↔ m.ctx.err s.family.tokens now = none) ∧
      ∀ reason, m.ctx.err s.family.tokens now = some reason →
        ∃ reason', s'.phase = .finished (.answered s.polls.length (.error (.ended reason'))) ∧
          m.ctx.endedBy s.family.tokens now reason' = true ∧
          ((∃ other, m.ctx.endedBy s.family.tokens now other = false) → reason' = reason)) ∧
    (∀ atStart, s.atStart? = some atStart → s.result = Context.run atStart s.polls) ∧
    (∀ found, Event.ask (some found) ∈ events →
      ∃ waited, s.phase = .finished (.answered waited found)) ∧
    (∀ reason, s.phase = .finished (.refused reason) →
      (∀ found, Event.ask found ∉ events) ∧
        m.ctx.endedBy s.family.tokens now reason = true) ∧
    (∀ waited found, s.phase = .finished (.answered waited found) →
      (events.filterMap Event.found?).length = waited + 1 ∧
      (Event.ask (some found) ∈ events ∨ ∃ reason, found = .error (.ended reason) ∧
        m.ctx.endedBy s.family.tokens now reason = true)) ∧
    (∀ result, s.phase = .finished result → ∀ events' later s',
      Run (now, s) events' (later, s') →
        s'.phase = .finished result ∧ ∀ found, Event.ask found ∉ events') ∧
    (s.phase ≠ .new → m.ctx.err s.family.tokens now ≠ none →
      (∃ s' result, ReflTransGen PromptMove (now, s) (now, s') ∧ s'.phase = .finished result) ∧
      ∀ later s', now < later → ReflTransGen PromptMove (now, s) (later, s') →
        ∃ s'' result, ReflTransGen PromptMove (now, s) (now, s'') ∧
          s''.phase = .finished result ∧ s'.phase = .finished result) := by
  have h := sound_of_run run
  obtain ⟨makers, hlawful⟩ := ContextFamily.lawful_of_run (made.trans h.family)
  have hmember := List.mem_of_getElem? (ContextFamily.member_of_run h.family hm)
  have hstage := h.stage
  refine ⟨(hlawful.err_iff hmember now).2.2, fun hphase ↦ ?_, fun hphase ↦ ?_,
    fun hphase look ↦ ?_, fun atStart hatStart ↦ hstage.result_eq hatStart, fun found hask ↦ ?_,
    fun reason hphase ↦ ?_, fun waited found hphase ↦ ?_, fun result hphase _ _ _ run' ↦
      over_of_run hphase run', fun hbegun hended ↦ ?_⟩
  · simp only [Stage, hphase] at hstage
    refine ⟨fun found hask ↦ ?_, _, step_begin hphase now, ?_, fun hlive ↦ ?_, fun reason herr ↦ ?_⟩
    · rw [← mem_found_iff, hstage.2.2] at hask
      cases hask
    · rw [h.ctx_eq]
      rfl
    · rw [h.ctx_eq, hlive]
      rfl
    · rw [h.ctx_eq, herr]
      rfl
  · exact ⟨⟨_, step_ask_none hphase now, rfl⟩,
      fun result ↦ ⟨_, step_ask_some hphase now result, phase_afterPoll rfl s⟩⟩
  · rw [← h.ctx_eq]
    exact exists_step_look hphase now look
  · exact hstage.finished_of_found (mem_found_iff.2 hask)
  · simp only [Stage, hphase] at hstage
    refine ⟨fun found hask ↦ ?_, h.atStart reason hstage.1⟩
    rw [← mem_found_iff, hstage.2.2] at hask
    cases hask
  · obtain ⟨hlength, hfound⟩ := hstage.found_of_answered hphase
    refine ⟨hlength, hfound.imp mem_found_iff.1 ?_⟩
    rintro ⟨p, hp, reason, hreason, hresult⟩
    exact ⟨reason, hresult, h.seen p hp reason hreason⟩
  · obtain ⟨reason, herr⟩ := Option.ne_none_iff_exists'.1 hended
    have hreason := Context.endedBy_of_err herr
    rw [← h.ctx_eq] at hreason
    refine ⟨exists_finished hbegun hreason, fun later s' hlt prompt ↦ ?_⟩
    exact (over_in_time prompt hbegun hreason).resolve_left fun hnow ↦ hlt.ne hnow.1.symm

/-- A context high above the one of the work is canceled. A result that is ready at the next poll
counts; if the work is not ready, the context is what it ends with. -/
theorem finished_after_cancellation :
    ∃ (f : ContextFamily) (m : FamilyMember) (s s' : LiveWork Nat),
      ContextFamily.Run (0, {}) [.background, .derive 0 (.timeout 10), .derive 1 .child] (0, f) ∧
      f.members[2]? = some m ∧
      Run (0, new f m.ctx) [.begin, .ask none, .look .canceled, .contexts (.cancel 0)] (4, s) ∧
      m.ctx.err s.family.tokens 4 = some .canceled ∧
      (∃ t, s.step 4 (.ask (some (.ok 7))) = some t ∧
        t.phase = .finished (.answered 1 (.ok 7))) ∧
      s.step 4 (.ask none) = some s' ∧
      ∃ t, s'.step 4 (.look .deadlineExceeded) = some t ∧
        t.phase = .finished (.answered 1 (.error (.ended .canceled))) := by
  obtain ⟨f, hmade, m, hm, s, hplay, herr, hphase, hpolls, hlives⟩ : ∃ f,
      TimedRun.play ContextFamily.step (0, {})
        [(0, .background), (0, .derive 0 (.timeout 10)), (0, .derive 1 .child)] = some (0, f) ∧
      ∃ m, f.members[2]? = some m ∧ ∃ s : LiveWork Nat,
        TimedRun.play step (0, new f m.ctx) [(1, .begin), (0, .ask none), (0, .look .canceled),
          (3, .contexts (.cancel 0))] = some (4, s) ∧
        m.ctx.err s.family.tokens 4 = some .canceled ∧ s.phase = .waiting ∧
        s.polls.length = 1 ∧ m.ctx.endedBy s.family.tokens 4 .deadlineExceeded = false :=
    ⟨_, rfl, _, rfl, _, rfl, rfl, rfl, rfl, rfl⟩
  have made := TimedRun.of_play hmade
  have run := TimedRun.of_play hplay
  obtain ⟨-, -, hwaiting, -⟩ := finished_at_first_answer made hm run
  obtain ⟨⟨s', hs', hunready⟩, hready⟩ := hwaiting hphase
  obtain ⟨t, ht, hseven⟩ := hready (.ok 7)
  have hsame : s'.family = s.family ∧ s'.polls = s.polls := by
    cases (step_ask_none hphase 4).symm.trans hs'
    exact ⟨rfl, rfl⟩
  obtain ⟨-, -, -, hlook, -⟩ := finished_at_first_answer made hm (run.event (.ask none) hs')
  obtain ⟨t', ht', -, hended⟩ := hlook hunready .deadlineExceeded
  rw [hsame.1] at hended
  obtain ⟨reason, ht'', -, honly⟩ := hended .canceled herr
  cases honly ⟨.deadlineExceeded, hlives⟩
  rw [hpolls] at hseven
  rw [hsame.2, hpolls] at ht''
  exact ⟨f, m, s, s', made, hm, run, herr, ⟨t, ht, hseven⟩, hs', t', ht', ht''⟩

end LiveWork

end Outbound
