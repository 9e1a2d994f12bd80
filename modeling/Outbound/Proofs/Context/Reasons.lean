import Outbound.Context.Done
import Outbound.Context.Tree
import Outbound.Proofs.Cancellation
import Outbound.Proofs.Lookup

/-!
# Why a context ended

Every reason that a caller learns holds at that time, and what holds goes on to hold. So callers
learn different reasons only where a context has been canceled and its deadline has come, too.
-/

namespace Outbound

theorem Reason.eq_or_eq_of_ne {a b : Reason} (h : a ≠ b) (c : Reason) : c = a ∨ c = b := by
  cases a <;> cases b <;> cases c <;> simp at h ⊢

namespace Context

variable {ctx : Context} {tokens : Tokens} {now : Time} {first reason : Reason}

theorem endedBy_of_err (h : ctx.err tokens now = some reason) :
    ctx.endedBy tokens now reason = true := by
  cases reason with
  | canceled => exact err_eq_canceled_iff.1 h
  | deadlineExceeded => exact (err_eq_deadlineExceeded_iff.1 h).2

theorem endedBy_of_done (h : ctx.done tokens now first = some reason) :
    ctx.endedBy tokens now reason = true := by
  unfold done at h
  split at h
  · rename_i hfirst
    cases h
    exact hfirst
  · split at h
    · rename_i hother
      cases h
      exact hother
    · cases h

theorem done_of_endedBy (h : ctx.endedBy tokens now reason = true) :
    ctx.done tokens now reason = some reason := by
  rw [done, if_pos h]

/-- If one reason does not hold, there is only the other one. -/
theorem reason_unique {other reason' : Reason} (honly : ctx.endedBy tokens now other = false)
    (h : ctx.endedBy tokens now reason = true) (h' : ctx.endedBy tokens now reason' = true) :
    reason = reason' := by
  by_contra hne
  rcases Reason.eq_or_eq_of_ne hne other with rfl | rfl
  · rw [h] at honly
    cases honly
  · rw [h'] at honly
    cases honly

/-- A look at the end of the context finds a reason if there is one. -/
theorem done_eq_none_iff : ctx.done tokens now first = none ↔ ctx.err tokens now = none := by
  have hdone : ctx.done tokens now first = none ↔ ctx.endedBy tokens now first = false ∧
      ctx.endedBy tokens now first.other = false := by
    rw [done]
    cases ctx.endedBy tokens now first <;> cases ctx.endedBy tokens now first.other <;> simp
  rw [hdone, err_eq_none_iff]
  cases first with
  | canceled => exact Iff.rfl
  | deadlineExceeded => exact and_comm

theorem reports_iff :
    ctx.Reports tokens now reason ↔ ctx.endedBy tokens now reason = true := by
  constructor
  · intro h
    cases h with
    | err h => exact endedBy_of_err h
    | done first h => exact endedBy_of_done h
    | refused polls h =>
      unfold run at h
      split at h
      · rename_i herr
        cases h
        exact endedBy_of_err herr
      · split at h <;> cases h
    | stopped first h =>
      cases hdone : ctx.done tokens now first with
      | none =>
        rw [hdone] at h
        cases h
      | some reason =>
        rw [hdone] at h
        cases h
        exact endedBy_of_done hdone
    | task slot first unresolved h =>
      cases hgone : slot.producerGone with
      | true =>
        rw [Slot.poll_of_producerGone unresolved hgone] at h
        cases h
      | false =>
        rw [Slot.poll_of_waiting unresolved hgone] at h
        obtain ⟨_, hdone, heq⟩ := Option.map_eq_some_iff.1 h
        cases heq
        exact endedBy_of_done hdone
  · intro h
    exact .done reason (done_of_endedBy h)

end Context

namespace ContextFamily

variable {f f' : ContextFamily} {events : List Event} {e : Event} {now later : Time}
  {m : FamilyMember} {n i : Nat}

theorem isCanceled_of_derive {ctx : Context} {tokens : Tokens} (how : Derivation)
    (h : tokens.isCanceled i = true) :
    (ctx.derive now tokens how).2.isCanceled i = true := by
  cases how with
  | clone => exact h
  | requestId id => exact h
  | withoutCancel => exact Tokens.isCanceled_of_append h
  | _ => exact Tokens.isCanceled_of_append h

theorem isCanceled_of_step (hs : f.step now e = some f') (h : f.tokens.isCanceled i = true) :
    f'.tokens.isCanceled i = true := by
  cases e with
  | background =>
    cases hs
    exact Tokens.isCanceled_of_append h
  | derive source how =>
    obtain ⟨m, -, hs⟩ := Option.bind_eq_some_iff.1 hs
    cases hs
    exact isCanceled_of_derive how h
  | cancel target =>
    obtain ⟨m, -, hs⟩ := Option.bind_eq_some_iff.1 hs
    cases hs
    exact Tokens.isCanceled_cancel m.ctx.token h

theorem member_of_step (hs : f.step now e = some f') (hm : f.members[n]? = some m) :
    f'.members[n]? = some m := by
  cases e with
  | background =>
    cases hs
    exact getElem?_append_of_some hm _
  | derive source how =>
    obtain ⟨_, -, hs⟩ := Option.bind_eq_some_iff.1 hs
    cases hs
    exact getElem?_append_of_some hm _
  | cancel target =>
    obtain ⟨_, -, hs⟩ := Option.bind_eq_some_iff.1 hs
    cases hs
    exact hm

theorem member_of_run {x y : Time × ContextFamily} (run : Run x events y)
    (hm : x.2.members[n]? = some m) : y.2.members[n]? = some m := by
  induction run with
  | refl => exact hm
  | wait _ _ ih => exact ih
  | event _ e hs ih => exact member_of_step hs ih

theorem isCanceled_of_run {x y : Time × ContextFamily} (run : Run x events y)
    (h : x.2.tokens.isCanceled i = true) : y.2.tokens.isCanceled i = true := by
  induction run with
  | refl => exact h
  | wait _ _ ih => exact ih
  | event _ e hs ih => exact isCanceled_of_step hs ih

/-- A context that has ended does not come back to life, and goes on to be ended for each reason
for which it has. Callers who learn different reasons do so because it has been canceled and its
deadline has come; the context itself then says that it was canceled. -/
theorem reports_agree_until_both_happened (run : Run (now, f) events (later, f'))
    (hm : f.members[n]? = some m) :
    f'.members[n]? = some m ∧
    (∀ reason, m.ctx.Reports f.tokens now reason ↔ m.ctx.endedBy f.tokens now reason = true) ∧
    (m.ctx.err f.tokens now = none ↔ ∀ reason, ¬ m.ctx.Reports f.tokens now reason) ∧
    (∀ reason, m.ctx.Reports f.tokens now reason → m.ctx.Reports f'.tokens later reason) ∧
    (m.ctx.err f.tokens now = some .canceled → m.ctx.err f'.tokens later = some .canceled) ∧
    (m.ctx.err f.tokens now = some .deadlineExceeded → m.ctx.err f'.tokens later =
      some (if f'.tokens.isCanceled m.ctx.token then .canceled else .deadlineExceeded)) ∧
    ∀ reason, m.ctx.Reports f.tokens now reason →
      ∀ reason', m.ctx.Reports f'.tokens later reason' →
        reason = reason' ∨ ∀ reason, m.ctx.endedBy f'.tokens later reason = true := by
  have hlast (reason : Reason) (h : m.ctx.endedBy f.tokens now reason = true) :
      m.ctx.endedBy f'.tokens later reason = true :=
    Context.endedBy_mono (fun _ hi ↦ isCanceled_of_run run hi) run.le h
  refine ⟨member_of_run run hm, fun reason ↦ Context.reports_iff, ?_, fun reason h ↦ ?_,
    fun h ↦ ?_, fun h ↦ ?_, fun reason h reason' h' ↦ ?_⟩
  · constructor
    · intro hlive reason hreports
      rw [Context.reports_iff, Context.not_endedBy_of_err hlive reason] at hreports
      cases hreports
    · intro hnone
      cases herr : m.ctx.err f.tokens now with
      | none => rfl
      | some reason => exact absurd (.err herr) (hnone reason)
  · exact Context.reports_iff.2 (hlast reason (Context.reports_iff.1 h))
  · exact Context.err_eq_canceled_iff.2 (hlast _ (Context.err_eq_canceled_iff.1 h))
  · have hexpired := hlast _ (Context.err_eq_deadlineExceeded_iff.1 h).2
    split
    · rename_i hcanceled
      exact Context.err_eq_canceled_iff.2 hcanceled
    · rename_i hlives
      exact Context.err_eq_deadlineExceeded_iff.2 ⟨Bool.eq_false_of_not_eq_true hlives, hexpired⟩
  · have hbefore := hlast reason (Context.reports_iff.1 h)
    have hafter := Context.reports_iff.1 h'
    by_cases heq : reason = reason'
    · exact .inl heq
    · refine .inr fun reason'' ↦ ?_
      rcases Reason.eq_or_eq_of_ne heq reason'' with rfl | rfl
      · exact hbefore
      · exact hafter

/-- The context is canceled before its deadline comes. Later it still says so, and somebody who
waits for its end may find the deadline. -/
theorem canceled_before_deadline :
    ∃ f m, Run (0, {}) [.background, .derive 0 (.timeout 10), .cancel 1] (5, f) ∧
      Run (5, f) [] (20, f) ∧ f.members[1]? = some m ∧
      m.ctx.err f.tokens 5 = some .canceled ∧ m.ctx.err f.tokens 20 = some .canceled ∧
      m.ctx.Reports f.tokens 20 .deadlineExceeded ∧
      ∀ reason, m.ctx.endedBy f.tokens 20 reason = true := by
  obtain ⟨f, hplay, m, hm, hcanceled, hdone⟩ : ∃ f, TimedRun.play step (0, {})
      [(0, .background), (0, .derive 0 (.timeout 10)), (5, .cancel 1)] = some (5, f) ∧
        ∃ m, f.members[1]? = some m ∧ m.ctx.err f.tokens 5 = some .canceled ∧
          m.ctx.done f.tokens 20 .deadlineExceeded = some .deadlineExceeded :=
    ⟨_, rfl, _, rfl, rfl, rfl⟩
  have waited : Run (5, f) [] (20, f) := TimedRun.refl.wait (by decide)
  obtain ⟨-, -, -, -, hstays, -, hagree⟩ := reports_agree_until_both_happened waited hm
  have hexpired : m.ctx.Reports f.tokens 20 .deadlineExceeded := .done .deadlineExceeded hdone
  refine ⟨f, m, TimedRun.of_play hplay, waited, hm, hcanceled, hstays hcanceled, hexpired, ?_⟩
  exact (hagree _ (.err hcanceled) _ hexpired).resolve_left (by decide)

/-- The context is canceled when its deadline has passed, and changes its mind about the reason. -/
theorem reason_changes_after_deadline :
    ∃ f f' m, Run (0, {}) [.background, .derive 0 (.timeout 10)] (20, f) ∧
      Run (20, f) [.cancel 1] (20, f') ∧ f.members[1]? = some m ∧
      m.ctx.err f.tokens 20 = some .deadlineExceeded ∧
      m.ctx.err f'.tokens 20 = some .canceled ∧
      m.ctx.done f'.tokens 20 .canceled = some .canceled ∧
      m.ctx.done f'.tokens 20 .deadlineExceeded = some .deadlineExceeded := by
  obtain ⟨f, hplay, f', hs, m, hm, herr, herr', hdone, hdone'⟩ : ∃ f, TimedRun.play step (0, {})
      [(0, .background), (0, .derive 0 (.timeout 10))] = some (0, f) ∧
        ∃ f', f.step 20 (.cancel 1) = some f' ∧ ∃ m, f.members[1]? = some m ∧
          m.ctx.err f.tokens 20 = some .deadlineExceeded ∧
          m.ctx.err f'.tokens 20 = some .canceled ∧
          m.ctx.done f'.tokens 20 .canceled = some .canceled ∧
          m.ctx.done f'.tokens 20 .deadlineExceeded = some .deadlineExceeded :=
    ⟨_, rfl, _, rfl, _, rfl, rfl, rfl, rfl, rfl⟩
  have waited := (TimedRun.of_play hplay).wait (show 0 ≤ 20 by decide)
  have canceled : Run (20, f) ([] ++ [.cancel 1]) (20, f') :=
    TimedRun.event .refl (Event.cancel 1) hs
  exact ⟨f, f', m, waited, canceled, hm, herr, herr', hdone, hdone'⟩

end ContextFamily

end Outbound
