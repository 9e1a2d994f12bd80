import Outbound.Proofs.Context.Reasons
import Outbound.Slot.Live

/-!
# A slot is assigned once

The first result given is the one that counts. A wait is over at the first look at which there is
something to say, and what it has come to stays.
-/

namespace Outbound.LiveSlot

variable {α : Type} {ctx : Context} {tokens : Tokens} {events events' : List (Event α)}
  {e : Event α} {s s' : LiveSlot α} {start now later : Time} {result : Outcome α}

theorem step_cases (hs : s.step now e = some s') :
    (∃ result, e = .resolve result ∧ s' = { s with
      slot := (s.slot.resolve result).2
      accepted := s.accepted ++ [(s.slot.resolve result).1] }) ∨
    (e = .dropProducer ∧ s' = { s with slot := s.slot.dropProducer }) ∨
    (e = .dropWaiter ∧ s.slot.waiterGone = false ∧ s' = { s with slot := s.slot.dropWaiter }) ∨
    (∃ token, e = .cancel token ∧ s' = { s with tokens := s.tokens.cancel token }) ∨
    ∃ first, e = .poll first ∧ s.slot.waiterGone = false ∧
      ((∃ result, s.slot.poll (s.ctx.done s.tokens now first) = some result ∧
          s' = { s with slot := s.slot.dropWaiter, answer := some result }) ∨
        s.slot.poll (s.ctx.done s.tokens now first) = none ∧ s' = s) := by
  cases e with
  | resolve result =>
    obtain ⟨-, heq⟩ := Option.ite_none_left_eq_some.1 hs
    cases heq
    exact .inl ⟨result, rfl, rfl⟩
  | dropProducer =>
    obtain ⟨-, heq⟩ := Option.ite_none_left_eq_some.1 hs
    cases heq
    exact .inr (.inl ⟨rfl, rfl⟩)
  | dropWaiter =>
    obtain ⟨hthere, heq⟩ := Option.ite_none_left_eq_some.1 hs
    cases heq
    exact .inr (.inr (.inl ⟨rfl, Bool.eq_false_of_not_eq_true hthere, rfl⟩))
  | cancel token =>
    cases hs
    exact .inr (.inr (.inr (.inl ⟨token, rfl, rfl⟩)))
  | poll first =>
    obtain ⟨hthere, heq⟩ := Option.ite_none_left_eq_some.1 hs
    refine .inr (.inr (.inr (.inr ⟨first, rfl, Bool.eq_false_of_not_eq_true hthere, ?_⟩)))
    split at heq
    · rename_i result hpoll
      cases heq
      exact .inl ⟨result, hpoll, rfl⟩
    · rename_i hpoll
      cases heq
      exact .inr ⟨hpoll, rfl⟩

/-! ## What a slot is after some events -/

structure Settled (ctx : Context) (events : List (Event α)) (s : LiveSlot α) : Prop where
  ctx_eq : s.ctx = ctx
  accepted : s.accepted = (events.filterMap Event.given?).mapIdx fun i _ ↦ i == 0
  result : s.slot.result = (events.filterMap Event.given?).head?
  producer : s.slot.producerGone = true ↔ Event.dropProducer ∈ events
  waiter : s.slot.waiterGone = true ↔ Event.dropWaiter ∈ events ∨ s.answer ≠ none

theorem settled_new (ctx : Context) (tokens : Tokens) :
    Settled ctx [] (new (α := α) ctx tokens) :=
  ⟨rfl, rfl, rfl, by simp [new], by simp [new]⟩

/-- An event by which no result is given. -/
theorem Settled.quiet (h : Settled ctx events s) (he : e.given? = none) (hctx : s'.ctx = s.ctx)
    (haccepted : s'.accepted = s.accepted) (hresult : s'.slot.result = s.slot.result)
    (hproducer : s'.slot.producerGone = true ↔ Event.dropProducer ∈ events ++ [e])
    (hwaiter : s'.slot.waiterGone = true ↔ Event.dropWaiter ∈ events ++ [e] ∨ s'.answer ≠ none) :
    Settled ctx (events ++ [e]) s' := by
  have hgiven : (events ++ [e]).filterMap Event.given? = events.filterMap Event.given? := by
    simp [he]
  refine ⟨hctx.trans h.ctx_eq, ?_, ?_, hproducer, hwaiter⟩
  · rw [haccepted, hgiven]
    exact h.accepted
  · rw [hresult, hgiven]
    exact h.result

theorem Settled.resolve (h : Settled ctx events s) (result : Outcome α) :
    Settled ctx (events ++ [Event.resolve result]) { s with
      slot := (s.slot.resolve result).2
      accepted := s.accepted ++ [(s.slot.resolve result).1] } := by
  have hgiven : (events ++ [Event.resolve result]).filterMap Event.given? =
      events.filterMap Event.given? ++ [result] := by simp [Event.given?]
  have hresult := h.result
  cases hfirst : events.filterMap Event.given? with
  | nil =>
    rw [hfirst] at hresult hgiven
    have hresolve : s.slot.resolve result = (true, { s.slot with result := some result }) := by
      rw [Slot.resolve, hresult]
      rfl
    refine ⟨h.ctx_eq, ?_, ?_, ?_, ?_⟩
    · rw [hresolve, h.accepted, hfirst, hgiven]
      rfl
    · rw [hresolve, hgiven]
      rfl
    · rw [hresolve]
      simpa using h.producer
    · rw [hresolve]
      simpa using h.waiter
  | cons first rest =>
    rw [hfirst] at hresult hgiven
    rw [Slot.resolve_of_result hresult]
    refine ⟨h.ctx_eq, ?_, ?_, ?_, ?_⟩
    · rw [h.accepted, hfirst, hgiven, List.mapIdx_concat]
      rfl
    · rw [hgiven]
      exact hresult
    · simpa using h.producer
    · simpa using h.waiter

theorem Settled.step (h : Settled ctx events s) (hs : s.step now e = some s') :
    Settled ctx (events ++ [e]) s' := by
  rcases step_cases hs with ⟨result, rfl, rfl⟩ | ⟨rfl, rfl⟩ | ⟨rfl, -, rfl⟩ | ⟨token, rfl, rfl⟩ |
    ⟨first, rfl, hthere, ⟨result, -, rfl⟩ | ⟨-, rfl⟩⟩
  · exact h.resolve result
  · exact h.quiet rfl rfl rfl rfl (by simp [Slot.dropProducer])
      (by simpa [Slot.dropProducer] using h.waiter)
  · exact h.quiet rfl rfl rfl rfl (by simpa [Slot.dropWaiter] using h.producer)
      (by simp [Slot.dropWaiter])
  · exact h.quiet rfl rfl rfl rfl (by simpa using h.producer) (by simpa using h.waiter)
  · exact h.quiet rfl rfl rfl rfl (by simpa [Slot.dropWaiter] using h.producer)
      (by simp [Slot.dropWaiter])
  · exact h.quiet rfl rfl rfl rfl (by simpa using h.producer) (by simpa using h.waiter)

theorem settled_of_run {y : Time × LiveSlot α} (run : Run (start, new ctx tokens) events y) :
    Settled ctx events y.2 := by
  induction run with
  | refl => exact settled_new ctx tokens
  | wait _ _ ih => exact ih
  | event _ e hs ih => exact ih.step hs

theorem given_head?_eq_none_iff (events : List (Event α)) :
    (events.filterMap Event.given?).head? = none ↔ ¬ ∃ result, Event.resolve result ∈ events := by
  rw [List.head?_eq_none_iff, List.filterMap_eq_nil_iff]
  constructor
  · rintro hnone ⟨result, hmem⟩
    cases hnone _ hmem
  · intro hnever e he
    cases e with
    | resolve result => exact absurd ⟨result, he⟩ hnever
    | _ => rfl

/-! ## What a wait comes to -/

/-- The waiting half can look as long as it is there, and gets the answer of the slot. -/
theorem exists_step_poll (h : Settled ctx events s) (hthere : s.slot.waiterGone = false)
    (now : Time) (first : Reason) : ∃ s', s.step now (.poll first) = some s' ∧
      s'.answer = s.slot.poll (ctx.done s.tokens now first) ∧ (s'.answer = none → s' = s) := by
  have hwaiting : s.answer = none := by
    by_contra hanswer
    rw [h.waiter.2 (.inr hanswer)] at hthere
    cases hthere
  rw [step, hthere, h.ctx_eq]
  cases hpoll : s.slot.poll (ctx.done s.tokens now first) with
  | none => exact ⟨s, rfl, hwaiting, fun _ ↦ rfl⟩
  | some result =>
    refine ⟨_, rfl, rfl, fun hnone ↦ ?_⟩
    cases hnone

/-- What has been answered stays, and nobody looks any more. -/
theorem answer_of_step (h : Settled ctx events s) (hs : s.step now e = some s')
    (hanswer : s.answer = some result) : s'.answer = some result := by
  have hgone : s.slot.waiterGone = true := h.waiter.2 (.inr (by simp [hanswer]))
  rcases step_cases hs with ⟨_, -, rfl⟩ | ⟨-, rfl⟩ | ⟨-, -, rfl⟩ | ⟨_, -, rfl⟩ | ⟨_, -, hthere, -⟩
  · exact hanswer
  · exact hanswer
  · exact hanswer
  · exact hanswer
  · rw [hgone] at hthere
    cases hthere

theorem answer_of_run {x y : Time × LiveSlot α} (h : Settled ctx events x.2)
    (run : Run x events' y) (hanswer : x.2.answer = some result) :
    Settled ctx (events ++ events') y.2 ∧ y.2.answer = some result := by
  induction run with
  | refl =>
    rw [List.append_nil]
    exact ⟨h, hanswer⟩
  | wait _ _ ih => exact ih
  | event _ e hs ih =>
    obtain ⟨hsettled, hkept⟩ := ih
    rw [← List.append_assoc]
    exact ⟨hsettled.step hs, answer_of_step hsettled hs hkept⟩

/-- Whatever happens in whatever order: the first result given is accepted and no other, a wait is
over at the first look at which a result was given, the producer is lost or the context has ended,
in this order, and nothing changes afterwards what it has come to. -/
theorem assigned_once (run : Run (start, new ctx tokens) events (now, s)) :
    s.accepted = (events.filterMap Event.given?).mapIdx (fun i _ ↦ i == 0) ∧
    s.slot.result = (events.filterMap Event.given?).head? ∧
    (s.slot.isAbandoned = true ↔ (∃ result, Event.resolve result ∈ events) ∨
      Event.dropWaiter ∈ events ∨ s.answer ≠ none) ∧
    (s.slot.waiterGone = false ↔ Event.dropWaiter ∉ events ∧ s.answer = none) ∧
    (s.slot.waiterGone = false → ∀ first, ∃ s', s.step now (.poll first) = some s' ∧
      (s'.answer = none ↔ (¬ ∃ result, Event.resolve result ∈ events) ∧
        Event.dropProducer ∉ events ∧ ctx.err s.tokens now = none) ∧
      (s'.answer = none → s' = s) ∧
      (∀ result, (events.filterMap Event.given?).head? = some result →
        s'.answer = some result) ∧
      ((¬ ∃ result, Event.resolve result ∈ events) → Event.dropProducer ∈ events →
        s'.answer = some (.error .abandoned)) ∧
      ((¬ ∃ result, Event.resolve result ∈ events) → Event.dropProducer ∉ events →
        ∀ reason, ctx.err s.tokens now = some reason →
          ∃ reason', s'.answer = some (.error (.ended reason')) ∧
            ctx.endedBy s.tokens now reason' = true ∧
            ((∃ other, ctx.endedBy s.tokens now other = false) → reason' = reason))) ∧
    ∀ result, s.answer = some result →
      ∀ events' later s', Run (now, s) events' (later, s') → s'.answer = some result := by
  have h : Settled ctx events s := settled_of_run run
  refine ⟨h.accepted, h.result, ?_, ?_, fun hthere first ↦ ?_,
    fun result hanswer events' later s' run' ↦ (answer_of_run h run' hanswer).2⟩
  · have hgiven : s.slot.result.isSome = true ↔ ∃ result, Event.resolve result ∈ events := by
      rw [Option.isSome_iff_ne_none, h.result, ne_eq, given_head?_eq_none_iff, not_not]
    rw [Slot.isAbandoned, Bool.or_eq_true, h.waiter, hgiven]
  · rw [← Bool.not_eq_true, h.waiter, not_or, not_not]
  · obtain ⟨s', hs', hanswer, hsame⟩ := exists_step_poll h hthere now first
    have hlost : s.slot.producerGone = false ↔ Event.dropProducer ∉ events := by
      rw [← h.producer, Bool.not_eq_true]
    have hungiven : s.slot.result = none ↔ ¬ ∃ result, Event.resolve result ∈ events := by
      rw [h.result, given_head?_eq_none_iff]
    refine ⟨s', hs', ?_, hsame, fun result hfirst ↦ ?_, fun hnever hdropped ↦ ?_,
      fun hnever hkept reason herr ↦ ?_⟩
    · rw [hanswer, Slot.poll_eq_none_iff, hungiven, hlost, Context.done_eq_none_iff]
    · rw [hanswer]
      exact Slot.poll_of_result (h.result.trans hfirst) _
    · rw [hanswer]
      exact Slot.poll_of_producerGone (hungiven.2 hnever) (h.producer.2 hdropped) _
    · obtain ⟨reason', hdone⟩ : ∃ reason', ctx.done s.tokens now first = some reason' := by
        rw [← Option.ne_none_iff_exists', ne_eq, Context.done_eq_none_iff, herr]
        exact Option.some_ne_none reason
      refine ⟨reason', ?_, Context.endedBy_of_done hdone, ?_⟩
      · rw [hanswer, Slot.poll_of_waiting (hungiven.2 hnever) (hlost.2 hkept), hdone]
        rfl
      · rintro ⟨other, hother⟩
        exact Context.reason_unique hother (Context.endedBy_of_done hdone)
          (Context.endedBy_of_err herr)

/-- A look finds nothing, two results are given, and the context is canceled before the next
look. -/
theorem first_result_outlives_context :
    ∃ s : LiveSlot Nat, Run (0, new ⟨0, some 10, none⟩ ⟨[⟨none, false⟩]⟩)
        [.poll .canceled, .resolve (.ok 7), .resolve (.error .closed), .cancel 0] (4, s) ∧
      s.accepted = [true, false] ∧ s.slot.isAbandoned = true ∧
      ∃ s', s.step 4 (.poll .canceled) = some s' ∧ s'.answer = some (.ok 7) := by
  obtain ⟨s, hplay, hthere⟩ : ∃ s : LiveSlot Nat,
      TimedRun.play step (0, new ⟨0, some 10, none⟩ ⟨[⟨none, false⟩]⟩)
        [(0, .poll .canceled), (3, .resolve (.ok 7)), (0, .resolve (.error .closed)),
          (1, .cancel 0)] = some (4, s) ∧ s.slot.waiterGone = false :=
    ⟨_, rfl, rfl⟩
  have run := TimedRun.of_play hplay
  obtain ⟨haccepted, -, habandoned, -, hpoll, -⟩ := assigned_once run
  obtain ⟨s', hs', -, -, hfirst, -⟩ := hpoll hthere .canceled
  have hgiven : s.slot.isAbandoned = true := habandoned.2 (.inl ⟨.ok 7, by simp⟩)
  exact ⟨s, run, haccepted, hgiven, s', hs', hfirst (.ok 7) rfl⟩

end Outbound.LiveSlot
