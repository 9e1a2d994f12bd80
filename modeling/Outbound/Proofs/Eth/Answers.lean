import Mathlib
import Outbound.Eth.BatchingClient

/-!
# The answers of a batch

Whatever an attempt comes to, it has an outcome for every position of the batch, and the call in
that position is answered with it.
-/

namespace Outbound.Eth

variable {ι : Type}

/-- What an attempt comes to for the call in that position of its batch. -/
def outcomeAt (outcome : BatchOutcome) (i : Nat) : Outcome (List UInt8) :=
  match outcome with
  | .error e => .error e
  | .ok results =>
    match results[i]? with
    | some result => result.bind decodeBytes
    | none => .error (.decode "batch response shorter than request")

/-- The answers to the calls of a batch, in their order. -/
def answers (calls : List (PendingCall ι)) (outcome : BatchOutcome) :
    List (ι × Outcome (List UInt8)) :=
  calls.mapIdx fun i call ↦ (call.caller, outcomeAt outcome i)

@[simp] theorem length_answers (calls : List (PendingCall ι)) (outcome : BatchOutcome) :
    (answers calls outcome).length = calls.length :=
  List.length_mapIdx

@[simp] theorem map_fst_answers (calls : List (PendingCall ι)) (outcome : BatchOutcome) :
    (answers calls outcome).map Prod.fst = calls.map (·.caller) := by
  apply List.ext_getElem?
  intro i
  simp [answers]
  rfl

theorem mem_answers {calls : List (PendingCall ι)} {outcome : BatchOutcome}
    {x : ι × Outcome (List UInt8)} :
    x ∈ answers calls outcome ↔
      ∃ i, ∃ call, calls[i]? = some call ∧ x = (call.caller, outcomeAt outcome i) := by
  rw [answers, List.mem_mapIdx]
  constructor
  · rintro ⟨i, hi, rfl⟩
    exact ⟨i, calls[i], List.getElem?_eq_getElem hi, rfl⟩
  · rintro ⟨i, call, hcall, rfl⟩
    obtain ⟨hi, rfl⟩ := List.getElem?_eq_some_iff.1 hcall
    exact ⟨i, hi, rfl⟩

theorem fanOut_eq_answers (calls : List (PendingCall ι)) (results : List (Outcome Json)) :
    fanOut calls results = answers calls (.ok results) := by
  induction calls generalizing results with
  | nil => rfl
  | cons call calls ih =>
    cases results with
    | nil =>
      rw [fanOut, ih []]
      simp only [answers, List.mapIdx_cons]
      rfl
    | cons result results =>
      rw [fanOut, ih results]
      simp only [answers, List.mapIdx_cons]
      rfl

theorem failAll_eq_answers (e : Error) (calls : List (PendingCall ι)) :
    failAll e calls = answers calls (.error e) := by
  apply List.ext_getElem?
  intro i
  simp [answers, failAll, outcomeAt]

/-- The outcome is an error, or some element of it is that error. -/
def BatchOutcome.reports (outcome : BatchOutcome) (e : Error) : Prop :=
  match outcome with
  | .error e' => e' = e
  | .ok results => .error e ∈ results

theorem eq_decode_of_decodeBytes_error {v : Json} {e : Error} (h : decodeBytes v = .error e) :
    ∃ text, e = .decode text := by
  simp only [decodeBytes] at h
  split at h
  · cases h
  · cases h
    exact ⟨_, rfl⟩

theorem reports_of_outcomeAt_eq {outcome : BatchOutcome} {i : Nat} {e : Error}
    (h : outcomeAt outcome i = .error e) (hdecode : ∀ text, e ≠ .decode text) :
    BatchOutcome.reports outcome e := by
  cases outcome with
  | error e =>
    cases h
    exact rfl
  | ok results =>
    simp only [outcomeAt] at h
    split at h
    · rename_i result hresult
      cases result with
      | error e =>
        cases h
        exact List.mem_of_getElem? hresult
      | ok v =>
        obtain ⟨text, htext⟩ := eq_decode_of_decodeBytes_error h
        exact absurd htext (hdecode text)
    · cases h
      exact absurd rfl (hdecode _)

theorem reports_of_outcomeAt {outcome : BatchOutcome} {i : Nat}
    (h : outcomeAt outcome i = .error .abandoned) : BatchOutcome.reports outcome .abandoned :=
  reports_of_outcomeAt_eq h fun _ heq ↦ nomatch heq

namespace CallBatch

/-- An attempt is the last one, and then all calls are answered, or it has failed and the same
batch is sent again. -/
theorem afterAttempt_cases (batch : CallBatch ι) (maxRetries : Option Nat)
    (next? : Nanos → Option (Nanos × Nanos)) (outcome : BatchOutcome) :
    (∃ results, outcome = .ok results ∧
        batch.afterAttempt maxRetries next? outcome = .answered (answers batch.calls outcome)) ∨
      (∃ e, outcome = .error e ∧ batch.attempts.afterFailure? maxRetries next? = none ∧
        batch.afterAttempt maxRetries next? outcome =
          .failed e (answers batch.calls outcome)) ∨
      ∃ e wait attempts, outcome = .error e ∧
        batch.attempts.afterFailure? maxRetries next? = some (wait, attempts) ∧
        batch.afterAttempt maxRetries next? outcome =
          .again e wait { batch with attempts } := by
  cases outcome with
  | ok results =>
    refine .inl ⟨results, rfl, ?_⟩
    rw [← fanOut_eq_answers]
    rfl
  | error e =>
    right
    cases hnext : batch.attempts.afterFailure? maxRetries next? with
    | none =>
      refine .inl ⟨e, rfl, rfl, ?_⟩
      rw [← failAll_eq_answers]
      simp [afterAttempt, hnext]
    | some next =>
      obtain ⟨wait, attempts⟩ := next
      refine .inr ⟨e, wait, attempts, rfl, rfl, ?_⟩
      simp [afterAttempt, hnext]

theorem ofWindow?_eq_none {client : Client} {policy : BackoffPolicy} {lane : Lane}
    {abandoned : ι → Bool} {window : List (PendingCall ι)} {tokens : Tokens}
    (h : ofWindow? client policy lane abandoned window tokens = none) :
    (window.filter fun call ↦ !abandoned call.caller) = [] := by
  cases hcalls : window.filter fun call ↦ !abandoned call.caller with
  | nil => rfl
  | cons first rest => simp [ofWindow?, hcalls, List.getLast?_cons] at h

/-- A batch holds the calls of its window in order, goes where the first of them goes, and starts
with a token of its own, no deadline and no failure. -/
theorem ofWindow?_eq_some {client : Client} {policy : BackoffPolicy} {lane : Lane}
    {abandoned : ι → Bool} {window : List (PendingCall ι)} {tokens tokens' : Tokens}
    {batch : CallBatch ι}
    (h : ofWindow? client policy lane abandoned window tokens = some (batch, tokens')) :
    batch.calls = (window.filter fun call ↦ !abandoned call.caller) ∧ batch.lane = lane ∧
      (∃ first ∈ batch.calls, batch.endpoint = client.endpoint first.block) ∧
      batch.ctx.token = tokens.root.1 ∧ batch.ctx.deadline = none ∧
      batch.attempts = policy.start ∧ tokens' = tokens.root.2 := by
  cases hcalls : window.filter fun call ↦ !abandoned call.caller with
  | nil => simp [ofWindow?, hcalls] at h
  | cons first rest =>
    simp only [ofWindow?, hcalls, List.head?_cons, List.getLast?_cons, Option.pure_def,
      Option.bind_eq_bind, Option.bind_some, Option.some.injEq, Prod.mk.injEq] at h
    obtain ⟨rfl, rfl⟩ := h
    exact ⟨rfl, rfl, ⟨first, List.mem_cons_self, rfl⟩, rfl, rfl, rfl, rfl⟩

/-- A batch is sent under the request id of its last call. -/
theorem requestId_ofWindow? {client : Client} {policy : BackoffPolicy} {lane : Lane}
    {abandoned : ι → Bool} {window : List (PendingCall ι)} {tokens tokens' : Tokens}
    {batch : CallBatch ι}
    (h : ofWindow? client policy lane abandoned window tokens = some (batch, tokens')) :
    batch.calls.getLast?.map (·.ctx.requestId) = some batch.ctx.requestId := by
  cases hcalls : window.filter fun call ↦ !abandoned call.caller with
  | nil => simp [ofWindow?, hcalls] at h
  | cons first rest =>
    simp only [ofWindow?, hcalls, List.head?_cons, List.getLast?_cons, Option.pure_def,
      Option.bind_eq_bind, Option.bind_some, Option.some.injEq, Prod.mk.injEq] at h
    obtain ⟨rfl, rfl⟩ := h
    rw [List.getLast?_cons]
    rfl

end CallBatch

end Outbound.Eth
