import Mathlib
import Outbound.Context

/-!
# Cancellation lasts, and reaches only what lies below

A token that is canceled stays so, whatever tokens are made or canceled later, and so a context
that has ended has ended for good. A token without a parent is canceled by nothing but itself.
-/

namespace Outbound

namespace Tokens

theorem isCanceled_of_append {tokens : Tokens} {nodes : List Token} {i : Nat}
    (h : tokens.isCanceled i = true) : (⟨tokens.nodes ++ nodes⟩ : Tokens).isCanceled i = true := by
  simp only [isCanceled] at h ⊢
  split at h
  · rename_i token htoken
    rw [List.getElem?_append_left (List.getElem?_eq_some_iff.1 htoken).1, htoken]
    exact h
  · cases h

/-- What a token becomes while cancellation spreads: it keeps its parent, it stays canceled if it
was, and without a parent it is canceled only by itself. -/
theorem getElem?_spread (i : Nat) (done rest : List Token) (j : Nat) :
    (j < done.length → (spread i done rest)[j]? = done[j]?) ∧
      ∀ token, rest[j]? = some token →
        ∃ canceled, (spread i done rest)[done.length + j]? = some ⟨token.parent, canceled⟩ ∧
          (token.canceled = true → canceled = true) ∧
          (token.parent = none → done.length + j ≠ i → canceled = token.canceled) := by
  induction rest generalizing done j with
  | nil =>
    refine ⟨fun _ ↦ rfl, fun token htoken ↦ ?_⟩
    cases htoken
  | cons first rest ih =>
    simp only [spread]
    have hlength (t : Token) : (done ++ [t]).length = done.length + 1 := by simp
    refine ⟨fun hlt ↦ ?_, fun token htoken ↦ ?_⟩
    · rw [(ih _ j).1 (by rw [hlength]; omega), List.getElem?_append_left hlt]
    · cases j with
      | zero =>
        cases htoken
        refine ⟨_, ((ih _ done.length).1 (by rw [hlength]; omega)).trans
          List.getElem?_concat_length, fun hcanceled ↦ ?_, fun hparent hne ↦ ?_⟩
        · rw [hcanceled, Bool.true_or, Bool.true_or]
        · have hother : (done.length == i) = false := by simpa using hne
          rw [hparent, hother, Bool.or_false, Bool.or_false]
      | succ j =>
        obtain ⟨canceled, hget, hkeep, hroot⟩ := (ih _ j).2 token htoken
        rw [hlength] at hget hroot
        refine ⟨canceled, ?_, hkeep, fun hparent hne ↦ hroot hparent ?_⟩
        · rw [← hget]
          congr 1
          omega
        · omega

theorem isCanceled_cancel {tokens : Tokens} {j : Nat} (i : Nat)
    (h : tokens.isCanceled j = true) : (tokens.cancel i).isCanceled j = true := by
  simp only [isCanceled] at h
  split at h
  · rename_i token htoken
    obtain ⟨canceled, hget, hkeep, -⟩ := (getElem?_spread i [] tokens.nodes j).2 token htoken
    rw [List.length_nil, Nat.zero_add] at hget
    simp only [isCanceled, cancel, hget]
    exact hkeep h
  · cases h

/-- A token without a parent is canceled by nothing but itself. -/
theorem getElem?_cancel_of_root {tokens : Tokens} {i j : Nat}
    (h : tokens.nodes[j]? = some ⟨none, false⟩) (hne : j ≠ i) :
    (tokens.cancel i).nodes[j]? = some ⟨none, false⟩ := by
  obtain ⟨canceled, hget, -, hroot⟩ := (getElem?_spread i [] tokens.nodes j).2 _ h
  rw [List.length_nil, Nat.zero_add] at hget hroot
  rw [hroot rfl hne] at hget
  exact hget

theorem isCanceled_spread_of_lt (i : Nat) {done : List Token} (rest : List Token) {j : Nat}
    (h : j < done.length) : isCanceled ⟨spread i done rest⟩ j = isCanceled ⟨done⟩ j := by
  simp only [isCanceled, (getElem?_spread i done rest j).1 h]

/-- While cancellation spreads, a token is reached if it is the one to cancel, or if the token it
was made below is reached or was. -/
theorem isCanceled_spread (i : Nat) (done : List Token) {rest : List Token} {j : Nat}
    {token : Token}
    (htoken : rest[j]? = some token) (hparent : ∀ p, token.parent = some p → p < done.length + j) :
    isCanceled ⟨spread i done rest⟩ (done.length + j) =
      (token.canceled || done.length + j == i ||
        token.parent.any (isCanceled ⟨spread i done rest⟩)) := by
  induction rest generalizing done j with
  | nil => cases htoken
  | cons first rest ih =>
    cases j with
    | zero =>
      cases htoken
      simp only [spread]
      rw [isCanceled_spread_of_lt i rest (by simp)]
      cases hp : token.parent with
      | none => simp [isCanceled]
      | some p =>
        have hlt : p < done.length := hparent p hp
        have hold (t : Token) : isCanceled ⟨done ++ [t]⟩ p = isCanceled ⟨done⟩ p := by
          simp only [isCanceled, List.getElem?_append_left hlt]
        rw [Option.any_some, isCanceled_spread_of_lt i rest (by simp; omega), hold]
        simp [isCanceled]
    | succ j =>
      have hlength (t : Token) : (done ++ [t]).length + j = done.length + (j + 1) := by
        rw [List.length_append, List.length_singleton]
        omega
      have hrest (t : Token) := ih (done ++ [t]) htoken fun p hp ↦ by
        rw [hlength]
        exact hparent p hp
      simp only [hlength] at hrest
      exact hrest _

/-- Canceling reaches a token itself and what was made below a token that is canceled then. -/
theorem isCanceled_cancel_eq {tokens : Tokens} {i j : Nat} {token : Token}
    (htoken : tokens.nodes[j]? = some token) (hparent : ∀ p, token.parent = some p → p < j) :
    (tokens.cancel i).isCanceled j =
      (token.canceled || j == i || token.parent.any (tokens.cancel i).isCanceled) := by
  have hspread := isCanceled_spread i [] htoken (by simpa using hparent)
  rw [List.length_nil, Nat.zero_add] at hspread
  exact hspread

end Tokens

namespace Context

variable {ctx : Context} {tokens tokens' : Tokens} {now later : Time}

theorem endedBy_mono (htokens : ∀ i, tokens.isCanceled i = true → tokens'.isCanceled i = true)
    (hle : now ≤ later) {reason : Reason} (h : ctx.endedBy tokens now reason = true) :
    ctx.endedBy tokens' later reason = true := by
  cases reason with
  | canceled => exact htokens _ h
  | deadlineExceeded =>
    simp only [endedBy, expired] at h ⊢
    split at h
    · exact decide_eq_true (Nat.le_trans (of_decide_eq_true h) hle)
    · cases h

theorem err_eq_canceled_iff :
    ctx.err tokens now = some .canceled ↔ ctx.endedBy tokens now .canceled = true := by
  simp only [err, endedBy]
  cases tokens.isCanceled ctx.token <;> cases ctx.expired now <;> simp

theorem err_eq_deadlineExceeded_iff : ctx.err tokens now = some .deadlineExceeded ↔
    ctx.endedBy tokens now .canceled = false ∧
      ctx.endedBy tokens now .deadlineExceeded = true := by
  simp only [err, endedBy]
  cases tokens.isCanceled ctx.token <;> cases ctx.expired now <;> simp

theorem err_eq_none_iff : ctx.err tokens now = none ↔
    ctx.endedBy tokens now .canceled = false ∧
      ctx.endedBy tokens now .deadlineExceeded = false := by
  simp only [err, endedBy]
  cases tokens.isCanceled ctx.token <;> cases ctx.expired now <;> simp

theorem not_endedBy_of_err (h : ctx.err tokens now = none) (reason : Reason) :
    ctx.endedBy tokens now reason = false := by
  obtain ⟨hcanceled, hexpired⟩ := err_eq_none_iff.1 h
  cases reason with
  | canceled => exact hcanceled
  | deadlineExceeded => exact hexpired

end Context

end Outbound
