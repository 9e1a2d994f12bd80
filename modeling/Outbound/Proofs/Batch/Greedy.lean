import Mathlib
import Outbound.Batch.Greedy

/-!
# How long items wait in greedy windows

An item joins a window while that is open, so it comes no earlier than the first one and no later
than the deadline, and the window ends at the deadline or before.
-/

namespace Outbound

namespace OpenWindow

variable {α : Type} {limits : BatchLimits}

/-- A window without the times of its items. -/
def untimed (w : ClosedWindow α) : Time × List α := (w.1, w.2.map (·.2))

/-- The items arrived while the window was open. -/
def InSpan (limits : BatchLimits) (w : OpenWindow α) : Prop :=
  ∀ y ∈ w.items, w.first.1 ≤ y.1 ∧ y.1 ≤ w.deadline limits

/-- No item of the window comes after it ends or waits longer than it should. -/
def Waited (limits : BatchLimits) (w : ClosedWindow α) : Prop :=
  ∀ y ∈ w.2, y.1 ≤ w.1 ∧ w.1 ≤ y.1 + limits.maxWait

theorem InSpan.waited {w : OpenWindow α} (h : w.InSpan limits) :
    Waited limits (w.deadline limits, w.items) := by
  intro y hy
  obtain ⟨hfirst, hlast⟩ := h y hy
  exact ⟨hlast, Nat.add_le_add_right hfirst _⟩

theorem start_waited (x : Arrival α) :
    (∀ c ∈ (start limits x).1, Waited limits c) ∧
      ∀ w, (start limits x).2 = some w → w.InSpan limits ∧ ∀ y ∈ w.items, y.1 ≤ x.time := by
  simp only [start]
  split
  · refine ⟨fun c hc y hy ↦ ?_, fun w hw ↦ by cases hw⟩
    rw [List.mem_singleton.1 hc] at hy ⊢
    rw [List.mem_singleton.1 hy]
    exact ⟨Nat.le_refl _, Nat.le_add_right _ _⟩
  · refine ⟨fun c hc ↦ (List.not_mem_nil hc).elim, fun w hw ↦ ?_⟩
    cases hw
    refine ⟨fun y hy ↦ ?_, fun y hy ↦ ?_⟩
    · rw [List.mem_singleton.1 hy]
      exact ⟨Nat.le_refl _, Nat.le_add_right _ _⟩
    · rw [List.mem_singleton.1 hy]
      exact Nat.le_refl _

theorem le_deadline_of_inTime {w : OpenWindow α} {x : Arrival α}
    (h : w.inTime limits x = true) : x.time ≤ w.deadline limits := by
  simp only [inTime, Bool.or_eq_true, decide_eq_true_eq, Bool.and_eq_true, beq_iff_eq] at h
  rcases h with h | ⟨h, -⟩
  · exact Nat.le_of_lt h
  · exact Nat.le_of_eq h

theorem join_waited {w : OpenWindow α} {x : Arrival α} (hw : w.InSpan limits)
    (hbefore : ∀ y ∈ w.items, y.1 ≤ x.time) (hin : w.inTime limits x = true) :
    (∀ c ∈ (w.join limits x).1, Waited limits c) ∧
      ∀ v, (w.join limits x).2 = some v → v.InSpan limits ∧ ∀ y ∈ v.items, y.1 ≤ x.time := by
  have hlast := le_deadline_of_inTime hin
  have hfirst : w.first.1 ≤ x.time := hbefore _ List.mem_cons_self
  have hspan : ∀ y ∈ w.items ++ [x.timed],
      w.first.1 ≤ y.1 ∧ y.1 ≤ w.deadline limits ∧ y.1 ≤ x.time := by
    intro y hy
    rcases List.mem_append.1 hy with hy | hy
    · exact ⟨(hw y hy).1, (hw y hy).2, hbefore y hy⟩
    · rw [List.mem_singleton.1 hy]
      exact ⟨hfirst, hlast, Nat.le_refl _⟩
  simp only [join]
  split
  · refine ⟨fun c hc y hy ↦ ?_, fun v hv ↦ by cases hv⟩
    rw [List.mem_singleton.1 hc] at hy ⊢
    obtain ⟨hy₁, -, hy₂⟩ := hspan y hy
    exact ⟨hy₂, Nat.le_trans hlast (Nat.add_le_add_right hy₁ _)⟩
  · refine ⟨fun c hc ↦ (List.not_mem_nil hc).elim, fun v hv ↦ ?_⟩
    cases hv
    exact ⟨fun y hy ↦ ⟨(hspan y hy).1, (hspan y hy).2.1⟩, fun y hy ↦ (hspan y hy).2.2⟩

theorem arrive_waited {w : Option (OpenWindow α)} {x : Arrival α}
    (hw : ∀ v, w = some v → v.InSpan limits ∧ ∀ y ∈ v.items, y.1 ≤ x.time) :
    (∀ c ∈ (arrive limits w x).1, Waited limits c) ∧
      ∀ v, (arrive limits w x).2 = some v → v.InSpan limits ∧ ∀ y ∈ v.items, y.1 ≤ x.time := by
  cases w with
  | none => exact start_waited x
  | some w =>
    obtain ⟨hspan, hbefore⟩ := hw w rfl
    simp only [arrive]
    split
    · exact join_waited hspan hbefore ‹_›
    · refine ⟨fun c hc ↦ ?_, (start_waited x).2⟩
      rcases List.mem_cons.1 hc with rfl | hc
      · exact hspan.waited
      · exact (start_waited x).1 c hc

theorem greedyWindows_waited {xs : List (Arrival α)} (hsorted : xs.Pairwise (·.time ≤ ·.time))
    {w : Option (OpenWindow α)}
    (hw : ∀ v, w = some v → v.InSpan limits ∧ ∀ x ∈ xs, ∀ y ∈ v.items, y.1 ≤ x.time) :
    ∀ c ∈ greedyWindows limits w xs, Waited limits c := by
  induction xs generalizing w with
  | nil =>
    intro c hc
    cases w with
    | none => exact (List.not_mem_nil hc).elim
    | some w =>
      rw [List.mem_singleton.1 hc]
      exact (hw w rfl).1.waited
  | cons x later ih =>
    obtain ⟨hx, hlater⟩ := List.pairwise_cons.1 hsorted
    obtain ⟨hclosed, hopen⟩ := @arrive_waited _ limits w x fun v hv ↦
      ⟨(hw v hv).1, (hw v hv).2 x List.mem_cons_self⟩
    intro c hc
    rcases List.mem_append.1 hc with hc | hc
    · exact hclosed c hc
    · refine ih hlater (fun v hv ↦ ⟨(hopen v hv).1, fun z hz y hy ↦ ?_⟩) c hc
      exact Nat.le_trans ((hopen v hv).2 y hy) (hx z hz)

end OpenWindow

end Outbound
