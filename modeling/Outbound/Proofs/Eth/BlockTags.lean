import Outbound.Eth.CallParams
import Outbound.Proofs.Text.Hexadecimal

/-!
# What stands for a block

Tags and plain quantities stand for a block in a request. Every block reference is written as one
of them but for the negative numbers without a tag, which are written as a quantity with a minus
sign in front.
-/

namespace Outbound.Eth.BlockRef

open Hex

variable {text : String} {n : Int}

theorem isPlainQuantity_quantity (n : Nat) : IsPlainQuantity (quantity n) n :=
  ⟨digits n, rfl, plainNumeral_digits n⟩

theorem tag_natCast (n : Nat) : tag (some n) = quantity n := by
  have hpending : (n : Int) ≠ pending := by unfold pending; omega
  have hfinalized : (n : Int) ≠ finalized := by unfold finalized; omega
  have hsafe : (n : Int) ≠ safe := by unfold safe; omega
  simp only [tag, if_neg hpending, if_neg hfinalized, if_neg hsafe,
    if_neg (Int.not_lt.2 (Int.natCast_nonneg n)), Int.natAbs_natCast]

theorem tag_of_isUntagged (h : IsUntagged n) : tag (some n) = "-" ++ quantity n.natAbs := by
  obtain ⟨hneg, hpending, hfinalized, hsafe⟩ := h
  simp only [tag, if_neg hpending, if_neg hfinalized, if_neg hsafe, if_pos hneg]

/-- What begins with a minus sign can stand for no block. -/
theorem not_isParameter_of_minus (text : String) : ¬IsParameter ("-" ++ text) := by
  have hhead : ("-" ++ text).toList.head? = some '-' := by simp
  rintro (hmem | ⟨n, cs, heq, -⟩)
  · have htags : ∀ tag ∈ ["latest", "earliest", "pending", "finalized", "safe"],
        tag.toList.head? ≠ some '-' := by decide
    exact htags _ hmem hhead
  · rw [heq, toList_marked] at hhead
    exact absurd hhead (by simp)

theorem isParameter_tag_iff (block : BlockRef) :
    IsParameter block.tag ↔ ∀ n, block = some n → ¬IsUntagged n := by
  constructor
  · rintro h n rfl hn
    rw [tag_of_isUntagged hn] at h
    exact not_isParameter_of_minus _ h
  · intro h
    cases block with
    | none => exact .inl (by decide)
    | some n =>
      rcases lt_or_ge n 0 with hneg | hnonneg
      · have htagged : n = pending ∨ n = finalized ∨ n = safe := by
          by_contra hno
          simp only [not_or] at hno
          exact h n rfl ⟨hneg, hno⟩
        rcases htagged with rfl | rfl | rfl
        · exact .inl (by decide)
        · exact .inl (by decide)
        · exact .inl (by decide)
      · obtain ⟨k, rfl⟩ := Int.eq_ofNat_of_zero_le hnonneg
        rw [tag_natCast]
        exact .inr ⟨k, isPlainQuantity_quantity k⟩

/-- The latest block and three negative numbers are written as tags, all other numbers in lower case
without leading zeros after `0x`, and those of them that are negative with a minus sign before it.
With the sign, and only then, the text can stand for no block. -/
theorem untagged_negative_malformed (block : BlockRef) :
    (block = none → block.tag = "latest") ∧ (block = some (-1) → block.tag = "pending") ∧
    (block = some (-3) → block.tag = "finalized") ∧ (block = some (-4) → block.tag = "safe") ∧
    (∀ n : Nat, block = some (n : Int) → IsPlainQuantity block.tag n) ∧
    (∀ n : Int, block = some n → n < 0 → n ≠ -1 → n ≠ -3 → n ≠ -4 →
      ∃ text, block.tag = "-" ++ text ∧ IsPlainQuantity text n.natAbs) ∧
    (¬IsParameter block.tag ↔ ∃ n : Int, block = some n ∧ n < 0 ∧ n ≠ -1 ∧ n ≠ -3 ∧ n ≠ -4) := by
  refine ⟨?_, ?_, ?_, ?_, ?_, ?_, ?_⟩
  · rintro rfl
    rfl
  · rintro rfl
    rfl
  · rintro rfl
    rfl
  · rintro rfl
    rfl
  · rintro n rfl
    rw [tag_natCast]
    exact isPlainQuantity_quantity n
  · rintro n rfl hneg hpending hfinalized hsafe
    exact ⟨_, tag_of_isUntagged ⟨hneg, hpending, hfinalized, hsafe⟩,
      isPlainQuantity_quantity n.natAbs⟩
  · rw [isParameter_tag_iff]
    simp only [not_forall, not_not, exists_prop]
    rfl

/-- The number -2 has no tag, and what is written for it is no quantity. -/
theorem minus_two_malformed :
    tag (some (-2)) = "-0x2" ∧
    (¬∀ n : Int, n ≠ -1 → n ≠ -3 → n ≠ -4 → ∃ k, IsPlainQuantity (tag (some n)) k) ∧
    ¬∀ block : BlockRef, IsParameter block.tag := by
  have hmalformed : ¬IsParameter (tag (some (-2))) := fun h ↦
    (isParameter_tag_iff _).1 h (-2) rfl (by decide)
  refine ⟨?_, fun hclaim ↦ ?_, fun hclaim ↦ hmalformed (hclaim _)⟩
  · cbv
  · exact hmalformed (.inr (hclaim (-2) (by decide) (by decide) (by decide)))

end Outbound.Eth.BlockRef
