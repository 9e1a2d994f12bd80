import Outbound.Eth.Reply
import Outbound.Proofs.Text.Hexadecimal

/-!
# Which quantities are read

Both readers take every numeral after `0x` whose number they have room for. Beyond that, the reader
of 64 bits takes a plus sign in front of the digits, and the reader of 256 bits takes underscores
anywhere among them, even without a digit.
-/

namespace Outbound

theorem fitsUnsigned_natCast (n : Nat) : fitsUnsigned n = true ↔ n < 2 ^ 64 := by
  simp only [fitsUnsigned, Bool.and_eq_true, decide_eq_true_eq]
  omega

namespace Eth

open Hex

variable {cs : List Char} {v : Json} {m n weight : Nat}

/-! ## Digits -/

theorem readWord_eq_ok_iff (hn : n < 2 ^ 64) :
    readWord n cs = .ok m ↔ numberFrom? n cs = some m ∧ m < 2 ^ 64 := by
  induction cs generalizing n with
  | nil =>
    simp only [readWord, numberFrom?, Except.ok.injEq, Option.some.injEq]
    exact ⟨fun h ↦ ⟨h, h ▸ hn⟩, fun h ↦ h.1⟩
  | cons c cs ih =>
    cases hc : value? c with
    | none => simp [readWord, numberFrom?, hc]
    | some d =>
      simp only [readWord, numberFrom?, hc, Option.bind_some]
      have hfits : fitsUnsigned (n * 16 + d) = true ↔ n * 16 + d < 2 ^ 64 := by
        exact_mod_cast fitsUnsigned_natCast (n * 16 + d)
      by_cases hlt : n * 16 + d < 2 ^ 64
      · rw [if_pos (hfits.2 hlt)]
        exact ih hlt
      · rw [if_neg fun h ↦ hlt (hfits.1 h)]
        -- Digits that follow can only make the number greater.
        simp only [reduceCtorEq, false_iff]
        rintro ⟨hm, hbound⟩
        exact hlt (Nat.lt_of_le_of_lt (le_of_numberFrom? hm) hbound)

/-- What is read from the right is what the digits write from the left. -/
theorem readWide_eq_ok_iff (hn : n < 2 ^ 256) :
    readWide n weight cs = .ok m ↔
      m < 2 ^ 256 ∧ ∃ k, numberFrom? 0 (cs.filter (· ≠ '_')).reverse = some k ∧
        m = n + k * weight := by
  induction cs generalizing n weight with
  | nil =>
    simp only [readWide, Except.ok.injEq]
    constructor
    · rintro rfl
      exact ⟨hn, 0, rfl, by rw [Nat.zero_mul, Nat.add_zero]⟩
    · rintro ⟨-, k, hk, rfl⟩
      cases hk
      rw [Nat.zero_mul, Nat.add_zero]
  | cons c cs ih =>
    by_cases hunderscore : c = '_'
    · rw [readWide, if_pos hunderscore, ih hn, List.filter_cons_of_neg (by simpa using hunderscore)]
    · rw [readWide, if_neg hunderscore, List.filter_cons_of_pos (by simpa using hunderscore),
        List.reverse_cons, numberFrom?_concat]
      cases hc : value? c with
      | none => simp
      | some d =>
        have hplace (k : Nat) : n + (k * 16 + d) * weight = n + d * weight + k * (weight * 16) := by
          ring
        simp only [Option.map_some, Option.bind_eq_some_iff, Option.some.injEq]
        by_cases hlt : n + d * weight < 2 ^ 256
        · have hstep : n + d * weight < Nat.pow 2 256 := hlt
          rw [if_pos hstep, ih hlt]
          constructor
          · rintro ⟨hm, k, hk, rfl⟩
            exact ⟨hm, _, ⟨k, hk, rfl⟩, (hplace k).symm⟩
          · rintro ⟨hm, _, ⟨k, hk, rfl⟩, rfl⟩
            exact ⟨hm, k, hk, hplace k⟩
        · have hstep : ¬n + d * weight < Nat.pow 2 256 := hlt
          rw [if_neg hstep]
          simp only [reduceCtorEq, false_iff]
          rintro ⟨hm, _, ⟨k, -, rfl⟩, rfl⟩
          rw [hplace] at hm
          exact hlt (Nat.lt_of_le_of_lt (Nat.le_add_right _ _) hm)

/-! ## Values -/

theorem quantityDigits_eq_ok_iff :
    quantityDigits v = .ok cs ↔ cs ≠ [] ∧ v = .str ("0x" ++ String.ofList cs) := by
  constructor
  · intro h
    cases v with
    | str s =>
      simp only [quantityDigits] at h
      split at h
      · rename_i c rest hs
        cases h
        exact ⟨List.cons_ne_nil c rest, congrArg Json.str (eq_marked hs)⟩
      · cases h
    | _ => cases h
  · rintro ⟨hne, rfl⟩
    obtain ⟨c, rest, rfl⟩ := List.exists_cons_of_ne_nil hne
    simp only [quantityDigits, toList_marked]

theorem dropPlus_ne_nil (hne : cs ≠ []) : dropPlus cs ≠ [] := by
  unfold dropPlus
  split
  · exact List.cons_ne_nil _ _
  · exact hne

theorem numeral_dropPlus_iff :
    Numeral (dropPlus cs) n ↔ Numeral cs n ∨ ∃ ds, cs = '+' :: ds ∧ Numeral ds n := by
  unfold dropPlus
  split
  · rename_i c rest
    constructor
    · intro h
      exact .inr ⟨_, rfl, h⟩
    · rintro (h | ⟨ds, heq, h⟩)
      · exact absurd List.mem_cons_self (h.not_mem (by decide))
      · cases heq
        exact h
  · rename_i hshape
    constructor
    · exact .inl
    · rintro (h | ⟨ds, rfl, h⟩)
      · exact h
      · obtain ⟨c, rest, rfl⟩ := List.exists_cons_of_ne_nil h.ne_nil
        exact absurd rfl (hshape c rest)

theorem report_eq_ok_iff {α : Type} {x : Except QuantityFault α} {a : α} :
    report v x = .ok a ↔ x = .ok a := by
  cases x <;> simp [report]

theorem exists_decode_of_report {α : Type} {x : Except QuantityFault α} {e : Error}
    (h : report v x = .error e) : ∃ text, e = .decode text := by
  cases x with
  | ok a => cases h
  | error fault =>
    cases h
    exact ⟨_, rfl⟩

theorem decodeQuantity_eq_ok_iff :
    decodeQuantity v = .ok n ↔ n < 2 ^ 64 ∧ ∃ cs, v = .str ("0x" ++ String.ofList cs) ∧
      (Numeral cs n ∨ ∃ ds, cs = '+' :: ds ∧ Numeral ds n) := by
  have hparts : decodeQuantity v = .ok n ↔
      ∃ cs, quantityDigits v = .ok cs ∧ readWord 0 (dropPlus cs) = .ok n := by
    rw [decodeQuantity, report_eq_ok_iff]
    cases quantityDigits v <;> simp [bind, Except.bind]
  simp only [hparts, quantityDigits_eq_ok_iff, readWord_eq_ok_iff (show 0 < 2 ^ 64 by decide)]
  constructor
  · rintro ⟨cs, ⟨hne, hv⟩, hread, hn⟩
    exact ⟨hn, cs, hv, numeral_dropPlus_iff.1 (numeral_of_numberFrom? (dropPlus_ne_nil hne) hread)⟩
  · rintro ⟨hn, cs, hv, hcs⟩
    have hne : cs ≠ [] := by
      rcases hcs with h | ⟨ds, rfl, -⟩
      · exact h.ne_nil
      · exact List.cons_ne_nil _ _
    exact ⟨cs, ⟨hne, hv⟩, (numeral_dropPlus_iff.2 hcs).numberFrom?, hn⟩

theorem decodeWide_eq_ok_iff :
    decodeWide v = .ok n ↔ n < 2 ^ 256 ∧ ∃ cs, v = .str ("0x" ++ String.ofList cs) ∧ cs ≠ [] ∧
      (Numeral (cs.filter (· ≠ '_')) n ∨ (cs.filter (· ≠ '_') = [] ∧ n = 0)) := by
  have hparts : decodeWide v = .ok n ↔
      ∃ cs, quantityDigits v = .ok cs ∧ readWide 0 1 cs.reverse = .ok n := by
    rw [decodeWide, report_eq_ok_iff]
    cases quantityDigits v <;> simp [bind, Except.bind]
  simp only [hparts, quantityDigits_eq_ok_iff, readWide_eq_ok_iff (show 0 < 2 ^ 256 by decide),
    List.filter_reverse, List.reverse_reverse, Nat.zero_add, Nat.mul_one,
    numberFrom?_eq_some_iff]
  constructor
  · rintro ⟨cs, ⟨hne, hv⟩, hn, n, hread, rfl⟩
    exact ⟨hn, cs, hv, hne, hread⟩
  · rintro ⟨hn, cs, hv, hne, hread⟩
    exact ⟨cs, ⟨hne, hv⟩, hn, n, hread, rfl⟩

/-- Without sign and underscores the two readers differ in nothing but the room they have. -/
theorem decode_of_isQuantity {text : String} (h : IsQuantity text n) :
    (decodeQuantity (.str text) = .ok n ↔ n < 2 ^ 64) ∧
      (decodeWide (.str text) = .ok n ↔ n < 2 ^ 256) := by
  obtain ⟨cs, rfl, hcs⟩ := h
  have hfilter : cs.filter (· ≠ '_') = cs := by
    refine List.filter_eq_self.2 fun c hc ↦ ?_
    have hne : c ≠ '_' := by
      rintro rfl
      exact hcs.not_mem (by decide) hc
    simpa using hne
  rw [decodeQuantity_eq_ok_iff, decodeWide_eq_ok_iff]
  refine ⟨and_iff_left ⟨cs, rfl, .inl hcs⟩, and_iff_left ⟨cs, rfl, hcs.ne_nil, .inl ?_⟩⟩
  rw [hfilter]
  exact hcs

/-- What both read is a quantity. -/
theorem isQuantity_of_decode (hm : decodeQuantity v = .ok m) (hn : decodeWide v = .ok n) :
    ∃ text, v = .str text ∧ IsQuantity text m := by
  obtain ⟨-, cs, rfl, hcs | ⟨ds, rfl, hds⟩⟩ := decodeQuantity_eq_ok_iff.1 hm
  · exact ⟨_, rfl, cs, rfl, hcs⟩
  · obtain ⟨-, cs, hv, -, hwide⟩ := decodeWide_eq_ok_iff.1 hn
    cases marked_injective (Json.str.inj hv)
    -- The sign is no underscore, and so it would have to be a digit.
    rw [List.filter_cons_of_pos (by decide)] at hwide
    rcases hwide with h | ⟨h, -⟩
    · exact absurd List.mem_cons_self (h.not_mem (by decide))
    · exact absurd h (List.cons_ne_nil _ _)

/-! ## What is read -/

/-- A number of 64 bits is read from a numeral after `0x`, with or without a plus sign between them,
a number of 256 bits from characters after `0x` that without the underscores are a numeral or
nothing. On quantities both readers agree as far as they have room, whatever both read is a
quantity, and all else is a decoding error. -/
theorem quantities_read_with_sign_or_underscores (v : Json) :
    (∀ n, decodeQuantity v = .ok n ↔
      n < 2 ^ 64 ∧ ∃ cs, v = .str ("0x" ++ String.ofList cs) ∧
        (Numeral cs n ∨ ∃ ds, cs = '+' :: ds ∧ Numeral ds n)) ∧
    (∀ n, decodeWide v = .ok n ↔
      n < 2 ^ 256 ∧ ∃ cs, v = .str ("0x" ++ String.ofList cs) ∧ cs ≠ [] ∧
        (Numeral (cs.filter (· ≠ '_')) n ∨ (cs.filter (· ≠ '_') = [] ∧ n = 0))) ∧
    (∀ text n, v = .str text → IsQuantity text n →
      (decodeQuantity v = .ok n ↔ n < 2 ^ 64) ∧ (decodeWide v = .ok n ↔ n < 2 ^ 256)) ∧
    (∀ m n, decodeQuantity v = .ok m → decodeWide v = .ok n →
      m = n ∧ ∃ text, v = .str text ∧ IsQuantity text n) ∧
    ∀ e, decodeQuantity v = .error e ∨ decodeWide v = .error e → ∃ text, e = .decode text := by
  refine ⟨fun n ↦ decodeQuantity_eq_ok_iff, fun n ↦ decodeWide_eq_ok_iff, ?_,
    fun m n hm hn ↦ ?_, fun e he ↦ ?_⟩
  · rintro text n rfl h
    exact decode_of_isQuantity h
  · obtain ⟨text, rfl, h⟩ := isQuantity_of_decode hm hn
    have hwide : decodeWide (.str text) = .ok m :=
      (decode_of_isQuantity h).2.2 (Nat.lt_trans (decodeQuantity_eq_ok_iff.1 hm).1 (by decide))
    cases Except.ok.inj (hwide.symm.trans hn)
    exact ⟨rfl, text, rfl, h⟩
  · rcases he with he | he
    · exact exists_decode_of_report he
    · exact exists_decode_of_report he

/-- Leading zeros and digits of both cases are read. -/
theorem padded_mixed_case_quantity_read :
    IsQuantity "0x0Ff" 255 ∧ decodeQuantity (.str "0x0Ff") = .ok 255 ∧
      decodeWide (.str "0x0Ff") = .ok 255 := by
  have h : IsQuantity "0x0Ff" 255 := ⟨['0', 'F', 'f'], rfl, number?_eq_some_iff.1 (by decide)⟩
  obtain ⟨-, -, hread, -, -⟩ := quantities_read_with_sign_or_underscores (.str "0x0Ff")
  obtain ⟨hword, hwide⟩ := hread _ _ rfl h
  exact ⟨h, hword.2 (by decide), hwide.2 (by decide)⟩

/-- A sign makes a number of 64 bits out of what is no quantity, an underscore one of 256 bits, and
each of them keeps the other reader from agreeing. -/
theorem sign_and_underscore_read_as_digits :
    (¬∀ v n, decodeQuantity v = .ok n ↔ ∃ text, v = .str text ∧ IsQuantity text n ∧ n < 2 ^ 64) ∧
    (¬∀ v n, decodeWide v = .ok n ↔ ∃ text, v = .str text ∧ IsQuantity text n ∧ n < 2 ^ 256) ∧
    ¬∀ v n, n < 2 ^ 64 → (decodeQuantity v = .ok n ↔ decodeWide v = .ok n) := by
  have hword : decodeQuantity (.str "0x+5") = .ok 5 := by
    refine decodeQuantity_eq_ok_iff.2 ⟨by decide, ['+', '5'], rfl, .inr ⟨['5'], rfl, ?_⟩⟩
    exact number?_eq_some_iff.1 (by decide)
  have hwide : decodeWide (.str "0x1_0") = .ok 16 := by
    refine decodeWide_eq_ok_iff.2 ⟨by decide, ['1', '_', '0'], rfl, by decide, .inl ?_⟩
    exact number?_eq_some_iff.1 (by decide)
  have hsign {n : Nat} : ¬IsQuantity "0x+5" n := by
    rintro ⟨cs, heq, hcs⟩
    have hmarked : "0x+5" = "0x" ++ String.ofList ['+', '5'] := rfl
    cases marked_injective (hmarked.symm.trans heq)
    exact hcs.not_mem (by decide) List.mem_cons_self
  have hunderscore {n : Nat} : ¬IsQuantity "0x1_0" n := by
    rintro ⟨cs, heq, hcs⟩
    have hmarked : "0x1_0" = "0x" ++ String.ofList ['1', '_', '0'] := rfl
    cases marked_injective (hmarked.symm.trans heq)
    exact hcs.not_mem (c := '_') (by decide) (by decide)
  refine ⟨fun hclaim ↦ ?_, fun hclaim ↦ ?_, fun hclaim ↦ ?_⟩
  · obtain ⟨_, ⟨⟩, h, -⟩ := (hclaim _ 5).1 hword
    exact hsign h
  · obtain ⟨_, ⟨⟩, h, -⟩ := (hclaim _ 16).1 hwide
    exact hunderscore h
  · obtain ⟨_, ⟨⟩, h⟩ := isQuantity_of_decode hword ((hclaim _ 5 (by decide)).1 hword)
    exact hsign h

end Eth

end Outbound
