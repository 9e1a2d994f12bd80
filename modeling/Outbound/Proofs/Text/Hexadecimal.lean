import Mathlib
import Outbound.Text.Numeral

/-!
# Hexadecimal text reads as what it writes

Digits have one value, numerals one number, and pairs of digits one byte. The digits written for a
number are its plain numeral.
-/

namespace Outbound.Hex

variable {c : Char} {cs ds : List Char} {d m n : Nat}

/-! ## Digits -/

theorem IsDigit.lt (h : IsDigit c d) : d < 16 := by
  rcases h with h | h <;> exact (List.getElem?_eq_some_iff.1 h).1

theorem value?_of_isDigit (h : IsDigit c d) : value? c = some d := by
  have hd := h.lt
  rcases h with h | h <;> interval_cases d <;> cases h <;> rfl

theorem toNat_lt_of_value? (h : value? c = some d) : c.toNat < 103 := by
  have hle {c' : Char} (hc : c ≤ c') : c.toNat ≤ c'.toNat := hc
  unfold value? at h
  split at h
  · rename_i hrange
    exact Nat.lt_of_le_of_lt (hle hrange.2) (by decide)
  · split at h
    · rename_i hrange
      exact Nat.lt_of_le_of_lt (hle hrange.2) (by decide)
    · split at h
      · rename_i hrange
        exact Nat.lt_of_le_of_lt (hle hrange.2) (by decide)
      · cases h

theorem isDigit_of_value? (h : value? c = some d) : IsDigit c d := by
  have hall : ∀ k < 103, ∀ d ∈ value? (Char.ofNat k),
      lowerDigits[d]? = some (Char.ofNat k) ∨ upperDigits[d]? = some (Char.ofNat k) := by decide
  have hc := hall c.toNat (toNat_lt_of_value? h)
  rw [Char.ofNat_toNat] at hc
  exact hc d h

/-- The characters that have a value are the digits. -/
theorem value?_eq_some_iff : value? c = some d ↔ IsDigit c d :=
  ⟨isDigit_of_value?, value?_of_isDigit⟩

theorem lowerDigits_getElem? (h : d < 16) : lowerDigits[d]? = some (digit d) := by
  interval_cases d <;> rfl

theorem isDigit_digit (h : d < 16) : IsDigit (digit d) d :=
  .inl (lowerDigits_getElem? h)

@[simp]
theorem value?_digit (h : d < 16) : value? (digit d) = some d :=
  value?_eq_some_iff.2 (isDigit_digit h)

/-! ## Numerals -/

theorem numberFrom?_append (n : Nat) (cs ds : List Char) :
    numberFrom? n (cs ++ ds) = (numberFrom? n cs).bind fun m ↦ numberFrom? m ds := by
  induction cs generalizing n with
  | nil => rfl
  | cons c cs ih =>
    simp only [List.cons_append, numberFrom?, ih, Option.bind_assoc]

theorem numberFrom?_concat (n : Nat) (cs : List Char) (c : Char) :
    numberFrom? n (cs ++ [c]) =
      (numberFrom? n cs).bind fun m ↦ (value? c).map fun d ↦ m * 16 + d := by
  rw [numberFrom?_append]
  congr 1
  funext m
  cases hc : value? c <;> simp [numberFrom?, hc]

theorem le_of_numberFrom? (h : numberFrom? n cs = some m) : n ≤ m := by
  induction cs generalizing n with
  | nil => exact Nat.le_of_eq (Option.some.inj h)
  | cons c cs ih =>
    obtain ⟨d, -, hrest⟩ := Option.bind_eq_some_iff.1 h
    have hle := ih hrest
    omega

theorem Numeral.ne_nil (h : Numeral cs n) : cs ≠ [] := by
  cases h <;> simp

theorem Numeral.numberFrom? (h : Numeral cs n) : numberFrom? 0 cs = some n := by
  induction h with
  | digit hd => simp [Hex.numberFrom?, value?_eq_some_iff.2 hd]
  | snoc _ hd ih => simp [numberFrom?_concat, ih, value?_eq_some_iff.2 hd]

theorem numeral_of_numberFrom? (hne : cs ≠ []) (h : numberFrom? 0 cs = some n) :
    Numeral cs n := by
  induction cs using List.reverseRecOn generalizing n with
  | nil => exact absurd rfl hne
  | append_singleton cs c ih =>
    rw [numberFrom?_concat] at h
    obtain ⟨m, hm, h⟩ := Option.bind_eq_some_iff.1 h
    obtain ⟨d, hd, rfl⟩ := Option.map_eq_some_iff.1 h
    rcases eq_or_ne cs [] with rfl | hcs
    · cases hm
      rw [Nat.zero_mul, Nat.zero_add]
      exact .digit (value?_eq_some_iff.1 hd)
    · exact .snoc (ih hcs hm) (value?_eq_some_iff.1 hd)

theorem numberFrom?_eq_some_iff :
    numberFrom? 0 cs = some n ↔ Numeral cs n ∨ (cs = [] ∧ n = 0) := by
  rcases eq_or_ne cs [] with rfl | hne
  · simp only [numberFrom?, Option.some.injEq, true_and]
    exact ⟨fun h ↦ .inr h.symm, fun h ↦ (h.resolve_left fun h ↦ h.ne_nil rfl).symm⟩
  · rw [or_iff_left fun h ↦ hne h.1]
    exact ⟨numeral_of_numberFrom? hne, Numeral.numberFrom?⟩

/-- Reading finds the number of a numeral and of nothing else. -/
theorem number?_eq_some_iff : number? cs = some n ↔ Numeral cs n := by
  cases cs with
  | nil =>
    constructor
    · intro h
      cases h
    · intro h
      exact absurd rfl h.ne_nil
  | cons c cs => exact ⟨numeral_of_numberFrom? (List.cons_ne_nil c cs), Numeral.numberFrom?⟩

theorem Numeral.isDigit_of_mem (h : Numeral cs n) (hc : c ∈ cs) : ∃ d, IsDigit c d := by
  induction h with
  | digit hd =>
    rw [List.mem_singleton.1 hc]
    exact ⟨_, hd⟩
  | snoc _ hd ih =>
    rcases List.mem_append.1 hc with hc | hc
    · exact ih hc
    · rw [List.mem_singleton.1 hc]
      exact ⟨_, hd⟩

/-- A character that is no digit is in no numeral. -/
theorem Numeral.not_mem (h : Numeral cs n) (hc : value? c = none) : c ∉ cs := by
  intro hmem
  obtain ⟨d, hd⟩ := h.isDigit_of_mem hmem
  rw [value?_eq_some_iff.2 hd] at hc
  cases hc

/-! ## The digits of a number -/

theorem numeral_digits (n : Nat) : Numeral (digits n) n := by
  induction n using digits.induct with
  | case1 n hlt =>
    rw [digits, if_pos hlt]
    exact .digit (isDigit_digit hlt)
  | case2 n hge ih =>
    rw [digits, if_neg hge]
    have hsnoc := Numeral.snoc ih (isDigit_digit (Nat.mod_lt n (by decide : 0 < 16)))
    rwa [Nat.div_add_mod'] at hsnoc

theorem mem_lowerDigits_of_mem_digits (h : c ∈ digits n) : c ∈ lowerDigits := by
  induction n using digits.induct with
  | case1 n hlt =>
    rw [digits, if_pos hlt] at h
    rw [List.mem_singleton.1 h]
    exact List.mem_of_getElem? (lowerDigits_getElem? hlt)
  | case2 n hge ih =>
    rw [digits, if_neg hge] at h
    rcases List.mem_append.1 h with h | h
    · exact ih h
    · rw [List.mem_singleton.1 h]
      exact List.mem_of_getElem? (lowerDigits_getElem? (Nat.mod_lt n (by decide)))

/-- The first digit is zero for no number but zero. -/
theorem eq_zero_of_head?_digits (h : (digits n).head? = some '0') : n = 0 := by
  induction n using digits.induct with
  | case1 n hlt =>
    rw [digits, if_pos hlt] at h
    interval_cases n <;> first | rfl | cases h
  | case2 n hge ih =>
    rw [digits, if_neg hge, List.head?_append_of_ne_nil _ (numeral_digits (n / 16)).ne_nil] at h
    have hzero := ih h
    omega

theorem plainNumeral_digits (n : Nat) : PlainNumeral (digits n) n where
  numeral := numeral_digits n
  lower _ hc := mem_lowerDigits_of_mem_digits hc
  unpadded h := by
    rw [eq_zero_of_head?_digits h, digits]
    rfl

/-! ## Bytes -/

theorem decode?_encode (bytes : List UInt8) : decode? (encode bytes) = some bytes := by
  induction bytes with
  | nil => rfl
  | cons b bytes ih =>
    have hb : b.toNat < 256 := b.toNat_lt
    simp only [encode, decode?, value?_digit (show b.toNat / 16 < 16 by omega),
      value?_digit (show b.toNat % 16 < 16 by omega), ih, bind, Option.bind, pure,
      Nat.div_add_mod', UInt8.ofNat_toNat]

/-! ## Texts after a mark -/

theorem toList_marked (cs : List Char) :
    ("0x" ++ String.ofList cs).toList = '0' :: 'x' :: cs := by
  simp

theorem marked_injective (h : "0x" ++ String.ofList cs = "0x" ++ String.ofList ds) : cs = ds := by
  have hlist := congrArg String.toList h
  rw [toList_marked, toList_marked] at hlist
  exact (List.cons.inj (List.cons.inj hlist).2).2

/-- A text that begins with the mark. -/
theorem eq_marked {text : String} (h : text.toList = '0' :: 'x' :: cs) :
    text = "0x" ++ String.ofList cs :=
  String.toList_inj.1 (h.trans (toList_marked cs).symm)

end Outbound.Hex
