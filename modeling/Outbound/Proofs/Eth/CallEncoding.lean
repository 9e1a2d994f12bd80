import Outbound.Eth.CallParams
import Outbound.Proofs.Eth.BlockTags
import Outbound.Proofs.Eth.Quantities
import Outbound.Proofs.Json.Members

/-!
# Call parameters lose nothing

The readers of a node's replies read the parts of call parameters as what they were made of, and
what was left out can only have been what its absence stands for.
-/

namespace Outbound.Eth

open Hex

/-! ## Parts -/

theorem decodeBytes_data (bytes : List UInt8) : decodeBytes (.str (data bytes)) = .ok bytes := by
  simp only [decodeBytes, shapedBytes, data, toList_marked, stripMark, decode?_encode]

theorem isQuantity_quantity (n : Nat) : IsQuantity (quantity n) n :=
  ⟨digits n, rfl, numeral_digits n⟩

theorem decodeWide_quantity (w : U256) : decodeWide (.str (quantity w.toNat)) = .ok w.toNat :=
  (decode_of_isQuantity (isQuantity_quantity _)).2.2 w.isLt

theorem decodeQuantity_quantity (n : UInt64) :
    decodeQuantity (.str (quantity n.toNat)) = .ok n.toNat :=
  (decode_of_isQuantity (isQuantity_quantity _)).1.2 n.toNat_lt

theorem vector?_toList {length : Nat} (bytes : Vector UInt8 length) :
    vector? length bytes.toList = some bytes := by
  obtain ⟨bytes, rfl⟩ := bytes
  simp [vector?]

theorem readBytes?_data (bytes : List UInt8) : readBytes? (.str (data bytes)) = some bytes := by
  rw [readBytes?, decodeBytes_data]
  rfl

theorem readAddress?_addressText (a : Address) :
    readAddress? (.str (addressText a)) = some a := by
  rw [readAddress?, addressText, readBytes?_data]
  exact vector?_toList a

theorem readU256?_quantity (w : U256) : readU256? (.str (quantity w.toNat)) = some w := by
  rw [readU256?, decodeWide_quantity]
  simp [Except.toOption]

theorem readGas?_quantity (n : UInt64) : readGas? (.str (quantity n.toNat)) = some n := by
  rw [readGas?, decodeQuantity_quantity]
  exact congrArg some UInt64.ofNat_toNat

/-! ## Members -/

theorem lookup_optional {α : Type} (o : Option α) (f : α → Json) (k key : String) :
    (o.toList.map fun a ↦ (k, f a)).reverse.lookup key = if key = k then o.map f else none := by
  cases o <;> simp [lookup_cons_eq_ite]

theorem lookup_unless (p : Prop) [Decidable p] (k key : String) (v : Json) :
    (if p then [] else [(k, v)]).reverse.lookup key =
      if key = k then (if p then none else some v) else none := by
  by_cases h : p <;> simp [h, lookup_cons_eq_ite]

namespace CallMsg

/-- The members of a message are its parts that are set; gas is if it is not zero, and data if there
are any. -/
theorem get?_arg (m : CallMsg) :
    m.arg.get? "from" = m.sender.map (fun a ↦ .str (addressText a)) ∧
    m.arg.get? "to" = m.target.map (fun a ↦ .str (addressText a)) ∧
    m.arg.get? "data" =
      (if m.data = [] then none else some m.data).map (fun bytes ↦ .str (Hex.data bytes)) ∧
    m.arg.get? "value" = m.value.map (fun w ↦ .str (quantity w.toNat)) ∧
    m.arg.get? "gas" =
      (if m.gas = 0 then none else some m.gas).map (fun n ↦ .str (quantity n.toNat)) ∧
    m.arg.get? "gasPrice" = m.gasPrice.map (fun w ↦ .str (quantity w.toNat)) := by
  simp only [arg, get?_ofMembers, members, List.reverse_append, List.lookup_append,
    lookup_optional, lookup_unless, List.isEmpty_iff, apply_ite (Option.map _)]
  simp

/-- A member that is a part of the message, where there is one, is read as this part. -/
theorem readMember?_of_get? {α : Type} {read : Json → Option α} {arg : Json} {key : String}
    {part : Option α} {write : α → Json} (hget : arg.get? key = part.map write)
    (hread : ∀ a, read (write a) = some a) : readMember? read arg key = some part := by
  rw [readMember?, hget]
  cases part with
  | none => rfl
  | some a => simp [hread]

theorem ofArg?_arg (m : CallMsg) : ofArg? m.arg = some m := by
  obtain ⟨hsender, htarget, hdata, hvalue, hgas, hgasPrice⟩ := get?_arg m
  have hempty : (if m.data = [] then none else some m.data).getD [] = m.data := by
    split <;> simp_all
  have hzero : (if m.gas = 0 then none else some m.gas).getD 0 = m.gas := by
    split <;> simp_all
  simp only [ofArg?, readMember?_of_get? hsender readAddress?_addressText,
    readMember?_of_get? htarget readAddress?_addressText,
    readMember?_of_get? hdata readBytes?_data, readMember?_of_get? hvalue readU256?_quantity,
    readMember?_of_get? hgas readGas?_quantity, readMember?_of_get? hgasPrice readU256?_quantity,
    bind, Option.bind, pure, hempty, hzero]

end CallMsg

namespace BlockRef

/-- A text that begins like a number is none of the tags. -/
theorem ofTag?_of_head? {text : String} {c : Char} (hhead : text.toList.head? = some c)
    (hc : c = '0' ∨ c = '-') : ofTag? text = ofNumber? text.toList := by
  have hne (tag : String) (htag : tag.toList.head? ≠ some '0' ∧ tag.toList.head? ≠ some '-') :
      text ≠ tag := by
    rintro rfl
    rcases hc with rfl | rfl
    · exact htag.1 hhead
    · exact htag.2 hhead
  simp only [ofTag?, if_neg (hne "latest" (by decide)), if_neg (hne "pending" (by decide)),
    if_neg (hne "finalized" (by decide)), if_neg (hne "safe" (by decide))]

theorem number?_digits (n : Nat) : number? (digits n) = some n :=
  number?_eq_some_iff.2 (numeral_digits n)

theorem ofTag?_quantity (n : Nat) : ofTag? (quantity n) = some (some (n : Int)) := by
  have hlist : (quantity n).toList = '0' :: 'x' :: digits n := toList_marked (digits n)
  rw [ofTag?_of_head? (congrArg List.head? hlist) (.inl rfl), hlist, ofNumber?, number?_digits]
  rfl

theorem ofTag?_minus_quantity (n : Nat) :
    ofTag? ("-" ++ quantity n) = some (some (-(n : Int))) := by
  have hlist : ("-" ++ quantity n).toList = '-' :: '0' :: 'x' :: digits n := by
    rw [String.toList_append, quantity, toList_marked]
    rfl
  rw [ofTag?_of_head? (congrArg List.head? hlist) (.inr rfl), hlist, ofNumber?, number?_digits]
  rfl

theorem ofTag?_tag (block : BlockRef) : ofTag? block.tag = some block := by
  cases block with
  | none => rfl
  | some n =>
    by_cases htagged : n = pending ∨ n = finalized ∨ n = safe
    · rcases htagged with rfl | rfl | rfl
      · rfl
      · rfl
      · rfl
    · rcases lt_or_ge n 0 with hneg | hnonneg
      · rw [tag_of_isUntagged ⟨hneg, by simpa only [not_or] using htagged⟩,
          ofTag?_minus_quantity]
        congr
        omega
      · obtain ⟨k, rfl⟩ := Int.eq_ofNat_of_zero_le hnonneg
        rw [tag_natCast]
        exact ofTag?_quantity k

end BlockRef

/-! ## Parameters -/

theorem readCallParams?_callParams (m : CallMsg) (block : BlockRef) :
    readCallParams? (callParams m block) = some (m, block) := by
  simp only [callParams, readCallParams?, CallMsg.ofArg?_arg, BlockRef.ofTag?_tag, bind,
    Option.bind, pure]

/-- The parameters of a contract call tell its message and its block, and so they are equal for no
two calls. Bytes, wide numbers and gas are read from them as they were. -/
theorem call_params_lose_nothing :
    (∀ msg block, readCallParams? (callParams msg block) = some (msg, block)) ∧
    (∀ msg block msg' block',
      callParams msg block = callParams msg' block' ↔ msg = msg' ∧ block = block') ∧
    (∀ bytes, decodeBytes (.str ("0x" ++ String.ofList (encode bytes))) = .ok bytes) ∧
    ∀ msg : CallMsg,
      (msg.arg.get? "data").map decodeBytes =
        (if msg.data = [] then none else some (.ok msg.data)) ∧
      (msg.arg.get? "value").map decodeWide = msg.value.map (fun w ↦ .ok w.toNat) ∧
      (msg.arg.get? "gasPrice").map decodeWide = msg.gasPrice.map (fun w ↦ .ok w.toNat) ∧
      (msg.arg.get? "gas").map decodeQuantity =
        (if msg.gas = 0 then none else some (.ok msg.gas.toNat)) := by
  refine ⟨readCallParams?_callParams, fun msg block msg' block' ↦ ⟨fun heq ↦ ?_, ?_⟩,
    decodeBytes_data, fun msg ↦ ?_⟩
  · have hread := congrArg readCallParams? heq
    rw [readCallParams?_callParams, readCallParams?_callParams] at hread
    exact Prod.mk.inj (Option.some.inj hread)
  · rintro ⟨rfl, rfl⟩
    rfl
  · obtain ⟨-, -, hdata, hvalue, hgas, hgasPrice⟩ := msg.get?_arg
    refine ⟨?_, ?_, ?_, ?_⟩
    · rw [hdata]
      split
      · rfl
      · exact congrArg some (decodeBytes_data msg.data)
    · rw [hvalue, Option.map_map]
      exact congrArg (msg.value.map ·) (funext decodeWide_quantity)
    · rw [hgasPrice, Option.map_map]
      exact congrArg (msg.gasPrice.map ·) (funext decodeWide_quantity)
    · rw [hgas]
      split
      · rfl
      · exact congrArg some (decodeQuantity_quantity msg.gas)

end Outbound.Eth
