import Outbound.Json
import Outbound.Proofs.Lookup

/-!
# Members of objects

An object made of members has, under every key, the last of them with this key.
-/

namespace Outbound

theorem lookup_insertMember (key key' : String) (v : Json) (members : List (String × Json)) :
    (Json.insertMember key v members).lookup key' =
      if key' = key then some v else members.lookup key' := by
  induction members with
  | nil => exact lookup_cons_eq_ite
  | cons m rest ih =>
    obtain ⟨k, w⟩ := m
    simp only [Json.insertMember]
    split
    · exact lookup_cons_eq_ite
    · split
      · rename_i heq
        subst heq
        rw [lookup_cons_eq_ite, lookup_cons_eq_ite]
        split <;> rfl
      · rename_i hne
        rw [lookup_cons_eq_ite, lookup_cons_eq_ite, ih]
        by_cases hkey : key' = k
        · rw [if_pos hkey, if_neg fun heq ↦ hne (heq.symm.trans hkey), if_pos hkey]
        · rw [if_neg hkey, if_neg hkey]

theorem lookup_foldl_insertMember (key : String) (members sorted : List (String × Json)) :
    (members.foldl (fun sorted (k, v) ↦ Json.insertMember k v sorted) sorted).lookup key =
      (members.reverse.lookup key).or (sorted.lookup key) :=
  lookup_foldl (fun k v sorted ↦ lookup_insertMember k key v sorted) members sorted

theorem get?_ofMembers (members : List (String × Json)) (key : String) :
    (Json.ofMembers members).get? key = members.reverse.lookup key := by
  rw [Json.ofMembers, Json.get?, lookup_foldl_insertMember, List.lookup_nil, Option.or_none]

end Outbound
