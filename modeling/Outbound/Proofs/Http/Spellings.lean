import Outbound.Http.Header
import Outbound.Proofs.Lookup

/-!
# Names in several spellings

Configured names are read before fields are set, and two names can be read alike. The value set last
stays, so that the value under each of the spellings is the one that stays in some order, and it
stays in every order only if there is no other.
-/

namespace Outbound.Headers

variable {read? : String → Option String} {headers order : List (String × String)}
  {key value : String}

/-- The fields under their names as these are read. Those whose name is none are left out. -/
def spelled (read? : String → Option String) (headers : List (String × String)) : Headers :=
  headers.filterMap fun h ↦ (read? h.1).map (·, h.2)

/-- The value is configured under a spelling of that name. -/
def Spells (read? : String → Option String) (headers : List (String × String))
    (key value : String) : Prop :=
  ∃ name, (name, value) ∈ headers ∧ read? name = some key

/-- The value under the last spelling of a name. -/
def last? (read? : String → Option String) (headers : List (String × String)) (key : String) :
    Option String :=
  (spelled read? headers).reverse.lookup key

theorem get?_insert (headers : Headers) (name value other : String) :
    (headers.insert name value).get? other =
      if other = name then some value else headers.get? other := by
  split
  · rename_i heq
    subst heq
    exact get?_insert_self headers other value
  · rename_i hne
    exact get?_insert_of_ne headers value hne

theorem get?_extend_spelled (base : Headers) :
    (base.extend (spelled read? headers)).get? key =
      (last? read? headers key).or (base.get? key) :=
  lookup_foldl (fun k v hs ↦ get?_insert hs k v key) (spelled read? headers) base

theorem mem_spelled : (key, value) ∈ spelled read? headers ↔ Spells read? headers key value := by
  rw [spelled, List.mem_filterMap]
  constructor
  · rintro ⟨⟨name, v⟩, hmem, heq⟩
    obtain ⟨k, hread, hpair⟩ := Option.map_eq_some_iff.1 heq
    cases hpair
    exact ⟨name, hmem, hread⟩
  · rintro ⟨name, hmem, hread⟩
    exact ⟨(name, value), hmem, Option.map_eq_some_iff.2 ⟨key, hread, rfl⟩⟩

theorem spells_perm (hperm : order.Perm headers) :
    Spells read? order key value ↔ Spells read? headers key value := by
  constructor
  · rintro ⟨name, hmem, hread⟩
    exact ⟨name, hperm.mem_iff.1 hmem, hread⟩
  · rintro ⟨name, hmem, hread⟩
    exact ⟨name, hperm.mem_iff.2 hmem, hread⟩

theorem spells_of_last? (h : last? read? headers key = some value) :
    Spells read? headers key value := by
  obtain ⟨later, earlier, hsplit, -⟩ := List.lookup_eq_some_iff.1 h
  apply mem_spelled.1
  apply List.mem_reverse.1
  rw [hsplit]
  exact List.mem_append_right _ List.mem_cons_self

theorem exists_last? (h : Spells read? headers key value) :
    ∃ value', last? read? headers key = some value' := by
  apply Option.ne_none_iff_exists'.1
  intro hnone
  have hne := List.lookup_eq_none_iff.1 hnone _ (List.mem_reverse.2 (mem_spelled.2 h))
  simp at hne

/-! ## Orders -/

/-- The value under any of the spellings comes last in some order. -/
theorem exists_order_iff :
    (∃ order, order.Perm headers ∧ last? read? order key = some value) ↔
      Spells read? headers key value := by
  constructor
  · rintro ⟨order, hperm, hlast⟩
    exact (spells_perm hperm).1 (spells_of_last? hlast)
  · rintro ⟨name, hmem, hread⟩
    refine ⟨headers.erase (name, value) ++ [(name, value)], ?_, ?_⟩
    · exact (List.perm_append_singleton _ _).trans (List.perm_cons_erase hmem).symm
    · have hend : spelled read? [(name, value)] = [(key, value)] := by simp [spelled, hread]
      rw [last?, spelled, List.filterMap_append, ← spelled, ← spelled, hend, List.reverse_append]
      simp

theorem forall_order_iff :
    (∀ order, order.Perm headers → last? read? order key = some value) ↔
      Spells read? headers key value ∧
        ∀ value', Spells read? headers key value' → value' = value := by
  constructor
  · intro h
    refine ⟨exists_order_iff.1 ⟨headers, .refl _, h headers (.refl _)⟩, fun value' hspells ↦ ?_⟩
    obtain ⟨order, hperm, hlast⟩ := exists_order_iff.2 hspells
    rw [h order hperm] at hlast
    exact (Option.some.inj hlast).symm
  · rintro ⟨hspells, honly⟩ order hperm
    obtain ⟨value', hlast⟩ := exists_last? ((spells_perm hperm).2 hspells)
    rw [hlast, honly value' ((spells_perm hperm).1 (spells_of_last? hlast))]

end Outbound.Headers
