import Mathlib

/-!
# Look-up in lists that grow or change

An index keeps its element when a list grows. What is at an index afterwards was there before, or it
is new. What is under a key was written there last.
-/

namespace Outbound

variable {α β : Type} {l more : List α} {i k : Nat} {x y : α}

theorem getElem?_append_of_some (h : l[i]? = some x) (more : List α) :
    (l ++ more)[i]? = some x := by
  rw [List.getElem?_append_left (List.getElem?_eq_some_iff.1 h).1]
  exact h

theorem getElem?_append_cases (h : (l ++ more)[i]? = some x) : l[i]? = some x ∨ x ∈ more := by
  rcases Nat.lt_or_ge i l.length with hlt | hge
  · rw [List.getElem?_append_left hlt] at h
    exact .inl h
  · rw [List.getElem?_append_right hge] at h
    exact .inr (List.mem_of_getElem? h)

theorem getElem?_concat_cases (h : (l ++ [x])[i]? = some y) :
    (i = l.length ∧ y = x) ∨ l[i]? = some y := by
  rcases getElem?_append_cases h with hold | hnew
  · exact .inr hold
  · have hlt := (List.getElem?_eq_some_iff.1 h).1
    rw [List.length_append, List.length_singleton] at hlt
    rcases Nat.lt_or_eq_of_le (Nat.le_of_lt_succ hlt) with hi | hi
    · rw [List.getElem?_append_left hi] at h
      exact .inr h
    · exact .inl ⟨hi, List.mem_singleton.1 hnew⟩

theorem modify_concat (f : α → α) : (l ++ [x]).modify l.length f = l ++ [f x] := by
  apply List.ext_getElem?
  intro i
  rw [List.getElem?_modify]
  rcases Nat.lt_trichotomy i l.length with hlt | rfl | hlt
  · rw [List.getElem?_append_left hlt, List.getElem?_append_left hlt]
    simp [hlt.ne']
  · simp
  · rw [List.getElem?_eq_none (by simpa using hlt), List.getElem?_eq_none (by simpa using hlt)]
    rfl

theorem getElem?_set_cases (h : (l.set k x)[i]? = some y) :
    (i = k ∧ y = x) ∨ (i ≠ k ∧ l[i]? = some y) := by
  by_cases hik : i = k
  · subst hik
    have hlt : i < l.length := by simpa using (List.getElem?_eq_some_iff.1 h).1
    rw [List.getElem?_set_self hlt] at h
    exact .inl ⟨rfl, (Option.some.inj h).symm⟩
  · rw [List.getElem?_set_ne (Ne.symm hik)] at h
    exact .inr ⟨hik, h⟩

theorem mem_set_iff_of_ne (hk : l[k]? = some x) (hne : y ≠ x) (z : α) :
    y ∈ l.set k z ↔ y = z ∨ y ∈ l := by
  have hlt : k < l.length := (List.getElem?_eq_some_iff.1 hk).1
  constructor
  · intro hy
    exact (List.mem_or_eq_of_mem_set hy).symm
  · rintro (rfl | hy)
    · exact List.mem_set hlt y
    · obtain ⟨i, hi⟩ := List.mem_iff_getElem?.1 hy
      have hik : k ≠ i := by
        rintro rfl
        rw [hk] at hi
        exact hne (Option.some.inj hi).symm
      apply List.mem_iff_getElem?.2
      exact ⟨i, by rw [List.getElem?_set_ne hik, hi]⟩

theorem exists_mem_set_iff {p : α → Prop} {q : Prop} (hk : l[k]? = some x) (h : p y ↔ p x ∨ q) :
    (∃ z ∈ l.set k y, p z) ↔ (∃ z ∈ l, p z) ∨ q := by
  have hlt : k < l.length := (List.getElem?_eq_some_iff.1 hk).1
  constructor
  · rintro ⟨z, hz, hpz⟩
    rcases List.mem_or_eq_of_mem_set hz with hz | rfl
    · exact .inl ⟨z, hz, hpz⟩
    · exact (h.1 hpz).imp_left fun hpx ↦ ⟨x, List.mem_of_getElem? hk, hpx⟩
  · rintro (⟨z, hz, hpz⟩ | hq)
    · obtain ⟨i, hi⟩ := List.getElem?_of_mem hz
      by_cases hik : k = i
      · rw [← hik, hk] at hi
        cases hi
        exact ⟨y, List.mem_set hlt y, h.2 (.inl hpz)⟩
      · exact ⟨z, List.mem_of_getElem? ((List.getElem?_set_ne hik).trans hi), hpz⟩
    · exact ⟨y, List.mem_set hlt y, h.2 (.inr hq)⟩

/-- A function that does not tell the new element from the old one does not tell the lists apart. -/
theorem map_set_of_eq {f : α → β} (hk : l[k]? = some x) (h : f y = f x) :
    (l.set k y).map f = l.map f := by
  rw [List.map_set, h]
  obtain ⟨hlt, rfl⟩ := List.getElem?_eq_some_iff.1 hk
  apply List.ext_getElem?
  intro i
  rw [List.getElem?_set]
  split
  · rename_i heq
    subst heq
    simp [hlt]
  · rfl

/-- What the new element has in common with the old one is the same in what is kept of the lists. -/
theorem map_filter_set {p : α → Bool} {f : α → β} (hk : l[k]? = some x) (hp : p y = p x)
    (hf : f y = f x) : ((l.set k y).filter p).map f = (l.filter p).map f := by
  have hboth := map_set_of_eq (f := fun z ↦ (p z, f z)) hk (Prod.ext hp hf)
  have hsplit (xs : List α) : (xs.filter p).map f =
      ((xs.map fun z ↦ (p z, f z)).filter Prod.fst).map Prod.snd := by
    rw [List.filter_map, List.map_map]
    rfl
  rw [hsplit, hsplit, hboth]

theorem sum_map_set (h : l[k]? = some x) (f : α → Nat) (y : α) :
    ((l.set k y).map f).sum + f x = (l.map f).sum + f y := by
  induction l generalizing k with
  | nil => cases h
  | cons z l ih =>
    cases k with
    | zero =>
      cases h
      simp only [List.set_cons_zero, List.map_cons, List.sum_cons]
      omega
    | succ k =>
      have hl := ih h
      simp only [List.set_cons_succ, List.map_cons, List.sum_cons]
      omega

theorem sum_map_toNat (p : α → Bool) (l : List α) :
    (l.map fun x ↦ (p x).toNat).sum = l.countP p := by
  induction l with
  | nil => rfl
  | cons x l ih =>
    rw [List.map_cons, List.sum_cons, ih, List.countP_cons, Nat.add_comm]
    cases p x <;> rfl

theorem filterMap_singleton (f : α → Option β) (x : α) : [x].filterMap f = (f x).toList := by
  cases hx : f x <;> simp [hx]

theorem filterMap_getElem?_range (l : List α) :
    ((List.range l.length).filterMap fun i ↦ l[i]?) = l := by
  have hmap : ((List.range l.length).map fun i ↦ l[i]?) = l.map some := by
    apply List.ext_getElem?
    intro i
    rcases Nat.lt_or_ge i l.length with hlt | hge
    · simp [hlt]
    · simp [hge]
  calc ((List.range l.length).filterMap fun i ↦ l[i]?)
      = ((List.range l.length).map fun i ↦ l[i]?).filterMap id := by
        rw [List.filterMap_map]
        rfl
    _ = l := by
        rw [hmap, List.filterMap_map]
        exact List.filterMap_some

/-! ## Look-up by key -/

section Keys

variable {κ : Type} [DecidableEq κ] {xs : List (κ × β)} {key k : κ} {b : β}

theorem lookup_cons_eq_ite :
    ((k, b) :: xs).lookup key = if key = k then some b else xs.lookup key := by
  by_cases h : key = k
  · subst h
    simp
  · have hbeq : (key == k) = false := beq_false_of_ne h
    simp [List.lookup_cons, hbeq, h]

/-- Entries are set one after the other, and the last one under a key is found. -/
theorem lookup_foldl {set : κ → β → List (κ × β) → List (κ × β)}
    (hset : ∀ k b xs, (set k b xs).lookup key = if key = k then some b else xs.lookup key)
    (entries xs : List (κ × β)) :
    (entries.foldl (fun xs x ↦ set x.1 x.2 xs) xs).lookup key =
      (entries.reverse.lookup key).or (xs.lookup key) := by
  induction entries generalizing xs with
  | nil => rfl
  | cons x rest ih =>
    rw [List.foldl_cons, ih, hset, List.reverse_cons, List.lookup_append, lookup_cons_eq_ite,
      Option.or_assoc]
    split <;> rfl

end Keys

end Outbound
