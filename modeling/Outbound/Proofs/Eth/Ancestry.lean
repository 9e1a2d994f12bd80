import Outbound.Eth.VirtualClock
import Outbound.Proofs.Eth.Acts
import Outbound.Proofs.Lookup

/-!
# Tokens made outside

Batches make tokens too, so a token has another number among all tokens than among those made
outside. But which of the latter are canceled follows from the script alone: those that were
canceled there and those at any depth below them, whether made before or after.
-/

namespace Outbound.Eth

variable {ι : Type}

/-- What is below an old token does not depend on the tokens made later. -/
theorem below_append_iff {parents : List (Option Nat)} (more : List (Option Nat))
    (older : ∀ i p : Nat, parents[i]? = some (some p) → p < i) {above i : Nat}
    (hi : i < parents.length) : Below (parents ++ more) above i ↔ Below parents above i := by
  constructor
  · intro h
    induction h with
    | self => exact .self
    | child hparent _ ih =>
      rw [List.getElem?_append_left hi] at hparent
      exact .child hparent (ih (Nat.lt_trans (older _ _ hparent) hi))
  · intro h
    induction h with
    | self => exact .self
    | child hparent _ ih =>
      refine .child ?_ (ih (Nat.lt_trans (older _ _ hparent) hi))
      rw [List.getElem?_append_left hi]
      exact hparent

theorem below_cases {parents : List (Option Nat)} {above i : Nat} (h : Below parents above i) :
    above = i ∨ ∃ p, parents[i]? = some (some p) ∧ Below parents above p := by
  cases h with
  | self => exact .inl rfl
  | child hparent h => exact .inr ⟨_, hparent, h⟩

namespace Script

theorem parents_append (a b : Script ι) : parents (a ++ b) = a.parents ++ b.parents :=
  List.filterMap_append

theorem parents_of_parent? {script : Script ι} {now : Time} {d : Deed ι} (h : d.parent? = none) :
    parents (script ++ [(now, d)]) = script.parents := by
  rw [parents_append]
  simp [parents, h]

theorem parents_derive (script : Script ι) (now : Time) (parent : Option Nat) :
    parents (script ++ [(now, .derive parent)]) = script.parents ++ [parent] :=
  parents_append _ _

/-- The token or one above it was canceled. -/
def Cancels (script : Script ι) (token : Nat) : Prop :=
  ∃ t above, (t, .cancel above) ∈ script ∧ Below script.parents above token

end Script

/-- The tokens made outside are what the script says, under the numbers in `outer`. -/
structure Traced (script : Script ι) (tokens : Tokens) (outer : List Nat) : Prop where
  length_eq : outer.length = script.parents.length
  increasing : outer.Pairwise (· < ·)
  older : ∀ i p : Nat, script.parents[i]? = some (some p) → p < i
  known : ∀ (t : Time) (i : Nat), (t, .cancel i) ∈ script → i < outer.length
  node : ∀ i parent token, script.parents[i]? = some parent → outer[i]? = some token →
    ∃ canceled, tokens.nodes[token]? = some ⟨parent.bind (outer[·]?), canceled⟩ ∧
      (canceled = true ↔ script.Cancels i)

namespace Traced

variable {script : Script ι} {tokens : Tokens} {outer : List Nat} {now : Time}

theorem parent_of_outer (h : Traced script tokens outer) {i token : Nat}
    (hi : outer[i]? = some token) : ∃ parent, script.parents[i]? = some parent := by
  have hlt := (List.getElem?_eq_some_iff.1 hi).1
  rw [h.length_eq] at hlt
  exact ⟨_, List.getElem?_eq_getElem hlt⟩

theorem isCanceled_iff (h : Traced script tokens outer) {i token : Nat}
    (hi : outer[i]? = some token) : tokens.isCanceled token = true ↔ script.Cancels i := by
  obtain ⟨parent, hparent⟩ := h.parent_of_outer hi
  obtain ⟨canceled, hnode, hiff⟩ := h.node i parent token hparent hi
  rw [← hiff, Tokens.isCanceled, hnode]

theorem lt_length (h : Traced script tokens outer) {i token : Nat} (hi : outer[i]? = some token) :
    token < tokens.nodes.length := by
  obtain ⟨parent, hparent⟩ := h.parent_of_outer hi
  obtain ⟨canceled, hnode, -⟩ := h.node i parent token hparent hi
  exact (List.getElem?_eq_some_iff.1 hnode).1

theorem token_lt (h : Traced script tokens outer) {i j a b : Nat} (hi : outer[i]? = some a)
    (hj : outer[j]? = some b) (hlt : i < j) : a < b := by
  obtain ⟨hil, rfl⟩ := List.getElem?_eq_some_iff.1 hi
  obtain ⟨hjl, rfl⟩ := List.getElem?_eq_some_iff.1 hj
  exact List.pairwise_iff_getElem.1 h.increasing i j hil hjl hlt

theorem index_eq (h : Traced script tokens outer) {i j token : Nat}
    (hi : outer[i]? = some token) (hj : outer[j]? = some token) : i = j := by
  rcases Nat.lt_trichotomy i j with hlt | heq | hlt
  · exact absurd (h.token_lt hi hj hlt) (Nat.lt_irrefl _)
  · exact heq
  · exact absurd (h.token_lt hj hi hlt) (Nat.lt_irrefl _)

/-- The token below which another one was made has a smaller number among all tokens, too. -/
theorem outer_of_parent (h : Traced script tokens outer) {i p token : Nat}
    (hparent : script.parents[i]? = some (some p)) (hi : outer[i]? = some token) :
    ∃ q, outer[p]? = some q ∧ q < token := by
  have hpi := h.older i p hparent
  have hil := (List.getElem?_eq_some_iff.1 hi).1
  have hq : outer[p]? = some outer[p] := List.getElem?_eq_getElem (Nat.lt_trans hpi hil)
  exact ⟨_, hq, h.token_lt hq hi hpi⟩

/-- A token of a batch is none of those made outside. -/
theorem grow (h : Traced script tokens outer) (nodes : List Token) :
    Traced script ⟨tokens.nodes ++ nodes⟩ outer where
  length_eq := h.length_eq
  increasing := h.increasing
  older := h.older
  known := h.known
  node := by
    intro i parent token hparent hi
    obtain ⟨canceled, hnode, hiff⟩ := h.node i parent token hparent hi
    exact ⟨canceled, getElem?_append_of_some hnode nodes, hiff⟩

/-- A deed that is about no token. -/
theorem deed (h : Traced script tokens outer) {d : Deed ι} (hparent : d.parent? = none)
    (hcancel : ∀ i, d ≠ .cancel i) : Traced (script ++ [(now, d)]) tokens outer := by
  have hmem (t i : Nat) :
      (t, Deed.cancel i) ∈ script ++ [(now, d)] ↔ (t, Deed.cancel i) ∈ script := by
    rw [List.mem_append, List.mem_singleton]
    refine or_iff_left fun heq ↦ ?_
    exact hcancel i (congrArg Prod.snd heq).symm
  have hparents : Script.parents (script ++ [(now, d)]) = script.parents :=
    Script.parents_of_parent? hparent
  refine ⟨?_, h.increasing, ?_, fun t i hi ↦ h.known t i ((hmem t i).1 hi), ?_⟩
  · rw [hparents]
    exact h.length_eq
  · rw [hparents]
    exact h.older
  · simp only [Script.Cancels, hmem, hparents]
    exact h.node

theorem cancels_derive (h : Traced script tokens outer) (parent : Option Nat) {i : Nat}
    (hi : i < outer.length) :
    Script.Cancels (script ++ [(now, .derive parent)]) i ↔ script.Cancels i := by
  rw [h.length_eq] at hi
  simp only [Script.Cancels, Script.parents_derive, below_append_iff _ h.older hi,
    List.mem_append, List.mem_singleton, Prod.mk.injEq, reduceCtorEq, and_false, or_false]

/-- A new token is canceled if it is made below one that is, and otherwise it is not. -/
theorem cancels_new (h : Traced script tokens outer) {parent : Option Nat}
    (hlt : ∀ p ∈ parent, p < outer.length) :
    Script.Cancels (script ++ [(now, .derive parent)]) outer.length ↔
      ∃ p ∈ parent, script.Cancels p := by
  have hnew : (script ++ [(now, Deed.derive parent)] : Script ι).parents[outer.length]? =
      some parent := by
    rw [Script.parents_derive, h.length_eq]
    exact List.getElem?_concat_length
  constructor
  · rintro ⟨t, above, hmem, hbelow⟩
    have hold : (t, Deed.cancel above) ∈ script := by simpa using hmem
    rcases below_cases hbelow with rfl | ⟨p, hp, hbelow⟩
    · exact absurd (h.known t _ hold) (Nat.lt_irrefl _)
    · rw [hnew] at hp
      cases hp
      exact ⟨p, rfl, (h.cancels_derive (some p) (hlt p rfl)).1 ⟨t, above, hmem, hbelow⟩⟩
  · rintro ⟨p, rfl, hp⟩
    have hcancels : Script.Cancels (script ++ [(now, .derive (some p))]) p :=
      (h.cancels_derive (some p) (hlt p rfl)).2 hp
    obtain ⟨t, above, hmem, hbelow⟩ := hcancels
    exact ⟨t, above, hmem, .child hnew hbelow⟩

theorem derive (h : Traced script tokens outer) {parent : Option Nat} {canceled : Bool}
    (hlt : ∀ p ∈ parent, p < outer.length)
    (hcanceled : canceled = true ↔ ∃ p ∈ parent, script.Cancels p) :
    Traced (script ++ [(now, .derive parent)])
      ⟨tokens.nodes ++ [⟨parent.bind (outer[·]?), canceled⟩]⟩
      (outer ++ [tokens.nodes.length]) := by
  have hbind (q : Option Nat) (hq : ∀ p ∈ q, p < outer.length) :
      q.bind ((outer ++ [tokens.nodes.length])[·]?) = q.bind (outer[·]?) := by
    cases q with
    | none => rfl
    | some p => exact List.getElem?_append_left (hq p rfl)
  refine ⟨?_, ?_, ?_, ?_, ?_⟩
  · rw [Script.parents_derive, List.length_append, List.length_append, h.length_eq]
    rfl
  · refine List.pairwise_append.2 ⟨h.increasing, List.pairwise_singleton _ _, fun a ha b hb ↦ ?_⟩
    obtain ⟨i, hi⟩ := List.mem_iff_getElem?.1 ha
    rw [List.mem_singleton.1 hb]
    exact h.lt_length hi
  · intro i p hp
    rw [Script.parents_derive] at hp
    rcases getElem?_concat_cases hp with ⟨rfl, heq⟩ | hp
    · rw [← h.length_eq]
      exact hlt p heq.symm
    · exact h.older i p hp
  · intro t i hi
    have hold : (t, Deed.cancel i) ∈ script := by simpa using hi
    have hlt := h.known t i hold
    rw [List.length_append]
    omega
  · intro i q token hq hi
    rw [Script.parents_derive] at hq
    rcases getElem?_concat_cases hi with ⟨rfl, rfl⟩ | hi
    · rw [h.length_eq, List.getElem?_concat_length] at hq
      cases hq
      refine ⟨canceled, ?_, hcanceled.trans (h.cancels_new hlt).symm⟩
      rw [List.getElem?_concat_length, hbind parent hlt]
    · have hil := (List.getElem?_eq_some_iff.1 hi).1
      rw [List.getElem?_append_left (h.length_eq ▸ hil)] at hq
      obtain ⟨c, hnode, hiff⟩ := h.node i q token hq hi
      refine ⟨c, getElem?_append_of_some ?_ _, hiff.trans (h.cancels_derive parent hil).symm⟩
      rw [hbind q fun p hp ↦ ?_]
      · exact hnode
      · rw [Option.mem_def.1 hp] at hq
        exact Nat.lt_trans (h.older i p hq) hil

theorem cancels_cancel_iff (script : Script ι) (now : Time) (a i : Nat) :
    Script.Cancels (script ++ [(now, .cancel a)]) i ↔
      script.Cancels i ∨ Below script.parents a i := by
  have hparents : Script.parents (script ++ [(now, Deed.cancel a)]) = script.parents :=
    Script.parents_of_parent? rfl
  simp only [Script.Cancels, hparents, List.mem_append, List.mem_singleton, Prod.mk.injEq,
    Deed.cancel.injEq]
  constructor
  · rintro ⟨t, above, hmem | ⟨rfl, rfl⟩, hbelow⟩
    · exact .inl ⟨t, above, hmem, hbelow⟩
    · exact .inr hbelow
  · rintro (⟨t, above, hmem, hbelow⟩ | hbelow)
    · exact ⟨t, above, .inl hmem, hbelow⟩
    · exact ⟨now, a, .inr ⟨rfl, rfl⟩, hbelow⟩

/-- Canceling reaches exactly the tokens at or below the canceled one. The induction follows the
order in which they were made, in which a parent comes first. -/
theorem isCanceled_cancel (h : Traced script tokens outer) {a target : Nat}
    (ha : outer[a]? = some target) (i token : Nat) (hi : outer[i]? = some token) :
    (tokens.cancel target).isCanceled token = true ↔
      Script.Cancels (script ++ [(now, .cancel a)]) i := by
  induction i using Nat.strongRecOn generalizing token with
  | ind i ih =>
    obtain ⟨parent, hparent⟩ := h.parent_of_outer hi
    obtain ⟨canceled, hnode, hiff⟩ := h.node i parent token hparent hi
    have hself : token = target ↔ i = a := by
      constructor
      · rintro rfl
        exact h.index_eq hi ha
      · rintro rfl
        rw [hi] at ha
        exact Option.some.inj ha
    have hlt (q : Nat) (hq : parent.bind (outer[·]?) = some q) : q < token := by
      obtain ⟨p, rfl, hpq⟩ := Option.bind_eq_some_iff.1 hq
      obtain ⟨q', hq', hlt⟩ := h.outer_of_parent hparent hi
      rw [hpq] at hq'
      cases hq'
      exact hlt
    rw [Tokens.isCanceled_cancel_eq hnode hlt, Bool.or_eq_true, Bool.or_eq_true, beq_iff_eq,
      hiff, hself, cancels_cancel_iff]
    constructor
    · rintro ((hcancels | rfl) | hany)
      · exact .inl hcancels
      · exact .inr .self
      · obtain ⟨q, hq, hcanceled⟩ := (Option.any_eq_true _ _).1 hany
        obtain ⟨p, rfl, hpq⟩ := Option.bind_eq_some_iff.1 hq
        have hp := (ih p (h.older i p hparent) q hpq).1 hcanceled
        rcases (cancels_cancel_iff script now a p).1 hp with ⟨t, above, hmem, hbelow⟩ | hbelow
        · exact .inl ⟨t, above, hmem, .child hparent hbelow⟩
        · exact .inr (.child hparent hbelow)
    · rintro (hcancels | hbelow)
      · exact .inl (.inl hcancels)
      · rcases below_cases hbelow with rfl | ⟨p, hp, hbelow⟩
        · exact .inl (.inr rfl)
        · rw [hparent] at hp
          cases hp
          obtain ⟨q, hq, -⟩ := h.outer_of_parent hparent hi
          refine .inr ((Option.any_eq_true _ _).2 ⟨q, hq, ?_⟩)
          exact (ih p (h.older i p hparent) q hq).2
            ((cancels_cancel_iff script now a p).2 (.inr hbelow))

theorem cancel (h : Traced script tokens outer) {a target : Nat}
    (ha : outer[a]? = some target) :
    Traced (script ++ [(now, .cancel a)]) (tokens.cancel target) outer := by
  have hparents : Script.parents (script ++ [(now, Deed.cancel a)]) = script.parents :=
    Script.parents_of_parent? rfl
  refine ⟨?_, h.increasing, ?_, ?_, ?_⟩
  · rw [hparents]
    exact h.length_eq
  · rw [hparents]
    exact h.older
  · intro t i hi
    rcases List.mem_append.1 hi with hi | hi
    · exact h.known t i hi
    · cases List.mem_singleton.1 hi
      exact (List.getElem?_eq_some_iff.1 ha).1
  · intro i parent token hparent hi
    rw [hparents] at hparent
    obtain ⟨canceled, hnode, -⟩ := h.node i parent token hparent hi
    obtain ⟨canceled', hget, -⟩ :=
      (Tokens.getElem?_spread target [] tokens.nodes token).2 _ hnode
    rw [List.length_nil, Nat.zero_add] at hget
    refine ⟨canceled', hget, ?_⟩
    rw [← h.isCanceled_cancel ha i token hi, Tokens.isCanceled, Tokens.cancel, hget]

end Traced

end Outbound.Eth
