import Outbound.Proofs.Lookup
import Outbound.Reload.Shared

/-!
# Which values are passed on when they are replaced

The old value that a hook is given is the one that its update has loaded, which need not be the one
that its own value replaces. If updates take turns the two are the same, and every replaced value
is passed on once, by the update that replaced it.
-/

namespace Outbound

theorem filter_snd_zipIdx {α : Type} {xs : List α} {k : Nat} {x : α} (h : xs[k]? = some x)
    (n : Nat) : ((xs.zipIdx n).filter fun y ↦ y.2 = n + k) = [(x, n + k)] := by
  induction xs generalizing k n with
  | nil => cases h
  | cons y rest ih =>
    rw [List.zipIdx_cons]
    cases k with
    | zero =>
      cases h
      rw [List.filter_cons_of_pos (by simp), List.cons_eq_cons]
      refine ⟨rfl, List.filter_eq_nil_iff.2 fun z hz heq ↦ ?_⟩
      have hle := List.le_snd_of_mem_zipIdx hz
      have hsnd : z.2 = n := by simpa using heq
      omega
    | succ k =>
      have hrest := ih h (n + 1)
      rw [Nat.add_assoc, Nat.add_comm 1] at hrest
      rw [List.filter_cons_of_neg (by simp), hrest]

namespace SharedConfig

variable {τ ρ : Type} {hook : Reloadable τ ρ} {first : τ} {events : List (Event τ)}
  {s s' : SharedConfig τ ρ} {u v n : Nat}

/-! ## What events say -/

/-- The updates that have stored their values, in that order. -/
def stores (events : List (Event τ)) : List Nat :=
  events.filterMap fun
    | .store u => some u
    | _ => none

/-- The updates whose hooks have run, in that order. -/
def prepares (events : List (Event τ)) : List Nat :=
  events.filterMap fun
    | .prepare u => some u
    | _ => none

/-- Which update has loaded the value of which number, when values up to number `n` have been in
force before. -/
def loads : Nat → List (Event τ) → List (Nat × Nat)
  | _, [] => []
  | n, .load u :: rest => (u, n) :: loads n rest
  | n, .store _ :: rest => loads (n + 1) rest
  | n, .prepare _ :: rest => loads n rest
  | n, .call _ _ :: rest => loads n rest

theorem prepares_snoc (events : List (Event τ)) (e : Event τ) :
    prepares (events ++ [e]) = prepares events ++ prepares [e] :=
  List.filterMap_append

theorem loads_snoc (n : Nat) (events : List (Event τ)) (e : Event τ) :
    loads n (events ++ [e]) = loads n events ++ loads (n + (stores events).length) [e] := by
  induction events generalizing n with
  | nil => rfl
  | cons e' rest ih =>
    cases e' with
    | load u =>
      rw [List.cons_append, loads, ih]
      rfl
    | store u =>
      rw [List.cons_append, loads, ih, loads, Nat.add_assoc, Nat.add_comm 1]
      rfl
    | prepare u =>
      rw [List.cons_append, loads, ih]
      rfl
    | call value runtime =>
      rw [List.cons_append, loads, ih]
      rfl

/-! ## One step of one update -/

inductive Act (hook : Reloadable τ ρ) (s : SharedConfig τ ρ) :
    Event τ → SharedConfig τ ρ → Prop where
  | call (value : τ) (runtime : Bool) :
    Act hook s (.call value runtime) { s with updates := s.updates ++ [{ value, runtime }] }
  | load {u : Nat} {update : Update τ} (hu : s.updates[u]? = some update)
    (hphase : update.phase = .begun) :
    Act hook s (.load u) (s.setPhase u update (.loaded s.replaced.length s.live.load))
  | prepare {u number : Nat} {update : Update τ} {old : τ} (hu : s.updates[u]? = some update)
    (hphase : update.phase = .loaded number old) :
    Act hook s (.prepare u)
      { s.setPhase u update (.prepared number (hook.prepare (some old) update.value).1) with
        passed := s.passed ++ [(u, number)]
        scheduled := s.scheduled ++ if update.runtime then
          (hook.prepare (some old) update.value).2.map fun leftover ↦ (number, leftover) else []
        dropped := s.dropped ++ if update.runtime then [] else
          (hook.prepare (some old) update.value).2.map fun leftover ↦ (number, leftover) }
  | store {u number : Nat} {update : Update τ} {value : τ} (hu : s.updates[u]? = some update)
    (hphase : update.phase = .prepared number value) :
    Act hook s (.store u)
      { s.setPhase u update (.stored number) with
        live := ⟨value⟩
        replaced := s.replaced ++ [s.live.load] }

theorem act_of_step {e : Event τ} (h : s.step hook e = some s') : Act hook s e s' := by
  cases e with
  | call value runtime =>
    cases h
    exact .call value runtime
  | load u =>
    obtain ⟨update, hu, h⟩ := Option.bind_eq_some_iff.1 h
    simp only [stepUpdate] at h
    split at h <;> cases h
    exact .load hu ‹_›
  | prepare u =>
    obtain ⟨update, hu, h⟩ := Option.bind_eq_some_iff.1 h
    simp only [stepUpdate] at h
    split at h <;> cases h
    exact .prepare hu ‹_›
  | store u =>
    obtain ⟨update, hu, h⟩ := Option.bind_eq_some_iff.1 h
    simp only [stepUpdate] at h
    split at h <;> cases h
    exact .store hu ‹_›

/-- Nothing is forgotten: values keep their numbers, and updates what they are about. -/
structure Extends (s s' : SharedConfig τ ρ) : Prop where
  values : ∀ {n : Nat} {x : τ}, s.values[n]? = some x → s'.values[n]? = some x
  updates : ∀ {u : Nat} {update : Update τ}, s.updates[u]? = some update →
    ∃ update', s'.updates[u]? = some update' ∧ update'.value = update.value ∧
      update'.runtime = update.runtime
  passed : s.passed ⊆ s'.passed

theorem updates_setPhase {update : Update τ} (hu : s.updates[u]? = some update)
    (phase : UpdatePhase τ) {w : Update τ} (hv : s.updates[v]? = some w) :
    ∃ w', (s.setPhase u update phase).updates[v]? = some w' ∧ w'.value = w.value ∧
      w'.runtime = w.runtime := by
  by_cases heq : v = u
  · subst heq
    rw [hu] at hv
    cases hv
    exact ⟨_, List.getElem?_set_self (List.getElem?_eq_some_iff.1 hu).1, rfl, rfl⟩
  · exact ⟨w, (List.getElem?_set_ne (Ne.symm heq)).trans hv, rfl, rfl⟩

theorem Act.extends {e : Event τ} (h : Act hook s e s') : Extends s s' := by
  cases h with
  | call value runtime =>
    exact ⟨id, fun hu ↦ ⟨_, getElem?_append_of_some hu _, rfl, rfl⟩, List.Subset.refl _⟩
  | load hu hphase => exact ⟨id, updates_setPhase hu _, List.Subset.refl _⟩
  | prepare hu hphase => exact ⟨id, updates_setPhase hu _, List.subset_append_left _ _⟩
  | store hu hphase =>
    exact ⟨fun hn ↦ getElem?_append_of_some hn _, updates_setPhase hu _, List.Subset.refl _⟩

/-! ## Any interleaving -/

/-- What the hook of an update leaves that was given a value, for tasks if there is a runtime, or
to be let go of. -/
def leftovers (hook : Reloadable τ ρ) (s : SharedConfig τ ρ) (runtime : Bool) (x : Nat × Nat) :
    List (Nat × ρ) :=
  match s.updates[x.1]?, s.values[x.2]? with
  | some update, some old =>
    if update.runtime = runtime then
      (hook.prepare (some old) update.value).2.map fun leftover ↦ (x.2, leftover)
    else []
  | _, _ => []

/-- What becomes of the value that an update was made for, if it takes the value of that number for
the one it replaces. -/
def Becomes (hook : Reloadable τ ρ) (s : SharedConfig τ ρ) (u n : Nat) (value : τ) : Prop :=
  ∃ update old, s.updates[u]? = some update ∧ s.values[n]? = some old ∧
    value = (hook.prepare (some old) update.value).1

/-- How far an update has come, by the events. -/
def Reached (hook : Reloadable τ ρ) (events : List (Event τ)) (s : SharedConfig τ ρ) (u : Nat) :
    Prop :=
  match s.updates[u]?.map Update.phase with
  | none => u ∉ (loads 0 events).map Prod.fst ∧ u ∉ prepares events
  | some .begun => u ∉ (loads 0 events).map Prod.fst ∧ u ∉ prepares events
  | some (.loaded n old) => (u, n) ∈ loads 0 events ∧ u ∉ prepares events ∧ s.values[n]? = some old
  | some (.prepared n value) => (u, n) ∈ s.passed ∧ Becomes hook s u n value
  | some (.stored n) => (u, n) ∈ s.passed

/-- What the events say about a state. -/
structure Traced (hook : Reloadable τ ρ) (events : List (Event τ)) (s : SharedConfig τ ρ) :
    Prop where
  replaced : s.replaced.length = (stores events).length
  passed : s.passed.map Prod.fst = prepares events
  loaded : s.passed ⊆ loads 0 events
  loads_nodup : ((loads 0 events).map Prod.fst).Nodup
  prepares_nodup : (prepares events).Nodup
  reached : ∀ u, Reached hook events s u
  known : ∀ x ∈ s.passed, ∃ update old, s.updates[x.1]? = some update ∧ s.values[x.2]? = some old
  /-- The value after the one that an update replaced is its own. -/
  stored : ∀ k u, (stores events)[k]? = some u → ∃ n value, (u, n) ∈ s.passed ∧
    Becomes hook s u n value ∧ s.values[k + 1]? = some value
  scheduled : s.scheduled = s.passed.flatMap (leftovers hook s true)
  dropped : s.dropped = s.passed.flatMap (leftovers hook s false)

theorem traced_new (hook : Reloadable τ ρ) (first : τ) : Traced hook [] (new hook first) where
  replaced := rfl
  passed := rfl
  loaded := List.nil_subset _
  loads_nodup := .nil
  prepares_nodup := .nil
  reached _ := ⟨List.not_mem_nil, List.not_mem_nil⟩
  known _ h := nomatch h
  stored _ _ h := nomatch h
  scheduled := rfl
  dropped := rfl

theorem leftovers_extends (h : Extends s s') (runtime : Bool) {x : Nat × Nat}
    (hx : ∃ update old, s.updates[x.1]? = some update ∧ s.values[x.2]? = some old) :
    leftovers hook s' runtime x = leftovers hook s runtime x := by
  obtain ⟨update, old, hu, hold⟩ := hx
  obtain ⟨update', hu', hvalue, hruntime⟩ := h.updates hu
  simp only [leftovers, hu, hold, hu', h.values hold, hvalue, hruntime]

theorem Becomes.extends {value : τ} (h : Becomes hook s u n value) (hext : Extends s s') :
    Becomes hook s' u n value := by
  obtain ⟨update, old, hu, hold, rfl⟩ := h
  obtain ⟨update', hu', hvalue, -⟩ := hext.updates hu
  exact ⟨update', old, hu', hext.values hold, by rw [hvalue]⟩

theorem Reached.other {e : Event τ} (h : Reached hook events s v) (hext : Extends s s')
    (hv : s'.updates[v]? = s.updates[v]?) (hload : ∀ m, v ∉ (loads m [e]).map Prod.fst)
    (hprepare : v ∉ prepares [e]) : Reached hook (events ++ [e]) s' v := by
  have hloads : v ∉ (loads 0 events).map Prod.fst →
      v ∉ (loads 0 (events ++ [e])).map Prod.fst := by
    rw [loads_snoc, List.map_append, List.mem_append]
    exact fun hold hnew ↦ hnew.elim hold (hload _)
  have hprepares : v ∉ prepares events → v ∉ prepares (events ++ [e]) := by
    rw [prepares_snoc, List.mem_append]
    exact fun hold hnew ↦ hnew.elim hold hprepare
  unfold Reached at h ⊢
  rw [hv]
  split at h
  · exact ⟨hloads h.1, hprepares h.2⟩
  · exact ⟨hloads h.1, hprepares h.2⟩
  · rw [loads_snoc]
    exact ⟨List.mem_append_left _ h.1, hprepares h.2.1, hext.values h.2.2⟩
  · exact ⟨hext.passed h.1, h.2.extends hext⟩
  · exact hext.passed h

theorem reached_of_fresh
    (hphase : s.updates[u]?.map Update.phase = none ∨ s.updates[u]?.map Update.phase = some .begun)
    (h : u ∉ (loads 0 events).map Prod.fst ∧ u ∉ prepares events) : Reached hook events s u := by
  rcases hphase with hphase | hphase
  · rw [Reached, hphase]
    exact h
  · rw [Reached, hphase]
    exact h

theorem getElem?_setPhase_self {update : Update τ} (hu : s.updates[u]? = some update)
    (phase : UpdatePhase τ) :
    (s.setPhase u update phase).updates[u]? = some { update with phase } :=
  List.getElem?_set_self (List.getElem?_eq_some_iff.1 hu).1

theorem getElem?_setPhase_of_ne (hne : v ≠ u) (update : Update τ) (phase : UpdatePhase τ) :
    (s.setPhase u update phase).updates[v]? = s.updates[v]? :=
  List.getElem?_set_ne (Ne.symm hne)

namespace Traced

theorem leftovers_passed (h : Traced hook events s) (hext : Extends s s') (runtime : Bool) :
    s.passed.flatMap (leftovers hook s' runtime) = s.passed.flatMap (leftovers hook s runtime) :=
  List.flatMap_congr fun x hx ↦ leftovers_extends hext runtime (h.known x hx)

theorem known_extends (h : Traced hook events s) (hext : Extends s s') :
    ∀ x ∈ s.passed,
      ∃ update old, s'.updates[x.1]? = some update ∧ s'.values[x.2]? = some old := by
  intro x hx
  obtain ⟨update, old, hu, hold⟩ := h.known x hx
  obtain ⟨update', hu', -⟩ := hext.updates hu
  exact ⟨update', old, hu', hext.values hold⟩

theorem stored_extends (h : Traced hook events s) (hext : Extends s s') :
    ∀ k u, (stores events)[k]? = some u → ∃ n value, (u, n) ∈ s'.passed ∧
      Becomes hook s' u n value ∧ s'.values[k + 1]? = some value := by
  intro k u hk
  obtain ⟨n, value, hpassed, hbecomes, hvalue⟩ := h.stored k u hk
  exact ⟨n, value, hext.passed hpassed, hbecomes.extends hext, hext.values hvalue⟩

theorem call (h : Traced hook events s) (given : τ) (runtime : Bool) :
    Traced hook (events ++ [.call given runtime])
      { s with updates := s.updates ++ [{ value := given, runtime }] } := by
  have hext : Extends s { s with updates := s.updates ++ [{ value := given, runtime }] } :=
    have hact : Act hook s _ _ := .call given runtime
    hact.extends
  have hloads : loads 0 (events ++ [.call given runtime]) = loads 0 events := by
    simp [loads_snoc, loads]
  have hprepares : prepares (events ++ [.call given runtime]) = prepares events := by
    simp [prepares]
  have hstores : stores (events ++ [.call given runtime]) = stores events := by
    simp [stores]
  refine ⟨?_, ?_, ?_, ?_, ?_, fun v ↦ ?_, h.known_extends hext, ?_, ?_, ?_⟩
  · exact hstores ▸ h.replaced
  · exact hprepares ▸ h.passed
  · exact hloads ▸ h.loaded
  · exact hloads ▸ h.loads_nodup
  · exact hprepares ▸ h.prepares_nodup
  · cases hv : s.updates[v]? with
    | some w =>
      exact (h.reached v).other hext ((getElem?_append_of_some hv _).trans hv.symm)
        (fun _ ↦ List.not_mem_nil) List.not_mem_nil
    | none =>
      have hfresh := h.reached v
      simp only [Reached, hv, Option.map_none] at hfresh
      refine reached_of_fresh ?_ (by rwa [hloads, hprepares])
      rw [List.getElem?_append_right (List.getElem?_eq_none_iff.1 hv), List.getElem?_singleton]
      split
      · exact .inr rfl
      · exact .inl rfl
  · exact hstores ▸ h.stored_extends hext
  · exact h.scheduled.trans (h.leftovers_passed hext true).symm
  · exact h.dropped.trans (h.leftovers_passed hext false).symm

theorem load (h : Traced hook events s) (hact : Act hook s (.load u) s') :
    Traced hook (events ++ [.load u]) s' := by
  have hext := hact.extends
  have hloads : loads 0 (events ++ [.load u]) = loads 0 events ++ [(u, s.replaced.length)] := by
    simp [loads_snoc, loads, h.replaced]
  have hprepares : prepares (events ++ [.load u]) = prepares events := by simp [prepares]
  have hstores : stores (events ++ [.load u]) = stores events := by simp [stores]
  cases hact with
  | @load _ update hu hphase =>
    have hfresh := h.reached u
    simp only [Reached, hu, Option.map_some, hphase] at hfresh
    refine ⟨?_, ?_, ?_, ?_, ?_, fun v ↦ ?_, h.known_extends hext, ?_, ?_, ?_⟩
    · exact hstores ▸ h.replaced
    · exact hprepares ▸ h.passed
    · rw [hloads]
      exact List.Subset.trans h.loaded (List.subset_append_left _ _)
    · rw [hloads, List.map_append]
      refine h.loads_nodup.append (List.nodup_singleton _) fun x hx hy ↦ ?_
      rw [List.mem_singleton.1 hy] at hx
      exact hfresh.1 hx
    · exact hprepares ▸ h.prepares_nodup
    · by_cases heq : v = u
      · subst heq
        rw [Reached, getElem?_setPhase_self hu, hloads, hprepares]
        exact ⟨List.mem_append_right _ List.mem_cons_self, hfresh.2, List.getElem?_concat_length⟩
      · refine (h.reached v).other hext (getElem?_setPhase_of_ne heq _ _) (fun m hm ↦ ?_)
          List.not_mem_nil
        exact heq (List.mem_singleton.1 hm)
    · exact hstores ▸ h.stored_extends hext
    · exact h.scheduled.trans (h.leftovers_passed hext true).symm
    · exact h.dropped.trans (h.leftovers_passed hext false).symm

theorem prepare (h : Traced hook events s) (hact : Act hook s (.prepare u) s') :
    Traced hook (events ++ [.prepare u]) s' := by
  have hext := hact.extends
  have hloads : loads 0 (events ++ [.prepare u]) = loads 0 events := by simp [loads_snoc, loads]
  have hprepares : prepares (events ++ [.prepare u]) = prepares events ++ [u] := by simp [prepares]
  have hstores : stores (events ++ [.prepare u]) = stores events := by simp [stores]
  cases hact with
  | @prepare _ number update old hu hphase =>
    have hreached := h.reached u
    simp only [Reached, hu, Option.map_some, hphase] at hreached
    obtain ⟨hload, hfresh, hold⟩ := hreached
    have hleft (runtime : Bool) : leftovers hook s runtime (u, number) =
        if update.runtime = runtime then
          (hook.prepare (some old) update.value).2.map fun leftover ↦ (number, leftover)
        else [] := by
      simp [leftovers, hu, hold]
    have hnew : ∃ update old, s.updates[(u, number).1]? = some update ∧
        s.values[(u, number).2]? = some old := ⟨update, old, hu, hold⟩
    refine ⟨?_, ?_, ?_, ?_, ?_, fun v ↦ ?_, ?_, ?_, ?_, ?_⟩
    · exact hstores ▸ h.replaced
    · rw [hprepares, ← h.passed]
      exact List.map_append
    · rw [hloads]
      exact List.append_subset.2 ⟨h.loaded, List.cons_subset.2 ⟨hload, List.nil_subset _⟩⟩
    · exact hloads ▸ h.loads_nodup
    · rw [hprepares]
      refine h.prepares_nodup.append (List.nodup_singleton _) fun x hx hy ↦ ?_
      rw [List.mem_singleton.1 hy] at hx
      exact hfresh hx
    · by_cases heq : v = u
      · subst heq
        have hphase' := getElem?_setPhase_self hu
          (.prepared number (hook.prepare (some old) update.value).1)
        rw [Reached, hphase']
        exact ⟨List.mem_append_right _ List.mem_cons_self, _, old, hphase', hold, rfl⟩
      · refine (h.reached v).other hext (getElem?_setPhase_of_ne heq _ _)
          (fun _ ↦ List.not_mem_nil) fun hm ↦ ?_
        exact heq (List.mem_singleton.1 hm)
    · intro x hx
      rcases List.mem_append.1 hx with hx | hx
      · exact h.known_extends hext x hx
      · cases List.mem_singleton.1 hx
        exact ⟨_, old, getElem?_setPhase_self hu _, hold⟩
    · exact hstores ▸ h.stored_extends hext
    · rw [List.flatMap_append, h.leftovers_passed hext, ← h.scheduled, List.flatMap_singleton,
        leftovers_extends hext true hnew, hleft]
    · rw [List.flatMap_append, h.leftovers_passed hext, ← h.dropped, List.flatMap_singleton,
        leftovers_extends hext false hnew, hleft]
      cases update.runtime <;> rfl

theorem store (h : Traced hook events s) (hact : Act hook s (.store u) s') :
    Traced hook (events ++ [.store u]) s' := by
  have hext := hact.extends
  have hloads : loads 0 (events ++ [.store u]) = loads 0 events := by simp [loads_snoc, loads]
  have hprepares : prepares (events ++ [.store u]) = prepares events := by simp [prepares]
  have hstores : stores (events ++ [.store u]) = stores events ++ [u] := by simp [stores]
  cases hact with
  | @store _ number update value hu hphase =>
    have hreached := h.reached u
    simp only [Reached, hu, Option.map_some, hphase] at hreached
    refine ⟨?_, ?_, ?_, ?_, ?_, fun v ↦ ?_, h.known_extends hext, fun k w hk ↦ ?_, ?_, ?_⟩
    · rw [hstores, List.length_append, List.length_append, h.replaced]
      rfl
    · exact hprepares ▸ h.passed
    · exact hloads ▸ h.loaded
    · exact hloads ▸ h.loads_nodup
    · exact hprepares ▸ h.prepares_nodup
    · by_cases heq : v = u
      · subst heq
        rw [Reached, show _ = _ from getElem?_setPhase_self hu (.stored number)]
        exact hreached.1
      · exact (h.reached v).other hext (getElem?_setPhase_of_ne heq _ _)
          (fun _ ↦ List.not_mem_nil) List.not_mem_nil
    · rw [hstores] at hk
      rcases getElem?_concat_cases hk with ⟨rfl, rfl⟩ | hk
      · refine ⟨number, value, hreached.1, hreached.2.extends hext, ?_⟩
        rw [← h.replaced]
        simp [values, LiveConfig.load]
      · exact h.stored_extends hext k w hk
    · exact h.scheduled.trans (h.leftovers_passed hext true).symm
    · exact h.dropped.trans (h.leftovers_passed hext false).symm

end Traced

theorem traced_of_run (run : Run hook first events s) : Traced hook events s := by
  induction run with
  | new => exact traced_new hook first
  | event run e hstep ih =>
    have hact := act_of_step hstep
    cases e with
    | call value runtime =>
      cases hact
      exact ih.call value runtime
    | load u => exact ih.load hact
    | prepare u => exact ih.prepare hact
    | store u => exact ih.store hact

/-! ## Updates that take turns -/

theorem SerialRun.run (run : SerialRun hook first events s) : Run hook first events s := by
  induction run with
  | new => exact .new
  | event _ e h _ ih => exact .event ih e h

/-- Each value was passed on by the update that replaced it, and the value in force perhaps by the
update that is under way. -/
structure Chained (events : List (Event τ)) (s : SharedConfig τ ρ) : Prop where
  single : ∀ {u v : Nat} {update other : Update τ}, s.updates[u]? = some update →
    s.updates[v]? = some other → update.phase.underWay = true → other.phase.underWay = true → u = v
  loaded : ∀ {u n : Nat} {update : Update τ} {old : τ}, s.updates[u]? = some update →
    update.phase = .loaded n old → n = s.replaced.length ∧ s.passed = (stores events).zipIdx
  prepared : ∀ {u n : Nat} {update : Update τ} {value : τ}, s.updates[u]? = some update →
    update.phase = .prepared n value →
    s.passed = (stores events).zipIdx ++ [(u, s.replaced.length)]
  idle : (∀ update ∈ s.updates, update.phase.underWay = false) → s.passed = (stores events).zipIdx

theorem chained_new (hook : Reloadable τ ρ) (first : τ) : Chained [] (new hook first) where
  single h := nomatch h
  loaded h := nomatch h
  prepared h := nomatch h
  idle _ := rfl

/-- Whoever is under way after a step of an update that is under way is that update. -/
theorem underWay_setPhase {update w : Update τ} {phase : UpdatePhase τ}
    (hu : s.updates[u]? = some update)
    (hother : ∀ v other, s.updates[v]? = some other → other.phase.underWay = true → v = u)
    (hw : (s.setPhase u update phase).updates[v]? = some w) (hway : w.phase.underWay = true) :
    v = u ∧ w = { update with phase } := by
  by_cases heq : v = u
  · subst heq
    rw [getElem?_setPhase_self hu] at hw
    cases hw
    exact ⟨rfl, rfl⟩
  · rw [getElem?_setPhase_of_ne heq] at hw
    exact absurd (hother v w hw hway) heq

theorem underWay_loaded {update : Update τ} {old : τ} (h : update.phase = .loaded n old) :
    update.phase.underWay = true := by
  rw [h]
  rfl

theorem underWay_prepared {update : Update τ} {value : τ} (h : update.phase = .prepared n value) :
    update.phase.underWay = true := by
  rw [h]
  rfl

theorem Chained.step (h : Chained events s) (ht : Traced hook events s) {e : Event τ}
    (hact : Act hook s e s')
    (turn : ∀ u, e = .load u → ∀ update ∈ s.updates, update.phase.underWay = false) :
    Chained (events ++ [e]) s' := by
  cases hact with
  | call value runtime =>
    have hstores : stores (events ++ [.call value runtime]) = stores events := by simp [stores]
    have hold {v : Nat} {w : Update τ} (hw : (s.updates ++ [⟨value, runtime, .begun⟩])[v]? = some w)
        (hway : w.phase.underWay = true) : s.updates[v]? = some w := by
      rcases getElem?_concat_cases hw with ⟨-, rfl⟩ | hw
      · cases hway
      · exact hw
    refine ⟨fun hw hw' hway hway' ↦ h.single (hold hw hway) (hold hw' hway') hway hway',
      fun hw hloaded ↦ ?_, fun hw hprepared ↦ ?_, fun hidle ↦ ?_⟩
    · rw [hstores]
      exact h.loaded (hold hw (underWay_loaded hloaded)) hloaded
    · rw [hstores]
      exact h.prepared (hold hw (underWay_prepared hprepared)) hprepared
    · rw [hstores]
      exact h.idle fun w hw ↦ hidle w (List.mem_append_left _ hw)
  | @load u update hu hphase =>
    have hstores : stores (events ++ [.load u]) = stores events := by simp [stores]
    have hidle := turn u rfl
    have hother (v : Nat) (other : Update τ) (hv : s.updates[v]? = some other)
        (hway : other.phase.underWay = true) : v = u := by
      rw [hidle other (List.mem_of_getElem? hv)] at hway
      cases hway
    have hpassed : s.passed = (stores (events ++ [.load u])).zipIdx := by
      rw [hstores]
      exact h.idle hidle
    refine ⟨fun hw hw' hway hway' ↦ ?_, fun hw hloaded ↦ ?_,
      fun hw hprepared ↦ ?_, fun _ ↦ hpassed⟩
    · rw [(underWay_setPhase hu hother hw hway).1, (underWay_setPhase hu hother hw' hway').1]
    · obtain ⟨-, rfl⟩ := underWay_setPhase hu hother hw (underWay_loaded hloaded)
      cases hloaded
      exact ⟨rfl, hpassed⟩
    · obtain ⟨-, rfl⟩ := underWay_setPhase hu hother hw (underWay_prepared hprepared)
      cases hprepared
  | @prepare u number update old hu hphase =>
    have hstores : stores (events ++ [.prepare u]) = stores events := by simp [stores]
    have hway := underWay_loaded hphase
    have hother (v : Nat) (other : Update τ) (hv : s.updates[v]? = some other)
        (hway' : other.phase.underWay = true) : v = u := h.single hv hu hway' hway
    obtain ⟨rfl, hpassed⟩ := h.loaded hu hphase
    have hpassed' : s.passed ++ [(u, s.replaced.length)] =
        (stores (events ++ [.prepare u])).zipIdx ++ [(u, s.replaced.length)] := by
      rw [hstores, hpassed]
    refine ⟨fun hw hw' hway hway' ↦ ?_, fun hw hloaded ↦ ?_,
      fun hw hprepared ↦ ?_, fun hidle ↦ ?_⟩
    · rw [(underWay_setPhase hu hother hw hway).1, (underWay_setPhase hu hother hw' hway').1]
    · obtain ⟨-, rfl⟩ := underWay_setPhase hu hother hw (underWay_loaded hloaded)
      cases hloaded
    · obtain ⟨rfl, rfl⟩ := underWay_setPhase hu hother hw (underWay_prepared hprepared)
      exact hpassed'
    · have hnew := hidle _ (List.mem_of_getElem? (getElem?_setPhase_self hu _))
      cases hnew
  | @store u number update value hu hphase =>
    have hstores : stores (events ++ [.store u]) = stores events ++ [u] := by simp [stores]
    have hway := underWay_prepared hphase
    have hother (v : Nat) (other : Update τ) (hv : s.updates[v]? = some other)
        (hway' : other.phase.underWay = true) : v = u := h.single hv hu hway' hway
    have hpassed := h.prepared hu hphase
    have hnone {v : Nat} {w : Update τ}
        (hw : (s.setPhase u update (.stored number)).updates[v]? = some w)
        (hway' : w.phase.underWay = true) : False := by
      obtain ⟨-, rfl⟩ := underWay_setPhase hu hother hw hway'
      cases hway'
    refine ⟨fun hw hw' hway hway' ↦ (hnone hw hway).elim,
      fun hw hloaded ↦ (hnone hw (underWay_loaded hloaded)).elim,
      fun hw hprepared ↦ (hnone hw (underWay_prepared hprepared)).elim, fun _ ↦ ?_⟩
    rw [hstores, List.zipIdx_append, ← ht.replaced]
    exact hpassed.trans (by simp)

theorem chained_of_run (run : SerialRun hook first events s) : Chained events s := by
  induction run with
  | new => exact chained_new hook first
  | event run e hstep turn ih => exact ih.step (traced_of_run run.run) (act_of_step hstep) turn

theorem Chained.exists_rest (h : Chained events s) :
    ∃ rest, s.passed = (stores events).zipIdx ++ rest ∧ ∀ x ∈ rest, x.2 = s.replaced.length := by
  by_cases hidle : ∀ update ∈ s.updates, update.phase.underWay = false
  · exact ⟨[], by rw [h.idle hidle, List.append_nil], fun x hx ↦ nomatch hx⟩
  · simp only [not_forall, Bool.not_eq_false] at hidle
    obtain ⟨update, hmem, hway⟩ := hidle
    obtain ⟨u, hu⟩ := List.getElem?_of_mem hmem
    cases hphase : update.phase with
    | begun => simp [hphase, UpdatePhase.underWay] at hway
    | stored n => simp [hphase, UpdatePhase.underWay] at hway
    | loaded n old =>
      exact ⟨[], by rw [(h.loaded hu hphase).2, List.append_nil], fun x hx ↦ nomatch hx⟩
    | prepared n value =>
      refine ⟨_, h.prepared hu hphase, fun x hx ↦ ?_⟩
      rw [List.mem_singleton.1 hx]

/-- A value that an update has replaced was passed on by this update and by no other. -/
theorem Chained.passed_once (h : Chained events s)
    (hreplaced : s.replaced.length = (stores events).length) {k u : Nat}
    (hk : (stores events)[k]? = some u) : (s.passed.filter fun x ↦ x.2 = k) = [(u, k)] := by
  obtain ⟨rest, hpassed, hrest⟩ := h.exists_rest
  have hlt : k < s.replaced.length := by
    rw [hreplaced]
    exact (List.getElem?_eq_some_iff.1 hk).1
  have hfirst := filter_snd_zipIdx hk 0
  rw [Nat.zero_add] at hfirst
  have hlast : (rest.filter fun x ↦ x.2 = k) = [] := by
    rw [List.filter_eq_nil_iff]
    intro x hx heq
    have hsame : x.2 = k := by simpa using heq
    exact Nat.lt_irrefl k (hlt.trans_eq ((hrest x hx).symm.trans hsame))
  rw [hpassed, List.filter_append, hfirst, hlast, List.append_nil]

/-! ## The chain -/

theorem filter_leftovers (k : Nat) (runtime : Bool) (x : Nat × Nat) :
    ((leftovers hook s runtime x).filter fun y ↦ y.1 = k) =
      if x.2 = k then leftovers hook s runtime x else [] := by
  have hfst : ∀ y ∈ leftovers hook s runtime x, y.1 = x.2 := by
    intro y hy
    unfold leftovers at hy
    split at hy
    · split at hy
      · obtain ⟨_, -, rfl⟩ := List.mem_map.1 hy
        rfl
      · cases hy
    · cases hy
  split
  · rename_i heq
    exact List.filter_eq_self.2 fun y hy ↦ by simpa using (hfst y hy).trans heq
  · rename_i hne
    exact List.filter_eq_nil_iff.2 fun y hy heq ↦ hne ((hfst y hy).symm.trans (by simpa using heq))

theorem filter_flatMap_leftovers (k : Nat) (runtime : Bool) (passed : List (Nat × Nat)) :
    ((passed.flatMap (leftovers hook s runtime)).filter fun y ↦ y.1 = k) =
      (passed.filter fun x ↦ x.2 = k).flatMap (leftovers hook s runtime) := by
  induction passed with
  | nil => rfl
  | cons x rest ih =>
    rw [List.flatMap_cons, List.filter_append, ih, filter_leftovers, List.filter_cons]
    by_cases heq : x.2 = k
    · simp [heq]
    · simp [heq]

/-- For any interleaving of any number of updates. Each hook gets the value that its update has
loaded, and this is the only hook call of the update. So a value is passed on by exactly those
updates that load it while it is in force, whoever replaces it, and what it leaves is scheduled once
for each of them that runs inside a runtime, and let go of at once for the others. If updates take
turns, each replaced value is passed on exactly once, by the update that replaced it, and what it
leaves is scheduled or let go of once. -/
theorem loaded_values_passed_on (run : Run hook first events s) :
    s.passed.map Prod.fst = prepares events ∧ (prepares events).Nodup ∧
      (∀ u n, (u, n) ∈ s.passed ↔ (u, n) ∈ loads 0 events ∧ u ∈ prepares events) ∧
      s.replaced.length = (stores events).length ∧
      (∀ k u, (stores events)[k]? = some u → ∃ n value, (u, n) ∈ s.passed ∧
        Becomes hook s u n value ∧ s.values[k + 1]? = some value) ∧
      (∀ k, (s.scheduled.filter fun y ↦ y.1 = k) =
        (s.passed.filter fun x ↦ x.2 = k).flatMap (leftovers hook s true)) ∧
      (∀ k, (s.dropped.filter fun y ↦ y.1 = k) =
        (s.passed.filter fun x ↦ x.2 = k).flatMap (leftovers hook s false)) ∧
      (SerialRun hook first events s → ∀ k u, (stores events)[k]? = some u →
        (s.passed.filter fun x ↦ x.2 = k) = [(u, k)] ∧
          (s.scheduled.filter fun y ↦ y.1 = k) = leftovers hook s true (u, k) ∧
          (s.dropped.filter fun y ↦ y.1 = k) = leftovers hook s false (u, k)) := by
  have h := traced_of_run run
  have hscheduled (k : Nat) : (s.scheduled.filter fun y ↦ y.1 = k) =
      (s.passed.filter fun x ↦ x.2 = k).flatMap (leftovers hook s true) := by
    rw [h.scheduled, filter_flatMap_leftovers]
  have hdropped (k : Nat) : (s.dropped.filter fun y ↦ y.1 = k) =
      (s.passed.filter fun x ↦ x.2 = k).flatMap (leftovers hook s false) := by
    rw [h.dropped, filter_flatMap_leftovers]
  refine ⟨h.passed, h.prepares_nodup, fun u n ↦ ⟨fun hpassed ↦ ⟨h.loaded hpassed, ?_⟩, ?_⟩,
    h.replaced, h.stored, hscheduled, hdropped, fun serial k u hk ↦ ?_⟩
  · rw [← h.passed]
    exact List.mem_map_of_mem hpassed
  · rintro ⟨hload, hprepared⟩
    rw [← h.passed] at hprepared
    obtain ⟨⟨u', m⟩, hpassed, rfl⟩ := List.mem_map.1 hprepared
    rwa [← List.inj_on_of_nodup_map h.loads_nodup (h.loaded hpassed) hload rfl]
  · have honce := (chained_of_run serial).passed_once h.replaced hk
    rw [hscheduled, hdropped, honce, List.flatMap_singleton, List.flatMap_singleton]
    exact ⟨rfl, rfl, rfl⟩

/-- Two updates follow one another, the second one outside of a runtime. -/
theorem replaced_values_passed_on_once :
    ∃ events, ∃ s : SharedConfig Nat Nat,
      SerialRun (.building id fun old ↦ [old]) 10 events s ∧ s.values = [10, 11, 12] ∧
        (s.passed.filter fun x ↦ x.2 = 0) = [(0, 0)] ∧
        (s.scheduled.filter fun y ↦ y.1 = 0) = [(0, 10)] ∧
        (s.passed.filter fun x ↦ x.2 = 1) = [(1, 1)] ∧
        (s.scheduled.filter fun y ↦ y.1 = 1) = [] ∧
        (s.dropped.filter fun y ↦ y.1 = 1) = [(1, 11)] := by
  have run : SerialRun (.building id fun old ↦ [old]) 10 _ _ :=
    .event (e := .store 1) (h := rfl) (t := fun _ h ↦ nomatch h) <|
    .event (e := .prepare 1) (h := rfl) (t := fun _ h ↦ nomatch h) <|
    .event (e := .load 1) (h := rfl) (t := fun _ _ ↦ by decide) <|
    .event (e := .store 0) (h := rfl) (t := fun _ h ↦ nomatch h) <|
    .event (e := .prepare 0) (h := rfl) (t := fun _ h ↦ nomatch h) <|
    .event (e := .load 0) (h := rfl) (t := fun _ _ ↦ by decide) <|
    .event (e := .call 12 false) (h := rfl) (t := fun _ h ↦ nomatch h) <|
    .event (e := .call 11 true) (h := rfl) (t := fun _ h ↦ nomatch h) .new
  obtain ⟨-, -, -, -, -, -, -, hserial⟩ := loaded_values_passed_on run.run
  obtain ⟨hfirst, hscheduled, -⟩ := hserial run 0 0 rfl
  obtain ⟨hsecond, hnone, hdropped⟩ := hserial run 1 1 rfl
  exact ⟨_, _, run, rfl, hfirst, hscheduled, hsecond, hnone, hdropped⟩

/-- Two updates load the first value before either has stored its own. That value is passed on
twice, and the one that is stored first is passed on by nobody. Outside of a runtime nothing is
scheduled even if updates take turns. -/
theorem overlapping_updates_skip_value :
    (∃ events, ∃ s : SharedConfig Nat Nat,
      Run (.building id fun old ↦ [old]) 10 events s ∧ stores events = [0, 1] ∧
        s.values = [10, 11, 12] ∧ (s.passed.filter fun x ↦ x.2 = 0) = [(0, 0), (1, 0)] ∧
        (s.passed.filter fun x ↦ x.2 = 1) = [] ∧ s.scheduled = [(0, 10), (0, 10)]) ∧
      ∃ events, ∃ s : SharedConfig Nat Nat,
        SerialRun (.building id fun old ↦ [old]) 10 events s ∧ s.values = [10, 11] ∧
          s.scheduled = [] ∧ s.dropped = [(0, 10)] := by
  have overlapping : Run (.building id fun old ↦ [old]) 10 _ _ :=
    .event (e := .store 1) (h := rfl) <|
    .event (e := .store 0) (h := rfl) <|
    .event (e := .prepare 1) (h := rfl) <|
    .event (e := .prepare 0) (h := rfl) <|
    .event (e := .load 1) (h := rfl) <|
    .event (e := .load 0) (h := rfl) <|
    .event (e := .call 12 true) (h := rfl) <|
    .event (e := .call 11 true) (h := rfl) .new
  have serial : SerialRun (.building id fun old ↦ [old]) 10 _ _ :=
    .event (e := .store 0) (h := rfl) (t := fun _ h ↦ nomatch h) <|
    .event (e := .prepare 0) (h := rfl) (t := fun _ h ↦ nomatch h) <|
    .event (e := .load 0) (h := rfl) (t := fun _ _ ↦ by decide) <|
    .event (e := .call 11 false) (h := rfl) (t := fun _ h ↦ nomatch h) .new
  exact ⟨⟨_, _, overlapping, rfl, rfl, rfl, rfl, rfl⟩, _, _, serial, rfl, rfl, rfl⟩

end SharedConfig

end Outbound
