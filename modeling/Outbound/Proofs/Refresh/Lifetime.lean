import Outbound.Proofs.Refresh.Custody
import Outbound.Proofs.Refresh.Outcomes

/-!
# How long an instance lives

A replaced instance is passed on to a task that keeps it for the close delay, and after that lives
only as long as somebody uses it. What holds of all timelines holds of all runs, each of which is
one by `Run.timeline`.
-/

namespace Outbound

variable {γ ε : Type}

/-- The task of an instance that was replaced at time `t`. On a prompt clock it begins at once and
ends when it is due. -/
structure Grace.Timed (prompt : Prop) (delay now t : Time) (g : Grace) : Prop where
  since_ge : t ≤ g.since
  since_le : g.since ≤ now
  since_eq : prompt → g.since = t
  spawned : prompt → g.phase = .spawned → g.since = now
  due_ge : ∀ due, g.phase = .sleeping due → g.since + delay ≤ due
  due_eq : prompt → ∀ due, g.phase = .sleeping due → due = g.since + delay ∧ now ≤ due
  ended : g.phase = .done → g.since + delay ≤ now

namespace Grace.Timed

variable {prompt : Prop} {delay now later t : Time} {g : Grace}

theorem wait (h : g.Timed prompt delay now t) (hle : now ≤ later)
    (hidle : prompt → g.phase.idleUntil later = true) : g.Timed prompt delay later t := by
  refine ⟨h.since_ge, h.since_le.trans hle, h.since_eq, ?_, h.due_ge, ?_, ?_⟩
  · intro hprompt hphase
    have hnot := hidle hprompt
    rw [hphase] at hnot
    cases hnot
  · intro hprompt due hphase
    have hdue := hidle hprompt
    rw [hphase] at hdue
    exact ⟨(h.due_eq hprompt due hphase).1, of_decide_eq_true hdue⟩
  · intro hphase
    exact (h.ended hphase).trans hle

theorem begin (h : g.Timed prompt delay now t) (hphase : g.phase = .spawned) :
    ({ g with phase := .sleeping (now + delay) } : Grace).Timed prompt delay now t := by
  refine ⟨h.since_ge, h.since_le, h.since_eq, ?_, ?_, ?_, ?_⟩
  · intro _ hspawned
    cases hspawned
  · intro due hdue
    cases hdue
    exact Nat.add_le_add_right h.since_le delay
  · intro hprompt due hdue
    cases hdue
    have hsince : g.since = now := h.spawned hprompt hphase
    exact ⟨by rw [hsince], Nat.le_add_right now delay⟩
  · intro hdone
    cases hdone

theorem finish (h : g.Timed prompt delay now t) {due : Time} (hphase : g.phase = .sleeping due)
    (hdue : due ≤ now) : ({ g with phase := .done } : Grace).Timed prompt delay now t := by
  refine ⟨h.since_ge, h.since_le, h.since_eq, ?_, ?_, ?_, ?_⟩
  · intro _ hspawned
    cases hspawned
  · intro due' hdue'
    cases hdue'
  · intro _ due' hdue'
    cases hdue'
  · intro _
    exact (h.due_ge due hphase).trans hdue

theorem new (n : Nat) (ht : t ≤ now) (heq : prompt → t = now) :
    (⟨n, now, .spawned⟩ : Grace).Timed prompt delay now t := by
  refine ⟨ht, le_rfl, fun hprompt ↦ (heq hprompt).symm, fun _ _ ↦ rfl, ?_, ?_, ?_⟩
  · intro due hdue
    cases hdue
  · intro _ due hdue
    cases hdue
  · intro hdone
    cases hdone

end Grace.Timed

/-- Every replaced instance is in the hands of a caller or has a task, and all that is done about
it comes in time. -/
structure Custody.Dated (prompt : Prop) (delay now : Time) (replaced : List (Nat × Time))
    (v : Custody) : Prop where
  replaced_eq : replaced.map Prod.fst = List.range v.current
  past : ∀ x ∈ replaced, x.2 ≤ now
  hands : ∀ n, some (.replaced n) ∈ v.hands → ∃ t, (n, t) ∈ replaced ∧ (prompt → t = now)
  graces : ∀ g ∈ v.graces, ∃ t, (g.client, t) ∈ replaced ∧ g.Timed prompt delay now t
  kept : v.runtime = true → ∀ x ∈ replaced,
    some (.replaced x.1) ∈ v.hands ∨ ∃ g ∈ v.graces, g.client = x.1
  dropped : v.runtime = false → v.graces = []

namespace Custody.Dated

variable {prompt : Prop} {delay now later : Time} {replaced : List (Nat × Time)} {v v' : Custody}
  {next n : Nat} {t t' : Time}

/-- An instance is replaced once. -/
theorem time_unique (h : v.Dated prompt delay now replaced) (ht : (n, t) ∈ replaced)
    (ht' : (n, t') ∈ replaced) : t = t' := by
  have hnodup : (replaced.map Prod.fst).Nodup := by
    rw [h.replaced_eq]
    exact List.nodup_range
  have heq := List.inj_on_of_nodup_map hnodup ht ht' rfl
  exact congrArg Prod.snd heq

theorem lt_current (h : v.Dated prompt delay now replaced) (ht : (n, t) ∈ replaced) :
    n < v.current := by
  have hmem : n ∈ replaced.map Prod.fst := List.mem_map.2 ⟨(n, t), ht, rfl⟩
  rw [h.replaced_eq] at hmem
  exact List.mem_range.1 hmem

theorem wait (h : v.Dated prompt delay now replaced) (hle : now ≤ later)
    (hhands : prompt → ∀ n, some (.replaced n) ∉ v.hands)
    (hgraces : prompt → ∀ g ∈ v.graces, g.phase.idleUntil later = true) :
    v.Dated prompt delay later replaced := by
  refine ⟨h.replaced_eq, fun x hx ↦ (h.past x hx).trans hle, ?_, ?_, h.kept, h.dropped⟩
  · intro n hn
    obtain ⟨t, ht, -⟩ := h.hands n hn
    exact ⟨t, ht, fun hprompt ↦ absurd hn (hhands hprompt n)⟩
  · intro g hg
    obtain ⟨t, ht, htimed⟩ := h.graces g hg
    exact ⟨t, ht, htimed.wait hle fun hprompt ↦ hgraces hprompt g hg⟩

theorem same (h : v.Dated prompt delay now replaced) (hruntime : v'.runtime = v.runtime)
    (hcurrent : v'.current = v.current)
    (hhands : ∀ n, some (.replaced n) ∈ v'.hands ↔ some (.replaced n) ∈ v.hands)
    (hgraces : v'.graces = v.graces) : v'.Dated prompt delay now replaced := by
  refine ⟨?_, h.past, ?_, ?_, ?_, ?_⟩
  · rw [hcurrent]
    exact h.replaced_eq
  · intro n hn
    exact h.hands n ((hhands n).1 hn)
  · rw [hgraces]
    exact h.graces
  · intro hpossible x hx
    rw [hruntime] at hpossible
    rw [hhands, hgraces]
    exact h.kept hpossible x hx
  · rw [hruntime, hgraces]
    exact h.dropped

/-- The task of a replaced instance goes on. -/
theorem task (h : v.Dated prompt delay now replaced) {k : Nat} {g g' : Grace}
    (hg : v.graces[k]? = some g) (hclient : g'.client = g.client)
    (htimed : ∀ t, g.Timed prompt delay now t → g'.Timed prompt delay now t) (owners : Owners Nat) :
    ({ v with graces := v.graces.set k g', owners } : Custody).Dated prompt delay now replaced := by
  refine ⟨h.replaced_eq, h.past, h.hands, ?_, ?_, ?_⟩
  · intro g₁ hg₁
    rcases List.mem_or_eq_of_mem_set hg₁ with hold | rfl
    · exact h.graces g₁ hold
    · obtain ⟨t, ht, hg⟩ := h.graces g (List.mem_of_getElem? hg)
      exact ⟨t, hclient ▸ ht, htimed t hg⟩
  · intro hpossible x hx
    rcases h.kept hpossible x hx with hhand | ⟨g₁, hg₁, hx₁⟩
    · exact .inl hhand
    · by_cases heq : g₁ = g
      · have hlt := (List.getElem?_eq_some_iff.1 hg).1
        exact .inr ⟨g', List.mem_set hlt g', by rw [hclient, ← heq, hx₁]⟩
      · exact .inr ⟨g₁, (mem_set_iff_of_ne hg heq g').2 (.inr hg₁), hx₁⟩
  · intro hruntime
    have hnone : v.graces = [] := h.dropped hruntime
    rw [hnone] at hg
    cases hg

/-- The current instance gives way to the next one and is in the hands of a caller. -/
theorem replace (h : v.Dated prompt delay now replaced) {k : Nat}
    (hand : v.hands[k]? = some none) (owners : Owners Nat) :
    ({ v with
      current := v.current + 1
      hands := v.hands.set k (some (.replaced v.current))
      owners } : Custody).Dated prompt delay now (replaced ++ [(v.current, now)]) := by
  have hhands (n : Nat) : some (.replaced n) ∈ v.hands.set k (some (.replaced v.current)) ↔
      n = v.current ∨ some (.replaced n) ∈ v.hands := by
    rw [mem_set_iff_of_ne hand (by simp)]
    simp
  refine ⟨?_, ?_, ?_, ?_, ?_, h.dropped⟩
  · rw [List.map_append, h.replaced_eq, List.range_succ]
    rfl
  · intro x hx
    rcases List.mem_append.1 hx with hx | hx
    · exact h.past x hx
    · rw [List.mem_singleton.1 hx]
  · intro n hn
    rcases (hhands n).1 hn with rfl | hn
    · exact ⟨now, by simp, fun _ ↦ rfl⟩
    · obtain ⟨t, ht, hnow⟩ := h.hands n hn
      exact ⟨t, List.mem_append_left _ ht, hnow⟩
  · intro g hg
    obtain ⟨t, ht, htimed⟩ := h.graces g hg
    exact ⟨t, List.mem_append_left _ ht, htimed⟩
  · intro hpossible x hx
    rw [hhands]
    rcases List.mem_append.1 hx with hx | hx
    · rcases h.kept hpossible x hx with hhand | htask
      · exact .inl (.inr hhand)
      · exact .inr htask
    · rw [List.mem_singleton.1 hx]
      exact .inl (.inl rfl)

theorem keep (h : v.Dated prompt delay now replaced) {k old : Nat}
    (hand : v.hands[k]? = some (some (.replaced old))) (possible : v.runtime = true) :
    ({ v with
      hands := v.hands.set k none
      graces := v.graces ++ [⟨old, now, .spawned⟩] } : Custody).Dated
        prompt delay now replaced := by
  refine ⟨h.replaced_eq, h.past, ?_, ?_, ?_, ?_⟩
  · intro n hn
    rcases List.mem_or_eq_of_mem_set hn with hn | hn
    · exact h.hands n hn
    · cases hn
  · intro g hg
    rcases List.mem_append.1 hg with hg | hg
    · exact h.graces g hg
    · obtain ⟨t, ht, hnow⟩ := h.hands old (List.mem_of_getElem? hand)
      rw [List.mem_singleton.1 hg]
      exact ⟨t, ht, .new old (h.past _ ht) hnow⟩
  · intro _ x hx
    rcases h.kept possible x hx with hhand | ⟨g, hg, hx⟩
    · by_cases heq : x.1 = old
      · exact .inr ⟨_, List.mem_append_right _ (List.mem_singleton_self _), heq.symm⟩
      · exact .inl ((mem_set_iff_of_ne hand (by simpa using heq) none).2 (.inr hhand))
    · exact .inr ⟨g, List.mem_append_left _ hg, hx⟩
  · intro himpossible
    rw [possible] at himpossible
    cases himpossible

theorem transfer (h : v.Dated prompt delay now replaced)
    (ht : Transfer now delay (v.current + 1) v v') :
    v'.Dated prompt delay now
      (replaced ++ if v'.current = v.current then [] else [(v.current, now)]) := by
  have hkept {v' : Custody} (hcurrent : v'.current = v.current)
      (h' : v'.Dated prompt delay now replaced) : v'.Dated prompt delay now
        (replaced ++ if v'.current = v.current then [] else [(v.current, now)]) := by
    rw [if_pos hcurrent, List.append_nil]
    exact h'
  cases ht with
  | aside => exact hkept rfl h
  | enter => exact hkept rfl (h.same rfl rfl (fun n ↦ by simp) rfl)
  | operate => exact hkept rfl (h.same rfl rfl (fun n ↦ by simp) rfl)
  | finish k client hand =>
    refine hkept rfl (h.same rfl rfl (fun n ↦ ?_) rfl)
    rw [mem_set_iff_of_ne hand (by simp)]
    simp
  | replace k hand =>
    rw [if_neg (Nat.succ_ne_self v.current)]
    exact h.replace hand _
  | keep k old hand possible => exact hkept rfl (h.keep hand possible)
  | drop k old hand impossible =>
    refine hkept rfl ⟨h.replaced_eq, h.past, ?_, h.graces, ?_, h.dropped⟩
    · intro n hn
      rcases List.mem_or_eq_of_mem_set hn with hn | hn
      · exact h.hands n hn
      · cases hn
    · intro hpossible
      rw [impossible] at hpossible
      cases hpossible
  | hold => exact hkept rfl (h.same rfl rfl (fun n ↦ Iff.rfl) rfl)
  | letGo client has => exact hkept rfl (h.same rfl rfl (fun n ↦ Iff.rfl) rfl)
  | sleep k g task phase =>
    refine hkept rfl (h.task task ?_ (fun t ht ↦ ht.begin phase) _)
    rfl
  | release k g due task phase passed =>
    refine hkept rfl (h.task task ?_ (fun t ht ↦ ht.finish phase passed) _)
    rfl

end Custody.Dated

namespace LiveRefreshable

variable {policy : RefreshPolicy} {factory : Factory ε} {runtime : Bool}
  {connected : Except ε γ} {s₀ s s' : LiveRefreshable γ ε} {start now later : Time} {prompt : Prop}
  {replaced : List (Nat × Time)} {x y z : Time × LiveRefreshable γ ε} {c : RefreshCaller γ ε}
  {k n : Nat}

theorem Timeline.run (h : Timeline prompt x replaced y) : ∃ events, Run x events y := by
  induction h with
  | refl => exact ⟨[], .refl⟩
  | wait _ hle _ ih =>
    obtain ⟨events, run⟩ := ih
    exact ⟨events, run.wait hle⟩
  | event _ e hs ih =>
    obtain ⟨events, run⟩ := ih
    exact ⟨events ++ [e], run.event e hs⟩

/-- Every run is a timeline, with some times of replacements. -/
theorem Run.timeline {events : List (Event γ ε)} (h : Run x events y) :
    ∃ replaced, Timeline False x replaced y := by
  induction h with
  | refl => exact ⟨[], .refl⟩
  | wait _ hle ih =>
    obtain ⟨replaced, timeline⟩ := ih
    exact ⟨replaced, timeline.wait hle False.elim⟩
  | event _ e hs ih =>
    obtain ⟨replaced, timeline⟩ := ih
    exact ⟨_, timeline.event e hs⟩

theorem timeline_of_watch {replaced' : List (Nat × Time)} {moves : List (Time × Event γ ε)}
    (h : Timeline True x replaced y) (hw : watch y replaced moves = some (replaced', z)) :
    Timeline True x replaced' z := by
  induction moves generalizing y replaced with
  | nil =>
    cases hw
    exact h
  | cons move rest ih =>
    obtain ⟨hidle, hw⟩ := Option.ite_none_right_eq_some.1 hw
    obtain ⟨s, hs, hrest⟩ := Option.bind_eq_some_iff.1 hw
    have hwait : Timeline True x replaced (y.1 + move.1, y.2) := by
      rcases hidle with hzero | hidle
      · rw [hzero]
        exact h
      · exact h.wait (Nat.le_add_right y.1 move.1) fun _ ↦ hidle
    exact ih (hwait.event move.2 hs) hrest

/-! ## What the owners of an instance are -/

theorem accounted_new (hnew : new factory policy runtime connected = .ok s) :
    s.custody.Accounted := by
  obtain ⟨client, -, rfl⟩ := new_eq_ok hnew
  intro n
  simp [custody, hands, Custody.shares, List.count_cons]

theorem accounted_of_run {events : List (Event γ ε)} (run : Run x events y)
    (h : x.2.custody.Accounted) : y.2.custody.Accounted := by
  induction run with
  | refl => exact h
  | wait _ _ ih => exact ih
  | event _ e hs ih => exact ih.transfer (transfers_step hs)

theorem operating_of_hand {p : CallerPhase γ ε} (h : p.hand? = some (.operation n)) :
    p = .operating n := by
  unfold CallerPhase.hand? at h
  split at h
  · cases h
    rfl
  · cases h
  · cases h
  · cases h

theorem references_pos_iff (p : CallerPhase γ ε) :
    0 < Hand.references n p.hand? ↔ p = .operating n ∨ p.hand? = some (.replaced n) := by
  constructor
  · intro hpos
    cases hhand : p.hand? with
    | none => simp [hhand] at hpos
    | some hand =>
      cases hand with
      | operation client =>
        have heq : client = n := by simpa [hhand, Nat.pos_iff_ne_zero] using hpos
        exact .inl (operating_of_hand (heq ▸ hhand))
      | replaced client =>
        have heq : client = n := by simpa [hhand, Nat.pos_iff_ne_zero] using hpos
        exact .inr (by rw [heq])
  · rintro (rfl | hhand)
    · simp [CallerPhase.hand?]
    · simp [hhand]

theorem sum_hands_pos_iff (s : LiveRefreshable γ ε) (n : Nat) :
    0 < (s.hands.map (Hand.references n)).sum ↔ (∃ c ∈ s.callers, c.phase = .operating n) ∨
      ∃ c ∈ s.callers, c.phase.hand? = some (.replaced n) := by
  rw [List.sum_pos_iff_exists_pos_nat, ← exists_or]
  simp only [hands, List.map_map, List.mem_map, Function.comp_apply, ← and_or_left,
    ← references_pos_iff, exists_exists_and_eq_and]

theorem sum_graces_pos_iff (graces : List Grace) (n : Nat) :
    0 < (graces.map (Grace.references n)).sum ↔ ∃ g ∈ graces, g.client = n ∧ g.phase ≠ .done := by
  have hpos (g : Grace) : 0 < g.references n ↔ g.client = n ∧ g.phase ≠ .done := by
    by_cases hdone : g.phase = .done <;> by_cases hn : g.client = n <;>
      simp [Grace.references, hdone, hn]
  rw [List.sum_pos_iff_exists_pos_nat]
  simp only [List.mem_map, exists_exists_and_eq_and, hpos]

/-- An instance lives as long as somebody has a reference to it. -/
theorem alive_iff (h : s.custody.Accounted) (n : Nat) :
    s.owners.alive n = true ↔ n = s.wrapper.current ∨ s.InUse n ∨ s.AwaitsRelease n := by
  have hcount : s.owners.refs.count n = s.custody.shares n := h n
  have hcurrent : 0 < (if s.wrapper.current = n then 1 else 0) ↔ n = s.wrapper.current := by
    split
    · rename_i heq
      simp [heq]
    · rename_i hne
      simpa using Ne.symm hne
  have hheld : 0 < s.held.count n ↔ n ∈ s.held := List.count_pos_iff
  have hshares : 0 < s.custody.shares n ↔ ((n = s.wrapper.current ∨
      (∃ c ∈ s.callers, c.phase = .operating n) ∨
        ∃ c ∈ s.callers, c.phase.hand? = some (.replaced n)) ∨ n ∈ s.held) ∨
      ∃ g ∈ s.graces, g.client = n ∧ g.phase ≠ .done := by
    rw [Custody.shares, Nat.add_pos_iff_pos_or_pos, Nat.add_pos_iff_pos_or_pos,
      Nat.add_pos_iff_pos_or_pos]
    exact or_congr (or_congr (or_congr hcurrent (s.sum_hands_pos_iff n)) hheld)
      (sum_graces_pos_iff s.graces n)
  rw [Owners.alive, List.contains_iff_mem, ← List.count_pos_iff, hcount, hshares, InUse,
    AwaitsRelease]
  simp only [or_assoc, or_comm, or_left_comm]

/-! ## When an instance is released -/

theorem dated_of_timeline (hnew : new factory policy runtime connected = .ok s₀)
    (h : Timeline prompt (start, s₀) replaced y) :
    y.2.custody.Dated prompt policy.closeDelay y.1 replaced := by
  induction h with
  | refl =>
    obtain ⟨client, -, rfl⟩ := new_eq_ok hnew
    refine ⟨rfl, ?_, ?_, ?_, ?_, fun _ ↦ rfl⟩
    · intro x hx
      cases hx
    · intro n hn
      cases hn
    · intro g hg
      cases hg
    · intro _ x hx
      cases hx
  | @wait replaced now later s _ hle idle ih =>
    refine ih.wait hle ?_ ?_
    · intro hprompt n hn
      obtain ⟨c, hc, hhand⟩ := List.mem_map.1 hn
      have hidle := List.all_eq_true.1 (Bool.and_eq_true_iff.1 (idle hprompt)).1 c hc
      rw [hhand] at hidle
      cases hidle
    · intro hprompt g hg
      exact List.all_eq_true.1 (Bool.and_eq_true_iff.1 (idle hprompt)).2 g hg
  | @event replaced now s s' timeline e hs ih =>
    -- The next instance gets the next number, which `Sound` knows of the run so far.
    obtain ⟨events, run⟩ := timeline.run
    have hsound : Sound policy now s.callers s.core := (sound_new hnew start).run run
    have hpolicy : s.wrapper.policy = policy := hsound.consistent.policy_eq
    have hnumbered : s.instances.length = s.wrapper.current + 1 := hsound.consistent.numbered
    have htransfer := transfers_step hs
    rw [Transfers, hpolicy, hnumbered] at htransfer
    exact ih.transfer htransfer

theorem runtime_of_run (hnew : new factory policy runtime connected = .ok s₀)
    {events : List (Event γ ε)} (run : Run (start, s₀) events y) : y.2.runtime = runtime := by
  induction run with
  | refl =>
    obtain ⟨client, -, rfl⟩ := new_eq_ok hnew
    rfl
  | wait _ _ ih => exact ih
  | event _ e hs ih => exact (transfers_step hs).runtime_eq.trans ih

theorem awaitsRelease_cases (h : s.AwaitsRelease n) :
    some (.replaced n) ∈ s.hands ∨ ∃ g ∈ s.graces, g.client = n ∧ g.phase ≠ .done := by
  refine h.imp ?_ id
  rintro ⟨c, hc, hhand⟩
  exact List.mem_map.2 ⟨c, hc, hhand⟩

/-- A task goes on when it is due, and no sooner. -/
theorem exists_step_grace_iff {g : Grace} (hg : s.graces[k]? = some g) (t : Time) :
    (∃ s', s.step t (.grace k) = some s') ↔
      g.phase = .spawned ∨ ∃ due, g.phase = .sleeping due ∧ due ≤ t := by
  simp only [step, hg, Option.bind_eq_bind, Option.bind_some, actGrace]
  cases g.phase with
  | spawned => simp
  | sleeping due => simp
  | done => simp

/-- The holder of a replaced instance can go on at once. -/
theorem exists_step_of_replaced (hc : s.callers[k]? = some c)
    (hhand : c.phase.hand? = some (.replaced n)) (t : Time) :
    ∃ s', s.step t (.act k) = some s' := by
  rw [step_act hc, act]
  cases hphase : c.phase with
  | holding since found phase =>
    rw [hphase] at hhand
    cases phase with
    | swapped old => exact ⟨_, rfl⟩
    | counted old => exact ⟨_, rfl⟩
    | _ => cases hhand
  | _ =>
    rw [hphase] at hhand
    cases hhand

theorem isHolding_of_replaced (hhand : c.phase.hand? = some (.replaced n)) :
    c.phase.isHolding = true := by
  cases hphase : c.phase with
  | holding since found phase => rfl
  | _ =>
    rw [hphase] at hhand
    cases hhand

section Dated

variable {delay t : Time} (h : s.custody.Dated prompt delay now replaced)

include h

theorem exists_replaced_of_awaitsRelease (hawaits : s.AwaitsRelease n) :
    ∃ t, (n, t) ∈ replaced := by
  rcases awaitsRelease_cases hawaits with hhand | ⟨g, hg, rfl, -⟩
  · obtain ⟨t, ht, -⟩ := h.hands n hhand
    exact ⟨t, ht⟩
  · obtain ⟨t, ht, -⟩ := h.graces g hg
    exact ⟨t, ht⟩

/-- An instance that is not kept any more was kept for the close delay. -/
theorem kept_for_delay (hpossible : s.runtime = true) (ht : (n, t) ∈ replaced)
    (hreleased : ¬ s.AwaitsRelease n) : t + delay ≤ now := by
  rcases h.kept hpossible (n, t) ht with hhand | ⟨g, hg, hclient⟩
  · obtain ⟨c, hc, hhand⟩ := List.mem_map.1 hhand
    exact absurd (.inl ⟨c, hc, hhand⟩) hreleased
  · have hdone : g.phase = .done := by
      by_contra hphase
      exact hreleased (.inr ⟨g, hg, hclient, hphase⟩)
    obtain ⟨t', ht', htimed⟩ := h.graces g hg
    rw [hclient] at ht'
    have heq : t = t' := h.time_unique ht ht'
    calc t + delay = t' + delay := by rw [heq]
      _ ≤ g.since + delay := Nat.add_le_add_right htimed.since_ge delay
      _ ≤ now := htimed.ended hdone

/-- On a prompt clock, no instance is kept for longer than the close delay. -/
theorem kept_no_longer (hprompt : prompt) (ht : (n, t) ∈ replaced)
    (hawaits : s.AwaitsRelease n) : now ≤ t + delay := by
  rcases awaitsRelease_cases hawaits with hhand | ⟨g, hg, rfl, hrunning⟩
  · obtain ⟨t', ht', hnow⟩ := h.hands n hhand
    rw [h.time_unique ht ht', hnow hprompt]
    exact Nat.le_add_right now delay
  · obtain ⟨t', ht', htimed⟩ := h.graces g hg
    have hsince : g.since = t := (htimed.since_eq hprompt).trans (h.time_unique ht' ht)
    cases hphase : g.phase with
    | spawned =>
      rw [← hsince, htimed.spawned hprompt hphase]
      exact Nat.le_add_right now delay
    | sleeping due =>
      obtain ⟨rfl, hnow⟩ := htimed.due_eq hprompt due hphase
      rwa [hsince] at hnow
    | done => exact absurd hphase hrunning

/-- The task of a replaced instance sleeps for the close delay. -/
theorem task_of_grace {g : Grace} (hg : s.graces[k]? = some g) : ∃ t, (g.client, t) ∈ replaced ∧
    (g.phase = .done → t + delay ≤ now) ∧
    ∀ due, g.phase = .sleeping due → t + delay ≤ due ∧ (prompt → due = t + delay) := by
  obtain ⟨t, ht, htimed⟩ := h.graces g (List.mem_of_getElem? hg)
  have hsince : t + delay ≤ g.since + delay := Nat.add_le_add_right htimed.since_ge delay
  refine ⟨t, ht, fun hphase ↦ hsince.trans (htimed.ended hphase), fun due hphase ↦ ?_⟩
  refine ⟨hsince.trans (htimed.due_ge due hphase), fun hprompt ↦ ?_⟩
  rw [(htimed.due_eq hprompt due hphase).1, htimed.since_eq hprompt]

end Dated

/-- Whatever happens and however long it takes: an instance is alive while it is current, while an
operation or somebody outside uses it, and from its replacement until its release, and at no other
time. With a runtime the release is due the close delay after the replacement, and no instance
outlives both that delay and its last user. Without one, a replaced instance is released as soon as
the refresh is over. -/
theorem alive_iff_current_or_used_or_awaits_release
    (hnew : new factory policy runtime connected = .ok s₀)
    (timeline : Timeline prompt (start, s₀) replaced (now, s)) :
    (∀ n, s.owners.alive n = true ↔ n = s.wrapper.current ∨ s.InUse n ∨ s.AwaitsRelease n) ∧
    (s.wrapper.busy = false → s.instances = s.connects.filterMap Except.toOption) ∧
    s.instances.length = s.wrapper.current + 1 ∧
    replaced.map Prod.fst = List.range s.wrapper.current ∧
    (∀ n, s.AwaitsRelease n → ∃ t, (n, t) ∈ replaced) ∧
    (∀ n t, (n, t) ∈ replaced →
      (runtime = true → ¬ s.AwaitsRelease n → t + policy.closeDelay ≤ now) ∧
      (prompt → s.AwaitsRelease n → now ≤ t + policy.closeDelay) ∧
      (prompt → t + policy.closeDelay < now → ¬ s.InUse n → s.owners.alive n = false)) ∧
    (∀ k g, s.graces[k]? = some g →
      (∃ t, (g.client, t) ∈ replaced ∧ (g.phase = .done → t + policy.closeDelay ≤ now) ∧
        ∀ due, g.phase = .sleeping due → t + policy.closeDelay ≤ due ∧
          (prompt → due = t + policy.closeDelay)) ∧
      ∀ later, (∃ s', s.step later (.grace k) = some s') ↔
        g.phase = .spawned ∨ ∃ due, g.phase = .sleeping due ∧ due ≤ later) ∧
    (∀ k c n, s.callers[k]? = some c → c.phase.hand? = some (.replaced n) →
      ∃ s', s.step now (.act k) = some s') ∧
    (runtime = false → s.graces = [] ∧ (s.wrapper.busy = false → ∀ n, ¬ s.AwaitsRelease n)) ∧
    ∀ c ∈ s.callers, ∀ n, c.phase = .operating n → s.owners.alive n = true := by
  obtain ⟨events, run⟩ := timeline.run
  have hsound : Sound policy now s.callers s.core := (sound_new hnew start).run run
  have hdated : s.custody.Dated prompt policy.closeDelay now replaced :=
    dated_of_timeline hnew timeline
  have halive := alive_iff (accounted_of_run run (accounted_new hnew))
  have hruntime : s.runtime = runtime := runtime_of_run hnew run
  refine ⟨halive, fun hbusy ↦ ?_, hsound.consistent.numbered, hdated.replaced_eq,
    fun n ↦ exists_replaced_of_awaitsRelease hdated, fun n t ht ↦ ⟨?_, ?_, ?_⟩,
    fun k g hg ↦ ⟨task_of_grace hdated hg, exists_step_grace_iff hg⟩,
    fun k c n hc hhand ↦ exists_step_of_replaced hc hhand now,
    fun himpossible ↦ ?_, fun c hc n hphase ↦ (halive n).2 (.inr (.inl (.inl ⟨c, hc, hphase⟩)))⟩
  · have hclients := (hsound.free hbusy).balanced.clients
    rw [List.append_nil] at hclients
    exact hclients.symm
  · intro hpossible hreleased
    exact kept_for_delay hdated (hruntime.trans hpossible) ht hreleased
  · intro hprompt hawaits
    exact kept_no_longer hdated hprompt ht hawaits
  · intro hprompt hpast hunused
    by_contra hlives
    rcases (halive n).1 (Bool.eq_true_of_not_eq_false hlives) with hcurrent | huse | hawaits
    · exact (hdated.lt_current ht).ne hcurrent
    · exact hunused huse
    · exact absurd (kept_no_longer hdated hprompt ht hawaits) (Nat.not_le.2 hpast)
  · have hnone : s.graces = [] := hdated.dropped (hruntime.trans himpossible)
    refine ⟨hnone, fun hbusy n hawaits ↦ ?_⟩
    rcases hawaits with ⟨c, hc, hhand⟩ | ⟨g, hg, -⟩
    · obtain ⟨k, hk⟩ := List.mem_iff_getElem?.1 hc
      have hnobody := (hsound.free hbusy).nobody k c hk
      rw [isHolding_of_replaced hhand] at hnobody
      cases hnobody
    · rw [hnone] at hg
      cases hg

/-- An operation is still running on the first instance when two refreshes have replaced it and its
successor. The first close delay is over, and the second is not. -/
theorem two_instances_outlive_replacement :
    ∃ s₀ s : LiveRefreshable Nat String,
      new ⟨"fake", fun _ ↦ true⟩ ⟨0, 10⟩ true (.ok 0) = .ok s₀ ∧
      Timeline True (0, s₀) [(0, 0), (1, 5)] (12, s) ∧
      s.InUse 0 ∧ ¬ s.AwaitsRelease 0 ∧ s.owners.alive 0 = true ∧
      ¬ s.InUse 1 ∧ s.AwaitsRelease 1 ∧ s.owners.alive 1 = true ∧
      s.wrapper.current = 2 ∧ s.owners.alive 2 = true ∧
      ∃ s', s.step 12 (.finish 0 none) = some s' ∧ s'.owners.alive 0 = false := by
  obtain ⟨s₀, hnew, s, hwatch, hcurrent, hhands, hheld, hgraces, s', hs', hdead⟩ :
      ∃ s₀ : LiveRefreshable Nat String,
        new ⟨"fake", fun _ ↦ true⟩ ⟨0, 10⟩ true (.ok 0) = .ok s₀ ∧
        ∃ s, watch (0, s₀) [] [(0, .call none .execute),
          (0, .call none .refresh), (0, .act 1), (0, .act 1), (0, .act 1), (0, .act 1), (0, .act 1),
          (0, .connected 1 (.ok 1)), (0, .act 1), (0, .act 1), (0, .act 1), (0, .act 1),
          (0, .act 1), (0, .grace 0),
          (5, .call none .refresh), (0, .act 2), (0, .act 2), (0, .act 2), (0, .act 2), (0, .act 2),
          (0, .connected 2 (.ok 2)), (0, .act 2), (0, .act 2), (0, .act 2), (0, .act 2),
          (0, .act 2), (0, .grace 1),
          (5, .grace 0), (2, .hold)] = some ([(0, 0), (1, 5)], 12, s) ∧
          s.wrapper.current = 2 ∧ s.hands = [some (.operation 0), none, none] ∧ s.held = [2] ∧
          s.graces = [⟨0, 0, .done⟩, ⟨1, 5, .sleeping 15⟩] ∧
          ∃ s', s.step 12 (.finish 0 none) = some s' ∧ s'.owners.alive 0 = false :=
    ⟨_, rfl, _, rfl, rfl, rfl, rfl, rfl, _, rfl, rfl⟩
  have timeline : Timeline True (0, s₀) [(0, 0), (1, 5)] (12, s) := timeline_of_watch .refl hwatch
  obtain ⟨halive, -⟩ := alive_iff_current_or_used_or_awaits_release hnew timeline
  have huse : s.InUse 0 := by
    have hmem : some (.operation 0) ∈ s.hands := by simp [hhands]
    obtain ⟨c, hc, hhand⟩ := List.mem_map.1 hmem
    exact .inl ⟨c, hc, operating_of_hand hhand⟩
  have hunused : ¬ s.InUse 1 := by
    rintro (⟨c, hc, hphase⟩ | hmem)
    · have hmem : some (.operation 1) ∈ s.hands := List.mem_map.2 ⟨c, hc, by rw [hphase]; rfl⟩
      simp [hhands] at hmem
    · simp [hheld] at hmem
  have hreleased : ¬ s.AwaitsRelease 0 := by
    intro hawaits
    rcases awaitsRelease_cases hawaits with hmem | ⟨g, hg, hclient, hphase⟩
    · simp [hhands] at hmem
    · rcases (by simpa [hgraces] using hg : g = _ ∨ g = _) with rfl | rfl
      · exact hphase rfl
      · cases hclient
  have hawaits : s.AwaitsRelease 1 :=
    .inr ⟨⟨1, 5, .sleeping 15⟩, by simp [hgraces], rfl, by decide⟩
  exact ⟨s₀, s, hnew, timeline, huse, hreleased, (halive 0).2 (.inr (.inl huse)), hunused,
    hawaits, (halive 1).2 (.inr (.inr hawaits)), hcurrent, (halive 2).2 (.inl hcurrent.symm), s',
    hs', hdead⟩

end LiveRefreshable

end Outbound
