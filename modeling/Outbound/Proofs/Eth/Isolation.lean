import Outbound.Proofs.Eth.Watching

/-!
# Whoever leaves changes nothing for the others

What a caller returns, and when, follows from its own call, from what cancels its context and from
the times at which windows end and attempts are made. All of this is the same in two runs that
differ in nothing but the departure of another caller, although their batches hold other calls,
or one of them sends no batch at all.
-/

namespace Outbound.Eth

open LaneLog OpenWindow Relation

variable {ι : Type} [DecidableEq ι] {x : ι} {own : List Nat}

/-! ## What a script without a departure still tells -/

/-- The deed has nothing to do with the departure of a caller. -/
def Deed.Remains (x : ι) (own : List Nat) : Deed ι → Prop
  | cancel token => token ∉ own
  | call c => c.caller ≠ x
  | leave id => id ≠ x
  | _ => True

theorem Deed.without_eq_iff {d d' : Deed ι} (hremains : d.Remains x own) :
    d'.without x own = some d ↔ d' = d := by
  constructor
  · intro h
    cases d' with
    | cancel token =>
      simp only [without] at h
      split at h
      · cases h
      · exact Option.some.inj h
    | call c =>
      cases h
      by_cases heq : c.caller = x
      · rw [Remains, if_pos heq] at hremains
        exact absurd heq hremains
      · rw [if_neg heq]
    | leave id =>
      simp only [without] at h
      split at h
      · cases h
      · exact Option.some.inj h
    | _ => exact Option.some.inj h
  · rintro rfl
    cases d' with
    | cancel token => exact if_neg hremains
    | call c => exact congrArg (some ∘ call) (if_neg hremains)
    | leave id => exact if_neg hremains
    | _ => rfl

namespace Script

variable {script : Script ι}

theorem mem_without {t : Time} {d : Deed ι} (hremains : d.Remains x own) :
    (t, d) ∈ script.without x own ↔ (t, d) ∈ script := by
  rw [without, List.mem_filterMap]
  constructor
  · rintro ⟨⟨t', d'⟩, hmem, heq⟩
    obtain ⟨d'', hd, heq⟩ := Option.map_eq_some_iff.1 heq
    cases heq
    rw [Deed.without_eq_iff hremains] at hd
    subst hd
    exact hmem
  · intro hmem
    refine ⟨(t, d), hmem, ?_⟩
    rw [(Deed.without_eq_iff hremains).2 rfl]
    rfl

theorem parents_without (x : ι) (own : List Nat) (script : Script ι) :
    (script.without x own).parents = script.parents := by
  rw [parents, without, List.filterMap_filterMap, parents]
  congr 1
  funext y
  obtain ⟨t, d⟩ := y
  cases d with
  | cancel token =>
    simp only [Deed.without]
    split <;> rfl
  | leave id =>
    simp only [Deed.without]
    split <;> rfl
  | _ => rfl

/-- Windows end when they do whoever departs. -/
theorem foldl_without (x : ι) (own : List Nat) (env : Surroundings ι) (limits : BatchLimits)
    (l : Lane) (log : LaneLog ι) (script : Script ι) :
    (script.without x own).foldl (env.record limits l) log =
      script.foldl (env.record limits l) log := by
  rw [without, List.foldl_filterMap]
  congr 1
  funext log y
  obtain ⟨t, d⟩ := y
  cases d with
  | cancel token =>
    by_cases hown : token ∈ own
    · simp only [Deed.without, if_pos hown]
      rfl
    · simp only [Deed.without, if_neg hown]
      rfl
  | call c =>
    simp only [Deed.without, Option.map_some]
    split <;> rfl
  | leave id =>
    by_cases hgone : id = x
    · simp only [Deed.without, if_pos hgone]
      rfl
    · simp only [Deed.without, if_neg hgone]
      rfl
  | _ => rfl

end Script

/-- Surroundings in which every attempt takes a millisecond and succeeds. -/
def Surroundings.steady (ι : Type) : Surroundings ι where
  delay := fun _ _ _ ↦ 1
  failure? := fun _ _ _ ↦ none
  element := fun _ ↦ .ok (.str "0x07")
  next? := fun _ _ _ _ ↦ none
  joins := fun _ ↦ true
  tie := fun _ _ ↦ .ok [7]

namespace Watched

variable {env : Surroundings ι} {limits : BatchLimits} {policy : BackoffPolicy}
  {w₁ w₂ : Watched ι} {call : PendingCall ι} {t : Time} {r : Outcome (List UInt8)}

/-- No token in `own` cancels a call of somebody else. -/
def Apart (x : ι) (own : List Nat) (script : Script ι) : Prop :=
  ∀ called call, (called, .call call) ∈ script → call.caller ≠ x →
    ∀ token ∈ own, ¬Below script.parents token call.ctx.token

/-- Two runs that differ only in the departure of a caller. -/
structure Alike (env : Surroundings ι) (limits : BatchLimits) (policy : BackoffPolicy) (x : ι)
    (own : List Nat) (w₁ w₂ : Watched ι) : Prop where
  kept₁ : Kept env limits policy w₁
  kept₂ : Kept env limits policy w₂
  ties₁ : ∀ id ≠ x, w₁.SettlesTies env id
  ties₂ : ∀ id ≠ x, w₂.SettlesTies env id
  apart₁ : Apart x own w₁.script
  apart₂ : Apart x own w₂.script
  script_eq : w₁.script.without x own = w₂.script.without x own

namespace Alike

theorem symm (h : Alike env limits policy x own w₁ w₂) :
    Alike env limits policy x own w₂ w₁ :=
  ⟨h.kept₂, h.kept₁, h.ties₂, h.ties₁, h.apart₂, h.apart₁, h.script_eq.symm⟩

variable (h : Alike env limits policy x own w₁ w₂)

include h

theorem mem_script {d : Deed ι} (hremains : d.Remains x own) (hmem : (t, d) ∈ w₁.script) :
    (t, d) ∈ w₂.script := by
  rw [← Script.mem_without hremains, ← h.script_eq, Script.mem_without hremains]
  exact hmem

theorem parents_eq : w₁.script.parents = w₂.script.parents := by
  rw [← Script.parents_without x own, h.script_eq, Script.parents_without]

theorem log_eq (l : Lane) : w₁.log env l = w₂.log env l := by
  rw [h.kept₁.log_eq, h.kept₂.log_eq, ← Script.foldl_without x own, h.script_eq,
    Script.foldl_without]

/-- A window that has ended in both runs has ended at the same time, with the same callers. -/
theorem window {l : Lane} {number : Nat} {ended : Time} {window : List (PendingCall ι)}
    (hwindow : (w₁.client.lane l).windows[number]? = some (ended, window))
    (hlt₁ : ended < w₁.now) (hlt₂ : ended < w₂.now) :
    ∃ window', (w₂.client.lane l).windows[number]? = some (ended, window') ∧
      window'.map (·.caller) = window.map (·.caller) := by
  have hget : ((w₁.client.lane l).windows.map callersOf)[number]? =
      some (ended, window.map (·.caller)) := by
    rw [List.getElem?_map, hwindow]
    rfl
  rw [(h.kept₁.lanes l).window_iff hlt₁, h.log_eq, ← (h.kept₂.lanes l).window_iff hlt₂,
    List.getElem?_map] at hget
  obtain ⟨⟨ended', window'⟩, hwindow', heq⟩ := Option.map_eq_some_iff.1 hget
  have hended : ended' = ended := congrArg Prod.fst heq
  have hcallers : window'.map (·.caller) = window.map (·.caller) := congrArg Prod.snd heq
  rw [hended] at hwindow'
  exact ⟨window', hwindow', hcallers⟩

/-- The results that there are for anybody else are the same. -/
theorem available (hcalled : ∃ called, (called, .call call) ∈ w₁.script)
    (hother : call.caller ≠ x) (hlt₁ : t < w₁.now) (hlt₂ : t < w₂.now)
    (hresult : w₁.Available env call t r) : w₂.Available env call t r := by
  cases hresult with
  | @answer l number ended time window failure? hwindow hmem hends hle =>
    have hended : ended ≤ t := Nat.le_trans (Nat.le_add_right _ _) hle
    obtain ⟨window', hwindow', hcallers⟩ :=
      h.window hwindow (Nat.lt_of_le_of_lt hended hlt₁) (Nat.lt_of_le_of_lt hended hlt₂)
    rw [← hcallers] at hmem
    rw [h.kept₁.policy_eq, ← h.kept₂.policy_eq] at hends
    exact .answer hwindow' hmem hends hle
  | @canceled time token hcancel hbelow hle =>
    obtain ⟨called, hcall⟩ := hcalled
    have hremains : token ∉ own := fun hown ↦ h.apart₁ called call hcall hother token hown hbelow
    rw [h.parents_eq] at hbelow
    exact .canceled (h.mem_script hremains hcancel) hbelow hle
  | late hdeadline hle => exact .late hdeadline hle

/-- Where one run refuses a call, the other does. -/
theorem refused {c : Caller} {l : Lane} {id : ι} (hmem : id ∈ (w₁.log env l).refused)
    (hc : w₂.client.callers id = some c) : c.accepted = false := by
  rw [h.log_eq] at hmem
  obtain ⟨d, hd, hrejected⟩ := h.kept₂.refused l id hmem
  rw [hc] at hd
  cases hd
  exact hrejected

/-- Somebody else who returns a result in one run does not return another one at the same time in
the other. -/
theorem result_eq {r₂ : Outcome (List UInt8)} {called : Time} {c₁ c₂ : Caller}
    (hother : call.caller ≠ x) (hcall : (called, .call call) ∈ w₁.script)
    (hc₁ : w₁.client.callers call.caller = some c₁) (hreturned₁ : c₁.returned = some (t, r))
    (hc₂ : w₂.client.callers call.caller = some c₂) (hreturned₂ : c₂.returned = some (t, r₂))
    (hlt₁ : t < w₁.now) (hlt₂ : t < w₂.now) (hresult₁ : w₁.Available env call t r)
    (hresult₂ : w₂.Available env call t r₂) : r₂ = r := by
  have hcall₂ : (called, .call call) ∈ w₂.script := h.mem_script hother hcall
  have hboth₁ := h.symm.available ⟨called, hcall₂⟩ hother hlt₂ hlt₁ hresult₂
  have hboth₂ := h.available ⟨called, hcall⟩ hother hlt₁ hlt₂ hresult₁
  by_contra hne
  have htie₁ := h.ties₁ _ hother called call c₁ t r hcall rfl hc₁ hreturned₁ r₂ r hboth₁
    hresult₁ hne
  have htie₂ := h.ties₂ _ hother called call c₂ t r₂ hcall₂ rfl hc₂ hreturned₂ r₂ r hresult₂
    hboth₂ hne
  exact hne (htie₂.trans htie₁.symm)

/-- What somebody else returns in one run it returns in the other, at the same time. -/
theorem returned {id : ι} {c₁ : Caller} (hother : id ≠ x)
    (hc₁ : w₁.client.callers id = some c₁) (hreturned : c₁.returned = some (t, r))
    (hlt₁ : t < w₁.now) (hlt₂ : t < w₂.now) :
    ∃ c₂, w₂.client.callers id = some c₂ ∧ c₂.returned = some (t, r) := by
  obtain ⟨called, call, hcall₁, rfl⟩ := h.kept₁.known id c₁ hc₁
  have hcall₂ : (called, .call call) ∈ w₂.script := h.mem_script hother hcall₁
  obtain ⟨d₁, hd₁, haccounted₁⟩ := h.kept₁.callers called call hcall₁
  rw [hc₁] at hd₁
  cases hd₁
  obtain ⟨c₂, hc₂, haccounted₂⟩ := h.kept₂.callers called call hcall₂
  refine ⟨c₂, hc₂, ?_⟩
  cases haccounted₁.fate with
  | refused hlog haccepted hgone hreturned₁ hstayed =>
    have hreturned₂ := haccounted₂.fate.of_not_accepted (h.refused hlog hc₂)
    rw [hreturned] at hreturned₁
    exact hreturned₂.trans hreturned₁.symm
  | waiting _ _ hnone =>
    rw [hreturned] at hnone
    cases hnone
  | left _ _ hnone =>
    rw [hreturned] at hnone
    cases hnone
  | @returned t₁ r₁ haccepted hgone hreturned₁ hcalled hle hresult hnothing hstayed =>
    rw [hreturned] at hreturned₁
    cases hreturned₁
    have hresult₂ := h.available ⟨called, hcall₁⟩ hother hlt₁ hlt₂ hresult
    cases haccounted₂.fate with
    | refused hlog =>
      have hrejected := h.symm.refused hlog hc₁
      rw [haccepted] at hrejected
      cases hrejected
    | waiting _ hwaits _ hnone => exact absurd hresult₂ (hnone t r hcalled hlt₂)
    | left _ _ _ hleft =>
      have hremains : Deed.Remains x own (.leave call.caller) := hother
      exact absurd (h.symm.mem_script hremains hleft) (hstayed _)
    | @returned t₂ r₂ haccepted₂ hgone₂ hreturned₂ hcalled₂ hle₂ hfound₂ hnothing₂ =>
      -- Whoever returns later in one run would have found the result of the other run there before.
      rcases Nat.lt_trichotomy t t₂ with hlt | rfl | hgt
      · exact absurd hresult₂ (hnothing₂ t r hcalled hlt)
      · rw [hreturned₂, h.result_eq hother hcall₁ hc₁ hreturned hc₂ hreturned₂ hlt₁ hlt₂ hresult
          hfound₂]
      · have hfound₁ := h.symm.available ⟨called, hcall₂⟩ hother (Nat.lt_trans hgt hlt₂)
          (Nat.lt_trans hgt hlt₁) hfound₂
        exact absurd hfound₁ (hnothing t₂ r₂ hcalled₂ hgt)

end Alike

/-- Two clients run in the same surroundings and hear the same from outside, except for what makes
one caller leave: under what context it calls, whether and when tokens are canceled that cancel
nobody else, and whether and when it stops waiting. At any time that the clocks of both have
passed, every other caller has returned the same result at the same time in both, or has not
returned in either. -/
theorem others_unaffected_by_departure {client : Client} {limits : BatchLimits} {start : Time}
    (x : ι) (own : List Nat)
    (run₁ : ReflTransGen (Move env) (.new client policy limits start) w₁)
    (run₂ : ReflTransGen (Move env) (.new client policy limits start) w₂)
    (apart : ∀ called call, (called, .call call) ∈ w₁.script → call.caller ≠ x →
      ∀ token ∈ own, ¬Below w₁.script.parents token call.ctx.token)
    (script_eq : w₁.script.without x own = w₂.script.without x own)
    (ties₁ : ∀ id ≠ x, w₁.SettlesTies env id) (ties₂ : ∀ id ≠ x, w₂.SettlesTies env id) :
    ∀ id ≠ x, ∀ t r, t < w₁.now → t < w₂.now →
      ((∃ c, w₁.client.callers id = some c ∧ c.returned = some (t, r)) ↔
        ∃ c, w₂.client.callers id = some c ∧ c.returned = some (t, r)) := by
  have hparents : w₂.script.parents = w₁.script.parents := by
    rw [← Script.parents_without x own, ← script_eq, Script.parents_without]
  have hapart : Apart x own w₂.script := by
    intro called call hcall hother
    rw [hparents]
    refine apart called call ?_ hother
    have hremains : Deed.Remains x own (.call call) := hother
    rw [← Script.mem_without hremains, script_eq, Script.mem_without hremains]
    exact hcall
  have halike : Alike env limits policy x own w₁ w₂ :=
    ⟨kept_of_run run₁ (kept_new client policy limits start),
      kept_of_run run₂ (kept_new client policy limits start), ties₁, ties₂, apart, hapart,
      script_eq⟩
  intro id hother t r hlt₁ hlt₂
  constructor
  · rintro ⟨c, hc, hreturned⟩
    exact halike.returned hother hc hreturned hlt₁ hlt₂
  · rintro ⟨c, hc, hreturned⟩
    exact halike.symm.returned hother hc hreturned hlt₂ hlt₁

/-- A lane without timers, one job and callers who find nothing leave nothing to be done. -/
theorem idleUntil_of_one_job {w : Watched ι} {later : Time} {job : BatchJob ι}
    (hlanes : ∀ l, (w.client.lane l).leaving = [] ∧ (w.client.lane l).timers = [])
    (hjobs : w.client.jobs = [job]) (hjob : w.JobIdle env later 0 job)
    (hcallers : ∀ id seen t, w.client.answer? t id seen = none) : w.IdleUntil env later where
  lanes := by
    intro l
    refine ⟨(hlanes l).1, fun t ht ↦ ?_⟩
    rw [(hlanes l).2] at ht
    exact (List.not_mem_nil ht).elim
  jobs := by
    intro k job' hjob'
    rw [hjobs] at hjob'
    cases k with
    | zero =>
      cases hjob'
      exact hjob
    | succ k => cases hjob'
  callers := fun id seen t _ _ ↦ hcallers id seen t

/-- Two calls fill a window. In one run the first caller is canceled at once, and the batch holds
only the second call; in the other run it holds both. -/
theorem second_caller_unaffected_by_first :
    ∃ w₁ w₂ : Watched Bool,
      ReflTransGen (Move (.steady Bool)) (.new ⟨false⟩ {} ⟨5, 2⟩ 0) w₁ ∧
        ReflTransGen (Move (.steady Bool)) (.new ⟨false⟩ {} ⟨5, 2⟩ 0) w₂ ∧
        (w₁.client.callers true).map (·.returned) =
          some (some (0, .error (.ended .canceled))) ∧
        (w₂.client.callers true).map (·.returned) = some (some (1, .ok [7])) ∧
        (w₁.client.callers false).map (·.returned) = some (some (1, .ok [7])) ∧
        (w₂.client.callers false).map (·.returned) = some (some (1, .ok [7])) := by
  have calls : ReflTransGen (Move (.steady Bool)) (.new ⟨false⟩ {} ⟨5, 2⟩ 0) _ :=
    .head (.deed (.derive none) rfl trivial rfl) <|
    .head (.deed (.derive none) rfl trivial rfl) <|
    .head (.deed (.call ⟨true, {}, none, ⟨0, none, none⟩⟩) rfl (fun v hv ↦ by cases hv) rfl) <|
    .single (.deed (.call ⟨false, {}, none, ⟨1, none, none⟩⟩) rfl
      (fun v hv hdue ↦ by cases hv; cases hdue) rfl)
  have run₁ : ReflTransGen (Move (.steady Bool)) (.new ⟨false⟩ {} ⟨5, 2⟩ 0) _ :=
    .trans calls <|
    .head (.deed (.cancel 0) rfl trivial rfl) <|
    .head (.task (.look true (some .canceled)) rfl trivial rfl) <|
    .head (.task (.lane .latest (.handOver 0)) rfl trivial rfl) <|
    .head (.task (.check 0) rfl trivial rfl) <|
    .head (.task (.check 0) rfl trivial rfl) <|
    .head (.task (.assemble 0) rfl trivial rfl) <|
    .head (.task (.attempt 0) rfl trivial rfl) <|
    .head (.wait (by decide : 0 ≤ 1) (idleUntil_of_one_job
      (fun l ↦ by cases l <;> exact ⟨rfl, rfl⟩) rfl (Nat.le_refl 1)
      fun id seen t ↦ by cases id <;> rcases seen with _ | _ | _ <;> rfl)) <|
    .head (.task (.reply 0 (.ok [.ok (.str "0x07")]) fun _ ↦ none) rfl
      (fun job batch hjob hphase ↦ by
        cases hjob
        cases hphase
        exact ⟨rfl, rfl, rfl⟩) rfl) <|
    .head (.task (.deliver 0) rfl trivial rfl) <|
    .head (.task (.finish 0) rfl trivial rfl) <|
    .head (.task (.look false none) rfl trivial rfl) <|
    .single (.wait (by decide : 1 ≤ 2) (idleUntil_of_one_job
      (fun l ↦ by cases l <;> exact ⟨rfl, rfl⟩) rfl trivial
      fun id seen t ↦ by cases id <;> rcases seen with _ | _ | _ <;> rfl))
  have run₂ : ReflTransGen (Move (.steady Bool)) (.new ⟨false⟩ {} ⟨5, 2⟩ 0) _ :=
    .trans calls <|
    .head (.task (.lane .latest (.handOver 0)) rfl trivial rfl) <|
    .head (.task (.check 0) rfl trivial rfl) <|
    .head (.task (.check 0) rfl trivial rfl) <|
    .head (.task (.assemble 0) rfl trivial rfl) <|
    .head (.task (.attempt 0) rfl trivial rfl) <|
    .head (.wait (by decide : 0 ≤ 1) (idleUntil_of_one_job
      (fun l ↦ by cases l <;> exact ⟨rfl, rfl⟩) rfl (Nat.le_refl 1)
      fun id seen t ↦ by cases id <;> rcases seen with _ | _ | _ <;> rfl)) <|
    .head (.task (.reply 0 (.ok [.ok (.str "0x07"), .ok (.str "0x07")]) fun _ ↦ none) rfl
      (fun job batch hjob hphase ↦ by
        cases hjob
        cases hphase
        exact ⟨rfl, rfl, rfl⟩) rfl) <|
    .head (.task (.deliver 0) rfl trivial rfl) <|
    .head (.task (.deliver 0) rfl trivial rfl) <|
    .head (.task (.finish 0) rfl trivial rfl) <|
    .head (.task (.look true none) rfl trivial rfl) <|
    .head (.task (.look false none) rfl trivial rfl) <|
    .single (.wait (by decide : 1 ≤ 2) (idleUntil_of_one_job
      (fun l ↦ by cases l <;> exact ⟨rfl, rfl⟩) rfl trivial
      fun id seen t ↦ by cases id <;> rcases seen with _ | _ | _ <;> rfl))
  have hsecond {id : Bool} (hother : id ≠ true) : id = false := by simpa using hother
  have hsame := others_unaffected_by_departure true [0] run₁ run₂
    (fun called call hcall hother token htoken hbelow ↦ by
      have hcaller := hsecond hother
      obtain ⟨id, msg, block, ctx⟩ := call
      subst hcaller
      have hsecond : ctx = ⟨1, none, none⟩ := by
        simp [afterDeed, afterTask, new] at hcall
        exact hcall.2.2.2
      subst hsecond
      cases List.mem_singleton.1 htoken
      rcases below_cases hbelow with heq | ⟨p, hp, -⟩
      · cases heq
      · cases hp)
    rfl
    (fun id hother called call c t r hcall hcaller hc hreturned _ _ _ _ _ ↦ by
      cases hsecond hother
      cases hc
      cases hreturned
      rfl)
    (fun id hother called call c t r hcall hcaller hc hreturned _ _ _ _ _ ↦ by
      cases hsecond hother
      cases hc
      cases hreturned
      rfl)
    false (by decide) 1 (.ok [7]) (by decide) (by decide)
  obtain ⟨c, hc, hreturned⟩ := hsame.1 ⟨_, rfl, rfl⟩
  refine ⟨_, _, run₁, run₂, rfl, rfl, rfl, ?_⟩
  rw [hc, Option.map_some, hreturned]

end Watched

end Outbound.Eth
