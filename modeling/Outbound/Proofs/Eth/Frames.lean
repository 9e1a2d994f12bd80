import Outbound.Eth.VirtualClock
import Outbound.Proofs.Eth.Acts
import Outbound.Proofs.Eth.Ancestry
import Outbound.Proofs.Eth.LaneLogs

/-!
# What an event leaves as it was

A lane changes by an event of its own or by a call, and then windows end at the present time. What
a caller has returned changes only when it calls or looks, and what results there are for a call at
earlier times does not change at all.
-/

namespace Outbound

namespace LiveBatcher

variable {α : Type} {now : Time} {s s' : LiveBatcher α}

theorem windows_apply_now (now : Time) (s : LiveBatcher α)
    (result : Batcher α × List (BatchEffect α)) :
    ∃ more, (s.apply now result).windows = s.windows ++ more ∧ ∀ w ∈ more, w.1 = now := by
  have hfold (effects : List (BatchEffect α)) (s : LiveBatcher α) :
      ∃ more, (effects.foldl (perform now) s).windows = s.windows ++ more ∧
        ∀ w ∈ more, w.1 = now := by
    induction effects generalizing s with
    | nil => exact ⟨[], (List.append_nil _).symm, fun _ hw ↦ (List.not_mem_nil hw).elim⟩
    | cons effect rest ih =>
      obtain ⟨more, heq, hmore⟩ := ih (perform now s effect)
      rw [List.foldl_cons, heq]
      cases effect with
      | arm generation => exact ⟨more, rfl, hmore⟩
      | disarm generation => exact ⟨more, rfl, hmore⟩
      | dispatch batch =>
        refine ⟨(now, batch) :: more, ?_, ?_⟩
        · simp [perform]
        · simpa using hmore
  exact hfold result.2 { s with batcher := result.1 }

/-- A window ends at the time of the event that ends it. -/
theorem windows_step {e : Event α} (hs : s.step now e = some s') :
    ∃ more, s'.windows = s.windows ++ more ∧ ∀ w ∈ more, w.1 = now := by
  have hsame : ∃ more, s.windows = s.windows ++ more ∧ ∀ w ∈ more, w.1 = now :=
    ⟨[], (List.append_nil _).symm, fun _ hw ↦ (List.not_mem_nil hw).elim⟩
  cases e with
  | submit item =>
    rcases submit_step_cases hs with ⟨-, rfl⟩ | ⟨result, -, rfl⟩
    · exact hsame
    · exact windows_apply_now _ _ _
  | close =>
    obtain ⟨_, ⟨⟩⟩ := Option.ite_none_right_eq_some.1 hs
    exact windows_apply_now _ _ _
  | expire generation =>
    obtain ⟨_, ⟨⟩⟩ := Option.ite_none_right_eq_some.1 hs
    exact windows_apply_now _ _ _
  | _ =>
    obtain ⟨_, ⟨⟩⟩ := Option.ite_none_right_eq_some.1 hs
    exact hsame

end LiveBatcher

namespace Eth

variable {ι : Type}

/-- A caller without what others have given it. -/
def Caller.core (c : Caller) : Caller :=
  { c with slot := { waiterGone := c.slot.waiterGone } }

/-- What a deed does to the handles of a lane, if it is about them. -/
def Deed.lane? : Deed ι → Option (Lane × LiveBatcher.Event (PendingCall ι))
  | clone l => some (l, .clone)
  | drop l => some (l, .drop)
  | close l => some (l, .close)
  | _ => none

theorem Deed.eq_leave {outer : List Nat} {d : Deed ι} {id : ι}
    (h : d.event? outer = some (.leave id)) : d = .leave id := by
  cases d with
  | leave id' =>
    cases h
    rfl
  | derive parent => cases parent <;> simp [event?] at h
  | _ => simp [event?] at h

theorem Deed.eq_call {outer : List Nat} {d : Deed ι} {id : ι} {msg : CallMsg} {block : BlockRef}
    {ctx : Context} (h : d.event? outer = some (.call id msg block ctx)) :
    ∃ c, d = .call c ∧ c.caller = id := by
  cases d with
  | call c =>
    obtain ⟨token, -, heq⟩ := Option.map_eq_some_iff.1 h
    cases heq
    exact ⟨c, rfl, rfl⟩
  | derive parent => cases parent <;> simp [event?] at h
  | _ => simp [event?] at h

variable [DecidableEq ι] {now : Time}

namespace BatchingClient

variable {s s' : BatchingClient ι} {e : Event ι}

/-! ## Lanes -/

theorem lane_submit (s : BatchingClient ι) (id : ι) (msg : CallMsg) (block : BlockRef)
    (ctx : Context) (l : Lane) :
    (l ≠ .ofBlock block ∧ (s.submit now id msg block ctx).lane l = s.lane l) ∨
      l = .ofBlock block ∧
        ((∃ err, (s.lane l).batcher.submit ⟨id, msg, block, ctx⟩ = .error err ∧
            (s.submit now id msg block ctx).lane l = s.lane l) ∨
          ∃ result, (s.lane l).batcher.submit ⟨id, msg, block, ctx⟩ = .ok result ∧
            (s.submit now id msg block ctx).lane l =
              (s.lane l).accept now ⟨id, msg, block, ctx⟩ result) := by
  by_cases hl : l = .ofBlock block
  · refine .inr ⟨hl, ?_⟩
    subst hl
    simp only [submit]
    cases hsubmit : (s.lane (.ofBlock block)).batcher.submit ⟨id, msg, block, ctx⟩ with
    | error err => exact .inl ⟨err, rfl, rfl⟩
    | ok result =>
      refine .inr ⟨result, rfl, ?_⟩
      exact (lane_setLane s _ _ _).trans (if_pos rfl)
  · refine .inl ⟨hl, ?_⟩
    simp only [submit]
    split
    · rfl
    · exact (lane_setLane s _ _ _).trans (if_neg hl)

omit [DecidableEq ι] in
theorem lane_congr (hlatest : s'.latest = s.latest) (harchive : s'.archive = s.archive)
    (l : Lane) : s'.lane l = s.lane l := by
  cases l
  · exact hlatest
  · exact harchive

/-- A lane changes by an event of its own or by a call. -/
theorem lane_step (hs : s.step now e = some s') (l : Lane) :
    s'.lane l = s.lane l ∨
      (∃ event, e = .lane l event ∧ (∀ call, event ≠ .submit call) ∧
        (s.lane l).step now event = some (s'.lane l)) ∨
      ∃ id msg block ctx, e = .call id msg block ctx ∧ s' = s.submit now id msg block ctx := by
  have hlane {l' : Lane} {event : LiveBatcher.Event (PendingCall ι)}
      {live : LiveBatcher (PendingCall ι)} (he : e = .lane l' event)
      (hlive : (s.lane l').step now event = some live) (hsubmit : ∀ call, event ≠ .submit call)
      (heq : s'.lane l = (s.setLane live l').lane l) :
      s'.lane l = s.lane l ∨
        (∃ event, e = .lane l event ∧ (∀ call, event ≠ .submit call) ∧
          (s.lane l).step now event = some (s'.lane l)) ∨
        ∃ id msg block ctx, e = .call id msg block ctx ∧ s' = s.submit now id msg block ctx := by
    rcases lane_cases s live l' l with ⟨-, hset⟩ | ⟨rfl, hset⟩
    · exact .inl (heq.trans hset)
    · refine .inr (.inl ⟨event, he, hsubmit, ?_⟩)
      rw [heq, hset]
      exact hlive
  cases act_of_step hs with
  | call hnew hlt hfree => exact .inr (.inr ⟨_, _, _, _, rfl, rfl⟩)
  | handOver hlive hwindow => exact hlane rfl hlive (by simp) (by cases l <;> rfl)
  | free hlive => exact hlane rfl hlive (by simp) (by cases l <;> rfl)
  | lane hlive hsubmit hhand => exact hlane rfl hlive hsubmit rfl
  | job hk hjob hact =>
    obtain ⟨-, -, hlatest, harchive⟩ := jobAct_frame hact
    exact .inl (lane_congr hlatest harchive l)
  | _ => exact .inl (lane_congr rfl rfl l)

theorem lane_windows_step (hs : s.step now e = some s') (l : Lane) :
    ∃ more, (s'.lane l).windows = (s.lane l).windows ++ more ∧ ∀ w ∈ more, w.1 = now := by
  have hsame (h : s'.lane l = s.lane l) :
      ∃ more, (s'.lane l).windows = (s.lane l).windows ++ more ∧ ∀ w ∈ more, w.1 = now := by
    rw [h]
    exact ⟨[], (List.append_nil _).symm, fun _ hw ↦ (List.not_mem_nil hw).elim⟩
  rcases lane_step hs l with h | ⟨event, -, -, h⟩ | ⟨id, msg, block, ctx, -, rfl⟩
  · exact hsame h
  · exact LiveBatcher.windows_step h
  · rcases lane_submit s id msg block ctx l with ⟨-, h⟩ | ⟨-, ⟨err, -, h⟩ | ⟨result, -, h⟩⟩
    · exact hsame h
    · exact hsame h
    · rw [h]
      exact LiveBatcher.windows_apply_now _ _ _

/-! ## Callers -/

theorem core_release (s : BatchingClient ι) (calls : List (PendingCall ι)) (id : ι) :
    ((s.release calls).callers id).map Caller.core = (s.callers id).map Caller.core := by
  rw [callers_release]
  split
  · rw [Option.map_map]
    rfl
  · rfl

theorem core_give (s : BatchingClient ι) (id : ι) (r : Outcome (List UInt8)) (id' : ι) :
    ((s.give id r).callers id').map Caller.core = (s.callers id').map Caller.core := by
  simp only [give]
  split
  · rfl
  · rename_i c hc
    have hcore : Caller.core { c with slot := (c.slot.resolve r).2 } = c.core := by
      cases hresult : c.slot.result with
      | none => simp [Caller.core, Slot.resolve, hresult]
      | some first => simp [Caller.core, Slot.resolve, hresult]
    by_cases heq : id' = id
    · subst heq
      rw [hc]
      simp only [setCaller, if_true, Option.map_some]
      exact congrArg some hcore
    · simp only [setCaller, heq, if_false]

theorem core_jobAct {k : Nat} {job : BatchJob ι} (hact : JobAct now s k job e s') (id : ι) :
    (s'.callers id).map Caller.core = (s.callers id).map Caller.core := by
  cases hact with
  | check hphase =>
    simp only [check]
    split
    · exact core_release _ _ _
    · rfl
  | assemble hphase =>
    simp only [assemble]
    split <;> rfl
  | attempt hphase hdue => rfl
  | reply hphase =>
    simp only [conclude]
    split <;> rfl
  | deliver hphase => exact core_give _ _ _ _
  | finish hphase => exact core_release _ _ _

/-- How a caller goes on. -/
inductive CallerNext (now : Time) (s : BatchingClient ι) (id : ι) (c : Caller) :
    Event ι → Caller → Prop where
  | same {e : Event ι} {c' : Caller} (hcore : c'.core = c.core) (hstays : e ≠ .leave id) :
    CallerNext now s id c e c'
  | look {seen : Option Reason} {r : Outcome (List UInt8)}
    (hanswer : s.answer? now id seen = some (c, r)) :
    CallerNext now s id c (.look id seen)
      { c with slot := c.slot.dropWaiter, returned := some (now, r) }
  | leave (hwaits : c.slot.waiterGone = false) :
    CallerNext now s id c (.leave id) { c with slot := c.slot.dropWaiter }

omit [DecidableEq ι] in
/-- A caller keeps its call, and whether that was taken. -/
theorem CallerNext.call_eq {id : ι} {c c' : Caller} (h : CallerNext now s id c e c') :
    c'.msg = c.msg ∧ c'.block = c.block ∧ c'.ctx = c.ctx ∧ c'.accepted = c.accepted := by
  cases h with
  | same hcore hstays =>
    exact ⟨congrArg (fun c ↦ c.msg) hcore, congrArg (fun c ↦ c.block) hcore,
      congrArg (fun c ↦ c.ctx) hcore, congrArg (fun c ↦ c.accepted) hcore⟩
  | look hanswer => exact ⟨rfl, rfl, rfl, rfl⟩
  | leave hwaits => exact ⟨rfl, rfl, rfl, rfl⟩

/-- Calls, looks and leaving are all that changes a caller in its core. -/
theorem core_step (hs : s.step now e = some s') (id : ι) :
    (s'.callers id).map Caller.core = (s.callers id).map Caller.core ∨
      (∃ msg block ctx, e = .call id msg block ctx) ∨ (∃ seen, e = .look id seen) ∨
        e = .leave id := by
  cases act_of_step hs with
  | @call id' msg block ctx hnew hlt hfree =>
    by_cases heq : id = id'
    · subst heq
      exact .inr (.inl ⟨msg, block, ctx, rfl⟩)
    · left
      simp only [submit]
      split
      · rw [callers_setCaller_of_ne s heq]
      · rw [callers_setCaller_of_ne _ heq, callers_setLane]
  | @look id' seen c r hanswer =>
    by_cases heq : id = id'
    · subst heq
      exact .inr (.inr (.inl ⟨seen, rfl⟩))
    · left
      rw [callers_setCaller_of_ne s heq]
  | @leave id' c hc hwaits =>
    by_cases heq : id = id'
    · subst heq
      exact .inr (.inr (.inr rfl))
    · left
      rw [callers_setCaller_of_ne s heq]
  | handOver hlive hwindow =>
    left
    exact congrArg (Option.map Caller.core) (congrFun (callers_setLane s _ _) id)
  | free hlive =>
    left
    rw [core_release, callers_setLane]
  | lane hlive hsubmit hhand =>
    left
    rw [callers_setLane]
  | job hk hjob hact => exact .inl (core_jobAct hact id)
  | _ => exact .inl rfl

theorem caller_step (hs : s.step now e = some s') {id : ι} {c : Caller}
    (hc : s.callers id = some c) :
    ∃ c', s'.callers id = some c' ∧ CallerNext now s id c e c' := by
  by_cases hleave : e = .leave id
  · subst hleave
    cases act_of_step hs with
    | leave hd hwaits =>
      rw [hc] at hd
      cases hd
      exact ⟨_, callers_setCaller_self s id _, .leave hwaits⟩
    | job hk => cases hk
  · rcases core_step hs id with hcore | ⟨msg, block, ctx, rfl⟩ | ⟨seen, rfl⟩ | rfl
    · rw [hc] at hcore
      obtain ⟨c', hc', hcore⟩ := Option.map_eq_some_iff.1 hcore
      exact ⟨c', hc', .same hcore hleave⟩
    · cases act_of_step hs with
      | call hnew hlt hfree =>
        rw [hc] at hnew
        cases hnew
      | job hk => cases hk
    · cases act_of_step hs with
      | look hanswer =>
        obtain ⟨hd, -⟩ := answer?_eq_some.1 hanswer
        rw [hc] at hd
        cases hd
        exact ⟨_, callers_setCaller_self s id _, .look hanswer⟩
      | job hk => cases hk
    · exact absurd rfl hleave

theorem new_caller_step (hs : s.step now e = some s') {id : ι} (hnone : s.callers id = none) :
    s'.callers id = none ∨ ∃ msg block ctx, e = .call id msg block ctx := by
  rcases core_step hs id with hcore | hcall | ⟨seen, rfl⟩ | rfl
  · rw [hnone] at hcore
    exact .inl (Option.map_eq_none_iff.1 hcore)
  · exact .inr hcall
  · cases act_of_step hs with
    | look hanswer =>
      obtain ⟨hc, -⟩ := answer?_eq_some.1 hanswer
      rw [hnone] at hc
      cases hc
    | job hk => cases hk
  · cases act_of_step hs with
    | leave hc hwaits =>
      rw [hnone] at hc
      cases hc
    | job hk => cases hk

/-- A lane that is shut refuses a call at once; otherwise the caller waits. -/
theorem callers_submit (s : BatchingClient ι) (id : ι) (msg : CallMsg) (block : BlockRef)
    (ctx : Context) :
    ((s.lane (.ofBlock block)).batcher.closed = true ∧
        (s.submit now id msg block ctx).callers id =
          some ⟨msg, block, ctx, false, ⟨none, true, true⟩, some (now, .error .closed)⟩) ∨
      (s.lane (.ofBlock block)).batcher.closed = false ∧
        (s.submit now id msg block ctx).callers id = some ⟨msg, block, ctx, true, {}, none⟩ := by
  simp only [submit]
  split
  · rename_i err herr
    obtain ⟨rfl, hclosed⟩ := Batcher.submit_error herr
    exact .inl ⟨hclosed, callers_setCaller_self s id _⟩
  · rename_i result hresult
    exact .inr ⟨(Batcher.submit_cases hresult).1, callers_setCaller_self _ id _⟩

/-! ## Deeds -/

/-- What a deed does to a client, where `outer` has the numbers of the tokens. -/
inductive DeedAct (now : Time) (s : BatchingClient ι) (outer : List Nat) :
    Deed ι → BatchingClient ι → Prop where
  | root : DeedAct now s outer (.derive none) { s with tokens := s.tokens.root.2 }
  | child {parent token : Nat} (htoken : outer[parent]? = some token) :
    DeedAct now s outer (.derive (some parent)) { s with tokens := (s.tokens.child token).2 }
  | cancel {i token : Nat} (htoken : outer[i]? = some token) :
    DeedAct now s outer (.cancel i) { s with tokens := s.tokens.cancel token }
  | call {call : PendingCall ι} {token : Nat} (htoken : outer[call.ctx.token]? = some token)
    (hnew : s.callers call.caller = none) :
    DeedAct now s outer (.call call)
      (s.submit now call.caller call.msg call.block { call.ctx with token })
  | leave {id : ι} {c : Caller} (hc : s.callers id = some c) (hwaits : c.slot.waiterGone = false) :
    DeedAct now s outer (.leave id) (s.setCaller id { c with slot := c.slot.dropWaiter })
  | lane {d : Deed ι} {l : Lane} {event : LiveBatcher.Event (PendingCall ι)}
    {live : LiveBatcher (PendingCall ι)} (hd : d.lane? = some (l, event))
    (hlive : (s.lane l).step now event = some live) : DeedAct now s outer d (s.setLane live l)

theorem deedAct_of_step {outer : List Nat} {d : Deed ι} (he : d.event? outer = some e)
    (hs : s.step now e = some s') : DeedAct now s outer d s' := by
  have hact := act_of_step hs
  cases d with
  | derive parent =>
    cases parent with
    | none =>
      cases he
      cases hact with
      | root => exact .root
      | job hk => cases hk
    | some parent =>
      obtain ⟨token, htoken, rfl⟩ := Option.map_eq_some_iff.1 he
      cases hact with
      | child => exact .child htoken
      | job hk => cases hk
  | cancel i =>
    obtain ⟨token, htoken, rfl⟩ := Option.map_eq_some_iff.1 he
    cases hact with
    | cancel => exact .cancel htoken
    | job hk => cases hk
  | call c =>
    obtain ⟨token, htoken, rfl⟩ := Option.map_eq_some_iff.1 he
    cases hact with
    | call hnew => exact .call htoken hnew
    | job hk => cases hk
  | leave id =>
    cases he
    cases hact with
    | leave hc hwaits => exact .leave hc hwaits
    | job hk => cases hk
  | clone l =>
    cases he
    cases hact with
    | lane hlive => exact .lane rfl hlive
    | job hk => cases hk
  | drop l =>
    cases he
    cases hact with
    | lane hlive => exact .lane rfl hlive
    | job hk => cases hk
  | close l =>
    cases he
    cases hact with
    | lane hlive => exact .lane rfl hlive
    | job hk => cases hk

end BatchingClient

end Eth

end Outbound
