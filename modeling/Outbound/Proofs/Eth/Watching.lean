import Outbound.Proofs.Eth.Returns

/-!
# Every move on a virtual clock keeps accounts

One lemma for each part of what holds between any two acts says that deeds keep it, and one that
tasks do. The clock moves on only when nothing is left to be done, so no result is overlooked.
-/

namespace Outbound.Eth

open BatchingClient LaneLog

variable {ι : Type} [DecidableEq ι]

namespace Watched

variable {env : Surroundings ι} {limits : BatchLimits} {policy : BackoffPolicy}
  {w : Watched ι} {client : BatchingClient ι} {e : BatchingClient.Event ι} {d : Deed ι}
  {called t : Time} {call : PendingCall ι} {id : ι} {c c' : Caller} {seen : Option Reason}
  {r : Outcome (List UInt8)}

theorem window_extend (hs : w.client.step w.now e = some client) {l : Lane} {number : Nat}
    {x : Time × List (PendingCall ι)} (hx : (w.client.lane l).windows[number]? = some x) :
    (client.lane l).windows[number]? = some x := by
  obtain ⟨more, hwindows, -⟩ := lane_windows_step hs l
  rw [hwindows]
  exact getElem?_append_of_some hx more

omit [DecidableEq ι] in
theorem sent_afterTask (k : Nat) :
    (e = .attempt k ∧ (w.afterTask e client).sent k = w.now) ∨
      e ≠ .attempt k ∧ (w.afterTask e client).sent k = w.sent k := by
  cases e with
  | attempt n =>
    by_cases heq : k = n
    · subst heq
      exact .inl ⟨rfl, if_pos rfl⟩
    · refine .inr ⟨?_, if_neg heq⟩
      rintro ⟨⟩
      exact heq rfl
  | _ => exact .inr ⟨(by simp), rfl⟩

namespace Kept

variable (h : Kept env limits policy w)

include h

/-! ## Lanes -/

theorem limits_eq (l : Lane) : (w.client.lane l).batcher.limits = limits.normalized :=
  (h.sound.lanes l).limits_eq

theorem log_eq (l : Lane) :
    w.log env l = w.script.foldl (env.record limits.normalized l) {} := by
  rw [Watched.log, h.limits_eq]

theorem log_deed (hs : w.client.step w.now e = some client) (l : Lane) :
    (w.afterDeed d client).log env l =
      env.record limits.normalized l (w.log env l) (w.now, d) := by
  have hlimits := ((h.sound.step hs).lanes l).limits_eq
  rw [h.log_eq, Watched.log]
  simp only [afterDeed]
  rw [hlimits, List.foldl_append]
  rfl

theorem log_task (hs : w.client.step w.now e = some client) (l : Lane) :
    (w.afterTask e client).log env l = w.log env l := by
  have hlimits := ((h.sound.step hs).lanes l).limits_eq
  rw [h.log_eq, Watched.log]
  simp only [afterTask]
  rw [hlimits]

theorem lanes_call {call : PendingCall ι} {token : Nat}
    (allowed : w.Allows env (.call call.caller call.msg call.block { call.ctx with token }))
    (l : Lane) :
    Tracks limits w.now
      ((w.client.submit w.now call.caller call.msg call.block { call.ctx with token }).lane l)
      (env.record limits.normalized l (w.log env l) (w.now, .call call)) := by
  simp only [Surroundings.record]
  rcases lane_submit w.client call.caller call.msg call.block { call.ctx with token } l with
    ⟨hne, hl⟩ | ⟨rfl, hl⟩
  · rw [hl, if_neg (Ne.symm hne)]
    exact h.lanes l
  · have harrive := (h.lanes (.ofBlock call.block)).arrive
      ⟨call.caller, call.msg, call.block, { call.ctx with token }⟩ (env.joins call.caller)
      fun v hlast hdue ↦ by
        refine allowed v hlast ?_
        rw [h.limits_eq]
        exact hdue
    rw [if_pos rfl]
    rcases hl with ⟨err, herr, hl⟩ | ⟨result, hresult, hl⟩
    · rw [hl]
      exact harrive.2 err herr
    · rw [hl]
      exact harrive.1 result hresult

theorem lanes_handles {l : Lane} {event : LiveBatcher.Event (PendingCall ι)}
    {live : LiveBatcher (PendingCall ι)} (hd : d.lane? = some (l, event))
    (hlive : (w.client.lane l).step w.now event = some live) (l' : Lane) :
    Tracks limits w.now ((w.client.setLane live l).lane l')
      (env.record limits.normalized l' (w.log env l') (w.now, d)) := by
  rw [lane_setLane]
  -- nothing is written down for the handles, a close is
  have hquiet (hsubmit : ∀ call, event ≠ .submit call) (hclose : event ≠ .close) :
      Tracks limits w.now (if l' = l then live else w.client.lane l') (w.log env l') := by
    split
    · subst l'
      exact (h.lanes l).step hlive hsubmit hclose
    · exact h.lanes l'
  cases d with
  | clone _ =>
    cases hd
    exact hquiet (by simp) (by simp)
  | drop _ =>
    cases hd
    exact hquiet (by simp) (by simp)
  | close _ =>
    cases hd
    simp only [Surroundings.record]
    by_cases heq : l' = l
    · subst heq
      rw [if_pos rfl, if_pos rfl]
      obtain ⟨-, ⟨⟩⟩ := Option.ite_none_right_eq_some.1 hlive
      exact (h.lanes l').close
    · rw [if_neg heq, if_neg (Ne.symm heq)]
      exact h.lanes l'
  | _ => cases hd

theorem lanes_deed (hact : DeedAct w.now w.client w.outer d client)
    (he : d.event? w.outer = some e) (allowed : w.Allows env e) (l : Lane) :
    Tracks limits w.now (client.lane l)
      (env.record limits.normalized l (w.log env l) (w.now, d)) := by
  cases hact with
  | call htoken hnew =>
    simp only [Deed.event?, htoken, Option.map_some, Option.some.injEq] at he
    subst he
    exact h.lanes_call allowed l
  | lane hd hlive => exact h.lanes_handles hd hlive l
  | _ => exact h.lanes l

theorem lanes_task (inner : e.isInner = true) (hs : w.client.step w.now e = some client)
    (l : Lane) : Tracks limits w.now (client.lane l) (w.log env l) := by
  rcases lane_step hs l with hl | ⟨event, rfl, hsubmit, hl⟩ | ⟨id, msg, block, ctx, rfl, -⟩
  · rw [hl]
    exact h.lanes l
  · refine (h.lanes l).step hl hsubmit ?_
    rintro rfl
    cases inner
  · cases inner

/-! ## Tokens -/

theorem traced_deed (hact : DeedAct w.now w.client w.outer d client) :
    Traced (w.afterDeed d client).script client.tokens (w.afterDeed d client).outer := by
  have hother (hparent : d.parent? = none) (hcancel : ∀ i, d ≠ .cancel i)
      (htokens : client.tokens = w.client.tokens) :
      Traced (w.afterDeed d client).script client.tokens (w.afterDeed d client).outer := by
    rw [htokens]
    simp only [afterDeed, hparent, Option.toList_none, List.map_nil, List.append_nil]
    exact h.traced.deed hparent hcancel
  cases hact with
  | root => exact h.traced.derive (by simp) (by simp)
  | @child parent token htoken =>
    have hlt (p : Nat) (hp : p ∈ some parent) : p < w.outer.length := by
      cases hp
      exact (List.getElem?_eq_some_iff.1 htoken).1
    have hcanceled : w.client.tokens.isCanceled token = true ↔
        ∃ p ∈ some parent, w.script.Cancels p := by
      rw [h.traced.isCanceled_iff htoken]
      simp
    have hnode : (some parent).bind (w.outer[·]?) = some token := htoken
    rw [Tokens.child, ← hnode]
    exact h.traced.derive hlt hcanceled
  | cancel htoken =>
    simp only [afterDeed, Deed.parent?, Option.toList_none, List.map_nil, List.append_nil]
    exact h.traced.cancel htoken
  | call htoken hnew =>
    refine hother rfl (by simp) ?_
    simp only [submit]
    split
    · rfl
    · exact tokens_setLane _ _ _
  | leave hc hwaits => exact hother rfl (by simp) rfl
  | lane hd hlive =>
    refine hother ?_ ?_ (tokens_setLane _ _ _)
    · cases d <;> first | rfl | cases hd
    · rintro i rfl
      cases hd

theorem traced_task (inner : e.isInner = true) (hs : w.client.step w.now e = some client) :
    Traced w.script client.tokens w.outer := by
  cases act_of_step hs with
  | look hanswer => exact h.traced
  | @handOver l number live window hlive hwindow =>
    have htraced := h.traced
    rw [← tokens_setLane w.client live l] at htraced
    exact htraced
  | @free l live hlive =>
    have htraced := h.traced
    rw [← tokens_setLane w.client live l] at htraced
    exact htraced
  | lane hlive hsubmit hhand =>
    rw [tokens_setLane]
    exact h.traced
  | job hk hjob hact =>
    rcases tokens_jobAct hact with ⟨htokens, -⟩ | ⟨htokens, -⟩
    · rw [htokens]
      exact h.traced
    · rw [htokens]
      exact h.traced.grow _
  | _ => cases inner

/-! ## Jobs -/

theorem jobs_deed (hact : DeedAct w.now w.client w.outer d client)
    (hs : w.client.step w.now e = some client) (k : Nat) (job : BatchJob ι)
    (hjob : client.jobs[k]? = some job) :
    ∃ ended, (client.lane job.lane).windows[job.number]? = some (ended, job.window) ∧
      job.OnTime env client.policy w.now (w.sent k) ended := by
  have hjobs : client.jobs = w.client.jobs := by
    cases hact with
    | call htoken hnew =>
      simp only [submit]
      split
      · rfl
      · exact jobs_setLane _ _ _
    | lane hd hlive => exact jobs_setLane _ _ _
    | _ => rfl
  rw [hjobs] at hjob
  obtain ⟨ended, hwindow, htime⟩ := h.jobs k job hjob
  refine ⟨ended, window_extend hs hwindow, ?_⟩
  rw [(settings_step hs).2]
  exact htime

theorem jobs_same (hs : w.client.step w.now e = some client) {k : Nat} {job : BatchJob ι}
    (hjob : w.client.jobs[k]? = some job) (hattempt : e ≠ .attempt k) :
    ∃ ended, (client.lane job.lane).windows[job.number]? = some (ended, job.window) ∧
      job.OnTime env client.policy w.now ((w.afterTask e client).sent k) ended := by
  obtain ⟨ended, hwindow, htime⟩ := h.jobs k job hjob
  refine ⟨ended, window_extend hs hwindow, ?_⟩
  rw [(settings_step hs).2]
  rcases sent_afterTask k with ⟨heq, -⟩ | ⟨-, hsent⟩
  · exact absurd heq hattempt
  · rw [hsent]
    exact htime

theorem jobs_act (allowed : w.Allows env e) (hs : w.client.step w.now e = some client)
    {k : Nat} {job : BatchJob ι} (hk : e.job? = some k) (hjob : w.client.jobs[k]? = some job)
    (hact : JobAct w.now w.client k job e client) (j : Nat) (job' : BatchJob ι)
    (hjob' : client.jobs[j]? = some job') :
    ∃ ended, (client.lane job'.lane).windows[job'.number]? = some (ended, job'.window) ∧
      job'.OnTime env client.policy w.now ((w.afterTask e client).sent j) ended := by
  obtain ⟨next, hnext, hjobs⟩ := jobs_jobAct hact
  rw [hjobs, List.getElem?_set] at hjob'
  split at hjob'
  · rename_i heq
    subst heq
    obtain ⟨-, ⟨⟩⟩ := Option.ite_none_right_eq_some.1 hjob'
    obtain ⟨ended, hwindow, htime⟩ := h.jobs k job hjob
    have hsame : job'.lane = job.lane ∧ job'.number = job.number ∧
        job'.window = job.window := by
      cases hnext <;> exact ⟨rfl, rfl, rfl⟩
    rw [hsame.1, hsame.2.1, hsame.2.2, (settings_step hs).2]
    refine ⟨ended, window_extend hs hwindow, htime.next hact hnext (fun n heq ↦ ?_)
      (fun hne ↦ ?_) fun n outcome next? batch heq hphase ↦ ?_⟩
    · subst heq
      cases hk
      exact if_pos rfl
    · rcases sent_afterTask k with ⟨heq, -⟩ | ⟨-, hsent⟩
      · exact absurd heq (hne k)
      · exact hsent
    · subst heq
      cases hk
      exact allowed job batch hjob hphase
  · rename_i hne
    refine h.jobs_same hs hjob' ?_
    rintro rfl
    cases hk
    exact hne rfl

theorem jobs_task (inner : e.isInner = true) (allowed : w.Allows env e)
    (hs : w.client.step w.now e = some client) (k : Nat) (job : BatchJob ι)
    (hjob : client.jobs[k]? = some job) :
    ∃ ended, (client.lane job.lane).windows[job.number]? = some (ended, job.window) ∧
      job.OnTime env client.policy w.now ((w.afterTask e client).sent k) ended := by
  cases act_of_step hs with
  | look hanswer => exact h.jobs_same hs hjob (by simp)
  | @handOver l number live window hlive hwindow =>
    rcases getElem?_concat_cases hjob with ⟨-, rfl⟩ | hold
    · obtain ⟨hmem, ⟨⟩⟩ := Option.ite_none_right_eq_some.1 hlive
      obtain ⟨window', hwindow'⟩ := (h.lanes l).leaving number hmem
      have heq : window' = window := by
        simpa [LiveBatcher.batch?, hwindow'] using hwindow
      subst heq
      exact ⟨w.now, window_extend hs hwindow', rfl⟩
    · exact h.jobs_same hs hold (by simp)
  | free hlive =>
    refine h.jobs_same hs ?_ (by simp)
    rw [← hjob]
    exact congrArg (·[k]?) (jobs_setLane w.client _ _).symm
  | lane hlive hsubmit hhand =>
    rw [jobs_setLane] at hjob
    exact h.jobs_same hs hjob (by simp)
  | job hk hold hact => exact h.jobs_act allowed hs hk hold hact k job hjob
  | _ => cases inner

/-! ## Callers -/

/-- What somebody returns who looks is there for it. -/
theorem available_of_look (hs : w.client.step w.now (.look call.caller seen) = some client)
    (hanswer : w.client.answer? w.now call.caller seen = some (c, r))
    (haccounted : Accounted env w called call c) (haccepted : c.accepted = true) :
    w.Available env call w.now r := by
  obtain ⟨hc, -, -, -⟩ := answer?_eq_some.1 hanswer
  have hfine : c.slot.result = some r ∨
      ∃ reason, r = .error (.ended reason) ∧
        c.ctx.endedBy w.client.tokens w.now reason = true := by
    cases act_of_step hs with
    | look hanswer' =>
      rw [hanswer] at hanswer'
      cases hanswer'
      rcases ((h.sound.step hs).fine call.caller _ (callers_setCaller_self _ _ _)).returned
        w.now r rfl with hresult | hended | ⟨hrejected, -⟩
      · exact .inl hresult
      · exact .inr hended
      · rw [haccepted] at hrejected
        cases hrejected
    | job hk => cases hk
  rcases hfine with hresult | ⟨reason, rfl, hended⟩
  · obtain ⟨job, hjob, batch, outcome, i, call', hbatch, hcall', hcaller, rfl⟩ :=
      h.sound.position_of_resolved ((h.sound.result_iff call.caller c hc r).1 hresult)
    obtain ⟨k, hk⟩ := List.mem_iff_getElem?.1 hjob
    obtain ⟨ended, hwindow, htime⟩ := h.jobs k job hk
    obtain ⟨time, failure?, hends, hle, rfl⟩ := htime.result hbatch
    have hmem : call' ∈ job.window := job.kept_sublist.subset (List.mem_of_getElem? hcall')
    obtain ⟨-, c', hc', -, hcall⟩ := h.sound.call_known hjob hmem
    rw [hcaller, hc] at hc'
    cases hc'
    have hrequest : call'.request = call.request := by
      rw [← hcall]
      simp only [PendingCall.request, Caller.call, haccounted.msg, haccounted.block]
    rw [← (h.sound.shaped job hjob).kept_of_result hbatch] at hcall'
    rw [Surroundings.outcomeAt_outcome hcall', hrequest]
    exact .answer hwindow (hcaller ▸ List.mem_map_of_mem hmem) hends hle
  · cases reason with
    | canceled =>
      obtain ⟨t, above, hcancel, hbelow⟩ := (h.traced.isCanceled_iff haccounted.token).1 hended
      exact .canceled hcancel hbelow (h.times _ hcancel)
    | deadlineExceeded =>
      simp only [Context.endedBy, Context.expired, haccounted.deadline] at hended
      cases hdeadline : call.ctx.deadline with
      | none =>
        rw [hdeadline] at hended
        cases hended
      | some deadline =>
        rw [hdeadline] at hended
        exact .late hdeadline (by simpa using hended)

/-- What becomes of a call follows from what its caller does. -/
theorem fate_step {w' : Watched ι} (hext : w.Extends w')
    (hs : w.client.step w.now e = some client)
    (hnext : CallerNext w.now w.client call.caller c e c')
    (haccounted : Accounted env w called call c)
    (hrefused : call.caller ∈ (w.log env (.ofBlock call.block)).refused →
      call.caller ∈ (w'.log env (.ofBlock call.block)).refused)
    (hleft : ∀ t, (t, .leave call.caller) ∈ w'.script →
      (t, .leave call.caller) ∈ w.script ∨ e = .leave call.caller)
    (hleaves : e = .leave call.caller → ∃ t, (t, .leave call.caller) ∈ w'.script) :
    Fate env w' called call c' := by
  have hnothing {t : Time} {r : Outcome (List UInt8)} (hlt : t < w.now)
      (hnone : ¬w.Available env call t r) : ¬w'.Available env call t r := by
    intro hsome
    have htoken := (List.getElem?_eq_some_iff.1 haccounted.token).1
    exact hnone (hsome.restrict hext h.traced htoken hlt)
  -- Results that were there are there still, and none is new for earlier times. So what was known
  -- of the caller stays true unless it looks or leaves.
  cases hnext with
  | same hcore hstays =>
    have hstayed (hall : ∀ t, (t, .leave call.caller) ∉ w.script) (t : Time) :
        (t, .leave call.caller) ∉ w'.script := by
      intro hmem
      rcases hleft t hmem with hold | heq
      · exact hall t hold
      · exact hstays heq
    have hacc : c'.accepted = c.accepted := congrArg (fun c ↦ c.accepted) hcore
    have hgone : c'.slot.waiterGone = c.slot.waiterGone :=
      congrArg (fun c ↦ c.slot.waiterGone) hcore
    have hret : c'.returned = c.returned := congrArg (fun c ↦ c.returned) hcore
    cases haccounted.fate with
    | refused hlog haccepted hwaiter hreturned hall =>
      exact .refused (hrefused hlog) (hacc.trans haccepted) (hgone.trans hwaiter)
        (hret.trans hreturned) (hstayed hall)
    | waiting haccepted hwaits hreturned hnone hall =>
      refine .waiting (hacc.trans haccepted) (hgone.trans hwaits) (hret.trans hreturned)
        (fun t r hle hlt ↦ ?_) (hstayed hall)
      rw [hext.now] at hlt
      exact hnothing hlt (hnone t r hle hlt)
    | @left t haccepted hwaiter hreturned hmem =>
      obtain ⟨more, hscript, -⟩ := hext.script
      refine .left (hacc.trans haccepted) (hgone.trans hwaiter) (hret.trans hreturned) (t := t) ?_
      rw [hscript]
      exact List.mem_append_left _ hmem
    | returned haccepted hwaiter hreturned hcalled hle hresult hnone hall =>
      refine .returned (hacc.trans haccepted) (hgone.trans hwaiter) (hret.trans hreturned) hcalled
        ?_ (hresult.extend hext) (fun t' r' hle' hlt ↦ ?_) (hstayed hall)
      · rw [hext.now]
        exact hle
      · exact hnothing (Nat.lt_of_lt_of_le hlt hle) (hnone t' r' hle' hlt)
  | look hanswer =>
    obtain ⟨-, hwaits, -⟩ := answer?_eq_some.1 hanswer
    obtain ⟨haccepted, -, hnone, hall⟩ := haccounted.fate.of_waits hwaits
    have hresult := h.available_of_look hs hanswer haccounted haccepted
    refine .returned haccepted rfl rfl haccounted.called_le ?_ (hresult.extend hext)
      (fun t' r' hle hlt ↦ hnothing hlt (hnone t' r' hle hlt)) fun t hmem ↦ ?_
    · rw [hext.now]
    · rcases hleft t hmem with hold | heq
      · exact hall t hold
      · cases heq
  | leave hwaits =>
    obtain ⟨t, hmem⟩ := hleaves rfl
    obtain ⟨haccepted, hreturned, -⟩ := haccounted.fate.of_waits hwaits
    exact .left haccepted rfl hreturned hmem

theorem accounted_step {w' : Watched ι} (hext : w.Extends w')
    (hs : w.client.step w.now e = some client)
    (hnext : CallerNext w.now w.client call.caller c e c')
    (haccounted : Accounted env w called call c)
    (hrefused : call.caller ∈ (w.log env (.ofBlock call.block)).refused →
      call.caller ∈ (w'.log env (.ofBlock call.block)).refused)
    (hleft : ∀ t, (t, .leave call.caller) ∈ w'.script →
      (t, .leave call.caller) ∈ w.script ∨ e = .leave call.caller)
    (hleaves : e = .leave call.caller → ∃ t, (t, .leave call.caller) ∈ w'.script) :
    Accounted env w' called call c' := by
  have hfate := h.fate_step hext hs hnext haccounted hrefused hleft hleaves
  obtain ⟨more, houter⟩ := hext.outer
  have htoken : w'.outer[call.ctx.token]? = some c.ctx.token := by
    rw [houter]
    exact getElem?_append_of_some haccounted.token more
  have hcalled : called ≤ w'.now := by
    rw [hext.now]
    exact haccounted.called_le
  obtain ⟨hmsg, hblock, hctx, -⟩ := hnext.call_eq
  refine ⟨hmsg.trans haccounted.msg, hblock.trans haccounted.block, ?_, ?_, hcalled, hfate⟩
  · rw [hctx]
    exact htoken
  · rw [hctx]
    exact haccounted.deadline

theorem callers_old_deed (he : d.event? w.outer = some e)
    (hs : w.client.step w.now e = some client) (hcall : (called, .call call) ∈ w.script) :
    ∃ c, client.callers call.caller = some c ∧
      Accounted env (w.afterDeed d client) called call c := by
  obtain ⟨c, hc, haccounted⟩ := h.callers called call hcall
  obtain ⟨c', hc', hnext⟩ := caller_step hs hc
  refine ⟨c', hc', h.accounted_step (extends_deed hs) hs hnext haccounted (fun hmem ↦ ?_)
    (fun t hmem ↦ ?_) fun heq ↦ ?_⟩
  · rw [h.log_deed hs]
    exact (refused_record _ _ _ _ _).2 (.inl hmem)
  · rcases List.mem_append.1 hmem with hold | hnew
    · exact .inl hold
    · right
      cases List.mem_singleton.1 hnew
      exact (Option.some.inj he).symm
  · subst heq
    exact ⟨w.now, List.mem_append_right _ (by rw [Deed.eq_leave he]; exact List.mem_cons_self)⟩

/-- Somebody has called, and is refused if its lane is shut. -/
theorem callers_new_deed {token : Nat} (htoken : w.outer[call.ctx.token]? = some token)
    (hnew : w.client.callers call.caller = none)
    (hs : w.client.step w.now e = some client)
    (hclient : client =
      w.client.submit w.now call.caller call.msg call.block { call.ctx with token }) :
    ∃ c, client.callers call.caller = some c ∧
      Accounted env (w.afterDeed (.call call) client) w.now call c := by
  have houter : (w.afterDeed (.call call) client).outer[call.ctx.token]? = some token := by
    simp only [afterDeed, Deed.parent?, Option.toList_none, List.map_nil, List.append_nil]
    exact htoken
  have hstayed (t : Time) :
      (t, .leave call.caller) ∉ (w.afterDeed (.call call) client).script := by
    intro hmem
    rcases List.mem_append.1 hmem with hold | hnew'
    · exact h.leavers t _ hold hnew
    · cases List.mem_singleton.1 hnew'
  rcases callers_submit w.client call.caller call.msg call.block { call.ctx with token } with
    ⟨hclosed, hc⟩ | ⟨hopen, hc⟩
  · rw [← hclient] at hc
    refine ⟨_, hc, rfl, rfl, houter, rfl, Nat.le_refl _, .refused ?_ rfl rfl rfl hstayed⟩
    have hshut : (w.log env (.ofBlock call.block)).shut = true :=
      (h.lanes _).shut.trans hclosed
    rw [h.log_deed hs]
    simp [Surroundings.record, LaneLog.arrive, hshut]
  · rw [← hclient] at hc
    refine ⟨_, hc, rfl, rfl, houter, rfl, Nat.le_refl _,
      .waiting rfl rfl rfl (fun t r hle hlt ↦ ?_) hstayed⟩
    exact absurd hlt (Nat.not_lt.2 hle)

theorem callers_deed (hact : DeedAct w.now w.client w.outer d client)
    (he : d.event? w.outer = some e) (hs : w.client.step w.now e = some client)
    (called : Time) (call : PendingCall ι)
    (hcall : (called, .call call) ∈ (w.afterDeed d client).script) :
    ∃ c, client.callers call.caller = some c ∧
      Accounted env (w.afterDeed d client) called call c := by
  rcases List.mem_append.1 hcall with hold | hnew
  · exact h.callers_old_deed he hs hold
  · cases List.mem_singleton.1 hnew
    cases hact with
    | call htoken hnone => exact h.callers_new_deed htoken hnone hs rfl
    | lane hd => cases hd

theorem callers_task (inner : e.isInner = true) (hs : w.client.step w.now e = some client)
    (called : Time) (call : PendingCall ι) (hcall : (called, .call call) ∈ w.script) :
    ∃ c, client.callers call.caller = some c ∧
      Accounted env (w.afterTask e client) called call c := by
  obtain ⟨c, hc, haccounted⟩ := h.callers called call hcall
  obtain ⟨c', hc', hnext⟩ := caller_step hs hc
  refine ⟨c', hc', h.accounted_step (extends_task hs) hs hnext haccounted (fun hmem ↦ ?_)
    (fun t hmem ↦ .inl hmem) fun heq ↦ ?_⟩
  · rw [h.log_task hs]
    exact hmem
  · subst heq
    cases inner

theorem known_deed (he : d.event? w.outer = some e) (hs : w.client.step w.now e = some client)
    (id : ι) (c' : Caller) (hc' : client.callers id = some c') :
    ∃ called call, (called, .call call) ∈ (w.afterDeed d client).script ∧ call.caller = id := by
  cases hc : w.client.callers id with
  | some c =>
    obtain ⟨called, call, hcall, hcaller⟩ := h.known id c hc
    exact ⟨called, call, List.mem_append_left _ hcall, hcaller⟩
  | none =>
    rcases new_caller_step hs hc with hnone | ⟨msg, block, ctx, rfl⟩
    · rw [hnone] at hc'
      cases hc'
    · obtain ⟨call, rfl, hcaller⟩ := Deed.eq_call he
      exact ⟨w.now, call, List.mem_append_right _ List.mem_cons_self, hcaller⟩

theorem known_task (inner : e.isInner = true) (hs : w.client.step w.now e = some client) (id : ι)
    (c' : Caller) (hc' : client.callers id = some c') :
    ∃ called call, (called, .call call) ∈ w.script ∧ call.caller = id := by
  cases hc : w.client.callers id with
  | some c => exact h.known id c hc
  | none =>
    rcases new_caller_step hs hc with hnone | ⟨msg, block, ctx, rfl⟩
    · rw [hnone] at hc'
      cases hc'
    · cases inner

theorem leavers_deed (hact : DeedAct w.now w.client w.outer d client)
    (hs : w.client.step w.now e = some client) (t : Time) (id : ι)
    (hmem : (t, .leave id) ∈ (w.afterDeed d client).script) : client.callers id ≠ none := by
  have hsome {c : Caller} (hc : w.client.callers id = some c) : client.callers id ≠ none := by
    obtain ⟨c', hc', -⟩ := caller_step hs hc
    rw [hc']
    exact Option.some_ne_none _
  rcases List.mem_append.1 hmem with hold | hnew
  · obtain ⟨c, hc⟩ := Option.ne_none_iff_exists'.1 (h.leavers t id hold)
    exact hsome hc
  · cases List.mem_singleton.1 hnew
    cases hact with
    | leave hc hwaits => exact hsome hc
    | lane hd => cases hd

theorem refused_kept (hs : w.client.step w.now e = some client) {l : Lane} {id : ι}
    (hmem : id ∈ (w.log env l).refused) :
    ∃ c, client.callers id = some c ∧ c.accepted = false := by
  obtain ⟨c, hc, haccepted⟩ := h.refused l id hmem
  obtain ⟨c', hc', hnext⟩ := caller_step hs hc
  exact ⟨c', hc', hnext.call_eq.2.2.2.trans haccepted⟩

theorem refused_deed (hact : DeedAct w.now w.client w.outer d client)
    (hs : w.client.step w.now e = some client) (l : Lane) (id : ι)
    (hmem : id ∈ ((w.afterDeed d client).log env l).refused) :
    ∃ c, client.callers id = some c ∧ c.accepted = false := by
  rw [h.log_deed hs, refused_record] at hmem
  rcases hmem with hold | ⟨call, rfl, rfl, rfl, hshut⟩
  · exact h.refused_kept hs hold
  · cases hact with
    | @call _ token htoken hnew =>
      rcases callers_submit w.client call.caller call.msg call.block { call.ctx with token } with
        ⟨-, hc⟩ | ⟨hopen, -⟩
      · exact ⟨_, hc, rfl⟩
      · rw [← (h.lanes _).shut, hshut] at hopen
        cases hopen
    | lane hd => cases hd

/-! ## Moves -/

theorem deed (he : d.event? w.outer = some e) (allowed : w.Allows env e)
    (hs : w.client.step w.now e = some client) : Kept env limits policy (w.afterDeed d client) where
  sound := h.sound.step hs
  policy_eq := (settings_step hs).2.trans h.policy_eq
  traced := h.traced_deed (deedAct_of_step he hs)
  times := by
    intro x hx
    rcases List.mem_append.1 hx with hx | hx
    · exact h.times x hx
    · rw [List.mem_singleton.1 hx]
      exact Nat.le_refl _
  lanes := by
    intro l
    rw [h.log_deed hs]
    exact h.lanes_deed (deedAct_of_step he hs) he allowed l
  jobs := h.jobs_deed (deedAct_of_step he hs) hs
  known := h.known_deed he hs
  leavers := h.leavers_deed (deedAct_of_step he hs) hs
  callers := h.callers_deed (deedAct_of_step he hs) he hs
  refused := h.refused_deed (deedAct_of_step he hs) hs

theorem task (inner : e.isInner = true) (allowed : w.Allows env e)
    (hs : w.client.step w.now e = some client) : Kept env limits policy (w.afterTask e client) where
  sound := h.sound.step hs
  policy_eq := (settings_step hs).2.trans h.policy_eq
  traced := h.traced_task inner hs
  times := h.times
  lanes := by
    intro l
    rw [h.log_task hs]
    exact h.lanes_task inner hs l
  jobs := h.jobs_task inner allowed hs
  known := h.known_task inner hs
  leavers := by
    intro t id hmem
    obtain ⟨c, hc⟩ := Option.ne_none_iff_exists'.1 (h.leavers t id hmem)
    obtain ⟨c', hc', -⟩ := caller_step hs hc
    simp only [afterTask, hc']
    exact Option.some_ne_none _
  callers := h.callers_task inner hs
  refused := by
    intro l id hmem
    rw [h.log_task hs] at hmem
    exact h.refused_kept hs hmem

omit h in
/-- Somebody who waits while nothing is left to be done finds no result. -/
theorem nothing_to_find {later : Time} (idle : w.IdleUntil env later)
    (hc : w.client.callers id = some c) (hwaits : c.slot.waiterGone = false)
    (hle : w.now ≤ t) (hlt : t < later) :
    c.slot.result = none ∧ ∀ reason, c.ctx.endedBy w.client.tokens t reason = false := by
  have hpoll (seen : Option Reason)
      (hseen : ∀ reason ∈ seen, c.ctx.endedBy w.client.tokens t reason = true) :
      c.slot.poll seen = none := by
    by_contra hsome
    obtain ⟨r, hr⟩ := Option.ne_none_iff_exists'.1 hsome
    have hanswer := answer?_eq_some.2 ⟨hc, hwaits, hseen, hr⟩
    rw [idle.callers id seen t hle hlt] at hanswer
    cases hanswer
  constructor
  · exact ((Slot.poll_eq_none_iff _ _).1 (hpoll none fun _ hr ↦ nomatch hr)).1
  · intro reason
    by_contra hended
    have hnone := hpoll (some reason) fun _ hr ↦ by
      cases hr
      simpa using hended
    cases ((Slot.poll_eq_none_iff _ _).1 hnone).2.2

/-- A window that has ended is the window of a job as soon as its lane has nothing left to do. -/
theorem job_of_window {later : Time} {l : Lane} {number : Nat} {ended : Time}
    {window : List (PendingCall ι)} (idle : (w.client.lane l).IdleUntil later)
    (hwindow : (w.client.lane l).windows[number]? = some (ended, window)) :
    ∃ (k : Nat) (job : BatchJob ι), w.client.jobs[k]? = some job ∧ job.lane = l ∧
      job.number = number ∧ job.window = window ∧
        job.OnTime env w.client.policy w.now (w.sent k) ended := by
  have hhanded : number ∈ (w.client.lane l).handed.map (·.2) := by
    have hmem := (h.sound.lanes l).handed_once.mem_iff.2
      (List.mem_range.2 (List.getElem?_eq_some_iff.1 hwindow).1)
    rw [idle.1, List.append_nil] at hmem
    exact hmem
  rw [← h.sound.numbered l] at hhanded
  obtain ⟨job, hjob, rfl⟩ := List.mem_map.1 hhanded
  obtain ⟨hmem, hlane⟩ := List.mem_filter.1 hjob
  have heq : job.lane = l := by simpa using hlane
  subst heq
  obtain ⟨k, hk⟩ := List.mem_iff_getElem?.1 hmem
  obtain ⟨ended', hwindow', htime⟩ := h.jobs k job hk
  rw [hwindow] at hwindow'
  cases hwindow'
  exact ⟨k, job, hk, rfl, rfl, rfl, htime⟩

/-- Whoever waits and is in the window of a job that has done its work has a result. -/
theorem result_of_done {job : BatchJob ι} (hjob : job ∈ w.client.jobs)
    {result : Option (CallBatch ι × BatchOutcome)} (hphase : job.phase = .done result)
    (hmem : id ∈ job.window.map (·.caller)) (hc : w.client.callers id = some c)
    (hwaits : c.slot.waiterGone = false) : c.slot.result ≠ none := by
  intro hnone
  obtain ⟨call, hcall, rfl⟩ := List.mem_map.1 hmem
  have hstays : call.caller ∉ job.gone := by
    intro hgone
    have habandoned := (h.sound.gone job hjob _ hgone).2
    rw [isAbandoned_of_some hc] at habandoned
    simp [Slot.isAbandoned, hnone, hwaits] at habandoned
  have hkept : call ∈ job.kept := List.mem_filter.2 ⟨hcall, by simpa using hstays⟩
  have hshaped := h.sound.shaped job hjob
  cases result with
  | none =>
    simp only [BatchJob.Shaped, hphase] at hshaped
    rw [hshaped] at hkept
    cases hkept
  | some x =>
    obtain ⟨batch, outcome⟩ := x
    simp only [BatchJob.Shaped, hphase] at hshaped
    rw [← hshaped] at hkept
    obtain ⟨i, hi⟩ := List.mem_iff_getElem?.1 hkept
    have hresolved : (call.caller, outcomeAt outcome i) ∈ job.resolved := by
      simp only [BatchJob.resolved, hphase]
      exact mem_answers.2 ⟨i, call, hi, rfl⟩
    have hresult := (h.sound.result_iff call.caller c hc _).2
      (List.mem_flatMap.2 ⟨job, hjob, hresolved⟩)
    rw [hnone] at hresult
    cases hresult

/-- The clock passes no time at which there is a result for somebody who waits. -/
theorem not_available_of_idle {later : Time} (idle : w.IdleUntil env later)
    (hc : w.client.callers call.caller = some c) (haccounted : Accounted env w called call c)
    (hwaits : c.slot.waiterGone = false) (hle : w.now ≤ t) (hlt : t < later) :
    ¬w.Available env call t r := by
  obtain ⟨hresult, hended⟩ := nothing_to_find idle hc hwaits hle hlt
  intro havailable
  cases havailable with
  | @answer l number ended time window failure? hwindow hmem hends hle' =>
    obtain ⟨k, job, hk, rfl, rfl, rfl, htime⟩ := h.job_of_window (idle.lanes l) hwindow
    obtain ⟨result, hphase⟩ :=
      done_of_idle htime (idle.jobs k job hk) hends (Nat.lt_of_le_of_lt hle' hlt)
    exact h.result_of_done (List.mem_of_getElem? hk) hphase hmem hc hwaits hresult
  | @canceled time token hcancel hbelow hle' =>
    have hcanceled := (h.traced.isCanceled_iff haccounted.token).2 ⟨time, token, hcancel, hbelow⟩
    have hnot := hended .canceled
    rw [Context.endedBy, hcanceled] at hnot
    cases hnot
  | @late deadline hdeadline hle' =>
    have hnot := hended .deadlineExceeded
    simp only [Context.endedBy, Context.expired, haccounted.deadline, hdeadline] at hnot
    exact absurd hle' (by simpa using hnot)

theorem wait {later : Time} (hle : w.now ≤ later) (idle : w.IdleUntil env later) :
    Kept env limits policy { w with now := later } where
  sound := h.sound.wait hle
  policy_eq := h.policy_eq
  traced := h.traced
  times := fun x hx ↦ Nat.le_trans (h.times x hx) hle
  lanes := fun l ↦ (h.lanes l).wait hle (idle.lanes l)
  jobs := by
    intro k job hjob
    obtain ⟨ended, hwindow, htime⟩ := h.jobs k job hjob
    have hlater := onTime_wait htime hle (idle.jobs k job hjob)
    exact ⟨ended, hwindow, hlater⟩
  known := h.known
  leavers := h.leavers
  callers := by
    intro called call hcall
    obtain ⟨c, hc, haccounted⟩ := h.callers called call hcall
    refine ⟨c, hc, haccounted.msg, haccounted.block, haccounted.token, haccounted.deadline,
      Nat.le_trans haccounted.called_le hle, ?_⟩
    cases haccounted.fate with
    | refused hlog haccepted hgone hreturned hall =>
      exact .refused hlog haccepted hgone hreturned hall
    | waiting haccepted hwaits hreturned hnone hall =>
      refine .waiting haccepted hwaits hreturned (fun t r hcalled hlt ↦ ?_) hall
      rw [available_wait_iff]
      rcases Nat.lt_or_ge t w.now with hbefore | hafter
      · exact hnone t r hcalled hbefore
      · exact h.not_available_of_idle idle hc haccounted hwaits hafter hlt
    | left haccepted hgone hreturned hmem => exact .left haccepted hgone hreturned hmem
    | returned haccepted hgone hreturned hcalled hlt hresult hnone hall =>
      refine .returned haccepted hgone hreturned hcalled (Nat.le_trans hlt hle)
        (available_wait_iff.2 hresult) (fun t' r' hle' hlt' ↦ ?_) hall
      rw [available_wait_iff]
      exact hnone t' r' hle' hlt'
  refused := h.refused

end Kept

theorem kept_new (client : Client) (policy : BackoffPolicy) (limits : BatchLimits) (now : Time) :
    Kept env limits policy (.new client policy limits now : Watched ι) where
  sound := sound_new client policy limits now
  policy_eq := rfl
  traced := ⟨rfl, .nil, fun _ _ h ↦ by simp [Script.parents, new] at h, fun _ _ h ↦ by
    simp [new] at h, fun _ _ _ h ↦ by simp [Script.parents, new] at h⟩
  times := fun _ hx ↦ (List.not_mem_nil hx).elim
  lanes := by
    intro l
    cases l <;> exact .inl (matches_new limits now)
  jobs := fun _ _ h ↦ by simp [new, BatchingClient.new] at h
  known := fun _ _ h ↦ by cases h
  leavers := fun _ _ h ↦ (List.not_mem_nil h).elim
  callers := fun _ _ h ↦ (List.not_mem_nil h).elim
  refused := fun _ _ h ↦ (List.not_mem_nil h).elim

theorem kept_of_run {w' : Watched ι} (run : Relation.ReflTransGen (Move env) w w')
    (h : Kept env limits policy w) : Kept env limits policy w' := by
  induction run with
  | refl => exact h
  | tail _ hm ih =>
    cases hm with
    | wait hle idle => exact ih.wait hle idle
    | deed d he allowed hs => exact ih.deed he allowed hs
    | task e inner allowed hs => exact ih.task inner allowed hs

end Watched

end Outbound.Eth
