import Outbound.Proofs.Eth.Closings
import Outbound.Proofs.Eth.Settlement

/-!
# Clients that succeed one another

The client of settings is open from the time when they come into force until a fixed time after they
are replaced, and closed from then on. Meanwhile it takes calls, and those it took are answered from
its own endpoints, also when it is closed while they wait. Only a call that comes after that returns
that the client is closed. The one exception is an update that fails: it leaves the client of the
settings in force to be closed as if it had replaced them.
-/

namespace Outbound.Eth

variable {ι : Type} [DecidableEq ι] {callBytes : Nat}

/-- What a client does for its callers, where `updates` are the times of the updates that were to
replace its settings. -/
structure Generation.Serves (prompt : Prop) (now : Time) (events : List (Time × Reloading.Event ι))
    (k : Nat) (updates : List Time) (g : Generation ι) (client : BatchingClient ι) : Prop where
  closed_from : ∀ l, (client.lane l).batcher.closed = true →
    ∃ t ∈ updates, t + clientCloseDelay ≤ now
  open_until : prompt → ∀ l, (client.lane l).batcher.closed = false →
    ∀ t ∈ updates, now ≤ t + clientCloseDelay
  taken : prompt → ∀ l, ∀ x ∈ (client.lane l).accepted, ∀ t ∈ updates, x.1 ≤ t + clientCloseDelay
  refused : ∀ id c t, client.callers id = some c → c.returned = some (t, .error .closed) →
    ∃ t' ∈ updates, t' + clientCloseDelay ≤ t
  /-- Only a call that the client did not take returns that the client is closed. -/
  refused_iff : ∀ id c, client.callers id = some c →
    (c.accepted = false ↔ ∃ t, c.returned = some (t, .error .closed))
  /-- No call is left behind in a lane that is closed, or lost with it. -/
  flushed : ∀ l, ((client.lane l).batcher.closed = true → (client.lane l).batcher.items = []) ∧
    (client.lane l).lost = []
  answered : ∃ endpoints fallback journal,
    g.edition.settings.eth.dial = .ok (endpoints, fallback) ∧
    BatchingClient.Journaled (g.since, g.edition.settings.client endpoints) journal (now, client) ∧
    ∀ id c t r, client.callers id = some c → c.accepted = true → c.returned = some (t, r) →
      (∃ reason, r = .error (.ended reason) ∧ c.ctx.endedBy client.tokens now reason = true) ∨
        client.AnsweredBy journal (c.call id) r ∧
          endpoints.url (client.client.endpoint c.block) =
            if c.block.isNone then endpoints.primary
            else endpoints.archive.getD endpoints.primary
  /-- Each act of a task does some of the work, unless another attempt follows. -/
  work : ∀ e client', e.isTask = true → client.step now e = some client' →
    client'.work < client.work ∨ ∃ (n : Nat) (job job' : BatchJob ι) (err : Error),
      client.jobs[n]? = some job ∧ client'.jobs[n]? = some job' ∧
        job'.failures = job.failures ++ [err]
  returned : client.Quiet → ∀ id c, client.callers id = some c → c.accepted = true →
    (∀ t, (t, .act k (.leave id)) ∉ events) → ∃ t r, c.returned = some (t, r)

/-- How a client and the tasks that close it go on. -/
structure Reloading.Proceeds (callBytes : Nat) (now : Time) (s : Reloading ι) (k : Nat)
    (g : Generation ι) (client : BatchingClient ι) : Prop where
  /-- Whoever has loaded the settings can call. The call is refused if the lane is closed at that
  moment, and taken otherwise. -/
  called : ∀ id msg block ctx, s.isLoaded k = true → client.callers id = none →
    ctx.token < client.tokens.nodes.length → ctx.token ∉ client.detached →
      ∃ client' c, s.step callBytes now (.call k id msg block ctx) =
          some { s with generations := s.generations.set k { g with client := some client' } } ∧
        client'.callers id = some c ∧
        c.accepted = !(client.lane (.ofBlock block)).batcher.closed
  /-- As long as there is work, a node owes a reply or a task can act. -/
  busy : ¬client.Quiet → (∃ job ∈ client.jobs, ∃ batch, job.phase = .sent batch) ∨
    ∃ later e s', now ≤ later ∧ e.isTask = true ∧ s.step callBytes later (.act k e) = some s'
  /-- A closing task that the clock waits for can act. -/
  closing : ∀ n task, g.closings[n]? = some task → task.phase.idleUntil (now + 1) = false →
    ∃ e s', (e = .sleep k n ∨ ∃ l, e = .close k n l) ∧ s.step callBytes now e = some s'
  /-- A lane that is closed stays closed. -/
  stays : ∀ e s', s.step callBytes now e = some s' → ∃ g' client',
    s'.generations[k]? = some g' ∧ g'.edition = g.edition ∧ g'.since = g.since ∧
      g'.client = some client' ∧ ∀ l, (client.lane l).batcher.closed = true →
        (client'.lane l).batcher.closed = true

omit [DecidableEq ι] in
theorem BatchingClient.Event.isPlain_of_isTask {e : BatchingClient.Event ι} (htask : e.isTask = true)
    (hreply : e.attempted? = none) : e.isPlain = true := by
  cases e with
  | lane l event =>
    cases event <;> first | rfl | cases htask
  | reply n outcome next? => cases hreply
  | call id msg block ctx => cases htask
  | _ => rfl

theorem Edition.dialed_eq {settings : BatchingSettings} {found : Option Endpoints}
    (h : settings.eth.dial.toOption.map Prod.fst = found) (number : Nat) :
    dialed { number, settings } = { number, settings, endpoints := found } :=
  congrArg (Edition.mk number settings) h

namespace Reloading

/-- The times of the updates that were to replace a generation: those that failed, and the one
that came into force. -/
def updatesOf (s : Reloading ι) (k : Nat) (g : Generation ι) : List Time :=
  g.failed ++ s.times[k + 1]?.toList

variable {prompt : Prop} {settings : BatchingSettings} {start now : Time} {first s s' : Reloading ι}
  {events : List (Time × Event ι)}

/-! ## Events that can happen -/

section Steps

variable {k : Nat} {g : Generation ι} {client client' : BatchingClient ι}

theorem onClient_of_step {e : BatchingClient.Event ι} (hg : s.generations[k]? = some g)
    (hclient : g.client = some client) (hs : client.step now e = some client') :
    s.onClient now k e =
      some { s with generations := s.generations.set k { g with client := some client' } } := by
  simp [onClient, hg, hclient, hs]

theorem step_reply {job count : Nat} {number : UInt64} {exchange : Exchange}
    {outcome : BatchOutcome} {next? : Nanos → Option (Nanos × Nanos)}
    (hawaits : s.awaits k job count = true)
    (hread : Rpc.readBatch number count exchange = outcome) :
    s.step callBytes now (.reply k job number count exchange next?) =
      s.onClient now k (.reply job outcome next?) := by
  rw [← hread]
  exact if_pos hawaits

theorem step_close {n : Nat} {task task' : Closing} {l : Lane} (hg : s.generations[k]? = some g)
    (htask : g.closings[n]? = some task) (hnext : task.close? now l = some task')
    (hclient : g.client = some client) (hs : client.step now (.lane l .close) = some client') :
    s.step callBytes now (.close k n l) =
      some { s with
        generations := s.generations.set k
          { g with client := some client', closings := g.closings.set n task' } } := by
  have hself := List.getElem?_set_self (a := { g with closings := g.closings.set n task' })
    (List.getElem?_eq_some_iff.1 hg).1
  have hclosing : s.onClosing k n (Closing.close? now l) = some { s with
      generations := s.generations.set k { g with closings := g.closings.set n task' } } := by
    simp [onClosing, hg, htask, hnext]
  simp only [step, hclosing, Option.bind_eq_bind, Option.bind_some]
  refine (onClient_of_step (s := { s with generations := s.generations.set k _ }) hself hclient
    hs).trans ?_
  rw [List.set_set]

end Steps

/-! ## Closing tasks get to run -/

/-- A client that is let go of is not in force, and no task is left that closes it. -/
def Held (s : Reloading ι) : Prop :=
  ∀ (k : Nat) (g : Generation ι) (client : BatchingClient ι) (l : Lane),
    s.generations[k]? = some g → g.client = some client → (client.lane l).handles = 0 →
      k ≠ s.live.load.number ∧ ∀ task ∈ g.closings, task.phase = .done

omit [DecidableEq ι] in
theorem handles_new {v : Edition} {client : BatchingClient ι}
    (hclient : (Generation.new now v).client = some client) (l : Lane) :
    (client.lane l).handles ≠ 0 := by
  obtain ⟨endpoints, -, rfl⟩ := Option.map_eq_some_iff.1 hclient
  cases l <;> exact Nat.one_ne_zero

omit [DecidableEq ι] in
theorem held_new (hfirst : new callBytes start settings = some first) : first.Held := by
  obtain ⟨-, ⟨⟩⟩ := Option.ite_none_right_eq_some.1 hfirst
  intro k g client l hg hclient hgone
  rw [List.mem_singleton.1 (List.mem_of_getElem? hg)] at hclient
  exact absurd hgone (handles_new hclient l)

omit [DecidableEq ι] in
theorem Held.update (h : s.Held) (horderly : s.Orderly) (now : Time) (settings : BatchingSettings) :
    (s.update callBytes now settings).Held := by
  intro k g client l hg hclient hgone
  cases horderly.origin_of_update hg with
  | new hk hbuilds => exact absurd hgone (handles_new hclient l)
  | kept hold hk =>
    refine ⟨?_, (h k g client l hold hclient hgone).2⟩
    rw [live_update]
    split
    · exact (List.getElem?_eq_some_iff.1 hold).1.ne
    · exact hk
  -- The client in force is not let go of, whatever the update makes of its generation.
  | replaced hold hk hbuilds =>
    exact absurd hk (h k _ client l hold (client_replaced.symm.trans hclient) hgone).1
  | failed hold hk hfails =>
    exact absurd hk (h k _ client l hold (client_replaced.symm.trans hclient) hgone).1

theorem Held.next (h : s.Held) {k : Nat} {g g' : Generation ι} {e : Option (BatchingClient.Event ι)}
    (hg : s.generations[k]? = some g) (hnext : g.Next now e g')
    (hdrop : ∀ l, e = some (.lane l .drop) → s.isLetGo k = true) {client : BatchingClient ι} {l : Lane}
    (hclient : g'.client = some client) (hgone : (client.lane l).handles = 0) :
    k ≠ s.live.load.number ∧ ∀ task ∈ g'.closings, task.phase = .done := by
  cases hnext with
  | @client event old client' hold hs hclose =>
    cases hclient
    by_cases heq : event = .lane l .drop
    · have hletGo := hdrop l (congrArg some heq)
      simp only [isLetGo, hg, Option.all_some, Bool.and_eq_true, bne_iff_ne, List.all_eq_true,
        decide_eq_true_eq] at hletGo
      exact ⟨hletGo.1.1, hletGo.2⟩
    · have hle := BatchingClient.lane_handles_le hs heq
      exact h k g old l hg hold (Nat.le_zero.1 (hle.trans hgone.le))
  | sleep htask hphase =>
    have hdone := (h k g client l hg hclient hgone).2 _ (List.mem_of_getElem? htask)
    rw [hphase] at hdone
    cases hdone
  | @close m task task' l' old client' htask hnext hold hs =>
    cases hclient
    have hle := BatchingClient.lane_handles_le (l := l) hs fun heq ↦ nomatch heq
    have hdone := (h k g old l hg hold (Nat.le_zero.1 (hle.trans hgone.le))).2 _
      (List.mem_of_getElem? htask)
    simp [Closing.close?, hdone] at hnext

theorem held_of_run (hfirst : new callBytes start settings = some first) {y : Time × Reloading ι}
    (run : Run callBytes prompt (start, first) events y) : y.2.Held := by
  induction run with
  | refl => exact held_new hfirst
  | wait run h idle ih => exact ih
  | @event events now s s' run e h ih =>
    cases act_of_step h with
    | update settings => exact ih.update (orderly_of_run hfirst run) now settings
    | load => exact ih
    | forget i => exact ih
    | generation hupdate hx hnext hother hdrop =>
      intro k g client l hg hclient hgone
      rcases getElem?_set_cases hg with ⟨rfl, rfl⟩ | ⟨-, hg⟩
      · exact ih.next hx hnext hdrop hclient hgone
      · exact ih k g client l hg hclient hgone

theorem exists_step_of_closing (hfirst : new callBytes start settings = some first)
    (run : Run callBytes prompt (start, first) events (now, s)) {k n : Nat} {g : Generation ι}
    {task : Closing} (hg : s.generations[k]? = some g) (htask : g.closings[n]? = some task)
    (hbusy : task.phase.idleUntil (now + 1) = false) :
    ∃ e s', (e = .sleep k n ∨ ∃ l, e = .close k n l) ∧ s.step callBytes now e = some s' := by
  have hclose {l : Lane} {task' : Closing} (hnext : task.close? now l = some task') :
      ∃ e s', (e = .sleep k n ∨ ∃ l, e = .close k n l) ∧ s.step callBytes now e = some s' := by
    have hkept := kept_of_run hfirst run k g hg
    have hsome : g.client.isSome = true := by
      rw [hkept.connected]
      by_contra hnone
      have hclosings := (orderly_of_run hfirst run).closings k g hg
      rw [if_neg hnone, List.map_eq_nil_iff] at hclosings
      rw [hclosings] at htask
      cases htask
    obtain ⟨client, hclient⟩ := Option.isSome_iff_exists.1 hsome
    have hhandles : 0 < (client.lane l).handles := by
      refine Nat.pos_of_ne_zero fun hgone ↦ ?_
      have hdone := (held_of_run hfirst run k g client l hg hclient hgone).2 task
        (List.mem_of_getElem? htask)
      simp [Closing.close?, hdone] at hnext
    have hlane : (client.lane l).step now .close =
        some ((client.lane l).apply now (client.lane l).batcher.close) := if_pos hhandles
    have hstep : client.step now (.lane l .close) = some (client.setLane _ l) :=
      Option.bind_eq_some_iff.2 ⟨_, hlane, rfl⟩
    exact ⟨.close k n l, _, .inr ⟨l, rfl⟩, step_close hg htask hnext hclient hstep⟩
  cases hphase : task.phase with
  | spawned =>
    have hstep : (s.step callBytes now (.sleep k n)).isSome = true := by
      simp [step, onClosing, hg, htask, Closing.sleep?, hphase]
    obtain ⟨s', hs⟩ := Option.isSome_iff_exists.1 hstep
    exact ⟨.sleep k n, s', .inl rfl, hs⟩
  | sleeping due =>
    have hdue : due ≤ now := by
      simpa [ClosingPhase.idleUntil, hphase] using hbusy
    have hnext : task.close? now .latest = some { task with phase := .halfway } := by
      simp [Closing.close?, hphase, hdue]
    exact hclose hnext
  | halfway =>
    have hnext : task.close? now .archive = some { task with phase := .done } := by
      simp [Closing.close?, hphase]
    exact hclose hnext
  | done =>
    rw [hphase] at hbusy
    cases hbusy

/-! ## Clients and their callers -/

omit [DecidableEq ι] in
theorem Orderly.dues_eq (h : s.Orderly) {k : Nat} {g : Generation ι}
    (hg : s.generations[k]? = some g) (hsome : g.edition.endpoints.isSome = true) :
    g.dues = (s.updatesOf k g).map (· + clientCloseDelay) := by
  have hclosings := h.closings k g hg
  rw [if_pos hsome] at hclosings
  rw [updatesOf, ← hclosings, List.map_map]
  rfl

omit [DecidableEq ι] in
theorem Orderly.endpoints_eq (h : s.Orderly) {k : Nat} {g : Generation ι}
    (hg : s.generations[k]? = some g) :
    g.edition.endpoints = g.edition.settings.eth.dial.toOption.map Prod.fst := by
  have hdialed := h.dialed g.edition (List.mem_map_of_mem (List.mem_of_getElem? hg))
  exact (congrArg Edition.endpoints hdialed).symm

theorem serves_of_run (hfirst : new callBytes start settings = some first)
    (run : Run callBytes prompt (start, first) events (now, s)) {k : Nat} {g : Generation ι}
    {client : BatchingClient ι} (hg : s.generations[k]? = some g)
    (hclient : g.client = some client) :
    g.Serves prompt now events k (s.updatesOf k g) client := by
  have horderly := orderly_of_run hfirst run
  have hkept := kept_of_run hfirst run k g hg
  have hfine := hkept.fine client hclient
  have hsome : g.edition.endpoints.isSome = true := by
    rw [← hkept.connected, hclient]
    rfl
  have hdues := horderly.dues_eq hg hsome
  have hsound := hfine.limits
  obtain ⟨endpoints, trace, hendpoints, htrace, hrun⟩ := hfine.run
  obtain ⟨fallback, hdial⟩ : ∃ fallback,
      g.edition.settings.eth.dial = .ok (endpoints, fallback) := by
    rw [horderly.endpoints_eq hg] at hendpoints
    cases hdial : g.edition.settings.eth.dial with
    | error e =>
      rw [hdial] at hendpoints
      cases hendpoints
    | ok x =>
      rw [hdial] at hendpoints
      cases hendpoints
      exact ⟨x.2, rfl⟩
  obtain ⟨journal, hjournal⟩ := BatchingClient.exists_journal hrun.moves
  have hreplies : ∀ n outcome next?, .reply n outcome next? ∈ trace →
      ¬BatchOutcome.reports outcome .closed := by
    intro n outcome next? hmem hreports
    obtain ⟨first, count, exchange, rfl⟩ := exists_readBatch_of_mem_seen (htrace hmem)
    cases Rpc.isOfReply_of_readBatch hreports
  have hrefused {id : ι} {c : Caller} {t : Time} (hc : client.callers id = some c)
      (hreturned : c.returned = some (t, .error .closed)) : c.accepted = false :=
    BatchingClient.refused_of_returned hrun hreplies hc hreturned
  refine ⟨fun l hclosed ↦ ?_, fun hprompt l hopen t ht ↦ ?_, fun hprompt l x hx t ht ↦ ?_,
    fun id c t hc hreturned ↦ ?_, fun id c hc ↦ ⟨fun hlate ↦ ?_, ?_⟩, fun l ↦ ?_,
    ⟨endpoints, fallback, journal, hdial, hjournal, fun id c t r hc haccepted hreturned ↦ ?_⟩,
    fun e client' ↦ hsound.work_lt_or,
    fun hq id c hc haccepted hstays ↦ ?_⟩
  · obtain ⟨due, hdue, hle⟩ := hfine.exists_due hclosed
    rw [hdues] at hdue
    obtain ⟨t, ht, rfl⟩ := List.mem_map.1 hdue
    exact ⟨t, ht, hle⟩
  · refine hfine.le_dues hprompt hopen _ ?_
    rw [hdues]
    exact List.mem_map_of_mem ht
  · refine (hfine.accepted l x hx).2 hprompt _ ?_
    rw [hdues]
    exact List.mem_map_of_mem ht
  · obtain ⟨t', heq, due, hdue, hle⟩ := hfine.refused id c hc (hrefused hc hreturned)
    rw [hreturned] at heq
    cases heq
    rw [hdues] at hdue
    obtain ⟨t', ht', rfl⟩ := List.mem_map.1 hdue
    exact ⟨t', ht', hle⟩
  · obtain ⟨t, hreturned, -⟩ := hfine.refused id c hc hlate
    exact ⟨t, hreturned⟩
  · rintro ⟨t, hreturned⟩
    exact hrefused hc hreturned
  · exact ⟨(hsound.lanes l).closed, (hsound.lanes l).nothing_lost⟩
  · refine (BatchingClient.answeredBy_of_returned hjournal hc haccepted hreturned).imp_right
      fun hanswered ↦ ⟨hanswered, ?_⟩
    rw [(BatchingClient.settings_run hrun.moves).1]
    exact endpoints.url_endpoint c.block
  · exact BatchingClient.returned_of_quiet hrun hq hc haccepted
      fun hleave ↦ (act_of_mem_seen_leave (htrace hleave)).elim hstays

/-- Any event leaves a generation its client, which it may let do something. -/
theorem exists_client_of_step (h : s.Orderly) {e : Event ι} (hs : s.step callBytes now e = some s')
    {k : Nat} {g : Generation ι} {client : BatchingClient ι} (hg : s.generations[k]? = some g)
    (hclient : g.client = some client) :
    ∃ g' client', s'.generations[k]? = some g' ∧ g'.edition = g.edition ∧ g'.since = g.since ∧
      g'.client = some client' ∧
        (client' = client ∨ ∃ event, client.step now event = some client') := by
  cases act_of_step hs with
  | update settings =>
    have hlt := (List.getElem?_eq_some_iff.1 hg).1
    obtain ⟨g', hg'⟩ : ∃ g', (s.update callBytes now settings).generations[k]? = some g' :=
      ⟨_, List.getElem?_eq_getElem (hlt.trans_le (h.length_update callBytes now settings))⟩
    refine ⟨g', client, hg', ?_⟩
    cases h.origin_of_update hg' with
    | new hk hbuilds => exact absurd hk hlt.ne
    | kept hold hk =>
      cases hg.symm.trans hold
      exact ⟨rfl, rfl, hclient, .inl rfl⟩
    | replaced hold hk hbuilds =>
      cases hg.symm.trans hold
      exact ⟨edition_replaced, since_replaced, client_replaced.trans hclient, .inl rfl⟩
    | failed hold hk hfails =>
      cases hg.symm.trans hold
      exact ⟨edition_replaced, since_replaced, client_replaced.trans hclient, .inl rfl⟩
  | load => exact ⟨g, client, hg, rfl, rfl, hclient, .inl rfl⟩
  | forget i => exact ⟨g, client, hg, rfl, rfl, hclient, .inl rfl⟩
  | @generation e n x x' hupdate hx hnext hother hdrop =>
    by_cases hk : n = k
    · subst hk
      obtain rfl := Option.some.inj (hg.symm.trans hx)
      have houtline := hnext.outline_eq
      have hself : (s.generations.set n x')[n]? = some x' :=
        List.getElem?_set_self (List.getElem?_eq_some_iff.1 hg).1
      obtain ⟨client', hclient'⟩ := hnext.exists_client hclient
      exact ⟨x', client', hself, congrArg Outline.edition houtline, congrArg Outline.since houtline,
        hclient'⟩
    · exact ⟨g, client, (List.getElem?_set_ne hk).trans hg, rfl, rfl, hclient, .inl rfl⟩

theorem proceeds_of_run (hfirst : new callBytes start settings = some first)
    (run : Run callBytes prompt (start, first) events (now, s)) {k : Nat} {g : Generation ι}
    {client : BatchingClient ι} (hg : s.generations[k]? = some g)
    (hclient : g.client = some client) : s.Proceeds callBytes now k g client where
  called id msg block ctx hloaded hnew hlt hfree := by
    have hstep : client.step now (.call id msg block ctx) =
        some (client.submit now id msg block ctx) := if_pos ⟨by rw [hnew]; rfl, hlt, hfree⟩
    have hcalled : s.step callBytes now (.call k id msg block ctx) = _ :=
      (if_pos hloaded).trans (onClient_of_step hg hclient hstep)
    rcases BatchingClient.callers_submit client id msg block ctx with
      ⟨hclosed, hc⟩ | ⟨hopen, hc⟩
    · exact ⟨_, _, hcalled, hc, by rw [hclosed]; rfl⟩
    · exact ⟨_, _, hcalled, hc, by rw [hopen]; rfl⟩
  busy hq := by
    have hfine := (kept_of_run hfirst run k g hg).fine client hclient
    refine (hfine.limits.exists_step_of_not_quiet hq).imp_right ?_
    rintro ⟨later, e, client', hle, htask, hreply, hstep⟩
    have hplain := BatchingClient.Event.isPlain_of_isTask htask hreply
    exact ⟨later, e, _, hle, htask, (if_pos hplain).trans (onClient_of_step hg hclient hstep)⟩
  closing n task htask hbusy := exists_step_of_closing hfirst run hg htask hbusy
  stays e s' hs := by
    obtain ⟨g', client', hg', hedition, hsince, hclient', hnext⟩ :=
      exists_client_of_step (orderly_of_run hfirst run) hs hg hclient
    refine ⟨g', client', hg', hedition, hsince, hclient', fun l hclosed ↦ ?_⟩
    rcases hnext with rfl | ⟨event, hstep⟩
    · exact hclosed
    · exact (BatchingClient.lane_closed_iff hstep l).2 (.inl hclosed)

/-- Each of the settings that come into force has a client of its own if there are endpoints that
can be used. The client is closed a fixed time after an update that was to replace the settings, and
not before. Until then it takes all calls, and afterwards none. -/
theorem clients_closed_after_delay (hfirst : new callBytes start settings = some first)
    (run : Run callBytes prompt (start, first) events (now, s)) :
    s.history = (start, settings) :: (updates events).filter (·.2.builds callBytes) ∧
      s.failures = ((updates events).filter (!·.2.builds callBytes)).map Prod.fst ∧
      s.editions.getLast? = some s.live.load ∧
      (∀ v ∈ s.snapshots, s.editions[v.number]? = some v) ∧
      ∀ k g, s.generations[k]? = some g →
        g.client.isSome = g.edition.settings.eth.dial.toOption.isSome ∧
        ∀ client, g.client = some client →
          g.Serves prompt now events k (s.updatesOf k g) client ∧
            s.Proceeds callBytes now k g client := by
  have horderly := orderly_of_run hfirst run
  obtain ⟨hhistory, hfailures⟩ := history_of_run hfirst run
  refine ⟨hhistory, hfailures, horderly.current, horderly.loaded, fun k g hg ↦ ⟨?_,
    fun client hclient ↦ ⟨serves_of_run hfirst run hg hclient,
      proceeds_of_run hfirst run hg hclient⟩⟩⟩
  rw [(kept_of_run hfirst run k g hg).connected, horderly.endpoints_eq hg, Option.isSome_map]

omit [DecidableEq ι] in
theorem new_of_builds (h : settings.builds callBytes = true) (start : Time) :
    new callBytes start settings = some
      { live := ⟨.dialed { number := 0, settings }⟩
        generations := [(.new start (.dialed { number := 0, settings }) : Generation ι)] } :=
  if_pos h

-- A waiting call takes 264 bytes from here on; any number from 1 to 2 ^ 56 would do.

def nodeSettings : BatchingSettings where
  eth := { url := "http://node" }

/-- The address has no scheme. -/
def unusableSettings : BatchingSettings where
  eth := { url := "node" }

/-- There is no room for windows of that size. -/
def crowdedSettings : BatchingSettings :=
  { nodeSettings with limits := ⟨0, UInt64.size - 1⟩ }

def nodeEdition (endpoints : Endpoints) : Edition :=
  { number := 0, settings := nodeSettings, endpoints := some endpoints }

/-- The settings of the node are in force, and somebody may have loaded them. -/
def inForce (endpoints : Endpoints) (snapshots : List Edition) : Reloading Nat where
  live := ⟨nodeEdition endpoints⟩
  generations := [.new 0 (nodeEdition endpoints)]
  snapshots := snapshots

theorem exists_new_nodeSettings :
    ∃ endpoints, new 264 0 nodeSettings = some (inForce endpoints []) := by
  obtain ⟨endpoints, hnode⟩ : ∃ endpoints,
      nodeSettings.eth.dial.toOption.map Prod.fst = some endpoints :=
    Option.isSome_iff_exists.1 (by decide +kernel)
  refine ⟨endpoints, ?_⟩
  rw [new_of_builds (by decide +kernel), Edition.dialed_eq hnode]
  rfl

/-- Settings without a client have replaced those of the node, which somebody has loaded. -/
def afterwards (endpoints : Endpoints) (task : Closing) (client : BatchingClient Nat) :
    Reloading Nat where
  live := ⟨{ number := 1, settings := unusableSettings }⟩
  generations := [{ edition := nodeEdition endpoints, since := 0, client, closings := [task] },
    .new 0 { number := 1, settings := unusableSettings }]
  snapshots := [nodeEdition endpoints]

section Afterwards

variable {endpoints : Endpoints} {task task' : Closing} {client client' : BatchingClient Nat}

theorem onClient_afterwards {e : BatchingClient.Event Nat} (hs : client.step now e = some client') :
    (afterwards endpoints task client).onClient now 0 e =
      some (afterwards endpoints task client') := by
  simp [onClient, afterwards, hs]

theorem close_afterwards {l : Lane} (hnext : task.close? now l = some task')
    (hs : client.step now (.lane l .close) = some client') :
    (afterwards endpoints task client).step 264 now (.close 0 0 l) =
      some (afterwards endpoints task' client') := by
  simp [step, onClosing, onClient, afterwards, hnext, hs]

end Afterwards

theorem update_unusableSettings (endpoints : Endpoints) :
    (inForce endpoints [nodeEdition endpoints]).update 264 0 unusableSettings =
      afterwards endpoints { since := 0 } (nodeSettings.client endpoints) := by
  have hunusable : unusableSettings.eth.dial.toOption.map Prod.fst = none :=
    Option.isNone_iff_eq_none.1 (by decide +kernel)
  have hgs : (inForce endpoints [nodeEdition endpoints]).generations =
      [] ++ [.new 0 (nodeEdition endpoints)] := rfl
  rcases update_cases 264 0 hgs rfl unusableSettings with ⟨-, heq⟩ | ⟨hfails, -⟩
  · rw [heq, nextEdition, Edition.dialed_eq hunusable]
    rfl
  · exact absurd hfails (by decide +kernel)

theorem update_crowdedSettings (endpoints : Endpoints) :
    (inForce endpoints []).update 264 0 crowdedSettings =
      { inForce endpoints [] with
        generations := [((Generation.new 0 (nodeEdition endpoints)).retire 0).fail 0] } := by
  have hgs : (inForce endpoints []).generations = [] ++ [.new 0 (nodeEdition endpoints)] := rfl
  rcases update_cases 264 0 hgs rfl crowdedSettings with ⟨hbuilds, -⟩ | ⟨-, heq⟩
  · exact absurd hbuilds (by decide +kernel)
  · exact heq

def nodeReply : HttpReply where
  body := "[\x7b\"id\":1,\"result\":\"0x07\"\x7d]"

theorem readBatch_nodeReply : Rpc.readBatch 1 1 (.ok nodeReply) = .ok [.ok (.str "0x07")] := by
  cbv

/-- The settings are replaced by others without a client. When the client is closed, one call waits
in its window, and another one comes after that. -/
theorem exists_run_over_close (endpoints : Endpoints) : ∃ events client,
    Run 264 True (0, inForce endpoints []) events
        (60000, afterwards endpoints { since := 0, phase := .done } client) ∧
      (∃ c, client.callers 1 = some c ∧ c.returned = some (60000, .error .closed)) ∧
      ∃ c, client.callers 0 = some c ∧ c.accepted = true ∧
        c.returned = some (60000, decodeBytes (.str "0x07")) := by
  have replaced : Run 264 True (0, inForce endpoints []) _
      (0, afterwards endpoints { since := 0 } (nodeSettings.client endpoints)) :=
    .event (e := .update unusableSettings) (h := congrArg some (update_unusableSettings _)) <|
    .event (e := .load) (h := rfl) .refl
  have asleep : Run 264 True (0, inForce endpoints []) _ (0, _) :=
    .event (e := .act 0 (.derive none)) (h := onClient_afterwards rfl) <|
    .event (e := .sleep 0 0) (h := rfl) replaced
  have closed : Run 264 True (0, inForce endpoints []) _ (60000, _) :=
    .event (e := .call 0 1 {} none ⟨0, none, none⟩) (h := onClient_afterwards rfl) <|
    .event (e := .close 0 0 .archive) (h := close_afterwards rfl rfl) <|
    .event (e := .close 0 0 .latest) (h := close_afterwards rfl rfl) <|
    .event (e := .call 0 0 {} none ⟨0, none, none⟩) (h := onClient_afterwards rfl) <|
    asleep.wait (by decide) fun _ ↦ rfl
  have answered : Run 264 True (0, inForce endpoints []) _ (60000, _) :=
    .event (e := .act 0 (.look 0 none)) (h := onClient_afterwards rfl) <|
    .event (e := .act 0 (.deliver 0)) (h := onClient_afterwards rfl) <|
    .event (e := .reply 0 0 1 1 (.ok nodeReply) fun _ ↦ none)
      (h := (step_reply rfl readBatch_nodeReply).trans (onClient_afterwards rfl)) <|
    .event (e := .act 0 (.attempt 0)) (h := onClient_afterwards rfl) <|
    .event (e := .act 0 (.assemble 0)) (h := onClient_afterwards rfl) <|
    .event (e := .act 0 (.check 0)) (h := onClient_afterwards rfl) <|
    .event (e := .act 0 (.lane .latest (.handOver 0))) (h := onClient_afterwards rfl) closed
  exact ⟨_, _, answered, ⟨_, rfl, rfl⟩, _, rfl, rfl, rfl⟩

/-- The call that waited when its client was closed has its answer from the node, although the
settings in force have no client. -/
theorem pending_call_answered_after_close :
    ∃ first s : Reloading Nat, ∃ events, ∃ g client, new 264 0 nodeSettings = some first ∧
      Run 264 True (0, first) events (60000, s) ∧ s.live.load.settings = unusableSettings ∧
      s.live.load.endpoints = none ∧ s.generations[0]? = some g ∧ g.client = some client ∧
      (∃ c, client.callers 1 = some c ∧ c.returned = some (60000, .error .closed)) ∧
      ∃ c, client.callers 0 = some c ∧ c.returned = some (60000, .ok [7]) ∧
        ∃ endpoints fallback journal, nodeSettings.eth.dial = .ok (endpoints, fallback) ∧
          BatchingClient.Journaled (0, nodeSettings.client endpoints) journal (60000, client) ∧
          client.AnsweredBy journal (c.call 0) (.ok [7]) := by
  obtain ⟨endpoints, hfirst⟩ := exists_new_nodeSettings
  obtain ⟨events, client, run, hlate, c, hc, haccepted, hreturned⟩ :=
    exists_run_over_close endpoints
  obtain ⟨-, -, -, -, hgenerations⟩ := clients_closed_after_delay hfirst run
  obtain ⟨hserves, -⟩ := (hgenerations 0 _ rfl).2 client rfl
  obtain ⟨endpoints', fallback, journal, hdial, hjournal, hanswered⟩ := hserves.answered
  have hbytes : decodeBytes (.str "0x07") = .ok [7] := by cbv
  rw [hbytes] at hreturned
  refine ⟨_, _, events, _, client, hfirst, run, rfl, rfl, rfl, rfl, hlate, c, hc, hreturned,
    endpoints', fallback, journal, hdial, hjournal, ?_⟩
  rcases hanswered 0 c _ _ hc haccepted hreturned with ⟨reason, hended, -⟩ | ⟨hanswered, -⟩
  · cases hended
  · exact hanswered

/-- An update that fails leaves the client of the settings in force to be closed. -/
theorem failed_update_closes_current_client :
    ∃ first s : Reloading Nat, ∃ events, ∃ g client, new 264 0 nodeSettings = some first ∧
      Run 264 True (0, first) events (60000, s) ∧ updates events = [(0, crowdedSettings)] ∧
      crowdedSettings.eth.dial.toOption.isSome = true ∧ s.live.load.settings = nodeSettings ∧
      s.generations[s.live.load.number]? = some g ∧ g.client = some client ∧
      ∀ l, (client.lane l).batcher.closed = true := by
  obtain ⟨endpoints, hfirst⟩ := exists_new_nodeSettings
  have asleep : Run 264 True (0, inForce endpoints []) _ (0, _) :=
    .event (e := .sleep 0 0) (h := rfl) <|
    .event (e := .update crowdedSettings) (h := congrArg some (update_crowdedSettings _)) .refl
  have run : Run 264 True (0, inForce endpoints []) _ (60000, _) :=
    .event (e := .close 0 0 .archive) (h := rfl) <|
    .event (e := .close 0 0 .latest) (h := rfl) <|
    asleep.wait (by decide) fun _ ↦ rfl
  refine ⟨_, _, _, _, _, hfirst, run, rfl, by decide +kernel, rfl, rfl, rfl, fun l ↦ ?_⟩
  cases l <;> rfl

end Reloading

end Outbound.Eth
