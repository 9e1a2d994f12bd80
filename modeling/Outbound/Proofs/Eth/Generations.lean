import Outbound.Eth.Reloading
import Outbound.Proofs.Lookup

/-!
# The order of generations

The last generation is in force. An update adds a generation and leaves the client of the one before
to be closed, or it fails and does the latter only. Whatever else happens concerns one generation,
and it changes nothing that updates decide.
-/

namespace Outbound.Eth

variable {ι : Type} {callBytes : Nat}

/-- Building what belongs to the settings comes to an end. -/
def BatchingSettings.builds (s : BatchingSettings) (callBytes : Nat) : Bool :=
  s.buildable callBytes (s.eth.dial.toOption.map Prod.fst)

/-- What updates alone decide about a generation. -/
structure Outline where
  edition : Edition
  since : Time
  failed : List Time
  /-- When the tasks were spawned that close its client. -/
  closings : List Time

def Generation.outline (g : Generation ι) : Outline :=
  ⟨g.edition, g.since, g.failed, g.closings.map (·.since)⟩

theorem Closing.since_of_close? {now : Time} {l : Lane} {task task' : Closing}
    (h : task.close? now l = some task') : task'.since = task.since := by
  unfold Closing.close? at h
  split at h
  · split at h <;> cases h
    rfl
  · cases h
    rfl
  · cases h

namespace Generation

inductive Next [DecidableEq ι] (now : Time) (g : Generation ι) :
    Option (BatchingClient.Event ι) → Generation ι → Prop where
  | client {e : BatchingClient.Event ι} {client client' : BatchingClient ι}
    (hclient : g.client = some client) (hs : client.step now e = some client')
    (hclose : ∀ l, e ≠ .lane l .close) :
    Next now g (some e) { g with client := some client' }
  | sleep {n : Nat} {task : Closing} (htask : g.closings[n]? = some task)
    (hphase : task.phase = .spawned) :
    Next now g none { g with
      closings := g.closings.set n { task with phase := .sleeping (now + clientCloseDelay) } }
  | close {n : Nat} {task task' : Closing} {l : Lane} {client client' : BatchingClient ι}
    (htask : g.closings[n]? = some task) (hnext : task.close? now l = some task')
    (hclient : g.client = some client) (hs : client.step now (.lane l .close) = some client') :
    Next now g (some (.lane l .close))
      { g with client := some client', closings := g.closings.set n task' }

/-- A client stays in its generation, and it may do something. -/
theorem Next.exists_client [DecidableEq ι] {now : Time} {g g' : Generation ι}
    {e : Option (BatchingClient.Event ι)} (h : g.Next now e g') {client : BatchingClient ι}
    (hclient : g.client = some client) : ∃ client', g'.client = some client' ∧
      (client' = client ∨ ∃ event, client.step now event = some client') := by
  cases h with
  | client hold hs hclose =>
    cases hclient.symm.trans hold
    exact ⟨_, rfl, .inr ⟨_, hs⟩⟩
  | sleep htask hphase => exact ⟨client, hclient, .inl rfl⟩
  | close htask hnext hold hs =>
    cases hclient.symm.trans hold
    exact ⟨_, rfl, .inr ⟨_, hs⟩⟩

theorem Next.outline_eq [DecidableEq ι] {now : Time} {g g' : Generation ι}
    {e : Option (BatchingClient.Event ι)} (h : g.Next now e g') : g'.outline = g.outline := by
  cases h with
  | client hclient hs hclose => rfl
  | sleep htask hphase => exact congrArg (Outline.mk _ _ _) (map_set_of_eq htask rfl)
  | close htask hnext hclient hs =>
    exact congrArg (Outline.mk _ _ _) (map_set_of_eq htask (Closing.since_of_close? hnext))

end Generation

namespace Reloading

/-- What an event is for the client of a generation. -/
def Event.on? (k : Nat) : Event ι → Option (BatchingClient.Event ι)
  | call n id msg block ctx => if n = k then some (.call id msg block ctx) else none
  | reply n job first count exchange next? =>
    if n = k then some (.reply job (Rpc.readBatch first count exchange) next?) else none
  | act n event => if n = k ∧ event.isPlain then some event else none
  | close n _ lane => if n = k then some (.lane lane .close) else none
  | drop n lane => if n = k then some (.lane lane .drop) else none
  | _ => none

def Event.update? : Event ι → Option BatchingSettings
  | update settings => some settings
  | _ => none

/-- The settings of all updates, with the times of the updates. -/
def updates (events : List (Time × Event ι)) : List (Time × BatchingSettings) :=
  events.filterMap fun x ↦ x.2.update?.map (x.1, ·)

theorem updates_snoc (events : List (Time × Event ι)) (now : Time) (e : Event ι) :
    updates (events ++ [(now, e)]) = updates events ++ (e.update?.map (now, ·)).toList := by
  rw [updates, updates, List.filterMap_append]
  cases h : e.update? <;> simp [h]

def seen (k : Nat) (events : List (Time × Event ι)) : List (BatchingClient.Event ι) :=
  events.filterMap fun x ↦ x.2.on? k

theorem seen_subset_append (k : Nat) (events more : List (Time × Event ι)) :
    seen k events ⊆ seen k (events ++ more) := by
  rw [seen, seen, List.filterMap_append]
  exact List.subset_append_left _ _

theorem mem_seen_snoc {k : Nat} {e : Event ι} {event : BatchingClient.Event ι}
    (h : e.on? k = some event) (events : List (Time × Event ι)) (now : Time) :
    event ∈ seen k (events ++ [(now, e)]) :=
  List.mem_filterMap.2 ⟨(now, e), List.mem_append_right _ List.mem_cons_self, h⟩

/-- No caller leaves by any other event. -/
theorem act_of_mem_seen_leave {k : Nat} {id : ι} {events : List (Time × Event ι)}
    (h : .leave id ∈ seen k events) : ∃ t, (t, .act k (.leave id)) ∈ events := by
  obtain ⟨⟨t, e⟩, he, hon⟩ := List.mem_filterMap.1 h
  cases e with
  | act n event =>
    simp only [Event.on?, Option.ite_none_right_eq_some, Option.some.injEq] at hon
    obtain ⟨⟨rfl, -⟩, rfl⟩ := hon
    exact ⟨t, he⟩
  | call n id msg block ctx => simp [Event.on?] at hon
  | reply n job first count exchange next? => simp [Event.on?] at hon
  | close n task lane => simp [Event.on?] at hon
  | drop n lane => simp [Event.on?] at hon
  | _ => cases hon

/-- A client gets no other replies than those that are read from exchanges. -/
theorem exists_readBatch_of_mem_seen {k job : Nat} {outcome : BatchOutcome}
    {next? : Nanos → Option (Nanos × Nanos)} {events : List (Time × Event ι)}
    (h : .reply job outcome next? ∈ seen k events) :
    ∃ first count exchange, outcome = Rpc.readBatch first count exchange := by
  obtain ⟨⟨t, e⟩, -, hon⟩ := List.mem_filterMap.1 h
  cases e with
  | reply n job first count exchange next? =>
    simp only [Event.on?, Option.ite_none_right_eq_some, Option.some.injEq] at hon
    obtain ⟨-, heq⟩ := hon
    cases heq
    exact ⟨first, count, exchange, rfl⟩
  | act n event =>
    simp only [Event.on?, Option.ite_none_right_eq_some, Option.some.injEq] at hon
    obtain ⟨⟨-, hplain⟩, rfl⟩ := hon
    cases hplain
  | call n id msg block ctx => simp [Event.on?] at hon
  | close n task lane => simp [Event.on?] at hon
  | drop n lane => simp [Event.on?] at hon
  | _ => cases hon

/-! ## One thing after the other -/

section Acts

variable [DecidableEq ι] {now : Time} {s s' : Reloading ι}

theorem onClient_eq_some {k : Nat} {event : BatchingClient.Event ι}
    (h : s.onClient now k event = some s') :
    ∃ g client client', s.generations[k]? = some g ∧ g.client = some client ∧
      client.step now event = some client' ∧
      s' = { s with generations := s.generations.set k { g with client := some client' } } := by
  obtain ⟨g, hg, h⟩ := Option.bind_eq_some_iff.1 h
  obtain ⟨client, hclient, h⟩ := Option.bind_eq_some_iff.1 h
  obtain ⟨client', hs, h⟩ := Option.bind_eq_some_iff.1 h
  exact ⟨g, client, client', hg, hclient, hs, (Option.some.inj h).symm⟩

omit [DecidableEq ι] in
theorem onClosing_eq_some {k n : Nat} {next? : Closing → Option Closing}
    (h : s.onClosing k n next? = some s') :
    ∃ g task task', s.generations[k]? = some g ∧ g.closings[n]? = some task ∧
      next? task = some task' ∧ s' = { s with
        generations := s.generations.set k { g with closings := g.closings.set n task' } } := by
  obtain ⟨g, hg, h⟩ := Option.bind_eq_some_iff.1 h
  obtain ⟨task, htask, h⟩ := Option.bind_eq_some_iff.1 h
  obtain ⟨task', hnext, h⟩ := Option.bind_eq_some_iff.1 h
  exact ⟨g, task, task', hg, htask, hnext, (Option.some.inj h).symm⟩

inductive Act (callBytes : Nat) (now : Time) (s : Reloading ι) : Event ι → Reloading ι → Prop where
  | update (settings : BatchingSettings) :
    Act callBytes now s (.update settings) (s.update callBytes now settings)
  | load : Act callBytes now s .load { s with snapshots := s.live.load :: s.snapshots }
  | forget (i : Nat) :
    Act callBytes now s (.forget i) { s with snapshots := s.snapshots.eraseIdx i }
  | generation {e : Event ι} {k : Nat} {g g' : Generation ι} (hupdate : e.update? = none)
    (hg : s.generations[k]? = some g) (hnext : g.Next now (e.on? k) g')
    (hother : ∀ j, j ≠ k → e.on? j = none)
    (hdrop : ∀ l, e.on? k = some (.lane l .drop) → s.isLetGo k = true) :
    Act callBytes now s e { s with generations := s.generations.set k g' }

theorem act_of_onClient {e : Event ι} {k : Nat} {event : BatchingClient.Event ι}
    (hupdate : e.update? = none) (h : s.onClient now k event = some s')
    (hon : ∀ j, e.on? j = if k = j then some event else none)
    (hclose : ∀ l, event ≠ .lane l .close)
    (hdrop : ∀ l, event = .lane l .drop → s.isLetGo k = true) : Act callBytes now s e s' := by
  obtain ⟨g, client, client', hg, hclient, hs, rfl⟩ := onClient_eq_some h
  have hself : e.on? k = some event := (hon k).trans (if_pos rfl)
  refine .generation hupdate hg ?_ (fun j hj ↦ (hon j).trans (if_neg hj.symm)) fun l hl ↦ ?_
  · rw [hself]
    exact .client hclient hs hclose
  · rw [hself] at hl
    exact hdrop l (Option.some.inj hl)

theorem act_of_step {e : Event ι} (hs : s.step callBytes now e = some s') :
    Act callBytes now s e s' := by
  cases e with
  | update settings =>
    cases hs
    exact .update settings
  | load =>
    cases hs
    exact .load
  | forget i =>
    obtain ⟨-, ⟨⟩⟩ := Option.ite_none_right_eq_some.1 hs
    exact .forget i
  | call k id msg block ctx =>
    obtain ⟨-, hs⟩ := Option.ite_none_right_eq_some.1 hs
    exact act_of_onClient rfl hs (fun _ ↦ rfl) (fun _ h ↦ nomatch h) fun _ h ↦ nomatch h
  | reply k job first count exchange next? =>
    obtain ⟨-, hs⟩ := Option.ite_none_right_eq_some.1 hs
    exact act_of_onClient rfl hs (fun _ ↦ rfl) (fun _ h ↦ nomatch h) fun _ h ↦ nomatch h
  | act k event =>
    obtain ⟨hplain, hs⟩ := Option.ite_none_right_eq_some.1 hs
    refine act_of_onClient rfl hs (fun j ↦ by simp [Event.on?, hplain]) (fun l heq ↦ ?_)
      fun l heq ↦ ?_
    · rw [heq] at hplain
      cases hplain
    · rw [heq] at hplain
      cases hplain
  | drop k lane =>
    obtain ⟨hletGo, hs⟩ := Option.ite_none_right_eq_some.1 hs
    exact act_of_onClient rfl hs (fun _ ↦ rfl) (fun _ h ↦ nomatch h) fun _ _ ↦ hletGo
  | sleep k n =>
    obtain ⟨g, task, task', hg, htask, hnext, rfl⟩ := onClosing_eq_some hs
    refine .generation rfl hg ?_ (fun _ _ ↦ rfl) fun _ h ↦ nomatch h
    simp only [Closing.sleep?] at hnext
    split at hnext
    · cases hnext
      exact .sleep htask ‹_›
    · cases hnext
  | close k n lane =>
    obtain ⟨s₁, hs₁, hs⟩ := Option.bind_eq_some_iff.1 hs
    obtain ⟨g, task, task', hg, htask, hnext, rfl⟩ := onClosing_eq_some hs₁
    obtain ⟨g₁, client, client', hg₁, hclient, hclose, rfl⟩ := onClient_eq_some hs
    rw [List.getElem?_set_self (List.getElem?_eq_some_iff.1 hg).1] at hg₁
    cases hg₁
    have hself : (Event.close k n lane : Event ι).on? k = some (.lane lane .close) := if_pos rfl
    rw [List.set_set]
    refine .generation rfl hg ?_ (fun j hj ↦ if_neg hj.symm) fun l hl ↦ ?_
    · rw [hself]
      exact .close htask hnext hclient hclose
    · rw [hself] at hl
      cases hl

end Acts

/-! ## Updates -/

section Updates

variable {now : Time} {s : Reloading ι} {before : List (Generation ι)} {g : Generation ι}

def replaced (now : Time) (s : Reloading ι) (g : Generation ι) : Generation ι :=
  if s.live.load.endpoints.isSome then g.retire now else g

/-- The settings of an update as they come into force. -/
def nextEdition (s : Reloading ι) (settings : BatchingSettings) : Edition :=
  Edition.dialed { number := s.generations.length, settings }

theorem update_eq (callBytes : Nat) (now : Time) (s : Reloading ι) (settings : BatchingSettings) :
    s.update callBytes now settings =
      let left := s.retire now s.live.load.leftovers
      if settings.builds callBytes then
        { left with
          live := ⟨s.nextEdition settings⟩
          generations := left.generations ++ [.new now (s.nextEdition settings)] }
      else
        { left with
          generations := left.generations.modify s.live.load.number (Generation.fail now) } := rfl

theorem retire_eq (now : Time) (hgs : s.generations = before ++ [g])
    (hnumber : s.live.load.number = before.length) :
    s.retire now s.live.load.leftovers =
      { s with generations := before ++ [s.replaced now g] } := by
  simp only [retire, replaced, Edition.leftovers, hgs]
  split
  · rw [List.foldl_cons, List.foldl_nil, hnumber, modify_concat]
  · rfl

/-- An update adds a generation, or it fails. -/
theorem update_cases (callBytes : Nat) (now : Time) (hgs : s.generations = before ++ [g])
    (hnumber : s.live.load.number = before.length) (settings : BatchingSettings) :
    (settings.builds callBytes = true ∧ s.update callBytes now settings =
        { s with
          live := ⟨s.nextEdition settings⟩
          generations := before ++ [s.replaced now g] ++ [.new now (s.nextEdition settings)] }) ∨
      settings.builds callBytes = false ∧ s.update callBytes now settings =
        { s with generations := before ++ [(s.replaced now g).fail now] } := by
  rw [update_eq, retire_eq now hgs hnumber]
  cases settings.builds callBytes with
  | true => exact .inl ⟨rfl, rfl⟩
  | false =>
    refine .inr ⟨rfl, ?_⟩
    simp only [Bool.false_eq_true, if_false, hnumber, modify_concat]

theorem live_update (callBytes : Nat) (now : Time) (s : Reloading ι) (settings : BatchingSettings) :
    (s.update callBytes now settings).live =
      if settings.builds callBytes then ⟨s.nextEdition settings⟩ else s.live := by
  rw [update_eq]
  cases settings.builds callBytes <;> rfl

theorem snapshots_update (callBytes : Nat) (now : Time) (s : Reloading ι)
    (settings : BatchingSettings) :
    (s.update callBytes now settings).snapshots = s.snapshots := by
  rw [update_eq]
  cases settings.builds callBytes <;> rfl

theorem edition_replaced : (s.replaced now g).edition = g.edition := by
  unfold replaced
  split <;> rfl

theorem since_replaced : (s.replaced now g).since = g.since := by
  unfold replaced
  split <;> rfl

theorem client_replaced : (s.replaced now g).client = g.client := by
  unfold replaced
  split <;> rfl

theorem failed_replaced : (s.replaced now g).failed = g.failed := by
  unfold replaced
  split <;> rfl

end Updates

/-- Where a generation comes from after an update. -/
inductive Origin (callBytes : Nat) (now : Time) (s : Reloading ι) (settings : BatchingSettings)
    (k : Nat) : Generation ι → Prop where
  | new (hk : k = s.generations.length) (hbuilds : settings.builds callBytes = true) :
    Origin callBytes now s settings k (.new now (s.nextEdition settings))
  | kept {g : Generation ι} (hg : s.generations[k]? = some g) (hk : k ≠ s.live.load.number) :
    Origin callBytes now s settings k g
  | replaced {g : Generation ι} (hg : s.generations[k]? = some g) (hk : k = s.live.load.number)
    (hbuilds : settings.builds callBytes = true) :
    Origin callBytes now s settings k (s.replaced now g)
  | failed {g : Generation ι} (hg : s.generations[k]? = some g) (hk : k = s.live.load.number)
    (hfails : settings.builds callBytes = false) :
    Origin callBytes now s settings k ((s.replaced now g).fail now)

/-! ## What is in force -/

def editions (s : Reloading ι) : List Edition :=
  s.generations.map (·.edition)

def times (s : Reloading ι) : List Time :=
  s.generations.map (·.since)

/-- All settings that came into force, each with the time when it did. -/
def history (s : Reloading ι) : List (Time × BatchingSettings) :=
  s.generations.map fun g ↦ (g.since, g.edition.settings)

def failures (s : Reloading ι) : List Time :=
  s.generations.flatMap (·.failed)

theorem times_eq (s : Reloading ι) : s.times = s.history.map Prod.fst := by
  simp [times, history]

/-- How generations follow one another, and which of them is in force or was loaded. -/
structure Orderly (s : Reloading ι) : Prop where
  /-- The last generation is in force. -/
  current : s.editions.getLast? = some s.live.load
  numbered : ∀ (k : Nat) (v : Edition), s.editions[k]? = some v → v.number = k
  dialed : ∀ v ∈ s.editions, v.dialed = v
  loaded : ∀ v ∈ s.snapshots, s.editions[v.number]? = some v
  /-- Each update that was to replace a client has spawned a task that closes it. -/
  closings : ∀ (k : Nat) (g : Generation ι), s.generations[k]? = some g →
    g.closings.map (·.since) =
      if g.edition.endpoints.isSome then g.failed ++ s.times[k + 1]?.toList else []

variable {now : Time} {s s' : Reloading ι}

theorem orderly_new {settings : BatchingSettings} (h : new callBytes now settings = some s) :
    s.Orderly := by
  obtain ⟨-, ⟨⟩⟩ := Option.ite_none_right_eq_some.1 h
  refine ⟨rfl, fun k v hv ↦ ?_, fun v hv ↦ ?_, fun v hv ↦ ?_, fun k g hg ↦ ?_⟩
  · cases k with
    | zero =>
      cases hv
      rfl
    | succ k => cases hv
  · rw [List.mem_singleton.1 hv]
    rfl
  · exact absurd hv List.not_mem_nil
  · cases k with
    | zero =>
      cases hg
      exact (ite_self []).symm
    | succ k => cases hg

namespace Orderly

theorem exists_current (h : s.Orderly) : ∃ before g, s.generations = before ++ [g] ∧
    g.edition = s.live.load ∧ s.live.load.number = before.length := by
  have hne : s.generations ≠ [] := by
    intro hnil
    have hcurrent := h.current
    rw [editions, hnil] at hcurrent
    cases hcurrent
  obtain ⟨before, g, hgs⟩ : ∃ before g, s.generations = before ++ [g] :=
    ⟨_, _, (List.dropLast_append_getLast hne).symm⟩
  have hcurrent := h.current
  rw [editions, hgs, List.map_append, List.map_singleton, List.getLast?_concat,
    Option.some.injEq] at hcurrent
  refine ⟨before, g, hgs, hcurrent, h.numbered before.length _ ?_⟩
  rw [editions, hgs, List.getElem?_map, List.getElem?_concat_length, Option.map_some, hcurrent]

theorem of_outlines (h : s.Orderly) (hlive : s'.live = s.live)
    (houtlines : s'.generations.map Generation.outline = s.generations.map Generation.outline)
    (hsnapshots : ∀ v ∈ s'.snapshots, v ∈ s.snapshots ∨ v = s.live.load) : s'.Orderly := by
  have heditions : s'.editions = s.editions := by
    have hmap := congrArg (List.map Outline.edition) houtlines
    rwa [List.map_map, List.map_map] at hmap
  have htimes : s'.times = s.times := by
    have hmap := congrArg (List.map Outline.since) houtlines
    rwa [List.map_map, List.map_map] at hmap
  refine ⟨?_, ?_, ?_, fun v hv ↦ ?_, fun k g hg ↦ ?_⟩
  · rw [heditions, hlive]
    exact h.current
  · rw [heditions]
    exact h.numbered
  · rw [heditions]
    exact h.dialed
  · rw [heditions]
    rcases hsnapshots v hv with hv | rfl
    · exact h.loaded v hv
    · obtain ⟨before, g, hgs, hedition, hnumber⟩ := h.exists_current
      rw [editions, hgs, hnumber, List.getElem?_map, List.getElem?_concat_length, Option.map_some,
        hedition]
  · have hget := congrArg (fun l ↦ l[k]?) houtlines
    simp only [List.getElem?_map, hg, Option.map_some] at hget
    obtain ⟨old, hold, heq⟩ := Option.map_eq_some_iff.1 hget.symm
    obtain ⟨hedition, -, hfailed, hclosings⟩ := Outline.mk.inj heq
    rw [htimes, ← hedition, ← hfailed, ← hclosings]
    exact h.closings k old hold

theorem of_current (h : s.Orderly) {k : Nat} {g : Generation ι} (hg : s.generations[k]? = some g)
    (hk : k = s.live.load.number) : g.edition = s.live.load ∧ k + 1 = s.generations.length := by
  obtain ⟨before, x, hgs, hedition, hnumber⟩ := h.exists_current
  rw [hk, hnumber, hgs, List.getElem?_concat_length] at hg
  cases hg
  exact ⟨hedition, by rw [hk, hnumber, hgs, List.length_append, List.length_singleton]⟩

theorem lt_of_ne (h : s.Orderly) {k : Nat} {g : Generation ι} (hg : s.generations[k]? = some g)
    (hk : k ≠ s.live.load.number) : k + 1 < s.generations.length := by
  obtain ⟨before, x, hgs, -, hnumber⟩ := h.exists_current
  have hlt := (List.getElem?_eq_some_iff.1 hg).1
  rw [hgs, List.length_append, List.length_singleton] at hlt ⊢
  omega

theorem editions_update (h : s.Orderly) (callBytes : Nat) (now : Time)
    (settings : BatchingSettings) :
    (s.update callBytes now settings).editions =
      s.editions ++ if settings.builds callBytes then [s.nextEdition settings] else [] := by
  obtain ⟨before, g, hgs, -, hnumber⟩ := h.exists_current
  rcases update_cases callBytes now hgs hnumber settings with ⟨hbuilds, heq⟩ | ⟨hfails, heq⟩
  · simp [editions, heq, hgs, hbuilds, edition_replaced, Generation.new]
  · simp [editions, heq, hgs, hfails, edition_replaced, Generation.fail]

theorem history_update (h : s.Orderly) (callBytes : Nat) (now : Time)
    (settings : BatchingSettings) :
    (s.update callBytes now settings).history =
      s.history ++ if settings.builds callBytes then [(now, settings)] else [] := by
  obtain ⟨before, g, hgs, -, hnumber⟩ := h.exists_current
  rcases update_cases callBytes now hgs hnumber settings with ⟨hbuilds, heq⟩ | ⟨hfails, heq⟩
  · simp [history, heq, hgs, hbuilds, since_replaced, edition_replaced, Generation.new, nextEdition,
      Edition.dialed]
  · simp [history, heq, hgs, hfails, since_replaced, edition_replaced, Generation.fail]

theorem times_update (h : s.Orderly) (callBytes : Nat) (now : Time) (settings : BatchingSettings) :
    (s.update callBytes now settings).times =
      s.times ++ if settings.builds callBytes then [now] else [] := by
  rw [times_eq, times_eq, h.history_update, List.map_append]
  split <;> rfl

theorem failures_update (h : s.Orderly) (callBytes : Nat) (now : Time)
    (settings : BatchingSettings) :
    (s.update callBytes now settings).failures =
      s.failures ++ if settings.builds callBytes then [] else [now] := by
  obtain ⟨before, g, hgs, -, hnumber⟩ := h.exists_current
  rcases update_cases callBytes now hgs hnumber settings with ⟨hbuilds, heq⟩ | ⟨hfails, heq⟩
  · simp [failures, heq, hgs, hbuilds, failed_replaced, Generation.new]
  · simp [failures, heq, hgs, hfails, failed_replaced, Generation.fail]

theorem origin_of_update (h : s.Orderly) {settings : BatchingSettings} {k : Nat} {g : Generation ι}
    (hg : (s.update callBytes now settings).generations[k]? = some g) :
    Origin callBytes now s settings k g := by
  obtain ⟨before, x, hgs, -, hnumber⟩ := h.exists_current
  have hlast : s.generations[before.length]? = some x := by
    rw [hgs, List.getElem?_concat_length]
  have hbefore (hg : before[k]? = some g) : Origin callBytes now s settings k g := by
    refine .kept ?_ (hnumber ▸ (List.getElem?_eq_some_iff.1 hg).1.ne)
    rw [hgs]
    exact getElem?_append_of_some hg _
  rcases update_cases callBytes now hgs hnumber settings with ⟨hbuilds, heq⟩ | ⟨hfails, heq⟩
  · rw [heq] at hg
    rcases getElem?_concat_cases hg with ⟨rfl, rfl⟩ | hg
    · refine .new ?_ hbuilds
      rw [hgs, List.length_append, List.length_append]
      rfl
    · rcases getElem?_concat_cases hg with ⟨rfl, rfl⟩ | hg
      · exact .replaced hlast hnumber.symm hbuilds
      · exact hbefore hg
  · rw [heq] at hg
    rcases getElem?_concat_cases hg with ⟨rfl, rfl⟩ | hg
    · exact .failed hlast hnumber.symm hfails
    · exact hbefore hg

/-- The update that is to replace a client spawns a task that closes it. -/
theorem closings_replaced (h : s.Orderly) (now : Time) {k : Nat} {g : Generation ι}
    (hg : s.generations[k]? = some g) (hk : k = s.live.load.number) :
    (s.replaced now g).closings.map (·.since) =
      if (s.replaced now g).edition.endpoints.isSome then g.failed ++ [now] else [] := by
  have hclosings := h.closings k g hg
  obtain ⟨hedition, hlength⟩ := h.of_current hg hk
  have hlast : s.times[k + 1]? = none := by
    rw [hlength]
    exact List.getElem?_eq_none_iff.2 (List.length_map _).le
  rw [hlast, hedition] at hclosings
  rw [edition_replaced, hedition, replaced]
  split
  · rename_i hsome
    rw [if_pos hsome, Option.toList_none, List.append_nil] at hclosings
    rw [Generation.retire, List.map_append, hclosings]
    rfl
  · rename_i hnone
    rw [if_neg hnone] at hclosings
    exact hclosings

theorem closings_update (h : s.Orderly) {settings : BatchingSettings} {k : Nat} {g : Generation ι}
    (hg : (s.update callBytes now settings).generations[k]? = some g) :
    g.closings.map (·.since) = if g.edition.endpoints.isSome then
      g.failed ++ (s.update callBytes now settings).times[k + 1]?.toList else [] := by
  have hlength : s.times.length = s.generations.length := List.length_map _
  rw [h.times_update]
  cases h.origin_of_update hg with
  | new hk hbuilds =>
    have hnone : (s.times ++ [now])[k + 1]? = none := by
      rw [List.getElem?_eq_none_iff, List.length_append, List.length_singleton, hlength, hk]
    rw [if_pos hbuilds, hnone]
    exact (ite_self []).symm
  | kept hold hk =>
    rw [List.getElem?_append_left (hlength ▸ h.lt_of_ne hold hk)]
    exact h.closings k g hold
  | replaced hold hk hbuilds =>
    have hnext : (s.times ++ [now])[k + 1]? = some now := by
      rw [(h.of_current hold hk).2, ← hlength, List.getElem?_concat_length]
    rw [if_pos hbuilds, hnext, failed_replaced]
    exact h.closings_replaced now hold hk
  | failed hold hk hfails =>
    have hnone : s.times[k + 1]? = none := by
      rw [List.getElem?_eq_none_iff, hlength, (h.of_current hold hk).2]
    rw [hfails, if_neg Bool.false_ne_true, List.append_nil, hnone, Option.toList_none,
      List.append_nil, Generation.fail, failed_replaced]
    exact h.closings_replaced now hold hk

theorem update (h : s.Orderly) (settings : BatchingSettings) :
    (s.update callBytes now settings).Orderly := by
  have heditions := h.editions_update callBytes now settings
  refine ⟨?_, fun k v hv ↦ ?_, fun v hv ↦ ?_, fun v hv ↦ ?_, fun k g hg ↦ h.closings_update hg⟩
  · rw [heditions, live_update]
    split
    · exact List.getLast?_concat
    · rw [List.append_nil]
      exact h.current
  · rw [heditions] at hv
    split at hv
    · rcases getElem?_concat_cases hv with ⟨rfl, rfl⟩ | hold
      · exact (List.length_map _).symm
      · exact h.numbered k v hold
    · rw [List.append_nil] at hv
      exact h.numbered k v hv
  · rw [heditions] at hv
    rcases List.mem_append.1 hv with hv | hv
    · exact h.dialed v hv
    · split at hv
      · rw [List.mem_singleton.1 hv]
        rfl
      · exact absurd hv List.not_mem_nil
  · rw [heditions]
    rw [snapshots_update] at hv
    exact getElem?_append_of_some (h.loaded v hv) _

theorem length_update (h : s.Orderly) (callBytes : Nat) (now : Time) (settings : BatchingSettings) :
    s.generations.length ≤ (s.update callBytes now settings).generations.length := by
  obtain ⟨before, x, hgs, -, hnumber⟩ := h.exists_current
  rcases update_cases callBytes now hgs hnumber settings with ⟨-, heq⟩ | ⟨-, heq⟩ <;>
    simp [heq, hgs]

theorem step [DecidableEq ι] (h : s.Orderly) {e : Event ι} (hs : s.step callBytes now e = some s') :
    s'.Orderly := by
  cases act_of_step hs with
  | update settings => exact h.update settings
  | load => exact h.of_outlines rfl rfl fun v hv ↦ (List.mem_cons.1 hv).symm
  | forget i => exact h.of_outlines rfl rfl fun v hv ↦ .inl ((List.eraseIdx_subset hv))
  | generation hupdate hg hnext hother hdrop =>
    exact h.of_outlines rfl (map_set_of_eq hg hnext.outline_eq) fun v hv ↦ .inl hv

end Orderly

section Runs

variable [DecidableEq ι] {prompt : Prop} {settings : BatchingSettings} {start : Time}
  {first : Reloading ι} {events : List (Time × Event ι)}

theorem orderly_of_run (hfirst : new callBytes start settings = some first) {y : Time × Reloading ι}
    (run : Run callBytes prompt (start, first) events y) : y.2.Orderly := by
  induction run with
  | refl => exact orderly_new hfirst
  | wait run h idle ih => exact ih
  | event run e h ih => exact ih.step h

/-- All settings that came into force and when they did are those of the updates that did not
fail. -/
theorem history_of_run (hfirst : new callBytes start settings = some first) {y : Time × Reloading ι}
    (run : Run callBytes prompt (start, first) events y) :
    y.2.history = (start, settings) :: (updates events).filter (·.2.builds callBytes) ∧
      y.2.failures = ((updates events).filter (!·.2.builds callBytes)).map Prod.fst := by
  induction run with
  | refl =>
    obtain ⟨-, ⟨⟩⟩ := Option.ite_none_right_eq_some.1 hfirst
    exact ⟨rfl, rfl⟩
  | wait run h idle ih => exact ih
  | @event events now s s' run e h ih =>
    obtain ⟨hhistory, hfailures⟩ := ih
    rw [updates_snoc, List.filter_append, List.filter_append, List.map_append,
      ← List.cons_append, ← hhistory, ← hfailures]
    cases act_of_step h with
    | update settings =>
      have horderly := orderly_of_run hfirst run
      rw [horderly.history_update, horderly.failures_update]
      cases hbuilds : settings.builds callBytes <;> simp [Event.update?, hbuilds]
    | load => simp [history, failures, Event.update?]
    | forget i => simp [history, failures, Event.update?]
    | @generation e k g g' hupdate hg hnext hother hdrop =>
      have houtline := hnext.outline_eq
      have hhistory : (s.generations.set k g').map (fun g ↦ (g.since, g.edition.settings)) =
          s.history := map_set_of_eq hg (congrArg (fun o ↦ (o.since, o.edition.settings)) houtline)
      have hfailures : ((s.generations.set k g').map (·.failed)).flatten = s.failures := by
        rw [map_set_of_eq hg (congrArg Outline.failed houtline), failures, List.flatMap_def]
      rw [hupdate]
      exact ⟨by simpa [history] using hhistory,
        by simpa [failures, List.flatMap_def] using hfailures⟩

end Runs

end Reloading

end Outbound.Eth
