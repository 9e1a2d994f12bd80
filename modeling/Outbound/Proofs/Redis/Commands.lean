import Mathlib.Data.List.Chain
import Mathlib.Data.List.Nodup
import Outbound.Redis.Live

/-!
# What one command does

A command leaves the client as it found it but for the connection of the current instance, and its
end may replace that instance. Each command finds the client as the one before has left it.
-/

namespace Outbound.Redis

/-! ## The server -/

namespace Server

variable {a b c : Server}

/-- `b` is the server at a later time than `a`. -/
structure Before (a b : Server) : Prop where
  outages : a.outages ≤ b.outages
  up : a.up = true → b.outages = a.outages → b.up = true

/-- The server is up, and has not stopped until it is `b`. -/
def StaysUp (a b : Server) : Prop :=
  a.up = true ∧ b.outages = a.outages

theorem Before.refl (a : Server) : Before a a :=
  ⟨Nat.le_refl _, fun h _ ↦ h⟩

theorem Before.trans (h : Before a b) (h' : Before b c) : Before a c := by
  refine ⟨Nat.le_trans h.outages h'.outages, fun hup heq ↦ ?_⟩
  have hle := h.outages
  have hle' := h'.outages
  exact h'.up (h.up hup (by omega)) (by omega)

theorem StaysUp.up (h : StaysUp a b) (hbefore : Before a b) : b.up = true :=
  hbefore.up h.1 h.2

theorem StaysUp.split (h : StaysUp a c) (hab : Before a b) (hbc : Before b c) :
    StaysUp a b ∧ StaysUp b c := by
  have hle := hab.outages
  have hle' := hbc.outages
  have heq : b.outages = a.outages := by
    have := h.2
    omega
  exact ⟨⟨h.1, heq⟩, hab.up h.1 heq, h.2.trans heq.symm⟩

end Server

/-! ## The end of a command -/

section Conclude

variable {α κ : Type} {client : Refreshable (Instance κ)} {now : Time} {result : Except Error α}

/-- The client with a new instance. -/
def renewed (client : Refreshable (Instance κ)) (now : Time) : Refreshable (Instance κ) :=
  { client with
    current := {}
    generation := client.generation + 1
    lastAttempt := some now }

theorem observe_of_rested (hfree : client.busy = false) (hrested : client.rested now = true)
    {e : Error} (hlost : e.isLost = true) :
    observe client now e = (some .refreshed, renewed client now) := by
  have hacquire := Refreshable.acquire_of_not_busy hfree
  simp only [observe, hlost, if_true, Refreshable.refresh,
    Refreshable.begin?_of_rested hacquire hrested, Refreshable.finish]
  simp [Refreshable.install, Refreshable.release, Refreshable.stamp, renewed, hfree]

theorem observe_of_cooling (hfree : client.busy = false) (hrested : client.rested now = false)
    {e : Error} (hlost : e.isLost = true) : observe client now e = (some .cooldown, client) := by
  have hacquire := Refreshable.acquire_of_not_busy hfree
  simp only [observe, hlost, if_true, Refreshable.refresh,
    Refreshable.begin?_of_cooling hacquire hrested]

theorem conclude_lost (hfree : client.busy = false) (hrested : client.rested now = true) {e : Error}
    (hlost : e.isLost = true) : conclude client now (.error e : Except Error α) =
      ⟨.error e, renewed client now, some .refreshed⟩ := by
  simp only [conclude, observe_of_rested hfree hrested hlost]

theorem result_conclude : (conclude client now result).result = result := by
  cases result <;> rfl

/-- A command leaves the client as it is, or with a new instance. -/
theorem client_conclude (hfree : client.busy = false) :
    (conclude client now result).client = client ∨
      (conclude client now result).client = renewed client now := by
  cases result with
  | ok a => exact .inl rfl
  | error e =>
    cases hlost : e.isLost with
    | false => simp [conclude, observe, hlost]
    | true =>
      cases hrested : client.rested now with
      | true => simp [conclude, observe_of_rested hfree hrested hlost]
      | false => simp [conclude, observe_of_cooling hfree hrested hlost]

end Conclude

/-! ## Moments and commands -/

variable {α : Type}

namespace Moment

/-- The connection of the current instance. -/
def connection (m : Moment) : Option Connection :=
  m.client.current.connection

structure Sound (m : Moment) : Prop where
  free : m.client.busy = false
  made : ∀ c, m.connection = some c → c.madeAfter ≤ m.server.outages

/-- Nothing has happened to the client in between. -/
structure Next (m m' : Moment) : Prop where
  time : m.time ≤ m'.time
  client : m'.client = m.client
  server : m.server.Before m'.server

/-- An instance that is the current one of that moment, and may have been dialed since. -/
def Used (m : Moment) (server : Server) (i : Instance Connection) : Prop :=
  i = m.client.current ∨ m.connection = none ∧ ∃ c : Connection, i.connection = some c ∧
    m.server.outages ≤ c.madeAfter ∧ c.madeAfter ≤ server.outages

end Moment

/-- What holds while a command has not returned. -/
structure Command.Sound (r : Command) (m : Moment) : Prop where
  found : r.found.Sound
  time : r.found.time ≤ m.time
  server : r.found.server.Before m.server
  client : m.client = { r.found.client with current := m.client.current }
  used : r.found.Used m.server m.client.current
  sent : ∀ held, r.sent = some held → ∃ c, m.connection = some c ∧
    (held = false → c.madeAfter < m.server.outages) ∧
    (held = true → r.found.server.outages ≤ c.madeAfter)

/-- The client when the command came to its end. -/
def Returned.client (c : Returned α) : Refreshable (Instance Connection) :=
  { c.found.client with current := c.used }

/-- What holds when a command has returned. -/
structure Returned.Sound (c : Returned α) : Prop where
  found : c.found.Sound
  time : c.found.time ≤ c.left.time
  server : c.found.server.Before c.left.server
  used : c.found.Used c.left.server c.used
  concluded : (⟨c.result, c.left.client, c.refresh⟩ : Executed α Connection) =
    conclude c.client c.left.time c.ending.result
  refused : ∀ e, c.ending = .refused e →
    e.isLost = true ∧ c.used.connection = none ∧ c.left.server.up = false
  /-- Its connection held when the command was sent. -/
  held : ∀ reply, c.ending = .answered reply →
    ∃ k, c.used.connection = some k ∧ c.found.server.outages ≤ k.madeAfter
  lost : ∀ e, c.ending = .lost e →
    e.isLost = true ∧ ∃ k, c.used.connection = some k ∧ k.madeAfter < c.left.server.outages

namespace LiveClient

variable {now : Time} {s s' : LiveClient α} {e : Event α}

/-! ## Acts -/

/-- What an event does. -/
inductive Act (now : Time) (s : LiveClient α) : Event α → LiveClient α → Prop where
  | stop (hup : s.server.up = true) :
    Act now s .stop { s with server := ⟨false, s.server.outages + 1⟩ }
  | start (hdown : s.server.up = false) :
    Act now s .start { s with server := { s.server with up := true } }
  | issue (hrun : s.running = none) :
    Act now s .issue { s with running := some { found := ⟨now, s.client, s.server⟩ } }
  | dial {found : Moment} (hrun : s.running = some ⟨found, none⟩)
    (hnone : s.client.current.connection = none) (hup : s.server.up = true) :
    Act now s .dial { s with
      client := { s.client with current := ⟨some ⟨s.server.outages⟩⟩ }
      dialed := s.dialed ++ [s.client.generation] }
  | refuse {found : Moment} {e : Error} (hrun : s.running = some ⟨found, none⟩)
    (hnone : s.client.current.connection = none) (hdown : s.server.up = false)
    (hlost : e.isLost = true) : Act now s (.refuse e) (s.conclude now found (.refused e))
  | send {found : Moment} {c : Connection} (hrun : s.running = some ⟨found, none⟩)
    (hconnection : s.client.current.connection = some c) :
    Act now s .send { s with running := some ⟨found, some (s.server.holds c)⟩ }
  | answer {found : Moment} {reply : Except Error α} (hrun : s.running = some ⟨found, some true⟩) :
    Act now s (.answer reply) (s.conclude now found (.answered reply))
  | lose {found : Moment} {held : Bool} {c : Connection} {e : Error}
    (hrun : s.running = some ⟨found, some held⟩)
    (hconnection : s.client.current.connection = some c)
    (hbroken : s.server.holds c = false) (hlost : e.isLost = true) :
    Act now s (.lose e) (s.conclude now found (.lost e))

theorem act_of_step (hs : s.step now e = some s') : Act now s e s' := by
  cases e with
  | stop =>
    obtain ⟨hup, ⟨⟩⟩ := Option.ite_none_right_eq_some.1 hs
    exact .stop hup
  | start =>
    obtain ⟨hdown, ⟨⟩⟩ := Option.ite_none_left_eq_some.1 hs
    exact .start (by simpa using hdown)
  | issue =>
    simp only [step] at hs
    split at hs
    · rename_i hrun
      cases hs
      exact .issue hrun
    · cases hs
  | dial =>
    simp only [step] at hs
    split at hs
    · rename_i hrun hnone
      obtain ⟨hup, ⟨⟩⟩ := Option.ite_none_right_eq_some.1 hs
      exact .dial hrun hnone hup
    · cases hs
  | refuse e =>
    simp only [step] at hs
    split at hs
    · rename_i hrun hnone
      obtain ⟨⟨hdown, hlost⟩, ⟨⟩⟩ := Option.ite_none_right_eq_some.1 hs
      exact .refuse hrun hnone hdown hlost
    · cases hs
  | send =>
    simp only [step] at hs
    split at hs
    · rename_i hrun hconnection
      cases hs
      exact .send hrun hconnection
    · cases hs
  | answer reply =>
    simp only [step] at hs
    split at hs
    · rename_i hrun
      cases hs
      exact .answer hrun
    · cases hs
  | lose e =>
    simp only [step] at hs
    split at hs
    · rename_i hrun hconnection
      obtain ⟨⟨hbroken, hlost⟩, ⟨⟩⟩ := Option.ite_none_right_eq_some.1 hs
      exact .lose hrun hconnection hbroken hlost
    · cases hs

/-! ## What holds between any two acts -/

def moment (now : Time) (s : LiveClient α) : Moment :=
  ⟨now, s.client, s.server⟩

/-- What the command that runs has found, or the next one will find. -/
def found (now : Time) (s : LiveClient α) : Moment :=
  match s.running with
  | some r => r.found
  | none => s.moment now

structure Sound (now : Time) (s : LiveClient α) : Prop where
  moment : (s.moment now).Sound
  running : ∀ r, s.running = some r → r.Sound (s.moment now)
  returned : ∀ c ∈ s.returned, c.Sound ∧ c.left.server.Before s.server
  chain : s.returned.IsChain fun c d ↦ c.left.Next d.found
  last : ∀ c ∈ s.returned.getLast?, c.left.Next (s.found now)
  /-- No instance is dialed again. -/
  dialed : s.dialed.Nodup
  connected : ∀ g ∈ s.dialed, g ≤ s.client.generation ∧
    (g = s.client.generation → s.client.current.connection.isSome = true)

theorem found_of_running {r : Command} (hrun : s.running = some r) : s.found now = r.found := by
  simp only [found, hrun]

theorem sound_new (policy : RefreshPolicy) (server : Server) (now : Time) :
    Sound now (new policy server : LiveClient α) where
  moment := ⟨rfl, fun _ hc ↦ nomatch hc⟩
  running _ hrun := nomatch hrun
  returned _ hc := nomatch hc
  chain := .nil
  last _ hc := nomatch hc
  dialed := .nil
  connected _ hg := nomatch hg

namespace Sound

/-- Time passes, and the server stops or starts. -/
theorem mono (h : Sound now s) {later : Time} {server : Server} (hle : now ≤ later)
    (hserver : s.server.Before server) : Sound later { s with server } where
  moment := ⟨h.moment.free, fun c hc ↦ (h.moment.made c hc).trans hserver.outages⟩
  running r hrun := by
    have hr := h.running r hrun
    refine { hr with
      time := hr.time.trans hle
      server := hr.server.trans hserver
      used := ?_
      sent := fun held hsent ↦ ?_ }
    · rcases hr.used with hsame | ⟨hnone, c, hc, hmade, hle⟩
      · exact .inl hsame
      · exact .inr ⟨hnone, c, hc, hmade, hle.trans hserver.outages⟩
    · obtain ⟨c, hc, hbroken, hheld⟩ := hr.sent held hsent
      exact ⟨c, hc, fun hfalse ↦ (hbroken hfalse).trans_le hserver.outages, hheld⟩
  returned c hc := ⟨(h.returned c hc).1, (h.returned c hc).2.trans hserver⟩
  chain := h.chain
  last c hc := by
    have hnext := h.last c hc
    cases hrun : s.running with
    | some r =>
      rw [found_of_running hrun] at hnext
      exact hnext
    | none =>
      simp only [LiveClient.found, hrun] at hnext ⊢
      exact ⟨hnext.time.trans hle, hnext.client, hnext.server.trans hserver⟩
  dialed := h.dialed
  connected := h.connected

theorem issue (h : Sound now s) (hrun : s.running = none) :
    Sound now { s with running := some { found := s.moment now } } where
  moment := h.moment
  running r hr := by
    cases hr
    exact ⟨h.moment, Nat.le_refl now, .refl _, rfl, .inl rfl, fun _ hsent ↦ nomatch hsent⟩
  returned := h.returned
  chain := h.chain
  last c hc := by
    have hnext := h.last c hc
    simp only [LiveClient.found, hrun] at hnext
    exact hnext
  dialed := h.dialed
  connected := h.connected

/-- A command that dials has found its instance without a connection, as nobody else dials. -/
theorem dial (h : Sound now s) {found : Moment} (hrun : s.running = some ⟨found, none⟩)
    (hnone : s.client.current.connection = none) :
    Sound now { s with
      client := { s.client with current := ⟨some ⟨s.server.outages⟩⟩ }
      dialed := s.dialed ++ [s.client.generation] } where
  moment := by
    refine ⟨h.moment.free, fun c hc ↦ ?_⟩
    cases hc
    exact Nat.le_refl _
  running r hr := by
    rw [hrun] at hr
    cases hr
    have hr := h.running _ hrun
    refine { hr with
      client := ?_
      used := .inr ⟨?_, _, rfl, hr.server.outages, Nat.le_refl _⟩
      sent := fun _ hsent ↦ nomatch hsent }
    · exact congrArg (fun client ↦ ({ client with current := ⟨some ⟨s.server.outages⟩⟩ } :
        Refreshable (Instance Connection))) hr.client
    · rcases hr.used with hsame | ⟨-, c, hc, -⟩
      · exact (congrArg Instance.connection hsame).symm.trans hnone
      · exact absurd (hnone.symm.trans hc) (by simp)
  returned := h.returned
  chain := h.chain
  last c hc := by
    have hnext := h.last c hc
    simp only [LiveClient.found, hrun] at hnext ⊢
    exact hnext
  dialed := by
    refine List.nodup_append.2 ⟨h.dialed, List.nodup_singleton _, fun g hg g' hg' heq ↦ ?_⟩
    have hsome := (h.connected g hg).2 (heq.trans (List.mem_singleton.1 hg'))
    rw [hnone] at hsome
    cases hsome
  connected g hg := by
    refine ⟨?_, fun _ ↦ rfl⟩
    rcases List.mem_append.1 hg with hg | hg
    · exact (h.connected g hg).1
    · exact Nat.le_of_eq (List.mem_singleton.1 hg)

theorem send (h : Sound now s) {found : Moment} {c : Connection}
    (hrun : s.running = some ⟨found, none⟩) (hconnection : s.client.current.connection = some c) :
    Sound now { s with running := some ⟨found, some (s.server.holds c)⟩ } where
  moment := h.moment
  running r hr := by
    cases hr
    have hr := h.running _ hrun
    refine { hr with
      sent := fun held hsent ↦ ⟨c, hconnection, fun hfalse ↦ ?_, fun htrue ↦ ?_⟩ }
    · cases hsent
      have hne : c.madeAfter ≠ s.server.outages := by simpa [Server.holds] using hfalse
      exact lt_of_le_of_ne (h.moment.made c hconnection) hne
    · cases hsent
      have heq : c.madeAfter = s.server.outages := by simpa [Server.holds] using htrue
      rw [heq]
      exact hr.server.outages
  returned := h.returned
  chain := h.chain
  last c hc := by
    have hnext := h.last c hc
    rw [found_of_running hrun] at hnext
    exact hnext
  dialed := h.dialed
  connected := h.connected

/-- A command that returns is one more link of the chain. -/
theorem conclude (h : Sound now s) {r : Command} (hrun : s.running = some r) {ending : Ending α}
    (hrefused : ∀ e, ending = .refused e → e.isLost = true ∧
      s.client.current.connection = none ∧ s.server.up = false)
    (hheld : ∀ reply, ending = .answered reply →
      ∃ k, s.client.current.connection = some k ∧ r.found.server.outages ≤ k.madeAfter)
    (hlost : ∀ e, ending = .lost e → e.isLost = true ∧
      ∃ k, s.client.current.connection = some k ∧ k.madeAfter < s.server.outages) :
    Sound now (s.conclude now r.found ending) := by
  have hr := h.running r hrun
  have hlast := h.last
  rw [found_of_running hrun] at hlast
  -- A new instance has no connection and a generation of its own.
  have hclient {client : Refreshable (Instance Connection)}
      (hcases : client = s.client ∨ client = renewed s.client now) :
      Moment.Sound ⟨now, client, s.server⟩ ∧ ∀ g ∈ s.dialed, g ≤ client.generation ∧
        (g = client.generation → client.current.connection.isSome = true) := by
    rcases hcases with rfl | rfl
    · exact ⟨h.moment, h.connected⟩
    · refine ⟨⟨h.moment.free, fun _ hc ↦ nomatch hc⟩, fun g hg ↦ ?_⟩
      have hle := (h.connected g hg).1
      exact ⟨Nat.le_succ_of_le hle, fun heq ↦ absurd heq (Nat.ne_of_lt (Nat.lt_succ_of_le hle))⟩
  obtain ⟨hmoment, hconnected⟩ := hclient (client_conclude h.moment.free)
  refine ⟨hmoment, fun _ hrun' ↦ (nomatch hrun'), fun c hc ↦ ?_, ?_, fun c hc ↦ ?_, h.dialed,
    hconnected⟩
  · rcases List.mem_append.1 hc with hc | hc
    · exact h.returned c hc
    · rw [List.mem_singleton.1 hc]
      refine ⟨⟨hr.found, hr.time, hr.server, hr.used, ?_, hrefused, hheld, hlost⟩, .refl _⟩
      change Redis.conclude s.client now ending.result = Redis.conclude
        { r.found.client with current := s.client.current } now ending.result
      exact congrArg (Redis.conclude · now ending.result) hr.client
  · refine h.chain.append (.singleton _) fun c hc d hd ↦ ?_
    cases hd
    exact hlast c hc
  · rw [LiveClient.conclude, List.getLast?_concat] at hc
    cases hc
    exact ⟨Nat.le_refl now, rfl, .refl _⟩

theorem step (h : Sound now s) (hs : s.step now e = some s') : Sound now s' := by
  cases act_of_step hs with
  | stop hup =>
    refine h.mono (Nat.le_refl now) ⟨Nat.le_succ _, fun _ heq ↦ ?_⟩
    exact absurd heq (Nat.succ_ne_self _)
  | start hdown => exact h.mono (Nat.le_refl now) ⟨Nat.le_refl _, fun _ _ ↦ rfl⟩
  | issue hrun => exact h.issue hrun
  | dial hrun hnone hup => exact h.dial hrun hnone
  | refuse hrun hnone hdown hlost =>
    refine h.conclude hrun (fun e heq ↦ ?_) (fun _ heq ↦ nomatch heq) fun _ heq ↦ nomatch heq
    cases heq
    exact ⟨hlost, hnone, hdown⟩
  | send hrun hconnection => exact h.send hrun hconnection
  | answer hrun =>
    obtain ⟨k, hk, -, hheld⟩ := (h.running _ hrun).sent true rfl
    exact h.conclude hrun (fun _ heq ↦ nomatch heq) (fun _ _ ↦ ⟨k, hk, hheld rfl⟩)
      fun _ heq ↦ nomatch heq
  | lose hrun hconnection hbroken hlost =>
    refine h.conclude hrun (fun _ heq ↦ nomatch heq) (fun _ heq ↦ nomatch heq) fun e heq ↦ ?_
    cases heq
    have hne := h.moment.made _ hconnection
    refine ⟨hlost, _, hconnection, lt_of_le_of_ne hne ?_⟩
    simpa [Server.holds] using hbroken

end Sound

theorem sound_of_run {x y : Time × LiveClient α} {events : List (Event α)} (run : Run x events y)
    (h : Sound x.1 x.2) : Sound y.1 y.2 := by
  induction run with
  | refl => exact h
  | wait run hle ih => exact ih.mono hle (.refl _)
  | event run e hs ih => exact ih.step hs

/-- Commands return what they come to, in the order of the acts that end them. -/
theorem endings_of_run {x y : Time × LiveClient α} {events : List (Event α)}
    (run : Run x events y) :
    y.2.returned.map (·.ending) =
      x.2.returned.map (·.ending) ++ events.filterMap Event.ending? := by
  induction run with
  | refl => exact (List.append_nil _).symm
  | wait run hle ih => exact ih
  | event run e hs ih =>
    rw [List.filterMap_append, ← List.append_assoc, ← ih]
    cases act_of_step hs with
    | refuse hrun hnone hdown hlost => exact List.map_append
    | answer hrun => exact List.map_append
    | lose hrun hconnection hbroken hlost => exact List.map_append
    | _ => exact (List.append_nil _).symm

end LiveClient

end Outbound.Redis
