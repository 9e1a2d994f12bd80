import Outbound.Proofs.Redis.Commands

/-!
# Recovery from outages

A command fails only if the server is down or its instance has a connection from before the last
outage. With the cooldown over, the first such failure puts an instance without a connection in
place of that one, and an instance without a connection needs nothing but a server that is up.
-/

namespace Outbound.Redis

variable {α : Type}

/-- There is no connection from before the last outage. -/
def Moment.Intact (m : Moment) : Prop :=
  ∀ k, m.connection = some k → k.madeAfter = m.server.outages

theorem Moment.intact_of_unconnected {m : Moment} (h : m.connection = none) : m.Intact :=
  fun _ hk ↦ nomatch h.symm.trans hk

theorem Moment.Next.intact {m m' : Moment} (h : m.Next m') (hup : m.server.StaysUp m'.server)
    (hintact : m.Intact) : m'.Intact := by
  intro k hk
  rw [Moment.connection, h.client] at hk
  exact (hintact k hk).trans hup.2.symm

/-- The server was up when the command was issued and has been since, and the cooldown was over. -/
def Returned.CanRecover (c : Returned α) (server : Server) : Prop :=
  c.found.server.StaysUp server ∧ c.found.client.rested c.found.time = true

/-- How dials and commands end while the server neither stops nor starts. -/
structure Server.Serves (server : Server) (dial : Except Error Connection)
    (send : Connection → Except Error α) : Prop where
  dialed : server.up = true → dial = .ok ⟨server.outages⟩
  refused : server.up = false → ∃ e, dial = .error e ∧ e.isLost = true
  broken : ∀ k, server.holds k = false → ∃ e, send k = .error e ∧ e.isLost = true

namespace Returned.Sound

variable {c : Returned α}

theorem result_eq (h : c.Sound) : c.result = c.ending.result :=
  (congrArg Executed.result h.concluded).trans result_conclude

theorem left_cases (h : c.Sound) :
    c.left.client = c.client ∨ c.left.client = renewed c.client c.left.time := by
  have hclient : c.left.client = _ := congrArg Executed.client h.concluded
  rw [hclient]
  exact client_conclude h.found.free

theorem answered (h : c.Sound) (hup : c.found.server.StaysUp c.left.server)
    (hintact : c.found.Intact) : c.ending.failed = false := by
  have houtages := hup.2
  cases hending : c.ending with
  | answered reply => rfl
  | refused e =>
    obtain ⟨-, -, hdown⟩ := h.refused e hending
    rw [hup.up h.server] at hdown
    cases hdown
  | lost e =>
    obtain ⟨-, k, hk, hbroken⟩ := h.lost e hending
    rcases h.used with hsame | ⟨-, k', hk', hmade, -⟩
    · have heq := hintact k ((congrArg Instance.connection hsame).symm.trans hk)
      omega
    · cases hk.symm.trans hk'
      omega

/-- A command that is answered leaves a connection that holds, or none, if there is no outage. -/
theorem left_intact (h : c.Sound) (hup : c.found.server.StaysUp c.left.server)
    (hanswered : c.ending.failed = false) : c.left.Intact := by
  have houtages := hup.2
  obtain ⟨k, hk, hmade⟩ : ∃ k, c.used.connection = some k ∧
      c.found.server.outages ≤ k.madeAfter := by
    cases hending : c.ending with
    | answered reply => exact h.held reply hending
    | refused e =>
      rw [hending] at hanswered
      cases hanswered
    | lost e =>
      rw [hending] at hanswered
      cases hanswered
  have hle : k.madeAfter ≤ c.left.server.outages := by
    rcases h.used with hsame | ⟨-, k', hk', -, hle⟩
    · exact (h.found.made k ((congrArg Instance.connection hsame).symm.trans hk)).trans
        h.server.outages
    · cases hk.symm.trans hk'
      exact hle
  intro k' hk'
  rw [Moment.connection] at hk'
  rcases h.left_cases with hleft | hleft
  · rw [hleft] at hk'
    cases hk.symm.trans hk'
    omega
  · rw [hleft] at hk'
    cases hk'

/-- A failure when the cooldown is over puts a new instance in place of the one that failed. -/
theorem renewed_of_failed (h : c.Sound) (hrested : c.found.client.rested c.found.time = true)
    (hfailed : c.ending.failed = true) :
    c.refresh = some .refreshed ∧ c.left.connection = none := by
  obtain ⟨e, hresult, hlost⟩ : ∃ e, c.ending.result = .error e ∧ e.isLost = true := by
    cases hending : c.ending with
    | refused e => exact ⟨e, rfl, (h.refused e hending).1⟩
    | answered reply =>
      rw [hending] at hfailed
      cases hfailed
    | lost e => exact ⟨e, rfl, (h.lost e hending).1⟩
  have hfree : c.client.busy = false := h.found.free
  have hrested' : c.client.rested c.left.time = true :=
    Refreshable.rested_mono (show c.client.rested c.found.time = true from hrested) h.time
  have hconcluded := h.concluded
  rw [hresult, conclude_lost hfree hrested' hlost] at hconcluded
  have hclient := congrArg Executed.client hconcluded
  exact ⟨congrArg Executed.refresh hconcluded,
    congrArg (fun client : Refreshable (Instance Connection) ↦ client.current.connection) hclient⟩

/-- A refused dial is not kept. -/
theorem unconnected_of_refused (h : c.Sound) {e : Error} (hrefused : c.ending = .refused e) :
    c.left.connection = none := by
  rw [Moment.connection]
  rcases h.left_cases with hleft | hleft
  · rw [hleft]
    exact (h.refused e hrefused).2.1
  · rw [hleft]
    rfl

end Returned.Sound

namespace LiveClient

variable {now : Time} {s : LiveClient α} {c d : Returned α} {i j : Nat}

namespace Sound

theorem next (h : Sound now s) (hc : s.returned[i]? = some c) (hd : s.returned[i + 1]? = some d) :
    c.left.Next d.found := by
  obtain ⟨hi, rfl⟩ := List.getElem?_eq_some_iff.1 hc
  obtain ⟨hj, rfl⟩ := List.getElem?_eq_some_iff.1 hd
  exact List.isChain_iff_getElem.1 h.chain i hj

/-- A command that finds no broken connection is answered, and the next one finds none either, as
long as the server is up. -/
theorem answered_next (h : Sound now s) (hc : s.returned[i]? = some c)
    (hd : s.returned[i + 1]? = some d) (hup : c.left.server.StaysUp s.server)
    (hintact : c.left.Intact) :
    d.ending.failed = false ∧ d.left.server.StaysUp s.server ∧ d.left.Intact := by
  have hnext := h.next hc hd
  obtain ⟨hsound, hbefore⟩ := h.returned d (List.mem_of_getElem? hd)
  obtain ⟨hfound, hup⟩ := hup.split hnext.server (hsound.server.trans hbefore)
  obtain ⟨hupd, hleft⟩ := hup.split hsound.server hbefore
  have hintact' := hnext.intact hfound hintact
  have hanswered := hsound.answered hupd hintact'
  exact ⟨hanswered, hleft, hsound.left_intact hupd hanswered⟩

theorem answered_after (h : Sound now s) (hc : s.returned[i]? = some c)
    (hup : c.left.server.StaysUp s.server) (hintact : c.left.Intact) (hij : i < j)
    (hd : s.returned[j]? = some d) : d.ending.failed = false := by
  have hall (j : Nat) (hij : i + 1 ≤ j) : ∀ d, s.returned[j]? = some d →
      d.ending.failed = false ∧ d.left.server.StaysUp s.server ∧ d.left.Intact := by
    induction j, hij using Nat.le_induction with
    | base => exact fun d hd ↦ h.answered_next hc hd hup hintact
    | succ j hij ih =>
      intro d hd
      have hlt : j < s.returned.length :=
        Nat.lt_of_succ_lt (List.getElem?_eq_some_iff.1 hd).1
      obtain ⟨-, hup', hintact'⟩ := ih _ (List.getElem?_eq_getElem hlt)
      exact h.answered_next (List.getElem?_eq_getElem hlt) hd hup' hintact'
  exact (hall j hij d hd).1

/-- The connection that is left by a command that comes when the cooldown is over is not broken. -/
theorem recovers (h : Sound now s) (hc : s.returned[i]? = some c) (hcan : c.CanRecover s.server) :
    (c.ending.failed = true → c.refresh = some .refreshed) ∧
      ∀ j d, s.returned[j]? = some d → i < j → d.ending.failed = false := by
  obtain ⟨hsound, hbefore⟩ := h.returned c (List.mem_of_getElem? hc)
  obtain ⟨hupc, hup⟩ := hcan.1.split hsound.server hbefore
  have hintact : c.left.Intact := by
    cases hfailed : c.ending.failed with
    | true => exact Moment.intact_of_unconnected (hsound.renewed_of_failed hcan.2 hfailed).2
    | false => exact hsound.left_intact hupc hfailed
  exact ⟨fun hfailed ↦ (hsound.renewed_of_failed hcan.2 hfailed).1,
    fun j d hd hij ↦ h.answered_after hc hup hintact hij hd⟩

end Sound

/-! ## Commands return -/

theorem run_send (now : Time) {found : Moment} {k : Connection} (result : Except Error α)
    (hrun : s.running = some ⟨found, none⟩) (hk : s.client.current.connection = some k)
    (hbroken : s.server.holds k = false → ∃ e, result = .error e ∧ e.isLost = true) :
    ∃ acts ending, Run (now, s) acts (now, s.conclude now found ending) ∧
      (∀ e ∈ acts, e.isAct = true) ∧ ending.result = result := by
  have hsend : step now s .send =
      some { s with running := some ⟨found, some (s.server.holds k)⟩ } := by
    simp only [step, hrun, hk]
  have run : Run (now, s) [.send] (now, _) := TimedRun.refl.event Event.send hsend
  cases hholds : s.server.holds k with
  | true =>
    rw [hholds] at run
    exact ⟨_, .answered result, run.event (.answer result) rfl, by simp [Event.isAct], rfl⟩
  | false =>
    obtain ⟨e, rfl, hlost⟩ := hbroken hholds
    rw [hholds] at run
    have hlose : step now { s with running := some ⟨found, some false⟩ } (.lose e) =
        some (s.conclude now found (.lost e)) := by
      simp only [step, hk, hholds, hlost, and_self, if_true]
      rfl
    exact ⟨_, .lost e, run.event (.lose e) hlose, by simp [Event.isAct], rfl⟩

/-- A command that nothing comes in between does what executing it at once does. -/
theorem run_command (now : Time) {found : Moment} (hrun : s.running = some ⟨found, none⟩)
    {dial : Except Error Connection} {send : Connection → Except Error α}
    (hserves : s.server.Serves dial send) :
    ∃ acts s', Run (now, s) acts (now, s') ∧ (∀ e ∈ acts, e.isAct = true) ∧
      s'.running = none ∧ s'.client = (execute s.client now dial send).client ∧
      ∃ c, s'.returned = s.returned ++ [c] ∧ c.found = found ∧
        c.result = (execute s.client now dial send).result ∧
        c.refresh = (execute s.client now dial send).refresh := by
  cases hk : s.client.current.connection with
  | some k =>
    obtain ⟨acts, ending, run, hacts, hresult⟩ :=
      run_send now (send k) hrun hk (hserves.broken k)
    have hexecute : execute s.client now dial send = Redis.conclude s.client now (send k) := by
      simp only [execute, Instance.use, hk]
    rw [hexecute, ← hresult]
    exact ⟨acts, _, run, hacts, rfl, rfl, _, rfl, rfl, rfl, rfl⟩
  | none =>
    cases hup : s.server.up with
    | false =>
      obtain ⟨e, rfl, hlost⟩ := hserves.refused hup
      have hexecute : execute s.client now (.error e) send =
          Redis.conclude s.client now (.error e) := by
        simp only [execute, Instance.use, hk]
      have hrefuse : step now s (.refuse e) = some (s.conclude now found (.refused e)) := by
        simp only [step, hrun, hk, hup, hlost, and_self, if_true]
      rw [hexecute]
      exact ⟨_, _, TimedRun.refl.event _ hrefuse, by simp [Event.isAct], rfl, rfl, _, rfl, rfl,
        rfl, rfl⟩
    | true =>
      have hdial : step now s .dial = some { s with
          client := { s.client with current := ⟨some ⟨s.server.outages⟩⟩ }
          dialed := s.dialed ++ [s.client.generation] } := by
        simp only [step, hrun, hk, hup, if_true]
      have hexecute : execute s.client now dial send =
          Redis.conclude { s.client with current := ⟨some ⟨s.server.outages⟩⟩ } now
            (send ⟨s.server.outages⟩) := by
        simp only [execute, Instance.use, hk, hserves.dialed hup]
      obtain ⟨acts, ending, run, hacts, hresult⟩ := run_send now (send ⟨s.server.outages⟩)
        (s := { s with
          client := { s.client with current := ⟨some ⟨s.server.outages⟩⟩ }
          dialed := s.dialed ++ [s.client.generation] }) hrun rfl (hserves.broken _)
      rw [hexecute, ← hresult]
      exact ⟨_, _, (TimedRun.refl.event Event.dial hdial).trans run,
        by simpa [Event.isAct] using hacts, rfl, rfl, _, rfl, rfl, rfl, rfl⟩

theorem serves_of_server (server : Server) : server.Serves
    (if server.up then .ok ⟨server.outages⟩ else .error (.io .connectionRefused none))
    fun _ ↦ (.error (.io .brokenPipe none) : Except Error α) where
  dialed hup := if_pos hup
  refused hdown := ⟨_, if_neg (by simp [hdown]), Error.isLost_io _ _⟩
  broken _ _ := ⟨_, rfl, Error.isLost_io _ _⟩

/-- A command that has not returned needs nobody but the server to do so. -/
theorem Sound.exists_return (h : Sound now s) {r : Command} (hrun : s.running = some r) :
    ∃ acts s' c, Run (now, s) acts (now, s') ∧ (∀ e ∈ acts, e.isAct = true) ∧
      s'.running = none ∧ s'.returned = s.returned ++ [c] := by
  obtain ⟨found, sent⟩ := r
  cases sent with
  | none =>
    obtain ⟨acts, s', run, hacts, hidle, -, c, hreturned, -⟩ :=
      run_command now hrun (serves_of_server s.server)
    exact ⟨acts, s', c, run, hacts, hidle, hreturned⟩
  | some held =>
    cases held with
    | true =>
      have hanswer (reply : Except Error α) : LiveClient.step now s (.answer reply) =
          some (s.conclude now found (.answered reply)) := by
        simp only [LiveClient.step, hrun]
      exact ⟨_, _, _, TimedRun.refl.event _ (hanswer (.error (.io .other none))),
        by simp [Event.isAct], rfl, rfl⟩
    | false =>
      obtain ⟨k, hk, hbroken, -⟩ := (h.running _ hrun).sent false rfl
      have hk : s.client.current.connection = some k := hk
      have hne : k.madeAfter ≠ s.server.outages := Nat.ne_of_lt (hbroken rfl)
      have hholds : s.server.holds k = false := by simpa [Server.holds] using hne
      have hlose : LiveClient.step now s (.lose (.io .brokenPipe none)) =
          some (s.conclude now found (.lost (.io .brokenPipe none))) := by
        simp only [LiveClient.step, hrun, hk, hholds, Error.isLost_io, and_self, if_true]
      exact ⟨_, _, _, TimedRun.refl.event _ hlose, by simp [Event.isAct], rfl, rfl⟩

/-! ## The bound -/

/-- Of the commands that are issued while the server is up for good and the cooldown is over, at
most one fails, and that one has the instance replaced. All commands after any of them are answered,
the cooldown over or not. -/
theorem at_most_one_failure {policy : RefreshPolicy} {server : Server} {start : Time}
    {events : List (Event α)} (run : Run (start, new policy server) events (now, s)) :
    (∀ (i j : Nat) (c d : Returned α), s.returned[i]? = some c → s.returned[j]? = some d →
      c.CanRecover s.server → d.CanRecover s.server →
      c.ending.failed = true → d.ending.failed = true → i = j) ∧
    (∀ (i : Nat) (c : Returned α), s.returned[i]? = some c → c.CanRecover s.server →
      (c.ending.failed = true → c.refresh = some .refreshed) ∧
        ∀ (j : Nat) (d : Returned α), s.returned[j]? = some d → i < j →
          d.ending.failed = false) ∧
    (∀ c ∈ s.returned, c.found.connection = none → c.found.server.StaysUp c.left.server →
      c.ending.failed = false) ∧
    (∀ (i : Nat) (c d : Returned α) e, s.returned[i]? = some c → s.returned[i + 1]? = some d →
      c.ending = .refused e → d.found.connection = none) ∧
    s.dialed.Nodup ∧
    (s.returned.map (·.ending) = events.filterMap Event.ending? ∧
      ∀ c ∈ s.returned, c.result = c.ending.result) ∧
    ∀ r, s.running = some r → ∃ acts s' c, Run (now, s) acts (now, s') ∧
      (∀ e ∈ acts, e.isAct = true) ∧ s'.running = none ∧ s'.returned = s.returned ++ [c] := by
  have h := sound_of_run run (sound_new policy server start)
  refine ⟨fun i j c d hc hd hcan hcan' hfailed hfailed' ↦ ?_, fun i c hc hcan ↦ h.recovers hc hcan,
    fun c hc hnone hup ↦ ?_, fun i c d e hc hd hrefused ↦ ?_, h.dialed,
    ⟨endings_of_run run, fun c hc ↦ (h.returned c hc).1.result_eq⟩,
    fun r hrun ↦ h.exists_return hrun⟩
  · rcases Nat.lt_trichotomy i j with hlt | heq | hlt
    · rw [(h.recovers hc hcan).2 j d hd hlt] at hfailed'
      cases hfailed'
    · exact heq
    · rw [(h.recovers hd hcan').2 i c hc hlt] at hfailed
      cases hfailed
  · exact (h.returned c hc).1.answered hup (Moment.intact_of_unconnected hnone)
  · rw [Moment.connection, (h.next hc hd).client]
    exact (h.returned c (List.mem_of_getElem? hc)).1.unconnected_of_refused hrefused

/-- The first outage costs two commands, one that finds its connection broken and one that is
refused. The second one comes so soon that two commands fail before the instance is replaced. -/
theorem answered_after_second_outage :
    ∃ events, ∃ s : LiveClient Unit, Run (0, new ⟨10, 1⟩ {}) events (20, s) ∧
      s.returned.map (·.ending.failed) = [false, true, true, false, true, true, false] ∧
      ∃ c d, s.returned[5]? = some c ∧ c.CanRecover s.server ∧ c.refresh = some .refreshed ∧
        s.returned[6]? = some d ∧ d.ending.failed = false := by
  obtain ⟨s, hplay, hfailures, c, d, hc, hcan, hfailed, hd⟩ : ∃ s, TimedRun.play step
      (0, (new ⟨10, 1⟩ {} : LiveClient Unit))
      [(0, .issue), (0, .dial), (0, .send), (0, .answer (.ok ())),
        (1, .stop), (1, .issue), (0, .send), (0, .lose (.io .connectionRefused none)),
        (1, .issue), (0, .refuse (.io .connectionRefused none)),
        (1, .start), (0, .issue), (0, .dial), (0, .send), (0, .answer (.ok ())),
        (1, .stop), (1, .start), (0, .issue), (0, .send), (0, .lose (.io .connectionRefused none)),
        (14, .issue), (0, .send), (0, .lose (.io .connectionRefused none)),
        (0, .issue), (0, .dial), (0, .send), (0, .answer (.ok ()))] = some (20, s) ∧
      s.returned.map (·.ending.failed) = [false, true, true, false, true, true, false] ∧
      ∃ c d, s.returned[5]? = some c ∧ c.CanRecover s.server ∧ c.ending.failed = true ∧
        s.returned[6]? = some d :=
    ⟨_, rfl, rfl, _, _, rfl, ⟨⟨rfl, rfl⟩, rfl⟩, rfl, rfl⟩
  have run := TimedRun.of_play hplay
  obtain ⟨hrefresh, hothers⟩ := (at_most_one_failure run).2.1 5 c hc hcan
  exact ⟨_, s, run, hfailures, c, d, hc, hcan, hrefresh hfailed, hd, hothers 6 d hd (by decide)⟩

end LiveClient

end Outbound.Redis
