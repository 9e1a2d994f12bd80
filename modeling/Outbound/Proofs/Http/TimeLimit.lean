import Outbound.Http.Client
import Outbound.Proofs.Cancellation
import Outbound.Proofs.Outcome

/-!
# How long a request may take

A request takes what is left until the deadline as its own time limit, and this replaces the
client's, also where it is the longer one. A deadline has no other part in how a request is built.
-/

namespace Outbound

theorem HttpSettings.timeoutMs_of_build {s : HttpSettings} {client : HttpClient}
    (h : s.build = .ok client) : client.timeoutMs = s.timeoutMs := by
  obtain ⟨headers, -, h⟩ := exists_of_bind_eq_ok h
  split at h
  · cases h
    rfl
  · obtain ⟨baseUrl, -, ⟨⟩⟩ := exists_of_bind_eq_ok h
    rfl

namespace Context

variable {ctx : Context} {tokens : Tokens} {now deadline : Time}

theorem deadline_withDeadline (ctx : Context) (deadline : Time) (tokens : Tokens) :
    (ctx.withDeadline deadline tokens).1.deadline =
      some (min (ctx.deadline.getD deadline) deadline) := by
  cases h : ctx.deadline with
  | none => simp [withDeadline, h]
  | some d =>
    simp only [withDeadline, h, Option.getD_some]
    rcases Nat.lt_or_ge d deadline with hlt | hge
    · rw [if_pos hlt, Nat.min_eq_left (Nat.le_of_lt hlt)]
    · rw [if_neg (Nat.not_lt.2 hge), Nat.min_eq_right hge]

theorem lt_of_err_eq_none (h : ctx.err tokens now = none) {d : Time}
    (hd : ctx.deadline = some d) : now < d := by
  have hexpired := (err_eq_none_iff.1 h).2
  simp only [endedBy, expired, hd, decide_eq_false_iff_not] at hexpired
  exact Nat.lt_of_not_le hexpired

/-- A deadline that has not come leaves a live context live. -/
theorem err_withDeadline (h : ctx.err tokens now = none) (hdeadline : now < deadline) :
    (ctx.withDeadline deadline tokens).1.err (ctx.withDeadline deadline tokens).2 now = none := by
  refine err_eq_none_iff.2 ⟨?_, ?_⟩
  · exact (Tokens.isCanceled_child_self tokens ctx.token).trans (err_eq_none_iff.1 h).1
  · simp only [endedBy, expired, deadline_withDeadline, decide_eq_false_iff_not, Nat.not_le]
    refine Nat.lt_min.2 ⟨?_, hdeadline⟩
    cases hd : ctx.deadline with
    | none => exact hdeadline
    | some d => exact lt_of_err_eq_none h hd

end Context

namespace HttpRequest

/-- The request with another time limit of its own. -/
def withTimeout (request : HttpRequest) (timeout : Option Time) : HttpRequest :=
  { request with timeout }

theorem authorize_withTimeout (request : HttpRequest) (timeout : Option Time) :
    (request.withTimeout timeout).authorize = request.authorize.withTimeout timeout := by
  simp only [authorize, withTimeout]
  split
  · rfl
  · split <;> simp_all

theorem timeout_authorize (request : HttpRequest) :
    request.authorize.timeout = request.timeout := by
  have h : request.authorize = request.authorize.withTimeout request.timeout :=
    authorize_withTimeout request request.timeout
  rw [h]
  rfl

end HttpRequest

namespace HttpClient

variable {client : HttpClient} {span : Option SpanContext} {id : Option String}
  {fresh method address : String} {ctx : Context} {tokens : Tokens} {now : Time}
  {request : HttpRequest}

/-- The time that is left decides on nothing but the time limit. -/
theorem request_eq_ok {ended : Option Reason} {remaining : Option Time}
    (h : client.request ended remaining span id fresh method address = .ok request) :
    ended = none ∧ request.timeout = remaining ∧ ∀ remaining',
      client.request none remaining' span id fresh method address =
        .ok (request.withTimeout remaining') := by
  cases ended with
  | some reason => cases h
  | none =>
    obtain ⟨url, hurl, h⟩ := exists_of_bind_eq_ok h
    by_cases hhost : url.host?.isNone = true
    · rw [if_pos hhost] at h
      cases h
    · rw [if_neg hhost] at h
      cases h
      refine ⟨rfl, HttpRequest.timeout_authorize _, fun remaining' ↦ ?_⟩
      have hsame := HttpRequest.authorize_withTimeout ⟨method, url, [], remaining⟩ remaining'
      simp only [HttpRequest.withTimeout] at hsame ⊢
      simp only [HttpClient.request, hurl, bind, Except.bind, if_neg hhost, hsame]
      rfl

theorem limit_of_requestFor
    (h : client.requestFor ctx tokens now span fresh method address = .ok request) :
    ctx.err tokens now = none ∧
      request.limit client = (ctx.deadline.map (· - now)).getD client.timeoutMs := by
  obtain ⟨hlive, htimeout, -⟩ := request_eq_ok h
  exact ⟨hlive, congrArg (·.getD client.timeoutMs) htimeout⟩

/-- What attaching a deadline does to a request. -/
theorem requestFor_withDeadline
    (h : client.requestFor ctx tokens now span fresh method address = .ok request)
    {deadline : Time} (hdeadline : now < deadline) :
    client.requestFor (ctx.withDeadline deadline tokens).1 (ctx.withDeadline deadline tokens).2
        now span fresh method address =
      .ok (request.withTimeout (some (min (ctx.deadline.getD deadline) deadline - now))) := by
  obtain ⟨hlive, -, hsame⟩ := request_eq_ok h
  have hid : (ctx.withDeadline deadline tokens).1.requestId = ctx.requestId := rfl
  rw [requestFor, Context.err_withDeadline hlive hdeadline, Context.deadline_withDeadline, hid]
  exact hsame _

/-- The time limit of a request made under a context: what is left until its deadline, or the
configured limit if it has none. Only a deadline beyond the configured limit lengthens it. -/
theorem deadline_replaces_timeout {s : HttpSettings} (hbuild : s.build = .ok client)
    (h : client.requestFor ctx tokens now span fresh method address = .ok request) :
    (ctx.deadline = none → request.limit client = s.timeoutMs) ∧
    (∀ d, ctx.deadline = some d →
      now < d ∧ request.limit client = d - now ∧
        (request.limit client = min s.timeoutMs (d - now) ↔ d - now ≤ s.timeoutMs)) ∧
    ∀ deadline, now < deadline → ∃ request' : HttpRequest,
      client.requestFor (ctx.withDeadline deadline tokens).1 (ctx.withDeadline deadline tokens).2
          now span fresh method address = .ok request' ∧
        request' = request.withTimeout request'.timeout ∧
        (∀ d, ctx.deadline = some d →
          request'.limit client = min (request.limit client) (deadline - now)) ∧
        (ctx.deadline = none → request'.limit client = deadline - now ∧
          (request'.limit client ≤ request.limit client ↔ deadline - now ≤ s.timeoutMs)) := by
  obtain ⟨hlive, hlimit⟩ := limit_of_requestFor h
  rw [HttpSettings.timeoutMs_of_build hbuild] at hlimit
  refine ⟨fun hnone ↦ ?_, fun d hd ↦ ?_, fun deadline hdeadline ↦
    ⟨_, requestFor_withDeadline h hdeadline, rfl, fun d hd ↦ ?_, fun hnone ↦ ⟨?_, ?_⟩⟩⟩
  · rw [hlimit, hnone]
    rfl
  · have hrest : request.limit client = d - now := by
      rw [hlimit, hd]
      rfl
    refine ⟨Context.lt_of_err_eq_none hlive hd, hrest, ?_⟩
    rw [hrest]
    exact eq_comm.trans min_eq_right_iff
  · rw [hlimit, hd]
    exact (Nat.sub_min_sub_right d deadline now).symm
  · rw [hnone]
    exact congrArg (· - now) (Nat.min_self deadline)
  · rw [hlimit, hnone]
    simp only [HttpRequest.limit, HttpRequest.withTimeout, Option.getD_some, Option.getD_none,
      Option.map_none, Nat.min_self]

/-- Ten seconds are shortened to one by a deadline that is that near. -/
theorem near_deadline_shortens_limit :
    ∃ (client : HttpClient) (request request' : HttpRequest),
      ({ timeoutMs := 10000 } : HttpSettings).build = .ok client ∧
      client.requestFor (Context.background {}).1 (Context.background {}).2 0 none "id" "GET"
        "http://h/" = .ok request ∧
      request.limit client = 10000 ∧ request'.limit client = 1000 ∧
      request' = request.withTimeout request'.timeout := by
  have hbuild : ({ timeoutMs := 10000 } : HttpSettings).build = .ok ⟨[], none, 10000⟩ := rfl
  obtain ⟨request, h⟩ : ∃ request, HttpClient.requestFor ⟨[], none, 10000⟩
      (Context.background {}).1 (Context.background {}).2 0 none "id" "GET" "http://h/" =
        .ok request := exists_of_isOk (by decide +kernel)
  obtain ⟨hnone, -, hattach⟩ := deadline_replaces_timeout hbuild h
  obtain ⟨request', -, hsame, -, hlimit⟩ := hattach 1000 (by decide)
  exact ⟨_, request, request', hbuild, h, hnone rfl, (hlimit rfl).1, hsame⟩

/-- One second is lengthened to a minute by a deadline that is that far. -/
theorem far_deadline_lengthens_limit :
    ¬∀ (s : HttpSettings) (client : HttpClient) (ctx : Context) (tokens : Tokens) (now : Time)
      (span : Option SpanContext) (fresh method address : String) (request : HttpRequest),
      s.build = .ok client →
      client.requestFor ctx tokens now span fresh method address = .ok request →
      request.limit client =
        (ctx.deadline.map fun d ↦ min s.timeoutMs (d - now)).getD s.timeoutMs := by
  intro hcapped
  obtain ⟨request, h⟩ : ∃ request, HttpClient.requestFor ⟨[], none, 1000⟩ ⟨0, some 60000, none⟩
      (Context.background {}).2 0 none "id" "GET" "http://h/" = .ok request :=
    exists_of_isOk (by decide +kernel)
  have hlimit := (limit_of_requestFor h).2
  rw [hcapped { timeoutMs := 1000 } _ _ _ _ _ _ _ _ _ rfl h] at hlimit
  exact absurd hlimit (by decide)

end HttpClient

end Outbound
