import Outbound.Eth.RpcClient
import Outbound.Proofs.Eth.Correlation
import Outbound.Proofs.Lookup

/-!
# Round trips of one client

Whatever mixture of requests and batches a client is asked for, and in whatever order they end, its
requests carry the ids 1, 2, 3, … in the order in which they were made. A batch that is answered
with a list of responses has one entry for each call: what the last response with the id of the
call says. Responses with other ids change nothing.
-/

namespace Outbound

namespace Json

/-- Only one value is read as a given word. -/
theorem unsigned?_eq_some_iff (v : Json) (id : UInt64) :
    v.unsigned? = some id.toNat ↔ v = .int id.toNat := by
  have hfits : fitsUnsigned id.toNat = true := by
    have hlt := id.toNat_lt
    simp only [fitsUnsigned, Bool.and_eq_true, decide_eq_true_eq]
    omega
  constructor
  · intro h
    cases v with
    | int n =>
      simp only [unsigned?] at h
      split at h
      · rename_i hn
        simp only [fitsUnsigned, Bool.and_eq_true, decide_eq_true_eq] at hn
        rw [← Option.some.inj h, Int.toNat_of_nonneg hn.1]
      · cases h
    | _ => cases h
  · rintro rfl
    simp [unsigned?, hfits]

end Json

namespace Eth

namespace Rpc

/-! ## What a reply makes of a request -/

/-- What the request with an id comes to when these responses are the reply: the outcome of the
last response with the id, or that there is none. -/
inductive Settles (responses : List Response) (id : UInt64) : Outcome Json → Prop where
  | last {before after : List Response} {r : Response} (split : responses = before ++ r :: after)
      (same : r.id = .int id.toNat) (others : ∀ r' ∈ after, r'.id ≠ .int id.toNat) :
      Settles responses id r.outcome
  | missing (others : ∀ r ∈ responses, r.id ≠ .int id.toNat) :
      Settles responses id (.error (.missingResponse id.toNat))

variable {responses responses' before after : List Response} {id : UInt64}

theorem settles_entryFor (responses : List Response) (id : UInt64) :
    Settles responses id (entryFor responses id) := by
  rw [entryFor, lastWithId?]
  cases hfind : responses.reverse.find? fun r ↦ r.id.unsigned? == some id.toNat with
  | none =>
    refine .missing fun r hr hid ↦ ?_
    have hne := List.find?_eq_none.1 hfind r (List.mem_reverse.2 hr)
    rw [(Json.unsigned?_eq_some_iff r.id id).2 hid] at hne
    exact hne (beq_self_eq_true _)
  | some r =>
    obtain ⟨hid, later, earlier, hsplit, hothers⟩ := List.find?_eq_some_iff_append.1 hfind
    have hresponses : responses = earlier.reverse ++ r :: later.reverse := by
      rw [← List.reverse_reverse responses, hsplit, List.reverse_append, List.reverse_cons,
        List.append_assoc, List.singleton_append]
    refine .last hresponses ((Json.unsigned?_eq_some_iff r.id id).1 (by simpa using hid))
      fun r' hr' heq ↦ ?_
    have hne := hothers r' (List.mem_reverse.1 hr')
    rw [(Json.unsigned?_eq_some_iff r'.id id).2 heq] at hne
    simp at hne

theorem entryFor_eq_of_filter
    (h : (responses.filter fun r ↦ r.id.unsigned? == some id.toNat) =
      responses'.filter fun r ↦ r.id.unsigned? == some id.toNat) :
    entryFor responses id = entryFor responses' id := by
  have hlast (rs : List Response) : lastWithId? rs id =
      (rs.filter fun r ↦ r.id.unsigned? == some id.toNat).reverse.head? := by
    rw [lastWithId?, ← List.head?_filter, List.filter_reverse]
  rw [entryFor, entryFor, hlast, hlast, h]

/-- A response with another id may as well not be there. -/
theorem entryFor_insert {r : Response} (h : r.id ≠ .int id.toNat) :
    entryFor (before ++ r :: after) id = entryFor (before ++ after) id := by
  apply entryFor_eq_of_filter
  rw [List.filter_append, List.filter_append, List.filter_cons_of_neg]
  rw [beq_iff_eq, Json.unsigned?_eq_some_iff]
  exact h

/-- Responses may come in any order if no two of them have the id. -/
theorem entryFor_perm (hperm : responses.Perm responses')
    (h : responses.Pairwise fun r r' ↦ r.id = .int id.toNat → r'.id ≠ .int id.toNat) :
    entryFor responses id = entryFor responses' id := by
  apply entryFor_eq_of_filter
  have hsame := hperm.filter fun r ↦ r.id.unsigned? == some id.toNat
  have hother := h.filter fun r ↦ r.id.unsigned? == some id.toNat
  have hid {r : Response}
      (hr : r ∈ responses.filter fun r ↦ r.id.unsigned? == some id.toNat) :
      r.id = .int id.toNat :=
    (Json.unsigned?_eq_some_iff r.id id).1 (by simpa using (List.mem_filter.1 hr).2)
  cases hfound : responses.filter fun r ↦ r.id.unsigned? == some id.toNat with
  | nil =>
    rw [hfound] at hsame
    exact hsame.nil_eq
  | cons r rest =>
    cases rest with
    | nil =>
      rw [hfound] at hsame
      exact (List.perm_singleton.1 hsame.symm).symm
    | cons r' rest =>
      rw [hfound] at hother hid
      have hne := (List.pairwise_cons.1 hother).1 r' List.mem_cons_self
      exact absurd (hid (by simp)) (hne (hid List.mem_cons_self))

end Rpc

/-! ## Ids of one client -/

namespace RoundTrip

def requests (t : RoundTrip) : List Json :=
  match t.body.json t.first with
  | .arr items => items
  | v => [v]

/-- The ids of the requests, as they are written. -/
def ids (t : RoundTrip) : List (Option Json) :=
  t.requests.map (·.get? "id")

/-- Call number `i` was sent as a request whose id, in these responses, leads to that entry. -/
def Correlates (t : RoundTrip) (responses : List Rpc.Response) (i : Nat) (call : Call)
    (entry : Outcome Json) : Prop :=
  ∃ (request : Json) (id : UInt64), t.requests[i]? = some request ∧
    request.get? "method" = some (.str call.method) ∧
    request.get? "params" = some call.params ∧
    request.get? "id" = some (.int id.toNat) ∧ Rpc.Settles responses id entry

theorem requests_eq (t : RoundTrip) : t.requests = Rpc.batchJson t.first t.body.calls := by
  rw [requests]
  cases t.body with
  | single call => rfl
  | batch calls => rfl

theorem getElem?_requests {t : RoundTrip} {i : Nat} {call : Call}
    (h : t.body.calls[i]? = some call) :
    t.requests[i]? = some (Rpc.requestJson (t.first + .ofNat i) call) := by
  rw [requests_eq, Rpc.getElem?_batchJson, h]
  rfl

theorem correlates_entryFor {t : RoundTrip} (responses : List Rpc.Response) {i : Nat} {call : Call}
    (h : t.body.calls[i]? = some call) :
    t.Correlates responses i call (Rpc.entryFor responses (t.first + .ofNat i)) := by
  obtain ⟨hid, hmethod, hparams⟩ := Rpc.get?_requestJson (t.first + .ofNat i) call
  exact ⟨_, _, getElem?_requests h, hmethod, hparams, hid, Rpc.settles_entryFor responses _⟩

theorem ids_eq (t : RoundTrip) :
    t.ids = (List.range t.body.calls.length).map fun i ↦
      some (.int (t.first + .ofNat i).toNat) := by
  apply List.ext_getElem?
  intro i
  rw [ids, List.getElem?_map, requests_eq, Rpc.getElem?_batchJson, List.getElem?_map]
  rcases Nat.lt_or_ge i t.body.calls.length with hlt | hge
  · rw [List.getElem?_eq_getElem hlt, List.getElem?_range hlt]
    exact congrArg some (Rpc.get?_requestJson _ _).1
  · rw [List.getElem?_eq_none hge, List.getElem?_eq_none (by rwa [List.length_range])]
    rfl

theorem mem_ids {t : RoundTrip} {i : Nat} (h : i < t.body.calls.length) :
    some (.int (t.first + .ofNat i).toNat) ∈ t.ids := by
  rw [ids_eq]
  exact List.mem_map_of_mem (List.mem_range.2 h)

/-- A batch is read from any list of responses, and each entry is found by the id of its
request. -/
theorem read_eq {t : RoundTrip} {calls : List Call} {exchange : Exchange}
    {responses : List Rpc.Response} (hbody : t.body = .batch calls)
    (hcount : calls.length ≤ 2 ^ 64)
    (hreply : Rpc.decoded Rpc.readBatchReply? exchange = .ok (.many responses)) :
    t.read exchange = .batch (.ok ((List.range calls.length).map fun i ↦
      Rpc.entryFor responses (t.first + .ofNat i))) := by
  have hentries : Rpc.correlate responses t.first calls.length =
      (List.range calls.length).map fun i ↦ Rpc.entryFor responses (t.first + .ofNat i) := by
    apply List.ext_getElem?
    intro i
    rw [List.getElem?_map]
    rcases Nat.lt_or_ge i calls.length with hlt | hge
    · rw [Rpc.getElem?_correlate responses hcount hlt, List.getElem?_range hlt]
      rfl
    · rw [List.getElem?_eq_none (by rwa [Rpc.length_correlate]),
        List.getElem?_eq_none (by rwa [List.length_range])]
      rfl
  rw [read, hbody, ← hentries]
  exact congrArg RpcResult.batch (Rpc.readBatch_of_many t.first calls.length hreply)

/-- Replies are read alike if they agree about the ids of the batch. -/
theorem read_congr {t : RoundTrip} {calls : List Call} {exchange exchange' : Exchange}
    {responses responses' : List Rpc.Response} (hbody : t.body = .batch calls)
    (hcount : calls.length ≤ 2 ^ 64)
    (hreply : Rpc.decoded Rpc.readBatchReply? exchange = .ok (.many responses))
    (hreply' : Rpc.decoded Rpc.readBatchReply? exchange' = .ok (.many responses'))
    (h : ∀ id : UInt64, some (.int id.toNat) ∈ t.ids →
      Rpc.entryFor responses id = Rpc.entryFor responses' id) :
    t.read exchange = t.read exchange' := by
  rw [read_eq hbody hcount hreply, read_eq hbody hcount hreply']
  congr 2
  apply List.map_congr_left
  intro i hi
  exact h _ (mem_ids (by simpa [hbody, RpcBody.calls] using hi))

end RoundTrip

namespace RpcClient

variable {s s' : RpcClient} {e : Event}

def requests (s : RpcClient) : Nat :=
  (s.trips.map fun t ↦ t.body.calls.length).sum

def ids (s : RpcClient) : List (Option Json) :=
  s.trips.flatMap RoundTrip.ids

theorem step_cases (h : s.step e = some s') :
    (∃ body sent result, body.calls.length < 2 ^ 64 ∧
        s'.counter.next = s.counter.next + .ofNat body.calls.length ∧
        s'.trips = s.trips ++ [⟨s.counter.next, body, sent, result⟩]) ∨
      ∃ k t result, s.trips[k]? = some t ∧ t.result = none ∧ s'.counter = s.counter ∧
        s'.trips = s.trips.set k { t with result := some result } := by
  have finished {k : Nat} {decoded : RoundTrip → Bool} {result : RoundTrip → RpcResult}
      (h : s.finish k decoded result = some s') :
      ∃ k t result, s.trips[k]? = some t ∧ t.result = none ∧ s'.counter = s.counter ∧
        s'.trips = s.trips.set k { t with result := some result } := by
    cases htrip : s.trips[k]? with
    | none => simp [finish, htrip] at h
    | some t =>
      cases hresult : t.result with
      | some r => simp [finish, htrip, hresult] at h
      | none =>
        simp only [finish, htrip, hresult, Option.bind_eq_bind, Option.bind_some,
          Option.isSome_none, Bool.false_eq_true, if_false, Option.pure_def,
          Option.some.injEq] at h
        subst h
        exact ⟨k, t, result t, htrip, hresult, rfl, rfl⟩
  cases e with
  | start body ended =>
    left
    simp only [step] at h
    split at h
    · rename_i hlength
      cases h
      rw [start]
      split
      · rename_i hempty
        have hzero : body.calls.length = 0 := by rwa [List.isEmpty_iff_length_eq_zero] at hempty
        exact ⟨body, false, _, hlength, by simp [hzero], rfl⟩
      · cases ended with
        | some reason => exact ⟨body, false, _, hlength, rfl, rfl⟩
        | none => exact ⟨body, true, none, hlength, rfl, rfl⟩
    · cases h
  | reply k exchange => exact .inr (finished h)
  | expire k reason => exact .inr (finished h)

/-- The next id is behind all ids that were given out. -/
structure Numbered (s : RpcClient) : Prop where
  next : s.counter.next = 1 + .ofNat s.requests
  ids : s.ids = (List.range s.requests).map fun n ↦ some (.int (1 + UInt64.ofNat n).toNat)
  /-- No batch goes round all ids. -/
  short : ∀ t ∈ s.trips, t.body.calls.length < 2 ^ 64

theorem numbered_new : Numbered {} where
  next := rfl
  ids := rfl
  short _ ht := nomatch ht

namespace Numbered

theorem begun (h : s.Numbered) {body : RpcBody} {sent : Bool} {result : Option RpcResult}
    (hlength : body.calls.length < 2 ^ 64)
    (hnext : s'.counter.next = s.counter.next + .ofNat body.calls.length)
    (htrips : s'.trips = s.trips ++ [⟨s.counter.next, body, sent, result⟩]) : s'.Numbered := by
  have hrequests : s'.requests = s.requests + body.calls.length := by
    simp [requests, htrips]
  refine ⟨?_, ?_, ?_⟩
  · rw [hnext, h.next, hrequests, UInt64.ofNat_add, add_assoc]
  · have hids : s'.ids = s.ids ++ RoundTrip.ids ⟨s.counter.next, body, sent, result⟩ := by
      simp [RpcClient.ids, htrips]
    rw [hids, h.ids, RoundTrip.ids_eq, hrequests, List.range_add, List.map_append, List.map_map]
    congr 1
    apply List.map_congr_left
    intro i hi
    rw [Function.comp_apply, h.next, UInt64.ofNat_add, ← add_assoc]
  · intro t ht
    rw [htrips, List.mem_append, List.mem_singleton] at ht
    rcases ht with ht | rfl
    · exact h.short t ht
    · exact hlength

theorem ended (h : s.Numbered) {k : Nat} {t : RoundTrip} {result : RpcResult}
    (ht : s.trips[k]? = some t) (hcounter : s'.counter = s.counter)
    (htrips : s'.trips = s.trips.set k { t with result := some result }) : s'.Numbered := by
  have hrequests : s'.requests = s.requests := by
    rw [requests, htrips]
    exact congrArg List.sum (map_set_of_eq ht rfl)
  have hids : s'.ids = s.ids := by
    rw [RpcClient.ids, htrips, List.flatMap_def]
    exact congrArg List.flatten (map_set_of_eq ht rfl)
  refine ⟨?_, ?_, ?_⟩
  · rw [hcounter, h.next, hrequests]
  · rw [hids, h.ids, hrequests]
  · intro t' ht'
    rw [htrips] at ht'
    rcases List.mem_or_eq_of_mem_set ht' with hmem | rfl
    · exact h.short t' hmem
    · exact h.short t (List.mem_of_getElem? ht)

theorem step (h : s.Numbered) (hstep : s.step e = some s') : s'.Numbered := by
  rcases step_cases hstep with
    ⟨body, sent, result, hlength, hnext, htrips⟩ | ⟨k, t, result, ht, -, hcounter, htrips⟩
  · exact h.begun hlength hnext htrips
  · exact h.ended ht hcounter htrips

end Numbered

theorem numbered_of_run {events : List Event} (run : Run events s) : s.Numbered := by
  induction run with
  | new => exact numbered_new
  | event run e hstep ih => exact ih.step hstep

/-- Before the numbers start over they are 1, 2, 3, … -/
theorem Numbered.ids_eq (h : s.Numbered) (hfew : s.requests < 2 ^ 64) :
    s.ids = (List.range s.requests).map fun n ↦ some (.int (n + 1)) := by
  rw [h.ids]
  apply List.map_congr_left
  intro n hn
  have hlt : 1 + n < 2 ^ 64 := by
    have := List.mem_range.1 hn
    omega
  have hword : 1 + UInt64.ofNat n = .ofNat (1 + n) := (UInt64.ofNat_add 1 n).symm
  rw [hword, UInt64.toNat_ofNat_of_lt' hlt, add_comm]
  rfl

theorem finish_of_getElem? {k : Nat} {t : RoundTrip} (ht : s.trips[k]? = some t)
    (hresult : t.result = none) (decoded : RoundTrip → Bool) (result : RoundTrip → RpcResult) :
    ∃ s', s.finish k decoded result = some s' ∧
      s'.trips[k]? = some { t with result := some (result t) } := by
  simp only [finish, ht, hresult, Option.bind_eq_bind, Option.bind_some, Option.isSome_none,
    Bool.false_eq_true, if_false, Option.pure_def, Option.some.injEq, exists_eq_left']
  exact List.getElem?_set_self (List.getElem?_eq_some_iff.1 ht).1

/-- For every history of a client. Ids are contiguous over all that it was asked for, as long as
there are any left, so none is used twice. A batch of nothing sends nothing and takes no id. And
when a batch under way is answered with a list of responses, in whatever order, with whatever is
missing, repeated or strange, each of its calls gets what the last response with its id says.
Responses with other ids change nothing, nor does the order of those that have different ids. -/
theorem batch_correlated_by_id {events : List Event} (run : Run events s) :
    (s.requests < 2 ^ 64 →
      s.ids = (List.range s.requests).map (fun n ↦ some (.int (n + 1))) ∧ s.ids.Nodup) ∧
      (∀ ended, ∃ t, s.step (.start (.batch []) ended) = some { s with trips := s.trips ++ [t] } ∧
        t.sent = false ∧ t.ids = [] ∧ t.result = some (.batch (.ok []))) ∧
      ∀ k t calls, s.trips[k]? = some t → t.result = none → t.body = .batch calls →
        (∀ exchange responses,
          Rpc.decoded Rpc.readBatchReply? exchange = .ok (.many responses) →
          ∃ s' entries, s.step (.reply k exchange) = some s' ∧
            s'.trips[k]? = some { t with result := some (.batch (.ok entries)) } ∧
            entries.length = calls.length ∧
            ∀ i call, calls[i]? = some call →
              ∃ entry, entries[i]? = some entry ∧ t.Correlates responses i call entry) ∧
        (∀ exchange exchange' before r after,
          Rpc.decoded Rpc.readBatchReply? exchange = .ok (.many (before ++ r :: after)) →
          Rpc.decoded Rpc.readBatchReply? exchange' = .ok (.many (before ++ after)) →
          some r.id ∉ t.ids → t.read exchange = t.read exchange') ∧
        ∀ exchange exchange' responses responses',
          Rpc.decoded Rpc.readBatchReply? exchange = .ok (.many responses) →
          Rpc.decoded Rpc.readBatchReply? exchange' = .ok (.many responses') →
          responses.Perm responses' →
          (responses.Pairwise fun r r' ↦ some r.id ∈ t.ids → r.id ≠ r'.id) →
          t.read exchange = t.read exchange' := by
  have h := numbered_of_run run
  refine ⟨fun hfew ↦ ⟨h.ids_eq hfew, ?_⟩, fun ended ↦ ⟨_, rfl, rfl, rfl, rfl⟩,
    fun k t calls ht hresult hbody ↦ ?_⟩
  · rw [h.ids_eq hfew]
    refine (List.nodup_range).map fun m n heq ↦ ?_
    simpa using heq
  have hcount : calls.length ≤ 2 ^ 64 := by
    have hshort := h.short t (List.mem_of_getElem? ht)
    rw [hbody] at hshort
    exact hshort.le
  refine ⟨fun exchange responses hreply ↦ ?_,
    fun exchange exchange' before r after hreply hreply' hforeign ↦ ?_,
    fun exchange exchange' responses responses' hreply hreply' hperm hdistinct ↦ ?_⟩
  · obtain ⟨s', hstep, htrip⟩ := finish_of_getElem? ht hresult
      (·.body.decodes exchange) (·.read exchange)
    rw [RoundTrip.read_eq hbody hcount hreply] at htrip
    refine ⟨s', _, hstep, htrip, by simp, fun i call hcall ↦ ?_⟩
    have hi : i < calls.length := (List.getElem?_eq_some_iff.1 hcall).1
    refine ⟨Rpc.entryFor responses (t.first + .ofNat i), ?_, ?_⟩
    · rw [List.getElem?_map, List.getElem?_range hi]
      rfl
    · exact RoundTrip.correlates_entryFor responses (by rwa [hbody])
  · refine RoundTrip.read_congr hbody hcount hreply hreply' fun id hmem ↦ ?_
    exact Rpc.entryFor_insert fun heq ↦ hforeign (heq ▸ hmem)
  · refine RoundTrip.read_congr hbody hcount hreply hreply' fun id hmem ↦ ?_
    refine Rpc.entryFor_perm hperm (hdistinct.imp fun {r r'} hne hid hid' ↦ ?_)
    exact hne (hid ▸ hmem) (hid.trans hid'.symm)

/-- Two of three calls are answered, in the other order, one of them twice, among responses that
belong to no call. -/
def mixedReply : HttpReply where
  body := "[\x7b\"id\":3,\"result\":\"0x03\"\x7d,\x7b\"id\":9,\"result\":\"0x09\"\x7d," ++
    "\x7b\"id\":2,\"result\":\"0x02\"\x7d,\x7b\"id\":\"4\",\"result\":\"0x04\"\x7d," ++
    "\x7b\"id\":2,\"error\":\x7b\"code\":-32000,\"message\":\"late\"\x7d\x7d,\x7b\"id\":-4\x7d]"

theorem decoded_mixedReply : Rpc.decoded Rpc.readBatchReply? (.ok mixedReply) = .ok (.many
    [{ id := .int 3, result := .str "0x03" }, { id := .int 9, result := .str "0x09" },
      { id := .int 2, result := .str "0x02" }, { id := .str "4", result := .str "0x04" },
      { id := .int 2, error := some ⟨-32000, "late"⟩ }, { id := .int (-4) }]) := by
  cbv

/-- A batch is made between two single requests and answered before them. -/
theorem mixed_reply_correlated :
    ∃ events s, Run events s ∧ s.ids = [1, 2, 3, 4, 5].map (fun n ↦ some (.int n)) ∧
      ∃ s' t, s.step (.reply 1 (.ok mixedReply)) = some s' ∧ s'.trips[1]? = some t ∧
        t.result = some (.batch (.ok
          [.error (.rpc (-32000) "late"), .ok (.str "0x03"), .error (.missingResponse 4)])) := by
  have run : Run _ _ :=
    .event (e := .start (.single ⟨"eth_blockNumber", .arr []⟩) none) (h := rfl) <|
    .event (e := .start (.batch (List.replicate 3 ⟨"eth_call", .arr []⟩)) none) (h := rfl) <|
    .event (e := .start (.single ⟨"eth_blockNumber", .arr []⟩) none) (h := rfl) .new
  obtain ⟨hids, -, htrips⟩ := batch_correlated_by_id run
  obtain ⟨s', entries, hstep, htrip, -⟩ := (htrips 1 _ _ rfl rfl rfl).1 _ _ decoded_mixedReply
  refine ⟨_, _, run, (hids (by decide)).1, s', _, hstep, htrip, ?_⟩
  obtain rfl := Option.some.inj (hstep.symm.trans rfl)
  have hread : Rpc.readBatch 2 3 (.ok mixedReply) = .ok
      [.error (.rpc (-32000) "late"), .ok (.str "0x03"), .error (.missingResponse 4)] := by
    rw [Rpc.readBatch_of_many 2 3 decoded_mixedReply]
    cbv
  have hresult := congrArg (·.bind RoundTrip.result) htrip
  rw [← hread]
  exact hresult.symm

end RpcClient

end Eth

end Outbound
