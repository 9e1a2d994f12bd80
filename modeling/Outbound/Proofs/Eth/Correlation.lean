import Outbound.Eth.Rpc
import Outbound.Proofs.Eth.Answers
import Outbound.Proofs.Json.Members

/-!
# Replies of nodes

A node answers a request with an object that carries the id of the request and what the node makes
of the method and its parameters, and it answers an array of requests with such objects in any
order. From a batch every call then gets what it would get alone.
-/

namespace Outbound

section Keys

variable {κ β : Type} [DecidableEq κ] {xs : List (κ × β)} {key : κ}

theorem filter_fst_eq_singleton {b : β} (hnodup : (xs.map Prod.fst).Nodup) (hmem : (key, b) ∈ xs) :
    (xs.filter fun x ↦ x.1 = key) = [(key, b)] := by
  induction xs with
  | nil => cases hmem
  | cons x rest ih =>
    obtain ⟨hnotin, hrest⟩ := List.nodup_cons.1 hnodup
    rcases List.mem_cons.1 hmem with rfl | hmem
    · have hnone : (rest.filter fun x ↦ x.1 = key) = [] := by
        rw [List.filter_eq_nil_iff]
        intro y hy heq
        have hsame : y.1 = key := by simpa using heq
        exact hnotin (List.mem_map.2 ⟨y, hy, hsame⟩)
      rw [List.filter_cons_of_pos (by simp), hnone]
    · have hne : x.1 ≠ key := fun heq ↦ hnotin (heq ▸ List.mem_map_of_mem hmem)
      rw [List.filter_cons_of_neg (by simpa using hne)]
      exact ih hrest hmem

theorem filter_fst_eq_nil (h : ∀ b, (key, b) ∉ xs) : (xs.filter fun x ↦ x.1 = key) = [] := by
  rw [List.filter_eq_nil_iff]
  rintro ⟨key', b⟩ hx heq
  have hsame : key' = key := by simpa using heq
  exact h b (hsame ▸ hx)

end Keys

namespace Eth.Rpc

/-! ## Reading a reply -/

theorem onlyMember?_eq_some {members : List (String × Json)} {key : String} {v : Json}
    (hnodup : (members.map Prod.fst).Nodup) (hmem : (key, v) ∈ members) :
    onlyMember? members key = some (some v) := by
  have hfilter : members.filter (·.1 == key) = [(key, v)] := filter_fst_eq_singleton hnodup hmem
  simp [onlyMember?, hfilter]

theorem onlyMember?_eq_none {members : List (String × Json)} {key : String}
    (h : ∀ v, (key, v) ∉ members) : onlyMember? members key = some none := by
  have hfilter : members.filter (·.1 == key) = [] := filter_fst_eq_nil h
  simp [onlyMember?, hfilter]

theorem exists_onlyMember? {members : List (String × Json)}
    (hnodup : (members.map Prod.fst).Nodup) (key : String) :
    ∃ v?, onlyMember? members key = some v? ∧ ∀ v, v? = some v → (key, v) ∈ members := by
  by_cases h : ∃ v, (key, v) ∈ members
  · obtain ⟨v, hv⟩ := h
    refine ⟨some v, onlyMember?_eq_some hnodup hv, ?_⟩
    rintro _ ⟨⟩
    exact hv
  · exact ⟨none, onlyMember?_eq_none (not_exists.1 h), fun _ h ↦ nomatch h⟩

theorem readBatch_of_error {exchange : Exchange} {e : Error} (first : UInt64) (count : Nat)
    (h : decoded readBatchReply? exchange = .error e) :
    readBatch first count exchange = .error e := by
  simp only [readBatch, h]
  rfl

theorem readBatch_of_many {exchange : Exchange} {responses : List Response} (first : UInt64)
    (count : Nat) (h : decoded readBatchReply? exchange = .ok (.many responses)) :
    readBatch first count exchange = .ok (correlate responses first count) := by
  simp only [readBatch, h]
  rfl

theorem readBatch_of_one {exchange : Exchange} {response : Response} (first : UInt64)
    (count : Nat) (h : decoded readBatchReply? exchange = .ok (.one response)) :
    readBatch first count exchange = .error (match response.error with
      | some e => .rpc e.code e.message
      | none => .decode "batch answered with a single result") := by
  obtain ⟨id, result, error⟩ := response
  simp only [readBatch, h]
  cases error <;> rfl

/-- An error of an exchange or of a node, or one in what a node has sent. -/
def isOfReply : Error → Bool
  | .http _ => true
  | .rpc _ _ => true
  | .missingResponse _ => true
  | .decode _ => true
  | _ => false

theorem isOfReply_of_mem_takeOutcomes {found : Nat → Option Response} {id : UInt64} {count : Nat}
    {e : Error} (h : .error e ∈ takeOutcomes found id count) : isOfReply e = true := by
  induction count generalizing found id with
  | zero => exact absurd h List.not_mem_nil
  | succ count ih =>
    rw [takeOutcomes, List.mem_cons] at h
    rcases h with heq | hmem
    · split at heq
      · simp only [Response.outcome] at heq
        split at heq <;> cases heq
        rfl
      · cases heq
        rfl
    · exact ih hmem

theorem isOfReply_of_readBatch {first : UInt64} {count : Nat} {exchange : Exchange} {e : Error}
    (h : BatchOutcome.reports (readBatch first count exchange) e) : isOfReply e = true := by
  cases hreply : decoded readBatchReply? exchange with
  | error e =>
    rw [readBatch_of_error first count hreply] at h
    cases h
    simp only [decoded] at hreply
    split at hreply
    · cases hreply
      rfl
    · split at hreply <;> cases hreply
      rfl
  | ok reply =>
    cases reply with
    | many responses =>
      rw [readBatch_of_many first count hreply] at h
      have hmem : .error e ∈ takeOutcomes (byId responses) first count := h
      exact isOfReply_of_mem_takeOutcomes hmem
    | one response =>
      rw [readBatch_of_one first count hreply] at h
      simp only [BatchOutcome.reports] at h
      split at h <;> cases h <;> rfl

/-- What is read from a reply of a node is an error of the exchange or of the node. -/
theorem readBatch_not_abandoned (first : UInt64) (count : Nat) (exchange : Exchange) :
    ¬BatchOutcome.reports (readBatch first count exchange) .abandoned := by
  intro h
  cases isOfReply_of_readBatch h

/-! ## Nodes -/

/-- What a node makes of a method with its parameters. -/
abbrev Verdict := String → Json → Except NodeError Json

/-- What a call comes to when a node answers with that. -/
def answered : Except NodeError Json → Outcome Json
  | .ok result => .ok result.canonical
  | .error e => .error (.rpc e.code e.message)

def Verdict.outcome (verdict : Verdict) (call : Call) : Outcome Json :=
  answered (verdict call.method call.params)

/-- A well-formed response: an object without repeated keys that has the id and either a result or
an error. -/
def Responds (id : Int) (result : Except NodeError Json) (v : Json) : Prop :=
  ∃ members, v = .obj members ∧ (members.map Prod.fst).Nodup ∧ ("id", .int id) ∈ members ∧
    match result with
    | .ok result => ("result", result) ∈ members ∧ ∀ e, ("error", e) ∈ members → e = .null
    | .error e => fitsSigned e.code = true ∧ ∃ parts, ("error", .obj parts) ∈ members ∧
        (parts.map Prod.fst).Nodup ∧ ("code", .int e.code) ∈ parts ∧
        ("message", .str e.message) ∈ parts

/-- A response that a node gives to a request object. -/
def Verdict.Answers (verdict : Verdict) (request v : Json) : Prop :=
  ∃ id method params, request.get? "id" = some (.int id) ∧
    request.get? "method" = some (.str method) ∧ request.get? "params" = some params ∧
    Responds id (verdict method params) v

/-- An exchange in which a node answers an array of requests, in any order. -/
def Verdict.AnswersAll (verdict : Verdict) (requests : List Json) (exchange : Exchange) : Prop :=
  ∃ vs order, exchange.json = .ok (.arr vs) ∧ vs.Perm order ∧
    List.Forall₂ verdict.Answers requests order

theorem get?_requestJson (id : UInt64) (call : Call) :
    (requestJson id call).get? "id" = some (.int id.toNat) ∧
      (requestJson id call).get? "method" = some (.str call.method) ∧
      (requestJson id call).get? "params" = some call.params := by
  simp [requestJson, Json.ofMembers, Json.get?, lookup_insertMember]

theorem readResponse?_of_responds {id : UInt64} {result : Except NodeError Json} {v : Json}
    (h : Responds id.toNat result v) :
    ∃ r, readResponse? v = some r ∧ r.id.unsigned? = some id.toNat ∧
      r.outcome = answered result := by
  obtain ⟨members, rfl, hnodup, hid, hresult⟩ := h
  have hidText := onlyMember?_eq_some hnodup hid
  have hunsigned : (Json.int id.toNat).canonical.unsigned? = some id.toNat := by
    have hlt := id.toNat_lt
    have hfits : fitsUnsigned id.toNat = true := by
      simp only [fitsUnsigned, Bool.and_eq_true, decide_eq_true_eq]
      omega
    simp [Json.canonical, Json.unsigned?, hfits]
  cases result with
  | ok result =>
    obtain ⟨hmem, hnull⟩ := hresult
    obtain ⟨error?, herror, hmember⟩ := exists_onlyMember? hnodup "error"
    have herrorNull : error?.getD .null = .null := by
      cases error? with
      | none => rfl
      | some e => exact hnull e (hmember e rfl)
    refine ⟨{ id := (Json.int id.toNat).canonical, result := result.canonical }, ?_, hunsigned, rfl⟩
    simp [readResponse?, hidText, onlyMember?_eq_some hnodup hmem, herror, herrorNull, response?]
  | error e =>
    obtain ⟨hfits, parts, hmem, hparts, hcode, hmessage⟩ := hresult
    obtain ⟨result?, hresult, -⟩ := exists_onlyMember? hnodup "result"
    have hread : readNodeError? (.obj parts) = some e := by
      simp [readNodeError?, onlyMember?_eq_some hparts hcode,
        onlyMember?_eq_some hparts hmessage, nodeError?, hfits]
    refine ⟨{
      id := (Json.int id.toNat).canonical
      result := (result?.getD .null).canonical
      error := some e }, ?_, hunsigned, rfl⟩
    simp [readResponse?, hidText, onlyMember?_eq_some hnodup hmem, hresult, response?, hread]

theorem Verdict.Answers.read {verdict : Verdict} {id : UInt64} {call : Call} {v : Json}
    (h : verdict.Answers (requestJson id call) v) :
    ∃ r, readResponse? v = some r ∧ r.id.unsigned? = some id.toNat ∧
      r.outcome = verdict.outcome call := by
  obtain ⟨id', method, params, hid, hmethod, hparams, hv⟩ := h
  obtain ⟨hid', hmethod', hparams'⟩ := get?_requestJson id call
  rw [hid'] at hid
  rw [hmethod'] at hmethod
  rw [hparams'] at hparams
  cases hid
  cases hmethod
  cases hparams
  exact readResponse?_of_responds hv

theorem add_ofNat_succ (first : UInt64) (i : Nat) :
    first + .ofNat (i + 1) = first + 1 + .ofNat i := by
  rw [UInt64.ofNat_add, add_comm (UInt64.ofNat i), ← add_assoc]
  rfl

theorem getElem?_batchJson (first : UInt64) (calls : List Call) (i : Nat) :
    (batchJson first calls)[i]? = calls[i]?.map (requestJson (first + .ofNat i)) := by
  induction calls generalizing first i with
  | nil => rfl
  | cons call calls ih =>
    cases i with
    | zero => simp [batchJson]
    | succ i =>
      rw [batchJson, List.getElem?_cons_succ, List.getElem?_cons_succ, ih, add_ofNat_succ]

theorem length_batchJson (first : UInt64) (calls : List Call) :
    (batchJson first calls).length = calls.length := by
  induction calls generalizing first with
  | nil => rfl
  | cons call calls ih => rw [batchJson, List.length_cons, List.length_cons, ih]

/-- Ids of one batch differ, even where the numbers start over. -/
theorem index_of_id {first : UInt64} {i j : Nat} (hi : i < 2 ^ 64) (hj : j < 2 ^ 64)
    (h : (first + .ofNat i).toNat = (first + .ofNat j).toNat) : i = j := by
  have hofNat : UInt64.ofNat i = UInt64.ofNat j := add_left_cancel (UInt64.toNat_inj.1 h)
  have htoNat := congrArg UInt64.toNat hofNat
  rwa [UInt64.toNat_ofNat_of_lt' hi, UInt64.toNat_ofNat_of_lt' hj] at htoNat

/-! ## Taking responses by their ids -/

/-- The last response that carries an id. -/
def lastWithId? (responses : List Response) (id : UInt64) : Option Response :=
  responses.reverse.find? fun r ↦ r.id.unsigned? == some id.toNat

/-- What the request of that id comes to. -/
def entryFor (responses : List Response) (id : UInt64) : Outcome Json :=
  match lastWithId? responses id with
  | some r => r.outcome
  | none => .error (.missingResponse id.toNat)

theorem byId_eq_lastWithId? (responses : List Response) (id : UInt64) :
    byId responses id.toNat = lastWithId? responses id := by
  induction responses using List.reverseRecOn with
  | nil => rfl
  | append_singleton rest r ih =>
    rw [byId, List.foldl_append, lastWithId?, List.reverse_append]
    change _ = (r :: rest.reverse).find? _
    rw [List.find?_cons]
    simp only [List.foldl_cons, List.foldl_nil]
    cases hid : r.id.unsigned? with
    | none => exact ih
    | some n =>
      by_cases hn : n = id.toNat
      · simp [hn]
      · have hne : (some n == some id.toNat) = false := by simpa using hn
        rw [hne]
        simp only [if_neg (Ne.symm hn)]
        exact ih

/-- Every request gets the last response with its id. Taking a response out takes none away from
the requests to come, because their ids are others. -/
theorem getElem?_takeOutcomes {found : Nat → Option Response} {first : UInt64} {count i : Nat}
    (hcount : count ≤ 2 ^ 64) (hi : i < count) :
    (takeOutcomes found first count)[i]? =
      some (match found (first + .ofNat i).toNat with
        | some r => r.outcome
        | none => .error (.missingResponse (first + .ofNat i).toNat)) := by
  induction count generalizing found first i with
  | zero => exact absurd hi (Nat.not_lt_zero i)
  | succ count ih =>
    cases i with
    | zero =>
      have hfirst : first + UInt64.ofNat 0 = first := by simp
      rw [hfirst]
      rfl
    | succ i =>
      have hlt : i < count := Nat.lt_of_succ_lt_succ hi
      have hother : (first + UInt64.ofNat (i + 1)).toNat ≠ first.toNat := by
        intro heq
        have hzero : (first + UInt64.ofNat 0).toNat = first.toNat := by simp
        exact Nat.succ_ne_zero i
          (index_of_id (Nat.lt_of_lt_of_le hi hcount) (Nat.two_pow_pos 64) (heq.trans hzero.symm))
      rw [takeOutcomes, List.getElem?_cons_succ, ih (Nat.le_of_succ_le hcount) hlt,
        ← add_ofNat_succ, if_neg hother]

theorem length_takeOutcomes (found : Nat → Option Response) (id : UInt64) (count : Nat) :
    (takeOutcomes found id count).length = count := by
  induction count generalizing found id with
  | zero => rfl
  | succ count ih => rw [takeOutcomes, List.length_cons, ih]

@[simp] theorem length_correlate (responses : List Response) (first : UInt64) (count : Nat) :
    (correlate responses first count).length = count :=
  length_takeOutcomes _ first count

theorem getElem?_correlate (responses : List Response) {first : UInt64} {count i : Nat}
    (hcount : count ≤ 2 ^ 64) (hi : i < count) :
    (correlate responses first count)[i]? = some (entryFor responses (first + .ofNat i)) := by
  rw [correlate, getElem?_takeOutcomes hcount hi, byId_eq_lastWithId?]
  rfl

theorem correlate_of_lookup {verdict : Verdict} {responses : List Response} {first : UInt64}
    {calls : List Call} (hcount : calls.length ≤ 2 ^ 64)
    (h : ∀ i call, calls[i]? = some call → ∃ r,
      lastWithId? responses (first + .ofNat i) = some r ∧ r.outcome = verdict.outcome call) :
    correlate responses first calls.length = calls.map verdict.outcome := by
  apply List.ext_getElem?
  intro i
  rw [List.getElem?_map]
  cases hcall : calls[i]? with
  | none =>
    have hle : calls.length ≤ i := List.getElem?_eq_none_iff.1 hcall
    exact List.getElem?_eq_none (by rwa [length_correlate])
  | some call =>
    obtain ⟨r, hr, houtcome⟩ := h i call hcall
    rw [getElem?_correlate responses hcount (List.getElem?_eq_some_iff.1 hcall).1, entryFor, hr]
    exact congrArg some houtcome

theorem mapM_readResponse? {f : Json → Response} {vs : List Json}
    (h : ∀ v ∈ vs, readResponse? v = some (f v)) : vs.mapM readResponse? = some (vs.map f) := by
  induction vs with
  | nil => rfl
  | cons v vs ih =>
    rw [List.mapM_cons, h v List.mem_cons_self, ih fun w hw ↦ h w (List.mem_cons_of_mem v hw)]
    rfl

/-- In whatever order responses come, the one that is found for an id is the one in its position
of the array of requests. -/
theorem lastWithId?_of_perm {responses order : List Response} {first : UInt64}
    (hperm : responses.Perm order) (hcount : order.length ≤ 2 ^ 64)
    (hids : ∀ i r, order[i]? = some r → r.id.unsigned? = some (first + .ofNat i).toNat)
    {i : Nat} {r : Response} (hr : order[i]? = some r) :
    lastWithId? responses (first + .ofNat i) = some r := by
  have hlt {j : Nat} {r' : Response} (hr' : order[j]? = some r') : j < 2 ^ 64 :=
    (List.getElem?_eq_some_iff.1 hr').1.trans_le hcount
  have hmem : r ∈ responses := hperm.mem_iff.2 (List.mem_of_getElem? hr)
  have hfound : (lastWithId? responses (first + .ofNat i)).isSome = true := by
    rw [lastWithId?, List.find?_isSome]
    exact ⟨r, List.mem_reverse.2 hmem, by simp [hids i r hr]⟩
  obtain ⟨r', hr'⟩ := Option.isSome_iff_exists.1 hfound
  have hid : r'.id.unsigned? = some (first + UInt64.ofNat i).toNat := by
    simpa using List.find?_some hr'
  obtain ⟨j, hj⟩ := List.getElem?_of_mem
    (hperm.mem_iff.1 (List.mem_reverse.1 (List.mem_of_find?_eq_some hr')))
  rw [hids j r' hj] at hid
  have hsame : j = i := index_of_id (hlt hj) (hlt hr) (Option.some.inj hid)
  rw [hsame, hr] at hj
  rw [hr', hj]

/-- The calls of a batch get what the node makes of them, each in its own position. -/
theorem readBatch_of_answers {verdict : Verdict} {first : UInt64} {calls : List Call}
    {exchange : Exchange} (hcount : calls.length ≤ 2 ^ 64)
    (h : verdict.AnswersAll (batchJson first calls) exchange) :
    readBatch first calls.length exchange = .ok (calls.map verdict.outcome) := by
  obtain ⟨vs, order, hjson, hperm, hall⟩ := h
  obtain ⟨hlength, hget⟩ := List.forall₂_iff_get.1 hall
  rw [length_batchJson] at hlength
  let f : Json → Response := fun v ↦ (readResponse? v).getD {}
  have hresponse (i : Nat) (call : Call) (v : Json) (hcall : calls[i]? = some call)
      (hv : order[i]? = some v) :
      readResponse? v = some (f v) ∧ (f v).id.unsigned? = some (first + .ofNat i).toNat ∧
        (f v).outcome = verdict.outcome call := by
    obtain ⟨hi, rfl⟩ := List.getElem?_eq_some_iff.1 hv
    have hrequest := getElem?_batchJson first calls i
    rw [hcall] at hrequest
    obtain ⟨hi', heq⟩ := List.getElem?_eq_some_iff.1 hrequest
    have hanswers := hget i hi' hi
    rw [List.get_eq_getElem, List.get_eq_getElem, heq] at hanswers
    obtain ⟨r, hread, hid, houtcome⟩ := hanswers.read
    have hf : f order[i] = r := by simp only [f, hread, Option.getD_some]
    rw [hf]
    exact ⟨hread, hid, houtcome⟩
  have hcall (i : Nat) (v : Json) (hv : order[i]? = some v) : ∃ call, calls[i]? = some call :=
    ⟨_, List.getElem?_eq_getElem (hlength ▸ (List.getElem?_eq_some_iff.1 hv).1)⟩
  have hmap : vs.mapM readResponse? = some (vs.map f) := by
    refine mapM_readResponse? fun v hv ↦ ?_
    obtain ⟨i, hi⟩ := List.getElem?_of_mem (hperm.mem_iff.1 hv)
    obtain ⟨call, hcall⟩ := hcall i v hi
    exact (hresponse i call v hcall hi).1
  have hdecoded : decoded readBatchReply? exchange = .ok (.many (vs.map f)) := by
    simp [decoded, hjson, readBatchReply?, hmap]
  rw [readBatch_of_many first _ hdecoded, correlate_of_lookup hcount fun i call hi ↦ ?_]
  obtain ⟨v, hv⟩ : ∃ v, order[i]? = some v :=
    ⟨_, List.getElem?_eq_getElem (hlength ▸ (List.getElem?_eq_some_iff.1 hi).1)⟩
  have hids (j : Nat) (r : Response) (hr : (order.map f)[j]? = some r) :
      r.id.unsigned? = some (first + .ofNat j).toNat := by
    rw [List.getElem?_map] at hr
    obtain ⟨w, hw, rfl⟩ := Option.map_eq_some_iff.1 hr
    obtain ⟨call', hcall'⟩ := hcall j w hw
    exact (hresponse j call' w hcall' hw).2.1
  refine ⟨f v, lastWithId?_of_perm (hperm.map f) ?_ hids ?_, (hresponse i call v hi hv).2.2⟩
  · rwa [List.length_map, ← hlength]
  · rw [List.getElem?_map, hv]
    rfl

end Eth.Rpc

end Outbound
