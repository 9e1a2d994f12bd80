import Outbound.Proofs.Eth.Correlation
import Outbound.Proofs.Outcome

/-!
# Which replies are a single response

A response is read from an object by the names of its members and from an array by the places of its
elements. So an array that is no list of responses may still be read as one response, to a single
request or to a whole batch.
-/

namespace Outbound.Eth.Rpc

variable {exchange : Exchange} {v id result error : Json} {items : List Json} {r : Response}
  {results : List (Outcome Json)}

/-- What stands in the place of an error is nothing or an error. -/
inductive Reports : Json → Option NodeError → Prop where
  | nothing : Reports .null none
  | error {v : Json} {e : NodeError} (h : readNodeError? v = some e) : Reports v (some e)

/-- An array of an id, a result and an error, of which the last ones may be missing. -/
structure ByPlace (items : List Json) (r : Response) : Prop where
  length_le : items.length ≤ 3
  id : r.id = (items[0]?.getD Json.null).canonical
  result : r.result = (items[1]?.getD Json.null).canonical
  error : Reports (items[2]?.getD .null) r.error

/-- An element is no response. -/
def HasOther (items : List Json) : Prop :=
  ∃ item ∈ items, readResponse? item = none

/-- What the whole batch comes to. -/
def Response.batchError (r : Response) : Error :=
  match r.error with
  | some e => .rpc e.code e.message
  | none => .decode "batch answered with a single result"

theorem response?_eq_some_iff : response? id result error = some r ↔
    r.id = id.canonical ∧ r.result = result.canonical ∧ Reports error r.error := by
  obtain ⟨rid, rresult, rerror⟩ := r
  constructor
  · intro h
    unfold response? at h
    split at h
    · cases h
      exact ⟨rfl, rfl, .nothing⟩
    · obtain ⟨e, he, heq⟩ := Option.map_eq_some_iff.1 h
      cases heq
      exact ⟨rfl, rfl, .error he⟩
  · rintro ⟨rfl, rfl, hreports⟩
    cases hreports with
    | nothing => rfl
    | error he =>
      unfold response?
      split
      · cases he
      · rw [he]
        rfl

theorem readResponse?_arr (items : List Json) : readResponse? (.arr items) =
    if items.length ≤ 3 then
      response? (items[0]?.getD .null) (items[1]?.getD .null) (items[2]?.getD .null)
    else none := by
  match items with
  | [] => rfl
  | [_] => rfl
  | [_, _] => rfl
  | [_, _, _] => rfl
  | _ :: _ :: _ :: _ :: rest =>
    rw [if_neg (by simp)]
    rfl

theorem readResponse?_arr_iff : readResponse? (.arr items) = some r ↔ ByPlace items r := by
  rw [readResponse?_arr]
  constructor
  · intro h
    obtain ⟨hle, h⟩ := Option.ite_none_right_eq_some.1 h
    obtain ⟨hid, hresult, herror⟩ := response?_eq_some_iff.1 h
    exact ⟨hle, hid, hresult, herror⟩
  · rintro ⟨hle, hid, hresult, herror⟩
    rw [if_pos hle]
    exact response?_eq_some_iff.2 ⟨hid, hresult, herror⟩

theorem exists_byPlace {e? : Option NodeError} (hle : items.length ≤ 3)
    (h : Reports (items[2]?.getD .null) e?) : ∃ r, ByPlace items r :=
  ⟨⟨(items[0]?.getD Json.null).canonical, (items[1]?.getD Json.null).canonical, e?⟩,
    hle, rfl, rfl, h⟩

/-- The reply is read as one response: an object is if it can be, and so is an array. -/
def ReadAsOne (v : Json) (r : Response) : Prop :=
  (∃ members, v = .obj members ∧ readResponse? v = some r) ∨
    ∃ items, v = .arr items ∧ ByPlace items r

theorem readResponse?_eq_some_iff : readResponse? v = some r ↔ ReadAsOne v r := by
  constructor
  · intro h
    cases v with
    | obj members => exact .inl ⟨members, rfl, h⟩
    | arr items => exact .inr ⟨items, rfl, readResponse?_arr_iff.1 h⟩
    | _ => cases h
  · rintro (⟨members, rfl, h⟩ | ⟨items, rfl, h⟩)
    · exact h
    · exact readResponse?_arr_iff.2 h

/-- A reply is no list of responses but one for the whole batch. -/
def AnswersBatch (v : Json) (r : Response) : Prop :=
  (∃ members, v = .obj members ∧ readResponse? v = some r) ∨
    ∃ items, v = .arr items ∧ HasOther items ∧ ByPlace items r

theorem readBatchReply?_eq_many_iff {responses : List Response} :
    readBatchReply? v = some (.many responses) ↔
      ∃ items, v = .arr items ∧ items.mapM readResponse? = some responses := by
  constructor
  · intro h
    unfold readBatchReply? at h
    split at h
    · rename_i items
      split at h
      · rename_i responses' hmany
        cases h
        exact ⟨items, rfl, hmany⟩
      · obtain ⟨r, -, heq⟩ := Option.map_eq_some_iff.1 h
        cases heq
    · obtain ⟨r, -, heq⟩ := Option.map_eq_some_iff.1 h
      cases heq
  · rintro ⟨items, rfl, h⟩
    rw [readBatchReply?, h]

theorem readBatchReply?_eq_one_iff :
    readBatchReply? v = some (.one r) ↔ AnswersBatch v r := by
  have hmap : (readResponse? v).map BatchReply.one = some (.one r) ↔
      readResponse? v = some r := by
    rw [Option.map_eq_some_iff]
    constructor
    · rintro ⟨r', h, heq⟩
      cases heq
      exact h
    · intro h
      exact ⟨r, h, rfl⟩
  cases v with
  | arr items =>
    cases hmany : items.mapM readResponse? with
    | some responses =>
      constructor
      · intro h
        rw [readBatchReply?, hmany] at h
        cases h
      · rintro (⟨members, heq, -⟩ | ⟨items', heq, hother, -⟩)
        · cases heq
        · cases heq
          rw [mapM_eq_none_iff.2 hother] at hmany
          cases hmany
    | none =>
      rw [readBatchReply?, hmany]
      apply hmap.trans
      rw [readResponse?_arr_iff]
      constructor
      · intro h
        exact .inr ⟨items, rfl, mapM_eq_none_iff.1 hmany, h⟩
      · rintro (⟨members, heq, -⟩ | ⟨items', heq, -, h⟩)
        · cases heq
        · cases heq
          exact h
  | obj members =>
    apply hmap.trans
    constructor
    · intro h
      exact .inl ⟨members, rfl, h⟩
    · rintro (⟨members', heq, h⟩ | ⟨items, heq, -⟩)
      · exact h
      · cases heq
  | _ =>
    constructor
    · intro h
      cases h
    · rintro (⟨members, heq, -⟩ | ⟨items, heq, -⟩) <;> cases heq

/-! ## What calls and batches come to -/

theorem readBatchReply?_eq_none_iff : readBatchReply? v = none ↔
    (∀ r, ¬AnswersBatch v r) ∧ ∀ items, v = .arr items → HasOther items := by
  constructor
  · intro h
    constructor
    · intro r hone
      rw [readBatchReply?_eq_one_iff.2 hone] at h
      cases h
    · rintro items rfl
      apply mapM_eq_none_iff.1
      apply Option.eq_none_iff_forall_ne_some.2
      intro responses hmany
      rw [readBatchReply?_eq_many_iff.2 ⟨items, rfl, hmany⟩] at h
      cases h
  · rintro ⟨hone, hmany⟩
    cases hreply : readBatchReply? v with
    | none => rfl
    | some reply =>
      cases reply with
      | many responses =>
        obtain ⟨items, rfl, hresponses⟩ := readBatchReply?_eq_many_iff.1 hreply
        rw [mapM_eq_none_iff.2 (hmany items rfl)] at hresponses
        cases hresponses
      | one r => exact absurd (readBatchReply?_eq_one_iff.1 hreply) (hone r)

theorem decoded_of_json {α : Type} (read? : Json → Option α) (h : exchange.json = .ok v) :
    decoded read? exchange = match read? v with
      | some a => .ok a
      | none => .error (.http .decode) := by
  cases hread : read? v with
  | some a => simp only [decoded, h, hread]
  | none => simp only [decoded, h, hread]

theorem readBatch_of_json (h : exchange.json = .ok v) (first : UInt64) (count : Nat) :
    readBatch first count exchange = match readBatchReply? v with
      | some (.many responses) => .ok (correlate responses first count)
      | some (.one r) => .error r.batchError
      | none => .error (.http .decode) := by
  have hdecoded := decoded_of_json readBatchReply? h
  cases hreply : readBatchReply? v with
  | none =>
    rw [hreply] at hdecoded
    exact readBatch_of_error first count hdecoded
  | some reply =>
    rw [hreply] at hdecoded
    cases reply with
    | many responses => exact readBatch_of_many first count hdecoded
    | one r => exact readBatch_of_one first count hdecoded

theorem batchError_ne_decode (r : Response) : r.batchError ≠ .http .decode := by
  unfold Response.batchError
  cases r.error <;> simp

/-- How a reply is read that is JSON. An array is an answer for the whole batch if it has an element
that is no response, at most three elements, and nothing or an error in the third place; a single
request takes any array of this form for its response. -/
theorem arrays_read_as_one_response (h : exchange.json = .ok v) (first : UInt64) (count : Nat) :
    (∀ results, readBatch first count exchange = .ok results ↔
      ∃ items responses, v = .arr items ∧ items.mapM readResponse? = some responses ∧
        results = correlate responses first count) ∧
    (∀ e, readBatch first count exchange = .error e ↔
      (∃ r, AnswersBatch v r ∧ e = r.batchError) ∨
        (∀ r, ¬AnswersBatch v r) ∧ (∀ items, v = .arr items → HasOther items) ∧
          e = .http .decode) ∧
    (∀ items, v = .arr items →
      ((∃ e, readBatch first count exchange = .error e ∧ e ≠ .http .decode) ↔
        HasOther items ∧ items.length ≤ 3 ∧ ∃ e?, Reports (items[2]?.getD .null) e?)) ∧
    (∀ r, ReadAsOne v r → readSingle exchange = r.outcome) ∧
    ((∀ r, ¬ReadAsOne v r) → readSingle exchange = .error (.http .decode)) := by
  have hbatch := readBatch_of_json h first count
  have herror (e : Error) : readBatch first count exchange = .error e ↔
      (∃ r, AnswersBatch v r ∧ e = r.batchError) ∨
        (∀ r, ¬AnswersBatch v r) ∧ (∀ items, v = .arr items → HasOther items) ∧
          e = .http .decode := by
    rw [← and_assoc, ← readBatchReply?_eq_none_iff]
    simp only [← readBatchReply?_eq_one_iff]
    cases hreply : readBatchReply? v with
    | none =>
      rw [hreply] at hbatch
      rw [hbatch]
      simp [eq_comm]
    | some reply =>
      rw [hreply] at hbatch
      rw [hbatch]
      cases reply <;> simp [eq_comm]
  refine ⟨fun results ↦ ?_, herror, ?_, fun r hone ↦ ?_, fun hnone ↦ ?_⟩
  · constructor
    · intro hresults
      rw [hbatch] at hresults
      split at hresults
      · rename_i responses hmany
        cases hresults
        obtain ⟨items, hv, hresponses⟩ := readBatchReply?_eq_many_iff.1 hmany
        exact ⟨items, responses, hv, hresponses, rfl⟩
      · cases hresults
      · cases hresults
    · rintro ⟨items, responses, hv, hresponses, rfl⟩
      rw [hbatch, readBatchReply?_eq_many_iff.2 ⟨items, hv, hresponses⟩]
  · rintro items rfl
    constructor
    · rintro ⟨e, he, hne⟩
      rcases (herror e).1 he with ⟨r, ⟨members, heq, -⟩ | ⟨items', heq, hother, hplace⟩, -⟩ | hno
      · cases heq
      · cases heq
        exact ⟨hother, hplace.length_le, r.error, hplace.error⟩
      · exact absurd hno.2.2 hne
    · rintro ⟨hother, hle, e?, hreports⟩
      obtain ⟨r, hplace⟩ := exists_byPlace hle hreports
      refine ⟨r.batchError, (herror _).2 (.inl ⟨r, ?_, rfl⟩), batchError_ne_decode r⟩
      exact .inr ⟨items, rfl, hother, hplace⟩
  · have hdecoded := decoded_of_json readResponse? h
    rw [readResponse?_eq_some_iff.2 hone] at hdecoded
    rw [readSingle, hdecoded]
    rfl
  · have hdecoded := decoded_of_json readResponse? h
    have hread : readResponse? v = none :=
      Option.eq_none_iff_forall_ne_some.2 fun r hr ↦ hnone r (readResponse?_eq_some_iff.1 hr)
    rw [hread] at hdecoded
    rw [readSingle, hdecoded]
    rfl

/-- An array of three is an error about the batch if its last element is an error by place. With one
more element it cannot be read, and a list of arrays is a list of responses. -/
theorem error_by_place_about_batch :
    readBatch 1 1 (.ok ⟨200, "[null,null,[-32600,\"batch too large\"]]"⟩) =
        .error (.rpc (-32600) "batch too large") ∧
      readBatch 1 1 (.ok ⟨200, "[null,null,[-32600,\"batch too large\"],0]"⟩) =
        .error (.http .decode) ∧
      readBatch 1 1 (.ok ⟨200, "[[1,\"0x10\"]]"⟩) = .ok [.ok (.str "0x10")] := by
  have hthree : Exchange.json (.ok ⟨200, "[null,null,[-32600,\"batch too large\"]]"⟩) =
      .ok (.arr [.null, .null, .arr [.int (-32600), .str "batch too large"]]) := by cbv
  have hfour : Exchange.json (.ok ⟨200, "[null,null,[-32600,\"batch too large\"],0]"⟩) =
      .ok (.arr [.null, .null, .arr [.int (-32600), .str "batch too large"], .int 0]) := by cbv
  have hnested : Exchange.json (.ok ⟨200, "[[1,\"0x10\"]]"⟩) =
      .ok (.arr [.arr [.int 1, .str "0x10"]]) := by cbv
  have hother {rest : List Json} : HasOther (.null :: rest) := ⟨.null, List.mem_cons_self, rfl⟩
  obtain ⟨-, herror, -⟩ := arrays_read_as_one_response hthree 1 1
  obtain ⟨-, herror', -⟩ := arrays_read_as_one_response hfour 1 1
  obtain ⟨hlist, -⟩ := arrays_read_as_one_response hnested 1 1
  refine ⟨(herror _).2 (.inl ⟨⟨.null, .null, some ⟨-32600, "batch too large"⟩⟩, ?_, rfl⟩),
    (herror' _).2 (.inr ⟨?_, ?_, rfl⟩), (hlist _).2 ⟨_, _, rfl, rfl, rfl⟩⟩
  · exact .inr ⟨_, rfl, hother, by decide, rfl, rfl, .error rfl⟩
  · rintro r (⟨members, heq, -⟩ | ⟨items, heq, -, hplace⟩)
    · cases heq
    · cases heq
      exact absurd hplace.length_le (by decide)
  · rintro items ⟨⟩
    exact hother

/-- An array is taken for an answer about the batch as a whole, and for the response to a single
request. -/
theorem arrays_taken_for_single_responses :
    (¬∀ (first : UInt64) (count : Nat) (exchange : Exchange) (items : List Json),
      exchange.json = .ok (.arr items) →
      (∃ results, readBatch first count exchange = .ok results) ∨
        readBatch first count exchange = .error (.http .decode)) ∧
    ¬∀ (exchange : Exchange) (v result : Json), exchange.json = .ok v →
      readSingle exchange = .ok result → ∃ members, v = .obj members := by
  have hjson : Exchange.json (.ok ⟨200, "[1,\"0x10\"]"⟩) = .ok (.arr [.int 1, .str "0x10"]) := by
    cbv
  constructor
  · intro harray
    have hbatch := readBatch_of_json hjson 1 1
    rcases harray 1 1 _ _ hjson with ⟨results, hresults⟩ | herror
    · cases hbatch.symm.trans hresults
    · cases hbatch.symm.trans herror
  · intro hobject
    obtain ⟨members, heq⟩ := hobject _ _ (.str "0x10") hjson (by cbv)
    cases heq

end Outbound.Eth.Rpc
