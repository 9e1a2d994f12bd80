import Outbound.Http.Client
import Outbound.Proofs.Http.Spellings
import Outbound.Proofs.Outcome

/-!
# The fields of every request

Whether a client can be built does not depend on the order of the configured headers, nor does
anything about it but the fields that were configured under several spellings of their names.
-/

namespace Outbound.HttpSettings

open Headers (Spells last? spelled)

variable {s : HttpSettings} {client : HttpClient} {headers order : List (String × String)}
  {base fields : Headers} {name value : String}

/-- The same settings with their headers in another order. -/
def inOrder (s : HttpSettings) (order : List (String × String)) : HttpSettings :=
  { s with headers := order }

/-- The header can be sent as a field. -/
def IsField (name value : String) : Prop :=
  (Header.name? name).isSome = true ∧ Header.isValue value = true

theorem addHeader_eq_ok_iff :
    addHeader base name value = .ok fields ↔
      IsField name value ∧ fields = base.extend (spelled Header.name? [(name, value)]) := by
  cases hkey : Header.name? name with
  | none => simp [addHeader, IsField, hkey]
  | some key =>
    have hspelled : spelled Header.name? [(name, value)] = [(key, value)] := by
      simp [spelled, hkey]
    rw [hspelled]
    cases hvalue : Header.isValue value with
    | false => simp [addHeader, IsField, hkey, hvalue]
    | true => simp [addHeader, IsField, hkey, hvalue, Headers.extend, eq_comm]

theorem foldlM_addHeader_eq_ok_iff :
    headers.foldlM (fun hs (name, value) ↦ addHeader hs name value) base = .ok fields ↔
      (∀ x ∈ headers, IsField x.1 x.2) ∧ fields = base.extend (spelled Header.name? headers) := by
  induction headers generalizing base with
  | nil =>
    rw [List.foldlM_nil]
    constructor
    · rintro ⟨⟩
      exact ⟨fun x hx ↦ absurd hx List.not_mem_nil, rfl⟩
    · rintro ⟨-, rfl⟩
      rfl
  | cons x rest ih =>
    obtain ⟨name, value⟩ := x
    have hsplit : base.extend (spelled Header.name? ((name, value) :: rest)) =
        (base.extend (spelled Header.name? [(name, value)])).extend
          (spelled Header.name? rest) := by
      rw [Headers.extend, Headers.extend, Headers.extend, ← List.foldl_append, spelled, spelled,
        spelled, ← List.filterMap_append, List.singleton_append]
    rw [List.foldlM_cons, hsplit]
    constructor
    · intro h
      obtain ⟨fields', hfirst, hrest⟩ := exists_of_bind_eq_ok h
      obtain ⟨hx, rfl⟩ := addHeader_eq_ok_iff.1 hfirst
      obtain ⟨hvalid, rfl⟩ := ih.1 hrest
      exact ⟨List.forall_mem_cons.2 ⟨hx, hvalid⟩, rfl⟩
    · rintro ⟨hvalid, rfl⟩
      obtain ⟨hx, hvalid⟩ := List.forall_mem_cons.1 hvalid
      have hfirst : addHeader base name value =
          .ok (base.extend (spelled Header.name? [(name, value)])) :=
        addHeader_eq_ok_iff.2 ⟨hx, rfl⟩
      dsimp only
      rw [hfirst]
      exact ih.2 ⟨hvalid, rfl⟩

/-- The fields that are made of valid headers. -/
def fieldsOf (s : HttpSettings) : Headers :=
  let fields := Headers.extend [] (spelled Header.name? s.headers)
  if s.clientId = "" then fields else fields.insert clientIdHeader s.clientId

theorem defaultHeaders_eq_ok_iff :
    s.defaultHeaders = .ok fields ↔
      (∀ x ∈ s.headers, IsField x.1 x.2) ∧ Header.isValue s.clientId = true ∧
        fields = s.fieldsOf := by
  have hempty : s.clientId.isEmpty = true ↔ s.clientId = "" := String.isEmpty_iff
  constructor
  · intro h
    obtain ⟨fields', hfold, h⟩ := exists_of_bind_eq_ok h
    obtain ⟨hvalid, rfl⟩ := foldlM_addHeader_eq_ok_iff.1 hfold
    refine ⟨hvalid, ?_⟩
    by_cases hid : s.clientId = ""
    · rw [if_pos (hempty.2 hid)] at h
      cases h
      exact ⟨by rw [hid]; rfl, by rw [fieldsOf, if_pos hid]⟩
    · rw [if_neg (mt hempty.1 hid)] at h
      split at h
      · rename_i hvalue
        cases h
        exact ⟨hvalue, by rw [fieldsOf, if_neg hid]⟩
      · cases h
  · rintro ⟨hvalid, hvalue, rfl⟩
    have hfold : s.headers.foldlM (fun hs (name, value) ↦ addHeader hs name value) [] =
        .ok (Headers.extend [] (spelled Header.name? s.headers)) :=
      foldlM_addHeader_eq_ok_iff.2 ⟨hvalid, rfl⟩
    rw [defaultHeaders, hfold, fieldsOf]
    by_cases hid : s.clientId = ""
    · rw [if_pos hid]
      exact if_pos (hempty.2 hid)
    · rw [if_neg hid]
      exact (if_neg (mt hempty.1 hid)).trans (if_pos hvalue)

/-- What is read of the base, if there is one. -/
def base? (s : HttpSettings) : Outcome (Option Url) :=
  if s.baseUrl.isEmpty then .ok none else some <$> readUrl "base url" none s.baseUrl

theorem build_eq_ok_iff :
    s.build = .ok client ↔ s.defaultHeaders = .ok client.headers ∧ s.base? = .ok client.baseUrl ∧
      s.timeoutMs = client.timeoutMs := by
  have hbuild : s.build = s.defaultHeaders >>= fun fields ↦ s.base? >>= fun baseUrl ↦
      .ok ⟨fields, baseUrl, s.timeoutMs⟩ := by
    rw [build, base?]
    split <;> rfl
  rw [hbuild]
  constructor
  · intro h
    obtain ⟨fields, hfields, h⟩ := exists_of_bind_eq_ok h
    obtain ⟨baseUrl, hbase, h⟩ := exists_of_bind_eq_ok h
    cases h
    exact ⟨hfields, hbase, rfl⟩
  · rintro ⟨hfields, hbase, htimeout⟩
    rw [hfields, hbase, htimeout]
    rfl

/-! ## Clients built from headers in another order -/

theorem get?_fieldsOf (s : HttpSettings) (name : String) :
    s.fieldsOf.get? name = if s.clientId ≠ "" ∧ name = clientIdHeader then some s.clientId
      else last? Header.name? s.headers name := by
  have hlast : (Headers.extend [] (spelled Header.name? s.headers)).get? name =
      last? Header.name? s.headers name := by
    rw [Headers.get?_extend_spelled]
    exact Option.or_none
  rw [fieldsOf]
  by_cases hid : s.clientId = ""
  · rw [if_pos hid, if_neg fun h ↦ h.1 hid, hlast]
  · rw [if_neg hid, Headers.get?_insert, hlast]
    by_cases hname : name = clientIdHeader
    · rw [if_pos hname, if_pos ⟨hid, hname⟩]
    · rw [if_neg hname, if_neg fun h ↦ hname h.2]

theorem exists_build_inOrder (h : s.build = .ok client) (hperm : order.Perm s.headers) :
    ∃ client', (s.inOrder order).build = .ok client' := by
  obtain ⟨hfields, hbase, -⟩ := build_eq_ok_iff.1 h
  obtain ⟨hvalid, hvalue, -⟩ := defaultHeaders_eq_ok_iff.1 hfields
  refine ⟨⟨(s.inOrder order).fieldsOf, client.baseUrl, s.timeoutMs⟩, ?_⟩
  apply build_eq_ok_iff.2
  refine ⟨defaultHeaders_eq_ok_iff.2 ⟨fun x hx ↦ ?_, hvalue, rfl⟩, hbase, rfl⟩
  exact hvalid x (hperm.mem_iff.1 hx)

theorem get?_of_build (h : s.build = .ok client) (name : String) :
    client.headers.get? name = if s.clientId ≠ "" ∧ name = clientIdHeader then some s.clientId
      else last? Header.name? s.headers name := by
  obtain ⟨-, -, hfields⟩ := defaultHeaders_eq_ok_iff.1 (build_eq_ok_iff.1 h).1
  rw [hfields, get?_fieldsOf]

/-- Whether a client can be built, its base, its time limit and its id do not depend on the order
of the configured headers. Of any other field, the value under each spelling of its name is sent in
some order, so that it does not depend on the order exactly if there is only one value. -/
theorem default_fields_depend_on_spellings_only (s : HttpSettings) :
    (∀ order, order.Perm s.headers →
      ((∃ client, (s.inOrder order).build = .ok client) ↔ ∃ client, s.build = .ok client)) ∧
    ∀ client, s.build = .ok client →
      (∀ order client', order.Perm s.headers → (s.inOrder order).build = .ok client' →
        client'.baseUrl = client.baseUrl ∧ client'.timeoutMs = client.timeoutMs ∧
        (s.clientId ≠ "" → client'.headers.get? clientIdHeader = some s.clientId)) ∧
      ∀ name, s.clientId = "" ∨ name ≠ clientIdHeader → ∀ value,
        ((∃ order client', order.Perm s.headers ∧ (s.inOrder order).build = .ok client' ∧
            client'.headers.get? name = some value) ↔
          Spells Header.name? s.headers name value) ∧
        ((∀ order client', order.Perm s.headers → (s.inOrder order).build = .ok client' →
            client'.headers.get? name = some value) ↔
          Spells Header.name? s.headers name value ∧
            ∀ value', Spells Header.name? s.headers name value' → value' = value) := by
  constructor
  · intro order hperm
    constructor
    · rintro ⟨client, h⟩
      exact exists_build_inOrder (s := s.inOrder order) h hperm.symm
    · rintro ⟨client, h⟩
      exact exists_build_inOrder h hperm
  · intro client h
    obtain ⟨-, hbase, htimeout⟩ := build_eq_ok_iff.1 h
    constructor
    · intro order client' _ h'
      obtain ⟨-, hbase', htimeout'⟩ := build_eq_ok_iff.1 h'
      refine ⟨?_, htimeout'.symm.trans htimeout, fun hid ↦ ?_⟩
      · exact Except.ok.inj (hbase'.symm.trans hbase)
      · rw [get?_of_build h', if_pos ⟨hid, rfl⟩]
        rfl
    · intro name hname value
      have hother : ¬(s.clientId ≠ "" ∧ name = clientIdHeader) := by
        rintro ⟨hid, heq⟩
        exact hname.elim hid fun hne ↦ hne heq
      have hlast {order client'} (h' : (s.inOrder order).build = .ok client') :
          client'.headers.get? name = last? Header.name? order name :=
        (get?_of_build h' name).trans (if_neg hother)
      constructor
      · rw [← Headers.exists_order_iff]
        constructor
        · rintro ⟨order, client', hperm, h', hget⟩
          exact ⟨order, hperm, (hlast h').symm.trans hget⟩
        · rintro ⟨order, hperm, hget⟩
          obtain ⟨client', h'⟩ := exists_build_inOrder h hperm
          exact ⟨order, client', hperm, h', (hlast h').trans hget⟩
      · rw [← Headers.forall_order_iff]
        constructor
        · intro hall order hperm
          obtain ⟨client', h'⟩ := exists_build_inOrder h hperm
          exact (hlast h').symm.trans (hall order client' hperm h')
        · intro hall order client' hperm h'
          exact (hlast h').trans (hall order hperm)

/-- A key is configured in two spellings, and one of the values is sent. The tier is configured
once, and the client's id is set last. -/
theorem one_of_two_spellings_sent :
    ∃ (s : HttpSettings) (client : HttpClient), s.clientId = "svc" ∧
      s.headers = [("X-Api-Key", "a"), ("x-api-key", "b"), ("X-Tier", "1"),
        ("X-Client-Id", "other")] ∧
      s.build = .ok client ∧
      (∀ order client', order.Perm s.headers → (s.inOrder order).build = .ok client' →
        client'.headers.get? "x-client-id" = some "svc" ∧
          client'.headers.get? "x-tier" = some "1") ∧
      (∃ order client', order.Perm s.headers ∧ (s.inOrder order).build = .ok client' ∧
        client'.headers.get? "x-api-key" = some "a") ∧
      ∃ order client', order.Perm s.headers ∧ (s.inOrder order).build = .ok client' ∧
        client'.headers.get? "x-api-key" = some "b" := by
  obtain ⟨s, hid, hheaders, hbuild⟩ : ∃ s : HttpSettings, s.clientId = "svc" ∧
      s.headers = [("X-Api-Key", "a"), ("x-api-key", "b"), ("X-Tier", "1"),
        ("X-Client-Id", "other")] ∧ s.build.isOk = true :=
    ⟨{ clientId := "svc", headers := [("X-Api-Key", "a"), ("x-api-key", "b"), ("X-Tier", "1"),
      ("X-Client-Id", "other")] }, rfl, rfl, by decide⟩
  obtain ⟨client, hbuild⟩ := exists_of_isOk hbuild
  obtain ⟨hsame, hfields⟩ := (default_fields_depend_on_spellings_only s).2 client hbuild
  have hspells (value : String) : Spells Header.name? s.headers "x-tier" value → value = "1" := by
    rintro ⟨name, hmem, hread⟩
    have hall : ∀ x ∈ s.headers, Header.name? x.1 = some "x-tier" → x.2 = "1" := by
      rw [hheaders]
      decide
    exact hall _ hmem hread
  refine ⟨s, client, hid, hheaders, hbuild, fun order client' hperm h' ↦ ⟨?_, ?_⟩, ?_, ?_⟩
  · rw [← hid]
    exact (hsame order client' hperm h').2.2 (by rw [hid]; decide)
  · refine (hfields "x-tier" (.inr (by decide)) "1").2.2 ⟨⟨"X-Tier", ?_, by decide⟩, hspells⟩
      order client' hperm h'
    simp [hheaders]
  · exact (hfields "x-api-key" (.inr (by decide)) "a").1.2
      ⟨"X-Api-Key", by simp [hheaders], by decide⟩
  · exact (hfields "x-api-key" (.inr (by decide)) "b").1.2
      ⟨"x-api-key", by simp [hheaders], by decide⟩

/-- Two headers whose names differ in capital letters are one field, which gets the value of the
header that comes last; the other value is not sent. -/
theorem field_differs_by_order :
    (¬∀ (s : HttpSettings) (order : List (String × String)) (client client' : HttpClient),
      (s.headers.map Prod.fst).Nodup → order.Perm s.headers → s.build = .ok client →
      (s.inOrder order).build = .ok client' →
      ∀ name, client.headers.get? name = client'.headers.get? name) ∧
    ¬∀ (s : HttpSettings) (client : HttpClient),
      (s.headers.map Prod.fst).Nodup → s.build = .ok client →
      ∀ x ∈ s.headers, ∀ name, Header.name? x.1 = some name → name ≠ clientIdHeader →
        client.headers.get? name = some x.2 := by
  have hbuild : ({ headers := [("X-A", "1"), ("x-a", "2")] } : HttpSettings).build =
      .ok ⟨[("x-a", "2")], none, 10000⟩ := rfl
  constructor
  · intro hsame
    have hget := hsame _ [("x-a", "2"), ("X-A", "1")] _ ⟨[("x-a", "1")], none, 10000⟩ (by decide)
      (List.Perm.swap _ _ _) hbuild rfl "x-a"
    exact absurd hget (by decide)
  · intro hsent
    have hget := hsent _ _ (by decide) hbuild ("X-A", "1") List.mem_cons_self "x-a" (by decide)
      (by decide)
    exact absurd hget (by decide)

end Outbound.HttpSettings
