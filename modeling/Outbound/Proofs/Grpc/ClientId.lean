import Outbound.Grpc.Channel
import Outbound.Proofs.Http.Spellings
import Outbound.Proofs.Outcome

/-!
# The client id of gRPC calls

Configured headers are kept by their names as they are spelled, and the entries of a call by their
keys in small letters. So the configured id replaces a header only if this is spelled as the key is,
and of two headers that are left the one that comes last is sent.
-/

namespace Outbound.Grpc

open Headers (Spells last? spelled)

variable {headers order : List (String × String)} {key value : String}

/-- Every call is stamped with that value. -/
def Carries (headers : List (String × String)) (key value : String) : Prop :=
  ∃ entries, metadataEntries headers = .ok entries ∧
    ∀ existing, (stamp entries existing).get? key = some value

/-- A header that is read as the client's id, but is not replaced by it. -/
def Settings.SpellsOtherwise (s : Settings) (id : String) : Prop :=
  ∃ name, name ≠ clientIdKey ∧ (name, id) ∈ s.headers ∧ metadataKey? name = some clientIdKey

theorem metadataEntries_of_valid (h : ∀ x ∈ headers, IsMetadata x.1 x.2) :
    metadataEntries headers = .ok (spelled metadataKey? headers) := by
  apply mapM_eq_ok_iff.2
  induction headers with
  | nil => exact .nil
  | cons x rest ih =>
    obtain ⟨hkey, hvalue⟩ := h x List.mem_cons_self
    obtain ⟨key, hkey⟩ := Option.isSome_iff_exists.1 hkey
    rw [spelled, List.filterMap_cons_some (b := (key, x.2)) (by simp [hkey])]
    constructor
    · exact metadataEntry_eq_ok_iff.2 ⟨hkey, hvalue, rfl⟩
    · exact ih fun y hy ↦ h y (List.mem_cons_of_mem x hy)

theorem metadataEntries_of_invalid {x : String × String} (hx : x ∈ headers)
    (h : ¬IsMetadata x.1 x.2) : ∃ e, metadataEntries headers = .error e := by
  cases hentries : metadataEntries headers with
  | error e => exact ⟨e, rfl⟩
  | ok entries =>
    obtain ⟨y, hy⟩ := exists_ok_of_mapM hentries hx
    obtain ⟨hkey, hvalue, -⟩ := metadataEntry_eq_ok_iff.1 hy
    exact absurd ⟨Option.isSome_iff_exists.2 ⟨_, hkey⟩, hvalue⟩ h

theorem carries_iff (h : ∀ x ∈ headers, IsMetadata x.1 x.2) :
    Carries headers key value ↔ last? metadataKey? headers key = some value := by
  constructor
  · rintro ⟨entries, hentries, hget⟩
    rw [metadataEntries_of_valid h] at hentries
    cases hentries
    have hfresh := hget []
    rw [stamp, Headers.get?_extend_spelled] at hfresh
    simpa [Headers.get?] using hfresh
  · intro hlast
    refine ⟨_, metadataEntries_of_valid h, fun existing ↦ ?_⟩
    rw [stamp, Headers.get?_extend_spelled, hlast, Option.some_or]

theorem isMetadata_perm (h : ∀ x ∈ headers, IsMetadata x.1 x.2) (hperm : order.Perm headers) :
    ∀ x ∈ order, IsMetadata x.1 x.2 :=
  fun x hx ↦ h x (hperm.mem_iff.1 hx)

theorem exists_order_carries_iff (h : ∀ x ∈ headers, IsMetadata x.1 x.2) :
    (∃ order, order.Perm headers ∧ Carries order key value) ↔
      Spells metadataKey? headers key value := by
  rw [← Headers.exists_order_iff]
  constructor
  · rintro ⟨order, hperm, hcarries⟩
    exact ⟨order, hperm, (carries_iff (isMetadata_perm h hperm)).1 hcarries⟩
  · rintro ⟨order, hperm, hlast⟩
    exact ⟨order, hperm, (carries_iff (isMetadata_perm h hperm)).2 hlast⟩

theorem forall_order_carries_iff (h : ∀ x ∈ headers, IsMetadata x.1 x.2) :
    (∀ order, order.Perm headers → Carries order key value) ↔
      Spells metadataKey? headers key value ∧
        ∀ value', Spells metadataKey? headers key value' → value' = value := by
  rw [← Headers.forall_order_iff]
  constructor
  · intro hall order hperm
    exact (carries_iff (isMetadata_perm h hperm)).1 (hall order hperm)
  · intro hall order hperm
    exact (carries_iff (isMetadata_perm h hperm)).2 (hall order hperm)

/-- One of the values under the key is sent, whatever the order is. -/
theorem exists_carries (h : ∀ x ∈ headers, IsMetadata x.1 x.2)
    (hspells : Spells metadataKey? headers key value) (hperm : order.Perm headers) :
    ∃ value', Carries order key value' ∧ Spells metadataKey? headers key value' := by
  obtain ⟨value', hlast⟩ := Headers.exists_last? ((Headers.spells_perm hperm).2 hspells)
  refine ⟨value', (carries_iff (isMetadata_perm h hperm)).2 hlast, ?_⟩
  exact (Headers.spells_perm hperm).1 (Headers.spells_of_last? hlast)

namespace Settings

variable {s : Settings} {id host name : String} {hostname : Option String}

theorem metadataKey?_clientIdKey : metadataKey? clientIdKey = some clientIdKey := by
  decide

theorem isMetadata_insert (h : ∀ x ∈ s.headers, IsMetadata x.1 x.2)
    (hid : Header.isValue id = true) :
    ∀ x ∈ Headers.insert s.headers clientIdKey id, IsMetadata x.1 x.2 := by
  intro x hx
  rcases List.mem_append.1 hx with hx | hx
  · exact h x (List.mem_filter.1 hx).1
  · rw [List.mem_singleton.1 hx]
    exact ⟨congrArg Option.isSome metadataKey?_clientIdKey, hid⟩

theorem spells_insert : Spells metadataKey? (Headers.insert s.headers clientIdKey id) clientIdKey
    value ↔ value = id ∨ s.SpellsOtherwise value := by
  constructor
  · rintro ⟨name, hmem, hread⟩
    rcases List.mem_append.1 hmem with hmem | hmem
    · obtain ⟨hmem, hne⟩ := List.mem_filter.1 hmem
      exact .inr ⟨name, by simpa using hne, hmem, hread⟩
    · exact .inl (congrArg Prod.snd (List.mem_singleton.1 hmem))
  · rintro (rfl | ⟨name, hne, hmem, hread⟩)
    · refine ⟨clientIdKey, ?_, metadataKey?_clientIdKey⟩
      exact List.mem_append_right _ (List.mem_singleton.2 rfl)
    · refine ⟨name, List.mem_append_left _ (List.mem_filter.2 ⟨hmem, ?_⟩), hread⟩
      simpa using hne

/-! ## A single header for the client's id -/

/-- Exactly one header is read as the client's id. -/
def NamedOnce (s : Settings) (name id : String) : Prop :=
  (s.headers.filter fun x ↦ metadataKey? x.1 = some clientIdKey) = [(name, id)]

instance : Decidable (s.NamedOnce name id) :=
  inferInstanceAs (Decidable (_ = _))

theorem NamedOnce.mem_iff (h : s.NamedOnce name id) {x : String × String} :
    x ∈ s.headers ∧ metadataKey? x.1 = some clientIdKey ↔ x = (name, id) := by
  have hx : x ∈ s.headers.filter (fun x ↦ metadataKey? x.1 = some clientIdKey) ↔
      x ∈ [(name, id)] := iff_of_eq (congrArg (x ∈ ·) h)
  rwa [List.mem_filter, decide_eq_true_iff, List.mem_singleton] at hx

theorem NamedOnce.spells_iff (h : s.NamedOnce name id) :
    Spells metadataKey? s.headers clientIdKey value ↔ value = id := by
  constructor
  · rintro ⟨name', hmem, hread⟩
    exact congrArg Prod.snd (h.mem_iff.1 ⟨hmem, hread⟩)
  · rintro rfl
    obtain ⟨hmem, hread⟩ := h.mem_iff.2 rfl
    exact ⟨name, hmem, hread⟩

theorem NamedOnce.spellsOtherwise_iff (h : s.NamedOnce name id) (hname : name ≠ clientIdKey) :
    s.SpellsOtherwise value ↔ value = id := by
  constructor
  · rintro ⟨name', -, hmem, hread⟩
    exact congrArg Prod.snd (h.mem_iff.1 ⟨hmem, hread⟩)
  · rintro rfl
    obtain ⟨hmem, hread⟩ := h.mem_iff.2 rfl
    exact ⟨name, hname, hmem, hread⟩

theorem NamedOnce.lookup_eq (h : s.NamedOnce name id) :
    s.headers.lookup clientIdKey = if name = clientIdKey then some id else none := by
  cases hlookup : s.headers.lookup clientIdKey with
  | some v =>
    obtain ⟨before, after, hsplit, -⟩ := List.lookup_eq_some_iff.1 hlookup
    have hmem : (clientIdKey, v) ∈ s.headers := by
      rw [hsplit]
      exact List.mem_append_right _ List.mem_cons_self
    cases h.mem_iff.1 ⟨hmem, metadataKey?_clientIdKey⟩
    rw [if_pos rfl]
  | none =>
    rw [if_neg]
    rintro rfl
    have hne := List.lookup_eq_none_iff.1 hlookup _ (h.mem_iff.2 rfl).1
    simp at hne

/-- The configured client id is sent in every order of the headers exactly if no header has another
spelling of its key and another value; the value of each such header is sent in some order. Without
a configured id a header takes its place if it is spelled as the key is, and otherwise comes before
or after the name of the machine. -/
theorem client_id_sent_unless_spelled_otherwise (hheaders : ∀ x ∈ s.headers, IsMetadata x.1 x.2)
    (hid : Header.isValue s.clientId = true) (hostname : Option String) :
    (s.clientId ≠ "" →
      (∀ order, order.Perm (s.requestHeaders hostname) → ∃ id, Carries order clientIdKey id) ∧
      (∀ id, (∃ order, order.Perm (s.requestHeaders hostname) ∧ Carries order clientIdKey id) ↔
        id = s.clientId ∨ s.SpellsOtherwise id) ∧
      ((∀ order, order.Perm (s.requestHeaders hostname) →
          Carries order clientIdKey s.clientId) ↔
        ∀ id, s.SpellsOtherwise id → id = s.clientId)) ∧
    (s.clientId = "" → ∀ name id, id ≠ "" → s.NamedOnce name id →
      (name = clientIdKey ∨ hostname = none →
        ∀ order, order.Perm (s.requestHeaders hostname) → Carries order clientIdKey id) ∧
      ∀ host, name ≠ clientIdKey → hostname = some host →
        (Header.isValue host = true →
          (∀ order, order.Perm (s.requestHeaders hostname) →
            ∃ sent, Carries order clientIdKey sent) ∧
          ∀ sent, (∃ order, order.Perm (s.requestHeaders hostname) ∧
            Carries order clientIdKey sent) ↔ sent = host ∨ sent = id) ∧
        (Header.isValue host = false → ∀ order, order.Perm (s.requestHeaders hostname) →
          ∃ e, metadataEntries order = .error e)) := by
  constructor
  · intro hne
    rw [requestHeaders_of_clientId hne]
    have hvalid := isMetadata_insert hheaders hid
    refine ⟨fun order hperm ↦ ?_, fun id ↦ ?_, ?_⟩
    · obtain ⟨id, hcarries, -⟩ := exists_carries hvalid (spells_insert.2 (.inl rfl)) hperm
      exact ⟨id, hcarries⟩
    · rw [exists_order_carries_iff hvalid, spells_insert]
    · rw [forall_order_carries_iff hvalid]
      constructor
      · rintro ⟨-, honly⟩ id hother
        exact honly id (spells_insert.2 (.inr hother))
      · intro honly
        refine ⟨spells_insert.2 (.inl rfl), fun id hspells ↦ ?_⟩
        rcases spells_insert.1 hspells with rfl | hother
        · rfl
        · exact honly id hother
  · intro hempty name id hne honce
    have hlookup := honce.lookup_eq
    constructor
    · intro hsame
      have hkept : s.requestHeaders hostname = s.headers := by
        by_cases hname : name = clientIdKey
        · rw [if_pos hname] at hlookup
          exact requestHeaders_of_named hempty hlookup hne hostname
        · rw [if_neg hname] at hlookup
          rw [requestHeaders_of_unnamed hempty hlookup, hsame.resolve_left hname]
          rfl
      rw [hkept]
      apply (forall_order_carries_iff hheaders).2
      exact ⟨honce.spells_iff.2 rfl, fun value' hspells ↦ honce.spells_iff.1 hspells⟩
    · rintro host hname rfl
      rw [if_neg hname] at hlookup
      rw [requestHeaders_of_unnamed hempty hlookup, Option.elim_some]
      constructor
      · intro hhost
        have hvalid := isMetadata_insert hheaders hhost
        refine ⟨fun order hperm ↦ ?_, fun sent ↦ ?_⟩
        · obtain ⟨sent, hcarries, -⟩ := exists_carries hvalid (spells_insert.2 (.inl rfl)) hperm
          exact ⟨sent, hcarries⟩
        · rw [exists_order_carries_iff hvalid, spells_insert, honce.spellsOtherwise_iff hname]
      · intro hhost order hperm
        have hmem : (clientIdKey, host) ∈ order :=
          hperm.mem_iff.2 (List.mem_append_right _ (List.mem_singleton.2 rfl))
        apply metadataEntries_of_invalid hmem
        rintro ⟨-, hvalue⟩
        rw [hhost] at hvalue
        cases hvalue

/-- A header spelled as the key is gives way to the configured id, one in capital letters does not,
and neither does it to the name of the machine. -/
theorem ids_sent_by_spelling :
    (∀ order, order.Perm (requestHeaders
        { clientId := "svc", headers := [("x-client-id", "other"), ("x-chain-id", "1")] }
          (some "box")) → Carries order clientIdKey "svc") ∧
      (∃ order, order.Perm (requestHeaders
        { clientId := "svc", headers := [("X-Client-Id", "other"), ("x-chain-id", "1")] }
          (some "box")) ∧ Carries order clientIdKey "other") ∧
      ∃ order, order.Perm (requestHeaders { headers := [("X-Client-Id", "other")] } (some "box")) ∧
        Carries order clientIdKey "box" := by
  have hheaders (name : String) (h : (metadataKey? name).isSome = true) :
      ∀ x ∈ [(name, "other"), ("x-chain-id", "1")], IsMetadata x.1 x.2 := by
    intro x hx
    rcases List.mem_pair.1 hx with rfl | rfl
    · exact ⟨h, (by decide : Header.isValue "other" = true)⟩
    · exact ⟨by decide, by decide⟩
  refine ⟨?_, ?_, ?_⟩
  · have hsent := client_id_sent_unless_spelled_otherwise
      (s := { clientId := "svc", headers := [("x-client-id", "other"), ("x-chain-id", "1")] })
      (hheaders _ (by decide)) (by decide) (some "box")
    refine (hsent.1 (by decide)).2.2.2 ?_
    rintro id ⟨name, hne, hmem, hread⟩
    rcases List.mem_pair.1 hmem with heq | heq <;> cases heq
    · exact absurd rfl hne
    · exact absurd hread (by decide)
  · have hsent := client_id_sent_unless_spelled_otherwise
      (s := { clientId := "svc", headers := [("X-Client-Id", "other"), ("x-chain-id", "1")] })
      (hheaders _ (by decide)) (by decide) (some "box")
    refine ((hsent.1 (by decide)).2.1 "other").2 (.inr ?_)
    exact ⟨"X-Client-Id", by decide, List.mem_cons_self, by decide⟩
  · have hsent := client_id_sent_unless_spelled_otherwise
      (s := { headers := [("X-Client-Id", "other")] })
      (fun x hx ↦ by rw [List.mem_singleton.1 hx]; exact ⟨by decide, by decide⟩) (by decide)
      (some "box")
    have honce :=
      (hsent.2 rfl "X-Client-Id" "other" (by decide) (by decide)).2 "box" (by decide) rfl
    exact ((honce.1 (by decide)).2 "box").2 (.inl rfl)

/-- The header in capital letters comes last, and the configured id is not sent. Without a
configured id it comes first, and the name of the machine is sent. -/
theorem other_spelling_replaces_client_id :
    (¬∀ (s : Settings) (hostname : Option String) (order : List (String × String)),
      (s.headers.map Prod.fst).Nodup → (∀ x ∈ s.headers, IsMetadata x.1 x.2) →
      Header.isValue s.clientId = true → s.clientId ≠ "" →
      order.Perm (s.requestHeaders hostname) → Carries order clientIdKey s.clientId) ∧
    ¬∀ (s : Settings) (name id : String) (hostname : Option String)
      (order : List (String × String)),
      (s.headers.map Prod.fst).Nodup → (∀ x ∈ s.headers, IsMetadata x.1 x.2) →
      s.clientId = "" → id ≠ "" → s.NamedOnce name id →
      order.Perm (s.requestHeaders hostname) → Carries order clientIdKey id := by
  have hvalid : ∀ x ∈ [("X-Client-Id", "other")], IsMetadata x.1 x.2 := by
    intro x hx
    rw [List.mem_singleton.1 hx]
    exact ⟨by decide, by decide⟩
  constructor
  · intro halways
    have hcarries := halways { clientId := "svc", headers := [("X-Client-Id", "other")] } none
      [("x-client-id", "svc"), ("X-Client-Id", "other")] (by decide) hvalid (by decide) (by decide)
      (List.Perm.swap _ _ _)
    obtain ⟨entries, hentries, hget⟩ := hcarries
    cases hentries
    exact absurd (hget []) (by decide)
  · intro halways
    have hcarries := halways { headers := [("X-Client-Id", "other")] } "X-Client-Id" "other"
      (some "box") [("X-Client-Id", "other"), ("x-client-id", "box")] (by decide) hvalid rfl
      (by decide) (by decide) (.refl _)
    obtain ⟨entries, hentries, hget⟩ := hcarries
    cases hentries
    exact absurd (hget []) (by decide)

end Settings

end Outbound.Grpc
