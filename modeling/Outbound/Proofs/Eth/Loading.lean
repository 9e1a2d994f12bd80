import Outbound.Eth.Loading
import Outbound.Proofs.Eth.Generations

/-!
# Loaded settings

Settings come into force with a client exactly if one of their addresses can be dialed. Nothing
stands in the way of that but the room for a window: if there is a client to be built and its
windows are too large, the update panics. That is so whatever number of bytes a waiting call takes.

What is in force while settings change comes of the same updates, with an HTTP client for every
endpoint: `map_live_new` and `live_update` carry what holds of an update over to the clients that
succeed one another.
-/

namespace Outbound.Eth

variable {ι : Type} {callBytes : Nat}

theorem dialEndpoint_eq_ok_iff {address : String} {url : Url} :
    dialEndpoint address = .ok url ↔
      Url.parse address = .ok url ∧ (url.scheme = "http" ∨ url.scheme = "https") := by
  unfold dialEndpoint
  cases Url.parse address with
  | error e => simp
  | ok parsed =>
    simp only [Bool.or_eq_true, beq_iff_eq, Except.ok.injEq]
    split <;> rename_i h
    · constructor
      · rintro ⟨⟩
        exact ⟨rfl, h⟩
      · rintro ⟨rfl, -⟩
        rfl
    · refine iff_of_false (by simp) ?_
      rintro ⟨rfl, h'⟩
      exact h h'

namespace HttpBuilder

theorem dial_eq_ok_iff {http : HttpBuilder} {role : Role} {timeoutMs : Nat} {address : String}
    {url : Url} :
    http.dial role timeoutMs address = .ok url ↔
      dialEndpoint address = .ok url ∧ http role timeoutMs = .ok () := by
  unfold dial
  cases dialEndpoint address <;> cases http role timeoutMs <;>
    simp [bind, Except.bind, pure, Except.pure]

theorem dials_iff {http : HttpBuilder} {role : Role} {timeoutMs : Nat} {address : String} :
    http.Dials role timeoutMs address ↔ ∃ url, http.dial role timeoutMs address = .ok url := by
  simp only [Dials, dial_eq_ok_iff, dialEndpoint_eq_ok_iff, exists_and_right]

@[simp] theorem dial_obliging (role : Role) (timeoutMs : Nat) (address : String) :
    obliging.dial role timeoutMs address = dialEndpoint address := by
  unfold dial
  cases dialEndpoint address <;> rfl

end HttpBuilder

theorem Endpoints.isSome_choose {primary archive : Outcome Url} :
    (Endpoints.choose primary archive).toOption.isSome = true ↔
      (∃ url, primary = .ok url) ∨ ∃ url, archive = .ok url := by
  cases primary <;> cases archive <;> simp [choose, Except.toOption]

namespace Settings

/-- With an HTTP client for every endpoint, only the addresses decide. -/
theorem dialWith_obliging (s : Settings) : s.dialWith .obliging = s.dial := by
  unfold dialWith dial
  rw [HttpBuilder.dial_obliging, HttpBuilder.dial_obliging]
  cases dialEndpoint s.url <;> cases dialEndpoint s.archiveUrl <;> rfl

theorem connect_fst (http : HttpBuilder) (s : Settings) :
    (s.connect http).1 = (s.dialWith http).toOption.map Prod.fst := by
  unfold connect
  cases s.dialWith http <;> rfl

end Settings

theorem BatchingSettings.isSome_connect {http : HttpBuilder} {s : BatchingSettings} :
    (s.eth.connect http).1.isSome = true ↔ s.Dials http := by
  rw [Settings.connect_fst, Option.isSome_map, Settings.dialWith, Endpoints.isSome_choose,
    Dials, HttpBuilder.dials_iff, HttpBuilder.dials_iff]

theorem BatchLimits.reservable_eq_false_iff {limits : BatchLimits} {itemBytes : Nat} :
    limits.reservable itemBytes = false ↔ 2 ^ 63 ≤ limits.maxCount * itemBytes := by
  unfold BatchLimits.reservable fitsSigned
  rw [← Int.natCast_mul, Bool.and_eq_false_iff, decide_eq_false_iff_not, decide_eq_false_iff_not]
  omega

namespace LiveSettings

theorem update_value? (callBytes : Nat) (http : HttpBuilder) (old : Option (LiveSettings ι))
    (s : BatchingSettings) :
    (update callBytes http old s).value? =
      if s.buildable callBytes (s.eth.connect http).1 then
        some ⟨s, (s.eth.connect http).1, s.backoff.policy, (s.eth.connect http).1.map s.client⟩
      else none := by
  unfold update BatchingSettings.buildable BatchingSettings.reservable BatchingClient.build?
  rcases s.eth.connect http with ⟨_ | endpoints, logs⟩
  · rfl
  · cases s.limits.normalized.reservable callBytes <;> rfl

/-- Settings that are in force were loaded with an HTTP client for every endpoint. -/
theorem value?_obliging (old : Option (LiveSettings ι)) (settings : BatchingSettings) (n : Nat) :
    (update callBytes .obliging old settings).value? =
      if settings.builds callBytes then some (Edition.dialed { number := n, settings }).live
      else none := by
  rw [update_value?, Settings.connect_fst, Settings.dialWith_obliging]
  rfl

theorem map_live_new (now : Time) (settings : BatchingSettings) :
    (Reloading.new callBytes now settings).map (fun s : Reloading ι ↦ s.live.load.live) =
      (update callBytes .obliging (none : Option (LiveSettings ι)) settings).value? := by
  rw [value?_obliging none settings 0]
  change Option.map _ (if settings.builds callBytes then _ else none) = _
  cases settings.builds callBytes <;> rfl

theorem live_update (now : Time) (s : Reloading ι) (settings : BatchingSettings) :
    (s.update callBytes now settings).live.load.live =
      (update callBytes .obliging (some s.live.load.live) settings).value?.getD
        (s.live.load.live : LiveSettings ι) := by
  rw [value?_obliging _ settings s.generations.length, Reloading.live_update]
  cases settings.builds callBytes <;> rfl

theorem value?_eq_none_iff {http : HttpBuilder} {old : Option (LiveSettings ι)}
    {s : BatchingSettings} :
    (update callBytes http old s).value? = none ↔
      s.Dials http ∧ 2 ^ 63 ≤ s.limits.normalized.maxCount * callBytes := by
  rw [update_value?, ← BatchingSettings.isSome_connect, ← BatchLimits.reservable_eq_false_iff]
  simp [BatchingSettings.buildable, BatchingSettings.reservable, ← Option.isSome_iff_ne_none]

/-- An update panics exactly if there is a client to be built whose windows have no room. -/
theorem update_panics_iff_no_room (callBytes : Nat) (http : HttpBuilder)
    (old : Option (LiveSettings ι)) (s : BatchingSettings) :
    ((update callBytes http old s).value? = none ↔
      s.Dials http ∧ 2 ^ 63 ≤ s.limits.normalized.maxCount * callBytes) ∧
    ∀ v, (update callBytes http old s).value? = some v →
      v.settings = s ∧ v.policy = s.backoff.policy ∧
        (v.client.isSome = true ↔ s.Dials http) ∧ (v.endpoints.isSome = true ↔ s.Dials http) := by
  refine ⟨value?_eq_none_iff, fun v hv ↦ ?_⟩
  have hdials : (s.eth.connect http).1.isSome = true ↔ s.Dials http :=
    BatchingSettings.isSome_connect
  rw [update_value?] at hv
  obtain ⟨-, ⟨⟩⟩ := Option.ite_none_right_eq_some.1 hv
  exact ⟨rfl, rfl, by rw [Option.isSome_map, hdials], hdials⟩

def boundlessSettings : BatchingSettings where
  eth := { url := "http://h" }
  limits := ⟨0, UInt64.size - 1⟩

/-- Members from which settings can be read that no client can be built for, although their address
can be dialed. One byte for each waiting call is already too much. -/
theorem boundless_members_panic :
    BatchingSettings.read Json.format Json.format (.obj [("url", .str "http://h"),
        ("batch", .obj [("max_count", .int 18446744073709551615)])]) = .ok boundlessSettings ∧
      boundlessSettings.Dials .obliging ∧
      ∀ (old : Option (LiveSettings Nat)) (callBytes : Nat), 1 ≤ callBytes →
        (update callBytes .obliging old boundlessSettings).value? = none := by
  have hdials : boundlessSettings.Dials .obliging :=
    BatchingSettings.isSome_connect.1 (by decide +kernel)
  refine ⟨by cbv, hdials, fun old callBytes hbytes ↦ value?_eq_none_iff.2 ⟨hdials, ?_⟩⟩
  have hcount : 2 ^ 63 ≤ boundlessSettings.limits.normalized.maxCount := by decide
  exact hcount.trans (Nat.le_mul_of_pos_right _ hbytes)

end LiveSettings

end Outbound.Eth
