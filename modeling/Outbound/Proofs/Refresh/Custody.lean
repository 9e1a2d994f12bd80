import Outbound.Proofs.Lookup
import Outbound.Proofs.Refresh.Soundness
import Outbound.Refresh.Timeline

/-!
# Who owns an instance

Every step passes ownership on in one of a few ways. So the owners of an instance are at all times
the wrapper, if the instance is current, and those who have it in their hands or keep it for a
while.
-/

namespace Outbound

variable {γ ε : Type}

/-- Where references to instances are. -/
structure Custody where
  /-- Tasks can be spawned. -/
  runtime : Bool
  current : Nat
  /-- What each caller has in its hands. -/
  hands : List (Option Hand)
  held : List Nat
  graces : List Grace
  owners : Owners Nat

/-- What a step does to the references, with the number of the next instance. -/
inductive Transfer (now delay : Time) (next : Nat) : Custody → Custody → Prop where
  | aside {v : Custody} : Transfer now delay next v v
  | enter {v : Custody} : Transfer now delay next v { v with hands := v.hands ++ [none] }
  | operate {v : Custody} :
    Transfer now delay next v
      { v with
        hands := v.hands ++ [some (.operation v.current)]
        owners := v.owners.acquire v.current }
  | finish {v : Custody} (k client : Nat) (hand : v.hands[k]? = some (some (.operation client))) :
    Transfer now delay next v
      { v with hands := v.hands.set k none, owners := v.owners.release client }
  | replace {v : Custody} (k : Nat) (hand : v.hands[k]? = some none) :
    Transfer now delay next v
      { v with
        current := next
        hands := v.hands.set k (some (.replaced v.current))
        owners := v.owners.acquire next }
  | keep {v : Custody} (k old : Nat) (hand : v.hands[k]? = some (some (.replaced old)))
    (possible : v.runtime = true) :
    Transfer now delay next v
      { v with hands := v.hands.set k none, graces := v.graces ++ [⟨old, now, .spawned⟩] }
  | drop {v : Custody} (k old : Nat) (hand : v.hands[k]? = some (some (.replaced old)))
    (impossible : v.runtime = false) :
    Transfer now delay next v
      { v with hands := v.hands.set k none, owners := v.owners.release old }
  | hold {v : Custody} :
    Transfer now delay next v
      { v with held := v.current :: v.held, owners := v.owners.acquire v.current }
  | letGo {v : Custody} (client : Nat) (has : client ∈ v.held) :
    Transfer now delay next v
      { v with held := v.held.erase client, owners := v.owners.release client }
  | sleep {v : Custody} (n : Nat) (g : Grace) (task : v.graces[n]? = some g)
    (phase : g.phase = .spawned) :
    Transfer now delay next v
      { v with graces := v.graces.set n { g with phase := .sleeping (now + delay) } }
  | release {v : Custody} (n : Nat) (g : Grace) (due : Time) (task : v.graces[n]? = some g)
    (phase : g.phase = .sleeping due) (passed : due ≤ now) :
    Transfer now delay next v
      { v with
        graces := v.graces.set n { g with phase := .done }
        owners := v.owners.release g.client }

theorem Transfer.runtime_eq {now delay : Time} {next : Nat} {v v' : Custody}
    (h : Transfer now delay next v v') : v'.runtime = v.runtime := by
  cases h <;> rfl

/-! ## Every step is a transfer -/

namespace LiveRefreshable

variable {now : Time} {s s' : LiveRefreshable γ ε} {k : Nat}
  {c c' : RefreshCaller γ ε} {e : Event γ ε}

def hands (s : LiveRefreshable γ ε) : List (Option Hand) :=
  s.callers.map fun c ↦ c.phase.hand?

def custody (s : LiveRefreshable γ ε) : Custody :=
  ⟨s.runtime, s.wrapper.current, s.hands, s.held, s.graces, s.owners⟩

def Transfers (now : Time) (s s' : LiveRefreshable γ ε) : Prop :=
  Transfer now s.wrapper.policy.closeDelay s.instances.length s.custody s'.custody

theorem hands_of_caller (hc : s.callers[k]? = some c) : s.hands[k]? = some c.phase.hand? := by
  rw [hands, List.getElem?_map, hc]
  rfl

theorem hands_of_set {hand : Option Hand} (h : s'.callers = s.callers.set k c')
    (hhand : c'.phase.hand? = hand) : s'.hands = s.hands.set k hand := by
  rw [hands, h, List.map_set, ← hhand]
  rfl

/-- A caller that goes on with the same in its hands. -/
theorem hands_of_same (hc : s.callers[k]? = some c) (h : s'.callers = s.callers.set k c')
    (hsame : c'.phase.hand? = c.phase.hand?) : s'.hands = s.hands := by
  obtain ⟨hlt, hhand⟩ := List.getElem?_eq_some_iff.1 (hands_of_caller hc)
  rw [hands_of_set h hsame, ← hhand, List.set_getElem_self]

theorem transfers_of_same (hhands : s'.hands = s.hands) (hruntime : s'.runtime = s.runtime)
    (hcurrent : s'.wrapper.current = s.wrapper.current) (hheld : s'.held = s.held)
    (hgraces : s'.graces = s.graces) (howners : s'.owners = s.owners) : s.Transfers now s' := by
  have hcustody : s'.custody = s.custody := by
    simp only [custody, hhands, hruntime, hcurrent, hheld, hgraces, howners]
  rw [Transfers, hcustody]
  exact .aside

theorem transfers_begin (now : Time) (s : LiveRefreshable γ ε) (inside : Option Nat)
    (request : RefreshRequest ε) : s.Transfers now (s.begin inside request) := by
  cases request with
  | execute =>
    have hhands : (s.begin inside .execute).hands =
        s.hands ++ [some (.operation s.wrapper.current)] := List.map_append
    simp only [Transfers, custody, hhands]
    exact .operate
  | observe failure =>
    have hhands : (s.begin inside (.observe failure)).hands = s.hands ++ [none] := List.map_append
    simp only [Transfers, custody, hhands]
    exact .enter
  | refresh =>
    have hhands : (s.begin inside .refresh).hands = s.hands ++ [none] := List.map_append
    simp only [Transfers, custody, hhands]
    exact .enter

theorem custody_setPhase (s : LiveRefreshable γ ε) (k : Nat) (c : RefreshCaller γ ε)
    (phase : CallerPhase γ ε) :
    (s.setPhase k c phase).custody = { s.custody with hands := s.hands.set k phase.hand? } := by
  rw [custody, hands_of_set rfl rfl]
  rfl

theorem custody_retire (now : Time) (s : LiveRefreshable γ ε) (old : Nat) :
    (s.retire now old).custody =
      if s.runtime = true then
        { s.custody with graces := s.custody.graces ++ [⟨old, now, .spawned⟩] }
      else { s.custody with owners := s.custody.owners.release old } := by
  rw [retire]
  split <;> rfl

theorem transfers_actHolding {since : Time} {found : Refreshable Nat} {phase : HolderPhase γ}
    (hc : s.callers[k]? = some c) (hphase : c.phase = .holding since found phase)
    (hs : s.actHolding now k c since found phase = some s') : s.Transfers now s' := by
  have hsame (hcallers : ∃ p, s'.callers = s.callers.set k { c with phase := p } ∧
      p.hand? = c.phase.hand?) : s'.hands = s.hands := by
    obtain ⟨p, hcallers, hp⟩ := hcallers
    exact hands_of_same hc hcallers hp
  rw [hphase] at hsame
  have hhand := hands_of_caller hc
  rw [hphase] at hhand
  cases phase with
  | acquired =>
    cases hs
    refine transfers_of_same (hsame ⟨_, rfl, ?_⟩) rfl rfl rfl rfl rfl
    split <;> rfl
  | rested => cases hs; exact transfers_of_same (hsame ⟨_, rfl, rfl⟩) rfl rfl rfl rfl rfl
  | timed time => cases hs; exact transfers_of_same (hsame ⟨_, rfl, rfl⟩) rfl rfl rfl rfl rfl
  | stamped => cases hs; exact transfers_of_same (hsame ⟨_, rfl, rfl⟩) rfl rfl rfl rfl rfl
  | connecting => cases hs
  | connected client =>
    cases hs
    have hcustody := custody_setPhase s k c (.holding since found (.swapped s.wrapper.current))
    change Transfer _ _ _ s.custody
      { (s.setPhase k c (.holding since found (.swapped s.wrapper.current))).custody with
        current := s.instances.length
        owners := s.owners.acquire s.instances.length }
    rw [hcustody]
    exact .replace k hhand
  | swapped old => cases hs; exact transfers_of_same (hsame ⟨_, rfl, rfl⟩) rfl rfl rfl rfl rfl
  | counted old =>
    cases hs
    rw [Transfers, custody_retire, custody_setPhase]
    split
    · rename_i hruntime
      exact .keep k old hhand hruntime
    · rename_i hruntime
      exact .drop k old hhand (Bool.eq_false_of_not_eq_true hruntime)
  | leaving outcome =>
    cases hs
    exact transfers_of_same (hsame ⟨_, rfl, rfl⟩) rfl rfl rfl rfl rfl

theorem transfers_act (hc : s.callers[k]? = some c) (hs : s.act now k c = some s') :
    s.Transfers now s' := by
  have hsame {p : CallerPhase γ ε} (hcallers : s'.callers = s.callers.set k { c with phase := p })
      (hp : p.hand? = c.phase.hand?) : s'.hands = s.hands := hands_of_same hc hcallers hp
  rw [act] at hs
  cases hphase : c.phase with
  | operating client => simp [hphase] at hs
  | observing failure =>
    simp only [hphase, Option.some.injEq] at hs
    subst hs
    refine transfers_of_same (hsame rfl ?_) rfl rfl rfl rfl rfl
    rw [hphase]
    split <;> rfl
  | asking =>
    simp only [hphase] at hs
    split at hs
    · cases hs
      exact transfers_of_same (hsame rfl (by rw [hphase]; rfl)) rfl rfl rfl rfl rfl
    · rename_i held hacquire
      cases hs
      obtain ⟨-, rfl⟩ := Refreshable.acquire_eq_some hacquire
      exact transfers_of_same (hsame rfl (by rw [hphase]; rfl)) rfl rfl rfl rfl rfl
  | holding since found phase =>
    simp only [hphase] at hs
    exact transfers_actHolding hc hphase hs
  | counting outcome =>
    simp only [hphase, Option.some.injEq] at hs
    subst hs
    exact transfers_of_same (hsame rfl (by rw [hphase]; rfl)) rfl rfl rfl rfl rfl
  | done outcome => simp [hphase] at hs

/-- An operation is over, and its instance is given back. -/
theorem transfers_end {client : Nat} (hc : s.callers[k]? = some c)
    (hphase : c.phase = .operating client)
    (hcallers : s'.callers = s.callers.set k c') (hhand : c'.phase.hand? = none)
    (hs' : s'.custody = { s.custody with hands := s'.hands, owners := s.owners.release client }) :
    s.Transfers now s' := by
  have hold : s.hands[k]? = some (some (.operation client)) := by
    rw [hands_of_caller hc, hphase]
    rfl
  have hhands : s'.hands = s.hands.set k none := hands_of_set hcallers hhand
  rw [Transfers, hs', hhands]
  exact .finish k client hold

theorem transfers_step (hs : s.step now e = some s') : s.Transfers now s' := by
  cases e with
  | call inside request =>
    obtain ⟨-, heq⟩ := Option.ite_none_right_eq_some.1 hs
    cases heq
    exact transfers_begin now s inside request
  | finish k failure =>
    obtain ⟨c, hc, hs⟩ := Option.bind_eq_some_iff.1 hs
    split at hs
    · rename_i client hphase
      cases hs
      refine transfers_end hc hphase rfl ?_ rfl
      cases failure <;> rfl
    · cases hs
  | abandon k =>
    obtain ⟨c, hc, hs⟩ := Option.bind_eq_some_iff.1 hs
    split at hs
    · rename_i client hphase
      cases hs
      exact transfers_end hc hphase rfl rfl rfl
    · cases hs
  | act k =>
    obtain ⟨c, hc, hs⟩ := Option.bind_eq_some_iff.1 hs
    exact transfers_act hc hs
  | connected k result =>
    obtain ⟨c, hc, hs⟩ := Option.bind_eq_some_iff.1 hs
    split at hs
    · rename_i since found hphase
      split at hs
      · cases hs
      · cases hs
        refine transfers_of_same (hands_of_same hc rfl ?_) rfl rfl rfl rfl rfl
        rw [hphase]
        cases result <;> rfl
    · cases hs
  | hold =>
    cases hs
    exact .hold
  | letGo client =>
    obtain ⟨has, heq⟩ := Option.ite_none_right_eq_some.1 hs
    cases heq
    exact .letGo client has
  | grace n =>
    obtain ⟨g, hg, hs⟩ := Option.bind_eq_some_iff.1 hs
    simp only [actGrace] at hs
    split at hs
    · rename_i hphase
      cases hs
      exact .sleep n g hg hphase
    · rename_i due hphase
      obtain ⟨hdue, heq⟩ := Option.ite_none_right_eq_some.1 hs
      cases heq
      exact .release n g due hg hphase hdue
    · cases hs

end LiveRefreshable

/-! ## Every reference has its owner -/

theorem Owners.count_acquire (owners : Owners Nat) (client n : Nat) :
    (owners.acquire client).refs.count n = owners.refs.count n + if client = n then 1 else 0 := by
  simp [acquire, List.count_cons]

theorem Owners.count_release (owners : Owners Nat) (client n : Nat) :
    (owners.release client).refs.count n = owners.refs.count n - if client = n then 1 else 0 := by
  simp [release, List.count_erase]

/-- The references to an instance that are in the hands of a caller. -/
def Hand.references (n : Nat) : Option Hand → Nat
  | some hand => if hand.client = n then 1 else 0
  | none => 0

@[simp] theorem Hand.references_none (n : Nat) : Hand.references n none = 0 := rfl

@[simp] theorem Hand.references_operation (n client : Nat) :
    Hand.references n (some (.operation client)) = if client = n then 1 else 0 := rfl

@[simp] theorem Hand.references_replaced (n client : Nat) :
    Hand.references n (some (.replaced client)) = if client = n then 1 else 0 := rfl

/-- The references to an instance that a task has. -/
def Grace.references (n : Nat) (g : Grace) : Nat :=
  if g.phase = .done then 0 else if g.client = n then 1 else 0

namespace Custody

variable {v v' : Custody} {now delay : Time} {next : Nat}

/-- How many owners the instance has. -/
def shares (v : Custody) (n : Nat) : Nat :=
  (if v.current = n then 1 else 0) + (v.hands.map (Hand.references n)).sum + v.held.count n +
    (v.graces.map (Grace.references n)).sum

/-- The counters of references count just the owners there are. -/
def Accounted (v : Custody) : Prop :=
  ∀ n, v.owners.refs.count n = v.shares n

theorem Accounted.transfer (h : v.Accounted) (ht : Transfer now delay next v v') :
    v'.Accounted := by
  intro n
  have hn := h n
  rw [shares] at hn
  -- The owners gain or lose what the changed entry gains or loses, and the other entries stay.
  cases ht with
  | aside => exact hn
  | enter => simpa [shares] using hn
  | operate =>
    have hacquire := v.owners.count_acquire v.current n
    simp only [shares, List.map_append, List.sum_append_nat, List.map_cons,
      List.map_nil, List.sum_cons, List.sum_nil, Hand.references_operation]
    omega
  | finish k client hand =>
    have hrelease := v.owners.count_release client n
    have hset := sum_map_set hand (Hand.references n) none
    simp only [Hand.references_none, Hand.references_operation] at hset
    simp only [shares]
    omega
  | replace k hand =>
    have hacquire := v.owners.count_acquire next n
    have hset := sum_map_set hand (Hand.references n) (some (.replaced v.current))
    simp only [Hand.references_none, Hand.references_replaced] at hset
    simp only [shares]
    omega
  | keep k old hand possible =>
    have hset := sum_map_set hand (Hand.references n) none
    simp only [Hand.references_none, Hand.references_replaced] at hset
    simp only [shares, List.map_append, List.sum_append_nat, List.map_cons,
      List.map_nil, List.sum_cons, List.sum_nil, Grace.references, reduceCtorEq, if_false]
    omega
  | drop k old hand impossible =>
    have hrelease := v.owners.count_release old n
    have hset := sum_map_set hand (Hand.references n) none
    simp only [Hand.references_none, Hand.references_replaced] at hset
    simp only [shares]
    omega
  | hold =>
    have hacquire := v.owners.count_acquire v.current n
    have hheld : (v.current :: v.held).count n =
        v.held.count n + if v.current = n then 1 else 0 := by simp [List.count_cons]
    simp only [shares]
    omega
  | letGo client has =>
    have hrelease := v.owners.count_release client n
    have hheld : (v.held.erase client).count n + (if client = n then 1 else 0) =
        v.held.count n := by
      by_cases heq : client = n
      · subst heq
        have hpos : 1 ≤ v.held.count client := List.one_le_count_iff.2 has
        rw [List.count_erase_self, if_pos rfl]
        omega
      · rw [List.count_erase_of_ne (Ne.symm heq), if_neg heq, Nat.add_zero]
    simp only [shares]
    omega
  | sleep k g task phase =>
    have hset := sum_map_set task (Grace.references n) { g with phase := .sleeping (now + delay) }
    simp only [Grace.references, phase, reduceCtorEq, if_false] at hset
    simp only [shares]
    omega
  | release k g due task phase passed =>
    have hrelease := v.owners.count_release g.client n
    have hset := sum_map_set task (Grace.references n) { g with phase := .done }
    simp only [Grace.references, phase, reduceCtorEq, if_false, if_true] at hset
    simp only [shares]
    omega

end Custody

end Outbound
