import Outbound.Agenda

/-!
# Runs of a system on a clock

Given what an event makes of a state at a certain time, if it can happen then, a run is any
sequence of events, with any time in between.
-/

namespace Outbound

variable {σ ε : Type}

inductive TimedRun (step : Time → σ → ε → Option σ) (x : Time × σ) :
    List ε → Time × σ → Prop where
  | refl : TimedRun step x [] x
  | wait {events : List ε} {now later : Time} {s : σ} (run : TimedRun step x events (now, s))
    (h : now ≤ later) : TimedRun step x events (later, s)
  | event {events : List ε} {now : Time} {s s' : σ} (run : TimedRun step x events (now, s)) (e : ε)
    (h : step now s e = some s') : TimedRun step x (events ++ [e]) (now, s')

namespace TimedRun

variable {step : Time → σ → ε → Option σ} {events events' : List ε} {x y z : Time × σ}

theorem trans (h : TimedRun step x events y) (h' : TimedRun step y events' z) :
    TimedRun step x (events ++ events') z := by
  induction h' with
  | refl => rwa [List.append_nil]
  | wait _ hle ih => exact ih.wait hle
  | event _ e hs ih =>
    rw [← List.append_assoc]
    exact ih.event e hs

/-- What comes of a list of events, each so long after the one before. -/
def play (step : Time → σ → ε → Option σ) (x : Time × σ) : List (Time × ε) → Option (Time × σ)
  | [] => some x
  | (delay, e) :: rest => do
    let s ← step (x.1 + delay) x.2 e
    play step (x.1 + delay, s) rest

theorem of_play {moves : List (Time × ε)} (h : play step x moves = some y) :
    TimedRun step x (moves.map Prod.snd) y := by
  induction moves generalizing x with
  | nil =>
    cases h
    exact .refl
  | cons move rest ih =>
    obtain ⟨s, hs, hrest⟩ := Option.bind_eq_some_iff.1 h
    have hfirst : TimedRun step x ([] ++ [move.2]) (x.1 + move.1, s) :=
      (refl.wait (Nat.le_add_right x.1 move.1)).event move.2 hs
    exact hfirst.trans (ih hrest)

theorem le (h : TimedRun step x events y) : x.1 ≤ y.1 := by
  induction h with
  | refl => exact Nat.le_refl _
  | wait _ hle ih => exact Nat.le_trans ih hle
  | event _ _ _ ih => exact ih

end TimedRun

end Outbound
