/-!
# Punycode

Text beyond ASCII is written with letters and digits: first its plain characters, then the others
in the order of their code points, each as the distance from the one before it in a number system
whose digits have thresholds that adapt.
-/

namespace Outbound.Punycode

/-- The character of a digit: letters come before figures. -/
def digit (d : Nat) : Char :=
  Char.ofNat (if d < 26 then 97 + d else 22 + d)

def value? (c : Char) : Option Nat :=
  if 'a' ≤ c ∧ c ≤ 'z' then some (c.toNat - 97)
  else if '0' ≤ c ∧ c ≤ '9' then some (c.toNat - 22)
  else none

/-- The least value of a digit after which more digits follow, between 1 and 26. -/
def threshold (place bias : Nat) : Nat :=
  if place ≤ bias then 1 else min 26 (place - bias)

private def damp (delta place : Nat) : Nat × Nat :=
  if 455 < delta then damp (delta / 35) (place + 36) else (delta, place)
termination_by delta

/-- The bias after a distance was written. -/
def adapt (delta points : Nat) (first : Bool) : Nat :=
  let delta := if first then delta / 700 else delta / 2
  let (delta, place) := damp (delta + delta / points) 0
  place + 36 * delta / (delta + 38)

/-- The digits of a distance. `fuel` bounds their number. -/
def distance (bias : Nat) : Nat → Nat → Nat → List Char
  | 0, _, _ => []
  | fuel + 1, place, q =>
    let t := threshold place bias
    if q < t then [digit q]
    else digit (t + (q - t) % (36 - t)) :: distance bias fuel (place + 36) ((q - t) / (36 - t))

/-- What has been written so far. -/
structure Writer where
  output : List Char
  delta : Nat := 0
  bias : Nat := 72
  handled : Nat

private def writePoint (plain point : Nat) (w : Writer) (c : Char) : Writer :=
  if c.toNat < point then { w with delta := w.delta + 1 }
  else if c.toNat = point then
    { output := w.output ++ distance w.bias 64 36 w.delta
      delta := 0
      bias := adapt w.delta (w.handled + 1) (w.handled == plain)
      handled := w.handled + 1 }
  else w

private def writePoints (input : List Char) (plain : Nat) : List Nat → Nat → Writer → Writer
  | [], _, w => w
  | point :: rest, low, w =>
    let w := { w with delta := w.delta + (point - low) * (w.handled + 1) }
    let w := input.foldl (writePoint plain point) w
    writePoints input plain rest (point + 1) { w with delta := w.delta + 1 }

/-- The code points of a text that are not ASCII, ascending and each once. -/
def extended (input : List Char) : List Nat :=
  ((input.filter fun c ↦ 128 ≤ c.toNat).map Char.toNat).mergeSort.eraseReps

/-- The plain characters, a hyphen if there are any, and the distances. -/
def encode (input : List Char) : List Char :=
  let plain := input.filter fun c ↦ c.toNat < 128
  let start := if plain.isEmpty then [] else plain ++ ['-']
  (writePoints input plain.length (extended input) 128
    { output := start, handled := plain.length }).output

/-- Reads one distance: its value, and the rest of the text. -/
private def readDistance (bias : Nat) : Nat → Nat → Nat → List Char → Option (Nat × List Char)
  | _, _, _, [] => none
  | place, weight, sum, c :: rest => do
    let d ← value? c
    let sum := sum + d * weight
    let t := threshold place bias
    if d < t then return (sum, rest)
    else readDistance bias (place + 36) (weight * (36 - t)) sum rest

/-- Inserts code points until the text ends. `fuel` bounds their number. -/
private def readPoints : Nat → List Char → Nat → Nat → Nat → List Char → Option (List Char)
  | 0, _, _, _, _, _ => none
  | _ + 1, output, _, _, _, [] => some output
  | fuel + 1, output, point, i, bias, text => do
    let (d, rest) ← readDistance bias 36 1 0 text
    let j := i + d
    let size := output.length + 1
    let point := point + j / size
    let place := j % size
    if h : point.isValidChar then
      readPoints fuel (output.take place ++ Char.ofNatAux point h :: output.drop place) point
        (place + 1) (adapt d size (i == 0)) rest
    else none

/-- The text of an encoding, if it is one. -/
def decode? (text : List Char) : Option (List Char) :=
  let plain := (text.reverse.dropWhile (· != '-')).drop 1 |>.reverse
  let rest := if plain.isEmpty then (if text.head? == some '-' then text.drop 1 else text)
    else text.drop (plain.length + 1)
  readPoints (text.length + 1) plain 128 0 72 rest

end Outbound.Punycode
