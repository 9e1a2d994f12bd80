import Outbound.Redis.Scan

/-!
# A scan answer by answer

One command is sent at a time, and the next one only after the answer has been read. Nothing is sent
once the scan is over.
-/

namespace Outbound.Redis

namespace Answer

def page? (answer : Answer) : Except Error (Option (Nat × List String)) :=
  answer.bind Reply.toPage?

/-- A page after which another one is asked for. -/
def GoesOn (answer : Answer) (page : Nat × List String) : Prop :=
  answer.page? = .ok (some page) ∧ page.1 ≠ 0

/-- An answer that ends a scan, with the pages it brings and what the scan comes to. -/
inductive Ends (answer : Answer) : List (List String) → Outcome Unit → Prop where
  | last {items : List String} (h : answer.page? = .ok (some (0, items))) :
    Ends answer [items] (.ok ())
  | nothing (h : answer.page? = .ok none) : Ends answer [] (.ok ())
  | failed {e : Error} (h : answer.page? = .error e) : Ends answer [] (.error (.redis e))

end Answer

/-- What a scan has asked for and handed on so far. -/
structure LiveScan where
  asked : List Nat := [0]
  pages : List (List String) := []
  /-- None while the answer to the last command is awaited. -/
  result : Option (Outcome Unit) := none

namespace LiveScan

/-- The command sent last is answered, if the answer is awaited. -/
def step (s : LiveScan) (answer : Answer) : Option LiveScan :=
  if s.result.isSome then none
  else
    match answer.page? with
    | .error e => some { s with result := some (.error (.redis e)) }
    | .ok none => some { s with result := some (.ok ()) }
    | .ok (some (next, items)) =>
      let s := { s with pages := s.pages ++ [items] }
      if next = 0 then some { s with result := some (.ok ()) }
      else some { s with asked := s.asked ++ [next] }

/-- A scan that got those answers, if it awaited as many. -/
def run (answers : List Answer) : Option LiveScan :=
  answers.foldlM step {}

end LiveScan

end Outbound.Redis
