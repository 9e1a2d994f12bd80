import Outbound.Redis.Reply

/-!
# Cursor paging

A scan is asked for page after page, starting at cursor zero and going on with the cursor of the
page just received. Zero, or a reply of nothing, ends it.
-/

namespace Outbound.Redis

/-- What a scan asked for, and what it got. -/
structure ScanWalk where
  /-- The cursors asked for, in order. -/
  asked : List Nat
  pages : List (List String)
  result : Outcome Unit

namespace ScanWalk

def prepend (cursor : Nat) (page : List String) (walk : ScanWalk) : ScanWalk :=
  { walk with asked := cursor :: walk.asked, pages := page :: walk.pages }

/-- Walks from a cursor on. A connection without further answers says nothing. -/
def walkFrom (cursor : Nat) : List Answer → ScanWalk
  | [] => ⟨[cursor], [], .ok ()⟩
  | answer :: rest =>
    match answer.bind Reply.toPage? with
    | .error e => ⟨[cursor], [], .error (.redis e)⟩
    | .ok none => ⟨[cursor], [], .ok ()⟩
    | .ok (some (0, items)) => ⟨[cursor], [items], .ok ()⟩
    | .ok (some (next, items)) => (walkFrom next rest).prepend cursor items

end ScanWalk

/-- Walks a scan to its end. -/
def scan (answers : List Answer) : ScanWalk :=
  ScanWalk.walkFrom 0 answers

/-- The half of a hash's entries that a scan of it returns. -/
inductive HashPart where
  | keys
  | values
deriving Repr, DecidableEq

/-- A script around the scan of a hash. Names stand in odd places of its list, values in even
ones. -/
def HashPart.script (part : HashPart) : String :=
  let first :=
    match part with
    | keys => "1"
    | values => "2"
  "\n\tlocal results = {}\n" ++
  "\tlocal scan_result = redis.call('HSCAN', KEYS[1], unpack(ARGV))\n" ++
  "\tfor i = " ++ first ++ ", #scan_result[2], 2 do\n" ++
  "\t\ttable.insert(results, scan_result[2][i])\n" ++
  "\tend\n" ++
  "\treturn {scan_result[1], results}\n"

/-- The command for one page of a hash. An empty pattern and a count of zero are left out. -/
def hashScanCommand (part : HashPart) (key : String) (cursor : Nat) (pattern : Option String)
    (count : Option Nat) : List String :=
  ["EVAL", part.script, "1", key, toString cursor] ++
  (match pattern with
    | some p => if p.isEmpty then [] else ["MATCH", p]
    | none => []) ++
  (match count with
    | some n => if n = 0 then [] else ["COUNT", toString n]
    | none => [])

/-- One page of a hash. -/
def hashScan (answer : Answer) : Outcome (Nat × List String) :=
  match answer.bind Reply.toPage with
  | .error e => .error (.redis e)
  | .ok page => .ok page

end Outbound.Redis
