import Outbound.Redis.Scan
import Outbound.Rehearsal.Notation

/-!
# Scripted scans

Rehearsals of cursor paging over scripted replies.
-/

namespace Outbound.Rehearsal

open Redis

mutual

/-- A reply from its notation. -/
def replyValue : Json → Reply
  | .null => .nil
  | .int n => .int n
  | .str s => .ofText s
  | .arr items => .bulk (replyValues items)
  | v =>
    match v.text? "status", v.text? "hex" with
    | some text, _ => .status text
    | none, some hex => .data (bytes hex)
    | none, none => if v.flag "okay" then .okay else .nil

def replyValues : List Json → List Reply
  | [] => []
  | v :: rest => replyValue v :: replyValues rest

end

/-- A reply or a failure from its notation. -/
def redisAnswer (v : Json) : Redis.Answer :=
  match v.get? "fail" with
  | some e => .error ((redisError? e).getD (.io .other none))
  | none => .ok (replyValue v)

/-- The parts of a command with a cursor in the place of numbers. -/
def withCursor (parts : List Json) (cursor : Nat) : List String :=
  parts.map fun part ↦ (part.str?).getD (toString cursor)

def textList (texts : List String) : Json :=
  .ofList .str texts

def paging (script : Json) : Json :=
  let walk := scan ((script.list "replies").map redisAnswer)
  .ofMembers
    [("sent", .ofList (fun c ↦ textList (withCursor (script.list "cmd") c)) walk.asked),
      ("pages", .ofList textList walk.pages),
      ("result", outcomeReport (fun _ ↦ .null) walk.result)]

def hashPaging (script : Json) : Json :=
  let part : HashPart := if script.text "only" = "values" then .values else .keys
  let command := hashScanCommand part (script.text "key") (script.nat "cursor")
    (script.text? "pattern") (script.nat? "count")
  .ofMembers [("sent", .arr [textList command]),
    ("result", outcomeReport (fun (cursor, items) ↦ .arr [.ofNat cursor, textList items])
      (hashScan (redisAnswer (script.member "reply"))))]

end Outbound.Rehearsal
