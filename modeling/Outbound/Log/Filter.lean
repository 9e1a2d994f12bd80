import Outbound.Log
import Outbound.Text.Number

/-!
# Log filters

A filter is a list of directives such as `info`, `net=debug` or `net[request]=trace`. Each names
the most verbose level that is let through, for all events or for those whose place begins with a
target. Of the directives that an event meets, the most specific one decides. Directives for
spans do not concern events.
-/

namespace Outbound

/-- What a level in a directive allows, from nothing to everything. -/
structure Verbosity where
  /-- The rank of the last level that is let through. -/
  rank : Nat
deriving Repr, DecidableEq

namespace Verbosity

def off : Verbosity := ⟨0⟩
def error : Verbosity := ⟨1⟩
def trace : Verbosity := ⟨5⟩

/-- A level by its name or number. -/
def ofText? (s : String) : Option Verbosity :=
  match s.toLower with
  | "off" => some off
  | "error" => some error
  | "warn" => some ⟨2⟩
  | "info" => some ⟨3⟩
  | "debug" => some ⟨4⟩
  | "trace" => some trace
  | s => (Text.digits? s.toList).bind fun n ↦ if n ≤ trace.rank then some ⟨n⟩ else none

def allows (v : Verbosity) (level : Level) : Bool :=
  level.rank ≤ v.rank

end Verbosity

/-- A rule for events. -/
structure Directive where
  target : Option String := none
  /-- Fields that an event has to have. -/
  fields : List String := []
  /-- The rule is for events within a span. -/
  inSpan : Bool := false
  level : Verbosity
deriving Repr, DecidableEq

namespace Directive

private def startsTarget (c : Char) : Bool :=
  c.isAlphanum || c == '_' || c == ':' || c == '-' || 0x80 ≤ c.toNat

/-- The level behind an equals sign. Without one everything is let through. -/
private def levelOf? (cs : List Char) : Option Verbosity :=
  if cs.isEmpty then some .trace else Verbosity.ofText? (String.ofList cs)

private def afterSpan? : List Char → Option Verbosity
  | [] => some .trace
  | '=' :: level => levelOf? level
  | _ => none

/-- The fields in braces and what follows the bracket behind them. -/
private def fieldsOf? (cs : List Char) : Option (List String × List Char) :=
  let field := String.ofList (cs.takeWhile (· != '\x7d'))
  match cs.dropWhile (· != '\x7d') with
  | '\x7d' :: ']' :: rest => if field.isEmpty then none else some ([field], rest)
  | _ => none

/-- A rule for spans, behind the bracket. A field alone, without a value, concerns events as
well. -/
private def spanRule? (target : Option String) (cs : List Char) : Option Directive :=
  let name := cs.takeWhile fun c ↦ c != ']' && c != '\x7b'
  match cs.dropWhile fun c ↦ c != ']' && c != '\x7b' with
  | ']' :: rest => (afterSpan? rest).map fun level ↦ { target, inSpan := true, level }
  | '\x7b' :: rest => do
    let (fields, rest) ← fieldsOf? rest
    let level ← afterSpan? rest
    let inSpan := !name.isEmpty || fields.any (·.contains '=')
    return { target, fields, inSpan, level }
  | _ => none

/-- Reads a directive. A word that is no level is a target, of which everything is let through.
Blanks belong to the word. -/
def ofText? (s : String) : Option Directive :=
  match Verbosity.ofText? s, s.toList.dropWhile Char.isWhitespace with
  | some level, _ => some { level }
  | none, cs =>
    if cs.length < s.length then
      if cs.head?.any startsTarget && cs.all fun c ↦ c != '=' && c != '[' then
        some { target := some s, level := .trace }
      else none
    else
    let target := cs.takeWhile fun c ↦ c != '=' && c != '['
    let target? := if target.isEmpty then none else some (String.ofList target)
    if cs.isEmpty || target.head?.any (!startsTarget ·) then none
    else
      match cs.dropWhile fun c ↦ c != '=' && c != '[' with
      | [] => some { target := target?, level := .trace }
      | '[' :: rest => spanRule? target? rest
      | _ :: level =>
        if target.isEmpty then none
        else (levelOf? level).map fun level ↦ { target := target?, level }

/-- Whether the rule is for an event of that kind. -/
def concerns (d : Directive) (target : String) (fields : List String) : Bool :=
  d.target.all (target.startsWith ·) && d.fields.all fields.contains

/-- Whether a rule is asked before another one: longer targets come first, then more fields. -/
def precedes (a b : Directive) : Bool :=
  let size (d : Directive) : Nat := d.target.elim 0 (·.utf8ByteSize + 1)
  if size a != size b then size b < size a
  else if a.fields.length != b.fields.length then b.fields.length < a.fields.length
  else b.target.getD "" < a.target.getD ""

/-- Puts a rule in its place. Of rules for the same events the last one counts. -/
def insert (d : Directive) : List Directive → List Directive
  | [] => [d]
  | e :: rest =>
    if d.target = e.target ∧ d.fields = e.fields then d :: rest
    else if d.precedes e then d :: e :: rest
    else e :: insert d rest

end Directive

/-- The rules for events, in the order in which they are asked. -/
structure LogFilter where
  directives : List Directive := []
deriving Repr, DecidableEq

namespace LogFilter

/-- The filter of directives; `fallback` is the level if there are none. -/
def ofDirectives (fallback : Verbosity) (ds : List Directive) : LogFilter :=
  match ds with
  | [] => ⟨[{ level := fallback }]⟩
  | ds => ⟨(ds.filter (!·.inSpan)).foldl (fun sorted d ↦ d.insert sorted) []⟩

/-- Reads directives that must all be well-formed. Without directives nothing is let through. -/
def ofText? (s : String) : Option LogFilter :=
  if s.isEmpty then some (ofDirectives .off [])
  else ((s.splitOn ",").mapM Directive.ofText?).map (ofDirectives .off)

/-- Reads directives and passes over those that are not well-formed. -/
def ofTextLossy (s : String) : LogFilter :=
  ofDirectives .error ((s.splitOn ",").filterMap fun d ↦
    if d.isEmpty then none else Directive.ofText? d)

/-- The filter of a variable in the environment, or else of a configuration. -/
def choose (fromEnvironment : Option String) (configured : String) : LogFilter :=
  (fromEnvironment.bind ofText?).getD (ofTextLossy configured)

/-- Whether an event is let through. -/
def allows (filter : LogFilter) (event : LogEvent) : Bool :=
  let fields := "message" :: event.fields.map (·.1)
  match filter.directives.find? (·.concerns event.target fields) with
  | some d => d.level.allows event.level
  | none => false

end LogFilter

end Outbound
