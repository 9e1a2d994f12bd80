import Outbound.Config.Setting
import Outbound.Text.Hex

/-!
# INI files

Sections in brackets hold keys with values, and every value is a text. Comments stand on lines of
their own. A value may be quoted, and a backslash writes characters that could not stand there
otherwise.
-/

namespace Outbound

namespace Ini

/-- A place in a text: what is left, and how many lines and characters of the line were met. The
next character is counted already. -/
structure Cursor where
  rest : List Char
  line : Nat
  column : Nat

namespace Cursor

/-- Counts the character that is next now. -/
private def meet (rest : List Char) (line column : Nat) : Cursor :=
  match rest with
  | [] => ⟨[], line, column⟩
  | '\n' :: _ => ⟨rest, line + 1, 0⟩
  | _ => ⟨rest, line, column + 1⟩

def start (text : String) : Cursor :=
  meet text.toList 0 0

def next (here : Cursor) : Cursor :=
  meet here.rest.tail here.line here.column

private def skipWhile (p : Char → Bool) : List Char → Nat → Nat → Cursor
  | [], line, column => ⟨[], line, column⟩
  | c :: rest, line, column =>
    if p c then
      let there := meet rest line column
      skipWhile p rest there.line there.column
    else ⟨c :: rest, line, column⟩

/-- Passes over characters. -/
def skip (p : Char → Bool) (here : Cursor) : Cursor :=
  skipWhile p here.rest here.line here.column

def fail {α : Type} (here : Cursor) (text : String) : Except String α :=
  .error (toString (here.line + 1) ++ ":" ++ toString (here.column + 1) ++ " " ++ text)

end Cursor

/-- Where a text ends. -/
private inductive Stop where
  | afterKey
  | afterName
  | quote (c : Char)
  | line

namespace Stop

private def ends : Stop → Char → Bool
  | afterKey, c => c == '=' || c == ':'
  | afterName, c => c == ']'
  | quote q, c => c == q
  | line, c => c == '\n' || c == '\r'

private def expected : Stop → String
  | afterKey => "[Some('='), Some(':')]"
  | afterName => "[Some(']')]"
  | quote '"' => "[Some('\"')]"
  | quote _ => "[Some('\\'')]"
  | line => ""

private def endsText : Stop → Bool
  | line => true
  | _ => false

end Stop

private def early {α : Type} (stop : Stop) (here : Cursor) : Except String α :=
  here.fail ("expecting \"" ++ stop.expected ++ "\" but found EOF.")

private def controlOf? : Char → Option Char
  | '0' => some '\x00'
  | 'a' => some '\x07'
  | 'b' => some '\x08'
  | 't' => some '\t'
  | 'r' => some '\r'
  | 'n' => some '\n'
  | _ => none

private def codeOf? (cs : List Char) : Option Char := do
  let values ← cs.mapM Hex.value?
  let n := values.foldl (fun n d ↦ 16 * n + d) 0
  if cs.length = 4 ∧ n.isValidChar then some (Char.ofNat n) else none

/-- The text up to where it ends. The fuel bounds the number of characters. -/
private def textUntil (stop : Stop) : Nat → Cursor → Except String (List Char × Cursor)
  | 0, here => .ok ([], here)
  | fuel + 1, here =>
    match here.rest with
    | [] => if stop.endsText then .ok ([], here) else early stop here
    | c :: _ =>
      if stop.ends c then .ok ([], here)
      else if c == '\\' then
        let escaped := here.next
        match escaped.rest with
        | [] => early stop escaped
        | '\n' :: _ => textUntil stop fuel escaped.next
        | 'x' :: digits =>
          match codeOf? (digits.take 4) with
          | none => escaped.fail "unknown character in \\xHH form"
          | some code => do
            let (text, there) ← textUntil stop fuel escaped.next.next.next.next.next
            return (code :: text, there)
        | c :: _ => do
          let (text, there) ← textUntil stop fuel escaped.next
          return ((controlOf? c).getD c :: text, there)
      else do
        let (text, there) ← textUntil stop fuel here.next
        return (c :: text, there)

private def trim (cs : List Char) : String :=
  (String.ofList cs).trimAscii.toString

/-- Sections in their order, the one without a name first. -/
private structure Sections where
  outside : List (String × Setting) := []
  /-- Last section first. -/
  named : List (String × List (String × Setting)) := []

private def Sections.add (key : String) (v : Setting) (s : Sections) : Sections :=
  match s.named with
  | [] => { s with outside := s.outside ++ [(key, v)] }
  | (name, members) :: rest => { s with named := (name, members ++ [(key, v)]) :: rest }

private def readValue (size : Nat) (here : Cursor) : Except String (String × Cursor) := do
  let here := here.next.skip fun c ↦ c == ' ' || c == '\t'
  match here.rest with
  | c :: _ =>
    if c == '"' || c == '\'' then
      let (text, there) ← textUntil (.quote c) size here.next
      let (more, there) ← textUntil .line size there.next
      return (String.ofList (text ++ more), there)
    else
      let (text, there) ← textUntil .line size here
      return (String.ofList text, there)
  | [] => return ("", here)

/-- Reads the text from a place on. The key is the one that was read last. -/
private def readAll (origin : Option String) (size : Nat) :
    Nat → String → Sections → Cursor → Except String Sections
  | 0, _, done, _ => .ok done
  | fuel + 1, key, done, here =>
    let here := here.skip Char.isWhitespace
    match here.rest with
    | [] => .ok done
    | c :: _ =>
      if c == ';' || c == '#' then
        if 1 < here.column then here.fail "doesn't support inline comment"
        else readAll origin size fuel key done (here.skip (· != '\n'))
      else if c == '[' then
        match textUntil .afterName size here.next with
        | .error e => .error e
        | .ok (name, there) =>
          readAll origin size fuel key { done with named := (trim name, []) :: done.named }
            there.next
      else if c == '=' || c == ':' then
        if key.isEmpty then here.fail "missing key"
        else
          match readValue size here with
          | .error e => .error e
          | .ok (v, there) =>
            readAll origin size fuel "" (done.add key (.scalar (.str v) origin)) there
      else
        match textUntil .afterKey size here with
        | .error e => .error e
        | .ok (name, there) => readAll origin size fuel (trim name) done there

/-- The settings of a text. -/
def read (origin : Option String) (text : String) : Except String (List (String × Setting)) := do
  let size := text.length + 1
  let sections ← readAll origin size (2 * size) "" {} (.start text)
  return Setting.lastOfEach (sections.outside ++ sections.named.reverse.map fun (name, members) ↦
    (name, .table (Setting.lastOfEach members) origin))

end Ini

end Outbound
