import Outbound.Config.Setting
import Outbound.Text.Hex

/-!
# YAML files

Mappings and lists are told apart by their indentation, or stand in brackets. Plain scalars are
numbers, truth values or null where they look like it, and texts otherwise. Of the whole format
this is the part that configurations are written in.
-/

namespace Outbound

namespace Yaml

/-! ## Lines -/

/-- A line without its indentation. -/
structure Line where
  number : Nat
  indent : Nat
  text : List Char

private def Line.ofText (number : Nat) (cs : List Char) : Line :=
  let cs := if cs.getLast? == some '\r' then cs.dropLast else cs
  let text := cs.dropWhile (· == ' ')
  ⟨number, cs.length - text.length, text⟩

private def isBlank (c : Char) : Bool :=
  c == ' ' || c == '\t'

private def trim (cs : List Char) : List Char :=
  ((cs.dropWhile isBlank).reverse.dropWhile isBlank).reverse

private def Line.isEmpty (line : Line) : Bool :=
  let text := trim line.text
  text.isEmpty || text.head? == some '#'

private def skipEmpty (lines : List Line) : List Line :=
  lines.dropWhile Line.isEmpty

abbrev Result (α : Type) := Except String α

/-- A fault in a line, at the character of a number. -/
private def failAt {α : Type} (line : Nat) (column : Nat) (text : String) : Result α :=
  .error (text ++ " at line " ++ toString line ++ " column " ++ toString (column + 1))

/-- A fault where a line begins. -/
private def failFrom {α : Type} (line : Line) (text : String) : Result α :=
  failAt line.number line.indent text

/-- Where the last part of a line begins, if it is this text. -/
private def Line.columnOf (line : Line) (text : List Char) : Nat :=
  line.indent + (line.text.reverse.dropWhile isBlank).length - text.length

/-! ## Scalars -/

private def specialFloat? : String → Option Float
  | ".inf" | ".Inf" | ".INF" | "+.inf" | "+.Inf" | "+.INF" => some (1 / 0)
  | "-.inf" | "-.Inf" | "-.INF" => some (-1 / 0)
  | ".nan" | "NaN" | ".NAN" => some (0 / 0)
  | s => Text.float? s

private def inBase? (base : Nat) (cs : List Char) : Option Int := do
  let values ← cs.mapM Hex.value?
  if values.isEmpty || values.any (base ≤ ·) then none
  else
    let n := values.foldl (fun n d ↦ base * n + d) 0
    if fitsSigned n then some n else none

private def int? (s : String) : Option Int := do
  let n ← Text.signed? s
  if fitsSigned n then some n else none

/-- What a plain scalar means. -/
def plainValue (s : String) : Json :=
  let based :=
    match s.toList with
    | '0' :: 'x' :: digits => inBase? 16 digits
    | '0' :: 'o' :: digits => inBase? 8 digits
    | _ => none
  match based.orElse fun _ ↦ int? s with
  | some n => .int n
  | none =>
    match s with
    | "" | "~" | "null" => .null
    | "true" => .bool true
    | "false" => .bool false
    | s =>
      match specialFloat? s with
      | some x => .float x
      | none => .str s

/-- A text up to a comment. -/
private def withoutComment : List Char → List Char
  | [] => []
  | ' ' :: '#' :: _ => []
  | '\t' :: '#' :: _ => []
  | c :: rest => c :: withoutComment rest

private def escapeOf? : Char → Option Char
  | '0' => some '\x00'
  | 'a' => some '\x07'
  | 'b' => some '\x08'
  | 't' | '\t' => some '\t'
  | 'n' => some '\n'
  | 'v' => some '\x0b'
  | 'f' => some '\x0c'
  | 'r' => some '\r'
  | 'e' => some '\x1b'
  | ' ' => some ' '
  | '"' => some '"'
  | '/' => some '/'
  | '\\' => some '\\'
  | 'N' => some '\u0085'
  | '_' => some '\u00a0'
  | _ => none

private def codeOf? (count : Nat) (cs : List Char) : Option (Char × List Char) := do
  let values ← (cs.take count).mapM Hex.value?
  let n := values.foldl (fun n d ↦ 16 * n + d) 0
  if values.length = count ∧ n.isValidChar then some (Char.ofNat n, cs.drop count) else none

/-- The text in double quotes, behind the first of them, and the rest; none if it does not end. -/
private def doubleQuoted? : Nat → List Char → Option (List Char × List Char)
  | 0, _ => none
  | _ + 1, [] => none
  | _ + 1, '"' :: rest => some ([], rest)
  | fuel + 1, '\\' :: c :: rest => do
    let (c, rest) ←
      match c with
      | 'x' => codeOf? 2 rest
      | 'u' => codeOf? 4 rest
      | 'U' => codeOf? 8 rest
      | c => (escapeOf? c).map fun c ↦ (c, rest)
    let (text, rest) ← doubleQuoted? fuel rest
    return (c :: text, rest)
  | fuel + 1, c :: rest => (doubleQuoted? fuel rest).map fun (text, rest) ↦ (c :: text, rest)

/-- The text in single quotes, behind the first of them. A quote is written twice. -/
private def singleQuoted? : List Char → Option (List Char × List Char)
  | '\'' :: '\'' :: rest => (singleQuoted? rest).map fun (text, rest) ↦ ('\'' :: text, rest)
  | '\'' :: rest => some ([], rest)
  | c :: rest => (singleQuoted? rest).map fun (text, rest) ↦ (c :: text, rest)
  | [] => none

private def quoted? : List Char → Option (List Char × List Char)
  | '"' :: rest => doubleQuoted? (rest.length + 1) rest
  | '\'' :: rest => singleQuoted? rest
  | _ => none

private def startsQuoted (cs : List Char) : Bool :=
  cs.head? == some '"' || cs.head? == some '\''

/-- Passes over an anchor. -/
private def skipAnchor : List Char → List Char
  | '&' :: rest => (rest.dropWhile (!isBlank ·)).dropWhile isBlank
  | cs => cs

/-! ## Keys -/

private def isKeyEnd : List Char → Bool
  | [':'] => true
  | ':' :: c :: _ => isBlank c
  | _ => false

private def splitPlainKey : List Char → Option (List Char × List Char)
  | [] => none
  | c :: rest =>
    if isKeyEnd (c :: rest) then some ([], rest)
    else if isBlank c && rest.head? == some '#' then none
    else (splitPlainKey rest).map fun (key, rest) ↦ (c :: key, rest)

private def keyText (key : List Char) : String :=
  match plainValue (String.ofList (trim key)) with
  | .int n => toString n
  | _ => String.ofList (trim key)

/-- The key that a text begins with, and what follows it. -/
private def splitKey? (cs : List Char) : Option (String × List Char) :=
  if startsQuoted cs then
    match quoted? cs with
    | some (key, rest) =>
      let rest := rest.dropWhile isBlank
      if isKeyEnd rest then some (String.ofList key, trim rest.tail) else none
    | none => none
  else if cs.head? == some '[' || cs.head? == some '\x7b' then none
  else (splitPlainKey cs).map fun (key, rest) ↦ (keyText key, trim rest)

private def misplacedKey : String :=
  "mapping values are not allowed in this context"

/-! ## Values in brackets -/

private def isFlowEnd (c : Char) : Bool :=
  c == ',' || c == ']' || c == '\x7d'

/-- A plain scalar in brackets. -/
private def flowPlain (inMap : Bool) : List Char → List Char × List Char
  | [] => ([], [])
  | c :: rest =>
    if isFlowEnd c || (inMap && (isKeyEnd (c :: rest) ||
        (c == ':' && rest.head?.any isFlowEnd))) then ([], c :: rest)
    else if isBlank c && rest.head? == some '#' then ([], c :: rest)
    else
      let (text, rest) := flowPlain inMap rest
      (c :: text, rest)

mutual

/-- A value in brackets; none if it does not end. The fuel bounds how much of the text it
takes. -/
private def flow? (origin : Option String) (inMap : Bool) (fuel : Nat) (cs : List Char) :
    Option (Setting × List Char) :=
  match fuel, cs with
  | 0, _ => none
  | fuel + 1, '[' :: rest => (flowItems? origin fuel [] (rest.dropWhile isBlank)).map
    fun (items, rest) ↦ (.list items origin, rest)
  | fuel + 1, '\x7b' :: rest => (flowEntries? origin fuel [] (rest.dropWhile isBlank)).map
    fun (members, rest) ↦ (.table (Setting.lastOfEach members) origin, rest)
  | _ + 1, cs =>
    if startsQuoted cs then
      (quoted? cs).map fun (text, rest) ↦ (.scalar (.str (String.ofList text)) origin, rest)
    else
      let (text, rest) := flowPlain inMap cs
      some (.scalar (plainValue (String.ofList (trim text))) origin, rest)
termination_by structural fuel

private def flowItems? (origin : Option String) (fuel : Nat) (done : List Setting)
    (cs : List Char) : Option (List Setting × List Char) :=
  match fuel, cs with
  | 0, _ => none
  | _ + 1, ']' :: rest => some (done, rest)
  | fuel + 1, cs => do
    let (v, rest) ← flow? origin false fuel cs
    match rest.dropWhile isBlank with
    | ',' :: rest => flowItems? origin fuel (done ++ [v]) (rest.dropWhile isBlank)
    | ']' :: rest => some (done ++ [v], rest)
    | _ => none
termination_by structural fuel

private def flowEntries? (origin : Option String) (fuel : Nat)
    (done : List (String × Setting)) (cs : List Char) :
    Option (List (String × Setting) × List Char) :=
  match fuel, cs with
  | 0, _ => none
  | _ + 1, '\x7d' :: rest => some (done, rest)
  | fuel + 1, cs => do
    let (key, rest) ←
      if startsQuoted cs then (quoted? cs).map fun (key, rest) ↦ (String.ofList key, rest)
      else
        let (key, rest) := flowPlain true cs
        some (keyText key, rest)
    let (v, rest) ←
      match rest.dropWhile isBlank with
      | ':' :: rest =>
        let rest := rest.dropWhile isBlank
        if rest.head?.any isFlowEnd then some (.scalar .null origin, rest)
        else flow? origin true fuel rest
      | rest => some (.scalar .null origin, rest)
    match rest.dropWhile isBlank with
    | ',' :: rest => flowEntries? origin fuel (done ++ [(key, v)]) (rest.dropWhile isBlank)
    | '\x7d' :: rest => some (done ++ [(key, v)], rest)
    | _ => none
termination_by structural fuel

end

/-! ## Values over several lines -/

/-- Joins lines until a reader makes something of them. Empty lines keep their end. -/
private def untilRead {α : Type} (read? : List Char → Option (α × List Char)) (text : List Char) :
    List Line → Option (α × List Char × List Line)
  | [] => (read? text).map fun (a, rest) ↦ (a, rest, [])
  | line :: lines =>
    match read? text with
    | some (a, rest) => some (a, rest, line :: lines)
    | none =>
      let next := trim line.text
      let text := if next.isEmpty then text ++ ['\n']
        else if text.getLast? == some '\n' then text ++ next
        else text ++ ' ' :: next
      untilRead read? text lines

/-- Lines that go on with a plain scalar. None of them may hold a key. -/
private def continued (indent : Nat) (text : List Char) :
    List Line → Result (List Char × List Line)
  | [] => .ok (text, [])
  | line :: lines =>
    if line.isEmpty || line.indent < indent then .ok (text, line :: lines)
    else
      match splitPlainKey line.text with
      | some (key, _) => failAt line.number (line.indent + key.length) misplacedKey
      | none => continued indent (text ++ ' ' :: trim (withoutComment line.text)) lines

/-- The number of the line behind the last one. -/
private def endNumber (line : Line) (lines : List Line) : Nat :=
  let last := (lines.getLast?).getD line
  if last.text.isEmpty && last.indent = 0 then last.number else last.number + 1

/-- How the text of a block ends. -/
private inductive Chomping where
  | clip
  | strip
  | keep

private def joinFolded : List (List Char) → List Char
  | [] => []
  | [line] => line
  | line :: next :: rest =>
    let later := joinFolded (next :: rest)
    if next.isEmpty then line ++ '\n' :: later
    else if line.isEmpty then later
    else if line.head? == some ' ' || next.head? == some ' ' then line ++ '\n' :: later
    else line ++ ' ' :: later

/-- The text of a block, as it stands or folded. -/
private def blockText (folded : Bool) (chomping : Chomping) (lines : List (List Char)) : String :=
  let body := (lines.reverse.dropWhile List.isEmpty).reverse
  let trailing := lines.length - body.length
  let text := if folded then joinFolded body else ['\n'].intercalate body
  let ending :=
    match chomping with
    | .strip => []
    | .clip => if body.isEmpty then [] else ['\n']
    | .keep => List.replicate (trailing + (if body.isEmpty then 0 else 1)) '\n'
  String.ofList (text ++ ending)

/-- The lines of a block that stand further in than `parent`. -/
private def blockLines (parent : Int) (lines : List Line) : List (List Char) × List Line :=
  let inside (line : Line) : Bool := (trim line.text).isEmpty || parent < line.indent
  let body := lines.takeWhile inside
  let base := ((body.filter fun line ↦ !(trim line.text).isEmpty).head?.map (·.indent)).getD 0
  (body.map fun line ↦ if (trim line.text).isEmpty then []
    else List.replicate (line.indent - base) ' ' ++ line.text, lines.dropWhile inside)

/-- A value that begins on a line, behind a key or a dash that stands at `parent`. -/
private def inlineValue (origin : Option String) (parent : Int) (line : Line) (text : List Char)
    (lines : List Line) : Result (Setting × List Line) :=
  let text := skipAnchor text
  let scalar (v : Json) : Setting := .scalar v origin
  let ended (v : Setting) (rest : List Char) (lines : List Line) : Result (Setting × List Line) :=
    let rest := trim rest
    if rest.isEmpty || rest.head? == some '#' then .ok (v, lines)
    else failFrom line "did not find expected key"
  let column := line.columnOf text
  match text with
  | '|' :: mark => blockValue false mark
  | '>' :: mark => blockValue true mark
  | c :: _ =>
    if startsQuoted text then
      match untilRead quoted? text lines with
      | some (s, rest, lines) => ended (scalar (.str (String.ofList s))) rest lines
      | none =>
        failAt line.number column "while scanning a quoted scalar, found unexpected end of stream"
    else if c == '[' || c == '\x7b' then
      let read? (cs : List Char) : Option (Setting × List Char) :=
        flow? origin false (2 * cs.length + 2) cs
      match untilRead read? (withoutComment text) lines with
      | some (v, rest, lines) => ended v rest lines
      | none =>
        failAt (endNumber line lines) 0 (if c == '[' then
            "while parsing a flow sequence, expected ',' or ']'"
          else "while parsing a flow mapping, did not find expected ',' or '\x7d'")
    else if "%@\x60".toList.contains c then
      failAt line.number column ("unexpected character: \x60" ++ c.toString ++ "'")
    else
      match splitPlainKey text with
      | some (key, _) => failAt line.number (column + key.length) misplacedKey
      | none => do
        let (s, lines) ← continued (parent + 1).toNat (trim (withoutComment text)) lines
        return (scalar (plainValue (String.ofList s)), lines)
  | [] => .ok (scalar .null, lines)
where
  blockValue (folded : Bool) (mark : List Char) : Result (Setting × List Line) :=
    let chomping : Chomping :=
      if mark.contains '-' then .strip else if mark.contains '+' then .keep else .clip
    let (body, rest) := blockLines parent lines
    .ok (.scalar (.str (blockText folded chomping body)) origin, rest)

/-! ## Blocks -/

private def isItem (line : Line) : Bool :=
  match line.text with
  | ['-'] => true
  | '-' :: c :: _ => isBlank c
  | _ => false

mutual

/-- A value whose lines stand further in than `parent`. The fuel bounds the number of parts. -/
private def block (origin : Option String) (parent : Int) (fuel : Nat) (lines : List Line) :
    Result (Setting × List Line) :=
  match fuel with
  | 0 => .error "recursion limit exceeded"
  | fuel + 1 =>
    match skipEmpty lines with
    | [] => .ok (.scalar .null origin, [])
    | line :: rest =>
      if line.indent ≤ parent then .ok (.scalar .null origin, line :: rest)
      else if isItem line then items origin line.indent fuel [] (line :: rest)
      else if (splitKey? (skipAnchor line.text)).isSome then
        entries origin line.indent fuel [] (line :: rest)
      else inlineValue origin parent line line.text rest
termination_by structural fuel

private def items (origin : Option String) (indent : Nat) (fuel : Nat) (done : List Setting)
    (lines : List Line) : Result (Setting × List Line) :=
  match fuel with
  | 0 => .error "recursion limit exceeded"
  | fuel + 1 =>
    let ended : Result (Setting × List Line) := .ok (.list done origin, skipEmpty lines)
    match skipEmpty lines with
    | [] => ended
    | line :: rest =>
      if line.indent = indent && isItem line then
        let after := line.text.tail
        let text := after.dropWhile isBlank
        let part :=
          if text.isEmpty || text.head? == some '#' then block origin indent fuel rest
          else
            let moved := indent + 1 + (after.length - text.length)
            block origin indent fuel ({ line with indent := moved, text } :: rest)
        match part with
        | .error e => .error e
        | .ok (v, rest) => items origin indent fuel (done ++ [v]) rest
      else if indent < line.indent then
        failFrom line "while parsing a block collection, did not find expected '-' indicator"
      else ended
termination_by structural fuel

private def entries (origin : Option String) (indent : Nat) (fuel : Nat)
    (done : List (String × Setting)) (lines : List Line) : Result (Setting × List Line) :=
  match fuel with
  | 0 => .error "recursion limit exceeded"
  | fuel + 1 =>
    let ended : Result (Setting × List Line) :=
      .ok (.table (Setting.lastOfEach done) origin, skipEmpty lines)
    match skipEmpty lines with
    | [] => ended
    | line :: rest =>
      if line.indent < indent then ended
      else
        match if line.indent = indent then splitKey? (skipAnchor line.text) else none with
        | none => failFrom line "while parsing a block mapping, did not find expected key"
        | some (key, text) =>
          let text := skipAnchor text
          let part :=
            if text.isEmpty || text.head? == some '#' then
              match skipEmpty rest with
              | next :: _ =>
                if next.indent = indent && isItem next then items origin indent fuel [] rest
                else block origin indent fuel rest
              | [] => block origin indent fuel rest
            else inlineValue origin indent line text rest
          match part with
          | .error e => .error e
          | .ok (v, rest) => entries origin indent fuel (done ++ [(key, v)]) rest
termination_by structural fuel

end

/-! ## Documents -/

private def isMark (mark : String) (line : Line) : Bool :=
  line.indent = 0 && trim (withoutComment line.text) == mark.toList

private def splitLines (text : String) : List Line :=
  ((text.splitOn "\n").zipIdx).map fun (s, i) ↦ Line.ofText (i + 1) s.toList

/-- The documents of a text. -/
private def documents (lines : List Line) : List (List Line) :=
  let parts := (splitAt lines).filter fun part ↦ !(skipEmpty part).isEmpty
  parts
where
  splitAt : List Line → List (List Line)
    | [] => [[]]
    | line :: rest =>
      if isMark "---" line || isMark "..." line then [] :: splitAt rest
      else
        match splitAt rest with
        | part :: parts => (line :: part) :: parts
        | [] => [[line]]

/-- The value of a text. A text without anything in it is an empty table. -/
def read (origin : Option String) (text : String) : Except String Setting :=
  match documents (splitLines text) with
  | [] => .ok (.table [] origin)
  | [lines] =>
    match block origin (-1) (2 * text.length + 2) lines with
    | .error e => .error e
    | .ok (v, rest) =>
      match skipEmpty rest with
      | [] => .ok v
      | line :: _ => failFrom line "did not find expected <document start>"
  | parts => .error ("Got " ++ toString parts.length ++ " YAML documents, expected 1")

end Yaml

end Outbound
