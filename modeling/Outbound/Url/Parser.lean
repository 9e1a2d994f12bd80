import Outbound.Url

/-!
# Reading URLs

A text is read on its own, or against a base whose parts it takes over where it has none. Blanks
around it, and tabs and line ends anywhere in it, do not count.
-/

namespace Outbound.Url

/-- Where the structure of a text says what it is relative to. -/
private structure Parts where
  /-- What stands before query and fragment. -/
  body : List Char
  query : Option (List Char)
  fragment : Option (List Char)

/-- The text before the first mark, and what comes behind it. -/
def cutAt (mark : Char) : List Char → List Char × Option (List Char)
  | [] => ([], none)
  | c :: rest =>
    if c == mark then ([], some rest)
    else
      let (before, after) := cutAt mark rest
      (c :: before, after)

private def partsOf (cs : List Char) : Parts :=
  let (rest, fragment) := cutAt '#' cs
  let (body, query) := cutAt '?' rest
  ⟨body, query, fragment⟩

/-- The text without blanks around it, and without tabs and line ends. -/
def clean (s : String) : List Char :=
  let trimmed := s.toList.dropWhile (· ≤ ' ')
  let trimmed := (trimmed.reverse.dropWhile (· ≤ ' ')).reverse
  trimmed.filter fun c ↦ c != '\t' && c != '\n' && c != '\r'

private def isSchemeChar (c : Char) : Bool :=
  c.isAlphanum || c == '+' || c == '-' || c == '.'

/-- The scheme before a colon, in small letters, and what follows. -/
def splitScheme? (cs : List Char) : Option (String × List Char) :=
  match cs.span isSchemeChar with
  | (c :: scheme, ':' :: rest) =>
    if c.isAlpha then some (String.ofList ((c :: scheme).map Char.toLower), rest) else none
  | _ => none

/-- Slashes, and in special URLs backslashes too, divide a path. -/
private def isSlash (special : Bool) (c : Char) : Bool :=
  c == '/' || (special && c == '\\')

private def dotForms : List String := [".", "%2e"]

/-- A segment that stands for its own place. -/
def isSingleDot (segment : String) : Bool :=
  dotForms.contains segment.toLower

/-- A segment that takes back the one before it. -/
def isDoubleDot (segment : String) : Bool :=
  let lower := segment.toLower
  dotForms.any fun a ↦ dotForms.any fun b ↦ lower == a ++ b

/-- Puts segments behind those already there. Dots are resolved, and leave an empty segment where
they are the last. -/
def resolve (done : List String) : List String → List String
  | [] => done
  | segment :: rest =>
    if isDoubleDot segment then
      resolve (done.dropLast ++ (if rest.isEmpty then [""] else [])) rest
    else if isSingleDot segment then resolve (done ++ (if rest.isEmpty then [""] else [])) rest
    else resolve (done ++ [segment]) rest

/-- The path after a slash, or after the directory of a base. -/
private def pathFrom (special : Bool) (start : List String) (cs : List Char) : List String :=
  resolve start ((splitAtAll (isSlash special) cs).map (Percent.encode Percent.inPath))

/-- The path behind an authority. -/
private def pathAfterHost (special : Bool) (cs : List Char) : List String :=
  match cs with
  | [] => if special then [""] else []
  | c :: rest => pathFrom special [] (if isSlash special c then rest else c :: rest)

private def finish (url : Url) (parts : Parts) : Url :=
  let inQuery :=
    if isSpecialScheme url.scheme then Percent.inSpecialQuery else Percent.inQuery
  { url with
    query := parts.query.map (Percent.encode inQuery)
    fragment := parts.fragment.map (Percent.encode Percent.inFragment) }

/-- The text before and after the last `@`. -/
private def cutUserinfo (cs : List Char) : Option (List Char) × List Char :=
  let back := cs.reverse
  match cutAt '@' back with
  | (_, none) => (none, cs)
  | (host, some user) => (some user.reverse, host.reverse)

/-- The text before the first colon outside brackets, and what comes behind it. -/
private def cutPort (inside : Bool) : List Char → List Char × Option (List Char)
  | [] => ([], none)
  | c :: rest =>
    if c == ':' && !inside then ([], some rest)
    else
      let (host, port) := cutPort (c == '[' || (inside && c != ']')) rest
      (c :: host, port)

private def readPort (scheme : String) (cs : List Char) : Except UrlError (Option Nat) :=
  let n := cs.foldl (fun n c ↦ n * 10 + (c.toNat - 48)) 0
  if cs.isEmpty then .ok none
  else if !cs.all Char.isDigit || 65535 < n then .error .invalidPort
  else .ok (if defaultPort? scheme == some n then none else some n)

/-- Reads user, host and port. `more` says that something follows the authority. -/
private def readAuthority (scheme : String) (cs : List Char) (more : Bool) :
    Except UrlError Url := do
  let special := isSpecialScheme scheme
  let (userinfo, rest) := cutUserinfo cs
  let (user, password) := cutAt ':' (userinfo.getD [])
  if userinfo == some [] && rest.isEmpty && more then .error .emptyHost
  else
    let (hostText, portText) := cutPort false rest
    if special && hostText.isEmpty then .error .emptyHost
    else
      let host ← if special then Host.parseSpecial hostText else Host.parseOpaque hostText
      if hostText.isEmpty && portText.isSome then .error .emptyHost
      else
        let port ← readPort scheme (portText.getD [])
        let password := (password.filter (!·.isEmpty)).map (Percent.encode Percent.inUserinfo)
        let username := Percent.encode Percent.inUserinfo user
        if hostText.isEmpty && (!username.isEmpty || password.isSome) then .error .emptyHost
        else .ok { scheme, username, password, host := some host, port }

/-- What stands behind two slashes. -/
private def afterSlashes (scheme : String) (cs : List Char) (parts : Parts) :
    Except UrlError Url := do
  let special := isSpecialScheme scheme
  let (authority, path) := cs.span (!isSlash special ·)
  let more := !path.isEmpty || parts.query.isSome || parts.fragment.isSome
  let url ← readAuthority scheme authority more
  return finish { url with path := .segments (pathAfterHost special path) } parts

/-- Takes the directory of a path. -/
private def directory : UrlPath → List String
  | .segments segments => segments.dropLast
  | .unstructured _ => []

/-- A text without a scheme of its own, against a base. -/
private def relative (base : Url) (cs : List Char) : Except UrlError Url :=
  let special := isSpecialScheme base.scheme
  let parts := partsOf cs
  match parts.body with
  | [] =>
    let kept := { base with fragment := parts.fragment.map (Percent.encode Percent.inFragment) }
    match parts.query with
    | some _ => .ok (finish base parts)
    | none => .ok kept
  | '/' :: '/' :: rest =>
    afterSlashes base.scheme (if special then rest.dropWhile (isSlash true) else rest) parts
  | c :: rest =>
    if isSlash true c then
      if (rest.head?).any (isSlash true) then
        afterSlashes base.scheme (rest.dropWhile (isSlash true)) parts
      else .ok (finish { base with path := .segments (pathFrom special [] rest) } parts)
    else
      .ok (finish { base with path := .segments (pathFrom special (directory base.path) (c :: rest)) }
        parts)

/-- Empty segments at the start of a path of a file do not count. -/
private def trimFile : List String → List String
  | "" :: segment :: rest => trimFile (segment :: rest)
  | segments => segments

/-- A file, with a host behind two slashes. -/
private def file (cs : List Char) (base : Option Url) : Except UrlError Url := do
  let parts := partsOf cs
  let build (host : Host) (path : List String) : Url :=
    finish { scheme := "file", host := some host, path := .segments (trimFile path) } parts
  match parts.body with
  | a :: b :: rest =>
    if isSlash true a && isSlash true b then
      let (hostText, path) := rest.span (!isSlash true ·)
      let host ← if hostText.isEmpty then .ok (.domain "") else Host.parseSpecial hostText
      let host := if host = .domain "localhost" then .domain "" else host
      return build host (pathAfterHost true path)
    else if isSlash true a then
      let host := (base.bind (·.host)).getD (.domain "")
      return build host (pathFrom true [] (b :: rest))
    else
      match base with
      | some base => relative base cs
      | none => return build (.domain "") (pathFrom true [] parts.body)
  | _ =>
    match base with
    | some base => relative base cs
    | none => return build (.domain "") (pathAfterHost true parts.body)

/-- What stands behind the scheme and its colon. -/
private def afterScheme (scheme : String) (cs : List Char) (base : Option Url) :
    Except UrlError Url :=
  let parts := partsOf cs
  let base := base.filter (·.scheme == scheme)
  if scheme == "file" then file cs base
  else if isSpecialScheme scheme then
    let (slashes, rest) := parts.body.span (isSlash true)
    match base with
    | some base =>
      if slashes.length < 2 then relative base cs else afterSlashes scheme rest parts
    | none => afterSlashes scheme rest parts
  else
    match parts.body with
    | '/' :: '/' :: rest => afterSlashes scheme rest parts
    | '/' :: rest => .ok (finish { scheme, path := .segments (pathFrom false [] rest) } parts)
    | body =>
      .ok (finish { scheme, path := .unstructured (Percent.encode Percent.inControls body) } parts)

/-- Reads a text against a base, if there is one. -/
def read (base : Option Url) (s : String) : Except UrlError Url :=
  let cs := clean s
  match splitScheme? cs with
  | some (scheme, rest) => afterScheme scheme rest base
  | none =>
    match base with
    | none => .error .noBase
    | some base =>
      match cs, base.path with
      | '#' :: fragment, _ =>
        .ok { base with fragment := some (Percent.encode Percent.inFragment fragment) }
      | _, .unstructured _ => .error .opaqueBase
      | _, _ => if base.scheme == "file" then file cs (some base) else relative base cs

def parse (s : String) : Except UrlError Url :=
  read none s

end Outbound.Url
