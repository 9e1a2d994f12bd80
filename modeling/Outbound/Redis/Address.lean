import Outbound.Redis.Error
import Outbound.Text.Number
import Outbound.Url.Parser
import Outbound.Width

/-!
# Addresses of Redis servers

An address names a server on a host and port or behind a socket file, and may carry a user, a
password and the number of a database.
-/

namespace Outbound.Redis

inductive Location where
  | tcp (host : String) (port : Nat)
  | unix (path : String)
deriving Repr, DecidableEq

def Location.text : Location → String
  | tcp host port => host ++ ":" ++ toString port
  | unix path => path

structure Address where
  location : Location
  db : Int := 0
  username : Option String := none
  password : Option String := none
deriving Repr, DecidableEq

namespace Address

def defaultPort : Nat := 6379

private def invalid {α : Type} (text : String) : Except Error α :=
  .error (.reply .invalidClientConfig text none)

/-- The number of a database: a signed number of 64 bits. -/
private def readDb (s : String) : Except Error Int :=
  match Text.signed? s with
  | some n => if fitsSigned n then .ok n else invalid "Invalid database number"
  | none => invalid "Invalid database number"

/-- The text without slashes around it. -/
private def trimSlashes (s : String) : String :=
  let cs := s.toList.dropWhile (· == '/')
  String.ofList (cs.reverse.dropWhile (· == '/')).reverse

private def ofTcp (url : Url) : Except Error Address := do
  match url.host? with
  | none => invalid "Missing hostname"
  | some host =>
    if url.scheme == "rediss" then
      invalid "can't connect with TLS, the feature is not enabled"
    else
      let path := trimSlashes url.pathText
      let db ← if path.isEmpty then .ok 0 else readDb path
      let username ←
        if url.username.isEmpty then .ok none
        else
          match Percent.decodeText? url.username with
          | some name => .ok (some name)
          | none => invalid "Username is not valid UTF-8 string"
      let password ←
        match url.password with
        | none => .ok none
        | some password =>
          match Percent.decodeText? password with
          | some password => .ok (some password)
          | none => invalid "Password is not valid UTF-8 string"
      return ⟨.tcp host.bare (url.port.getD defaultPort), db, username, password⟩

/-- Plus signs stand for blanks in the pairs of a query. -/
private def formText (cs : List Char) : String :=
  let s := String.ofList (cs.map fun c ↦ if c == '+' then ' ' else c)
  (Percent.decodeText? s).getD s

/-- The pairs of a query, the last of a key first. -/
private def queryPairs (query : String) : List (String × String) :=
  let parts := (splitAtAll (· == '&') query.toList).filter (!·.isEmpty)
  (parts.map fun part ↦
    let (key, value) := Url.cutAt '=' part
    (formText key, formText (value.getD []))).reverse

private def ofUnix (url : Url) : Except Error Address := do
  match url.host?, url.path with
  | none, .segments (segment :: rest) =>
    let pairs := queryPairs (url.query.getD "")
    let db ←
      match pairs.lookup "db" with
      | some db => readDb db
      | none => .ok 0
    let path := Url.pathText { url with path := .segments (segment :: rest) }
    return ⟨.unix ((Percent.decodeText? path).getD path), db, pairs.lookup "user",
      pairs.lookup "pass"⟩
  | _, _ => invalid "Missing path"

private def ofUrl (s : String) : Except Error Address :=
  match Url.parse s with
  | .error _ => invalid "Redis URL did not parse"
  | .ok url =>
    if url.scheme == "redis" || url.scheme == "rediss" then ofTcp url
    else if url.scheme == "unix" || url.scheme == "redis+unix" then ofUnix url
    else invalid "Redis URL did not parse"

/-- Reads a URL, or a host and port on their own. -/
def parse (s : String) : Except Error Address :=
  if Error.occursIn "://".toList s.toList then ofUrl s else ofUrl ("redis://" ++ s)

end Address

end Outbound.Redis
