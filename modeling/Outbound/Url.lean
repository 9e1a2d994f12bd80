import Outbound.Url.Host

/-!
# URLs

A URL in its parts, each in the form in which it is written, and the text of the whole. Special
schemes are those of the web; they have a host and a default port.
-/

namespace Outbound

inductive UrlPath where
  /-- The segments between slashes. -/
  | segments (segments : List String)
  /-- A path that does not begin with a slash and has no structure. -/
  | unstructured (text : String)
deriving Repr, DecidableEq

structure Url where
  scheme : String
  username : String := ""
  password : Option String := none
  /-- None where there is no authority; a host without a name is the empty domain. -/
  host : Option Host := none
  port : Option Nat := none
  path : UrlPath := .segments []
  query : Option String := none
  fragment : Option String := none
deriving Repr, DecidableEq

namespace Url

def isSpecialScheme (scheme : String) : Bool :=
  ["http", "https", "ws", "wss", "ftp", "file"].contains scheme

def defaultPort? : String → Option Nat
  | "http" => some 80
  | "ws" => some 80
  | "https" => some 443
  | "wss" => some 443
  | "ftp" => some 21
  | _ => none

/-- The host, unless it is missing or has no name. -/
def host? (url : Url) : Option Host :=
  match url.host with
  | some (.domain "") => none
  | host => host

/-- The path as it is written. -/
def pathText (url : Url) : String :=
  match url.path with
  | .segments segments => "".intercalate (segments.map ("/" ++ ·))
  | .unstructured text => text

private def userinfoText (url : Url) : String :=
  match url.password with
  | some password => url.username ++ ":" ++ password ++ "@"
  | none => if url.username.isEmpty then "" else url.username ++ "@"

private def portText (url : Url) : String :=
  match url.port with
  | some port => ":" ++ toString port
  | none => ""

private def authorityText (url : Url) : String :=
  match url.host, url.path with
  | some host, _ => "//" ++ url.userinfoText ++ host.text ++ url.portText
  | none, .segments ("" :: _ :: _) => "/."
  | none, _ => ""

/-- A part behind its mark. -/
private def marked (mark : String) : Option String → String
  | some part => mark ++ part
  | none => ""

def text (url : Url) : String :=
  url.scheme ++ ":" ++ url.authorityText ++ url.pathText ++ marked "?" url.query ++
    marked "#" url.fragment

end Url

end Outbound
