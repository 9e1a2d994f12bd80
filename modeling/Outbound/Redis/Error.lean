/-!
# Redis errors

An error is a failed socket operation or something the client library or the server said, with
a kind, a description and perhaps a detail. `isRefused` and `isLost` say which errors mean that
a connection cannot be trusted any more.
-/

namespace Outbound.Redis

/-- Kinds of a failed socket operation. -/
inductive IoKind where
  | notFound
  | permissionDenied
  | connectionRefused
  | connectionReset
  | hostUnreachable
  | networkUnreachable
  | connectionAborted
  | notConnected
  | addrInUse
  | addrNotAvailable
  | networkDown
  | brokenPipe
  | alreadyExists
  | wouldBlock
  | invalidInput
  | invalidData
  | timedOut
  | writeZero
  | interrupted
  | unsupported
  | unexpectedEof
  | outOfMemory
  | other
deriving Repr, DecidableEq

namespace IoKind

/-- The name of a kind, and the text shown when an error has none of its own. -/
def labels : IoKind → String × String
  | notFound => ("NotFound", "entity not found")
  | permissionDenied => ("PermissionDenied", "permission denied")
  | connectionRefused => ("ConnectionRefused", "connection refused")
  | connectionReset => ("ConnectionReset", "connection reset")
  | hostUnreachable => ("HostUnreachable", "host unreachable")
  | networkUnreachable => ("NetworkUnreachable", "network unreachable")
  | connectionAborted => ("ConnectionAborted", "connection aborted")
  | notConnected => ("NotConnected", "not connected")
  | addrInUse => ("AddrInUse", "address in use")
  | addrNotAvailable => ("AddrNotAvailable", "address not available")
  | networkDown => ("NetworkDown", "network down")
  | brokenPipe => ("BrokenPipe", "broken pipe")
  | alreadyExists => ("AlreadyExists", "entity already exists")
  | wouldBlock => ("WouldBlock", "operation would block")
  | invalidInput => ("InvalidInput", "invalid input parameter")
  | invalidData => ("InvalidData", "invalid data")
  | timedOut => ("TimedOut", "timed out")
  | writeZero => ("WriteZero", "write zero")
  | interrupted => ("Interrupted", "operation interrupted")
  | unsupported => ("Unsupported", "unsupported")
  | unexpectedEof => ("UnexpectedEof", "unexpected end of file")
  | outOfMemory => ("OutOfMemory", "out of memory")
  | other => ("Other", "other error")

def all : List IoKind :=
  [notFound, permissionDenied, connectionRefused, connectionReset, hostUnreachable,
    networkUnreachable, connectionAborted, notConnected, addrInUse, addrNotAvailable, networkDown,
    brokenPipe, alreadyExists, wouldBlock, invalidInput, invalidData, timedOut, writeZero,
    interrupted, unsupported, unexpectedEof, outOfMemory, other]

def ofName? (name : String) : Option IoKind :=
  all.find? fun kind ↦ kind.labels.1 == name

end IoKind

/-- Kinds of an error that is no socket failure of its own. -/
inductive ReplyKind where
  | responseError
  | parseError
  | authenticationFailed
  | typeError
  | execAbortError
  | busyLoadingError
  | noScriptError
  | invalidClientConfig
  | moved
  | ask
  | tryAgain
  | clusterDown
  | crossSlot
  | masterDown
  | ioError
  | clientError
  | extensionError
  | readOnly
  | masterNameNotFoundBySentinel
  | noValidReplicasFoundBySentinel
  | emptySentinelList
  | notBusy
  | clusterConnectionNotFound
deriving Repr, DecidableEq

namespace ReplyKind

def name : ReplyKind → String
  | responseError => "ResponseError"
  | parseError => "ParseError"
  | authenticationFailed => "AuthenticationFailed"
  | typeError => "TypeError"
  | execAbortError => "ExecAbortError"
  | busyLoadingError => "BusyLoadingError"
  | noScriptError => "NoScriptError"
  | invalidClientConfig => "InvalidClientConfig"
  | moved => "Moved"
  | ask => "Ask"
  | tryAgain => "TryAgain"
  | clusterDown => "ClusterDown"
  | crossSlot => "CrossSlot"
  | masterDown => "MasterDown"
  | ioError => "IoError"
  | clientError => "ClientError"
  | extensionError => "ExtensionError"
  | readOnly => "ReadOnly"
  | masterNameNotFoundBySentinel => "MasterNameNotFoundBySentinel"
  | noValidReplicasFoundBySentinel => "NoValidReplicasFoundBySentinel"
  | emptySentinelList => "EmptySentinelList"
  | notBusy => "NotBusy"
  | clusterConnectionNotFound => "ClusterConnectionNotFound"

def all : List ReplyKind :=
  [responseError, parseError, authenticationFailed, typeError, execAbortError, busyLoadingError,
    noScriptError, invalidClientConfig, moved, ask, tryAgain, clusterDown, crossSlot, masterDown,
    ioError, clientError, extensionError, readOnly, masterNameNotFoundBySentinel,
    noValidReplicasFoundBySentinel, emptySentinelList, notBusy, clusterConnectionNotFound]

def ofName? (s : String) : Option ReplyKind :=
  all.find? fun kind ↦ kind.name == s

end ReplyKind

inductive Error where
  /-- A socket failure; without a text the kind's own is shown. -/
  | io (kind : IoKind) (text : Option String)
  | reply (kind : ReplyKind) (desc : String) (detail : Option String)
  /-- An error code of the server that has no kind here. -/
  | coded (code : String) (detail : String)
deriving Repr, DecidableEq

namespace Error

def message : Error → String
  | io kind text => text.getD kind.labels.2
  | reply kind desc none => desc ++ "- " ++ kind.name
  | reply kind desc (some detail) => desc ++ " - " ++ kind.name ++ ": " ++ detail
  | coded code detail => code ++ ": " ++ detail

/-- Whether `part` occurs in `text`. -/
def occursIn (part : List Char) : List Char → Bool
  | [] => part.isEmpty
  | c :: rest => part.isPrefixOf (c :: rest) || occursIn part rest

/-- The server does not accept connections: a refused dial, a missing socket file, or a message
that says so in any letter case. -/
def isRefused (e : Error) : Bool :=
  (match e with
    | io .connectionRefused _ => true
    | io .notFound _ => true
    | _ => false) ||
  occursIn "connection refused".toList (e.message.toList.map Char.toLower)

def isSocketFailure : Error → Bool
  | io _ _ => true
  | reply .ioError _ _ => true
  | _ => false

/-- The connection cannot be trusted any more. -/
def isLost (e : Error) : Bool :=
  e.isRefused || e.isSocketFailure

theorem isLost_io (kind : IoKind) (text : Option String) : (io kind text).isLost = true := by
  simp [isLost, isSocketFailure]

end Error

end Outbound.Redis
