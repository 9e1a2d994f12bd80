import Outbound.Http.Header
import Outbound.Text.Hex

/-!
# Propagation of traces and request ids

Requests to other services carry the trace of the current span and the id under which the caller
is known.
-/

namespace Outbound

/-- Vendor data of a trace, in order. -/
abbrev TraceState := List (String × String)

namespace TraceState

private def isPlain (c : Char) : Bool :=
  c.isLower || c.isDigit

private def tailValid : List Char → Bool → Bool
  | [], _ => true
  | '@' :: rest, vendor =>
    !vendor && rest.length < 14 &&
      (match rest with
        | [] => true
        | c :: _ => isPlain c) && tailValid rest true
  | c :: rest, vendor => (isPlain c || "_-*/".toList.contains c) && tailValid rest vendor

/-- Lower-case letters, digits and a few marks, beginning with a letter or digit; behind one
`@` a vendor of at most thirteen characters may follow. -/
def isKey (s : String) : Bool :=
  s.utf8ByteSize ≤ 256 &&
    (match s.toList with
      | [] => true
      | c :: rest => isPlain c && tailValid rest false)

def isValue (s : String) : Bool :=
  s.utf8ByteSize ≤ 256 && !s.toList.contains ',' && !s.toList.contains '='

/-- The pairs, or none of them if one is invalid. -/
def ofPairs (pairs : List (String × String)) : TraceState :=
  if pairs.all fun (k, v) ↦ isKey k && isValue v then pairs else []

def header (state : TraceState) : String :=
  ",".intercalate (state.map fun (k, v) ↦ k ++ "=" ++ v)

end TraceState

/-- A span as other services know it. -/
structure SpanContext where
  traceId : Nat
  spanId : Nat
  sampled : Bool
  state : TraceState

namespace SpanContext

/-- A new span: sampled at the root of a trace, and otherwise if its parent is. Only a sampled
span takes over the state of its parent. -/
def start (traceId spanId : Nat) (parent : Option (Bool × TraceState)) : SpanContext :=
  match parent with
  | none => ⟨traceId, spanId, true, []⟩
  | some (true, state) => ⟨traceId, spanId, true, state⟩
  | some (false, _) => ⟨traceId, spanId, false, []⟩

def isValid (span : SpanContext) : Bool :=
  span.traceId != 0 && span.spanId != 0

private def digitsOf (width n : Nat) : String :=
  let ds := Hex.digits n
  String.ofList (List.replicate (width - ds.length) '0' ++ ds)

/-- Version, trace, span and flags. -/
def traceparent (span : SpanContext) : String :=
  "00-" ++ digitsOf 32 span.traceId ++ "-" ++ digitsOf 16 span.spanId ++
    (if span.sampled then "-01" else "-00")

/-- The fields that a valid span adds. -/
def headers (span : SpanContext) : Headers :=
  if !span.isValid then []
  else
    let parent := Headers.insertValid [] "traceparent" span.traceparent
    let state := TraceState.header span.state
    if state.isEmpty then parent else parent.insertValid "tracestate" state

end SpanContext

/-- The fields of a request: the trace of the current span, and the caller's request id or, if it
has none, the one given instead. -/
def propagationHeaders (span : Option SpanContext) (requestId fallback : Option String) : Headers :=
  let headers :=
    match span with
    | some span => span.headers
    | none => []
  match requestId <|> fallback with
  | some id => headers.insertValid "x-request-id" id
  | none => headers

end Outbound
