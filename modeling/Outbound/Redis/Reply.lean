import Outbound.Error
import Outbound.Text.Number
import Outbound.Text.Quoted
import Outbound.Width

/-!
# Replies of a Redis server

A reply is nothing, a number, bytes, a list, or a short text; it is read as the value that a
command asks for.
-/

namespace Outbound.Redis

inductive Reply where
  | nil
  | int (n : Int)
  | data (bytes : List UInt8)
  | bulk (items : List Reply)
  | status (text : String)
  /-- The status `OK`. -/
  | okay
deriving Inhabited

namespace Reply

/-- Bytes as text, if they are UTF-8. -/
def textOf? (bytes : List UInt8) : Option String :=
  String.fromUTF8? ⟨bytes.toArray⟩

def ofText (s : String) : Reply :=
  .data s.toUTF8.toList

mutual

/-- What an error message shows of a reply. -/
def shown : Reply → String
  | nil => "nil"
  | int n => "int(" ++ toString n ++ ")"
  | data bytes =>
    match textOf? bytes with
    | some s => "string-data('" ++ Text.quoted s ++ "')"
    | none => "binary-data([" ++ ", ".intercalate (bytes.map toString) ++ "])"
  | bulk items => "bulk(" ++ ", ".intercalate (shownItems items) ++ ")"
  | status text => "status(" ++ Text.quoted text ++ ")"
  | okay => "ok"

def shownItems : List Reply → List String
  | [] => []
  | r :: rest => shown r :: shownItems rest

end

/-- The reply is not of the type asked for. -/
def incompatible {α : Type} (r : Reply) (detail : String) : Except Error α :=
  .error (.reply .typeError "Response was of incompatible type"
    (some ("\"" ++ detail ++ "\" (response was " ++ r.shown ++ ")")))

private def notText {α : Type} : Except Error α :=
  .error (.reply .typeError "Cannot convert from UTF-8" none)

/-- A whole number below `2 ^ 64`. -/
def cursorOf? (s : String) : Option Nat :=
  (Text.unsigned? s).filter fun n ↦ fitsUnsigned n

private def parsed (r : Reply) (s : String) : Except Error Nat :=
  match cursorOf? s with
  | some n => .ok n
  | none => r.incompatible "Could not convert from string."

/-- A cursor. A negative number stands for its two's complement. -/
def toCursor (r : Reply) : Except Error Nat :=
  match r with
  | int n => .ok (n % 0x10000000000000000).toNat
  | status text => r.parsed text
  | data bytes =>
    match textOf? bytes with
    | some s => r.parsed s
    | none => notText
  | _ => r.incompatible "Response type not convertible to numeric."

def toText (r : Reply) : Except Error String :=
  match r with
  | data bytes =>
    match textOf? bytes with
    | some s => .ok s
    | none => notText
  | okay => .ok "OK"
  | status text => .ok text
  | _ => r.incompatible "Response type not string compatible."

/-- A list of texts. A single text is a list of one, and nothing a list of none. -/
def toTexts (r : Reply) : Except Error (List String) :=
  match r with
  | data _ => (fun s ↦ [s]) <$> r.toText
  | bulk items => items.mapM toText
  | nil => .ok []
  | _ => r.incompatible "Response type not vector compatible."

/-- A cursor with a list of texts. -/
def toPage (r : Reply) : Except Error (Nat × List String) :=
  match r with
  | bulk [cursor, items] => do return (← cursor.toCursor, ← items.toTexts)
  | bulk _ => r.incompatible "Bulk response of wrong dimension"
  | _ => r.incompatible "Not a bulk response"

/-- A page, or none for nothing. -/
def toPage? (r : Reply) : Except Error (Option (Nat × List String)) :=
  match r with
  | nil => .ok none
  | _ => some <$> r.toPage

end Reply

/-- What a command is answered. -/
abbrev Answer := Except Error Reply

end Outbound.Redis
