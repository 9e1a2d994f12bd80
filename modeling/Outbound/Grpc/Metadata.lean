import Outbound.Error
import Outbound.Http.Header
import Outbound.Text.Quoted

/-!
# Metadata of gRPC calls

Configured entries are stamped on every call, in place of entries of the same key. Keys of binary
entries are not allowed.
-/

namespace Outbound.Grpc

/-- The key in lower case, if it is one of a text entry. -/
def metadataKey? (s : String) : Option String := do
  let key ← Header.name? s
  if "-bin".toList.isSuffixOf key.toList then none else some key

/-- The entry of a configured header. -/
def metadataEntry (name value : String) : Outcome (String × String) :=
  match metadataKey? name with
  | none =>
    .error (.config ("invalid metadata key " ++ Text.quoted name ++
      ": invalid gRPC metadata key name"))
  | some key =>
    if Header.isValue value then .ok (key, value)
    else
      .error (.config ("invalid value for metadata " ++ name ++
        ": failed to parse metadata value"))

/-- The header can be sent as an entry. -/
def IsMetadata (name value : String) : Prop :=
  (metadataKey? name).isSome = true ∧ Header.isValue value = true

theorem metadataEntry_eq_ok_iff {name value : String} {x : String × String} :
    metadataEntry name value = .ok x ↔
      metadataKey? name = some x.1 ∧ Header.isValue value = true ∧ x.2 = value := by
  obtain ⟨key, v⟩ := x
  cases hkey : metadataKey? name with
  | none => simp [metadataEntry, hkey]
  | some k =>
    cases hvalue : Header.isValue value with
    | false => simp [metadataEntry, hkey, hvalue]
    | true => simp [metadataEntry, hkey, hvalue, eq_comm]

/-- The entries of all configured headers, or the first error. -/
def metadataEntries (headers : List (String × String)) : Outcome Headers :=
  headers.mapM fun (name, value) ↦ metadataEntry name value

/-- Stamps entries on the metadata of a call. -/
def stamp (entries existing : Headers) : Headers :=
  existing.extend entries

end Outbound.Grpc
