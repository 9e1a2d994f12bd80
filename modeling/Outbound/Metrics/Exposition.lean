import Outbound.Metrics

/-!
# Metrics as text

Each metric is a line with its name, its labels and its value, and each name has a line with its
type. Of distributions there are the number of values and their sum, of durations only the
number.
-/

namespace Outbound

namespace Metrics

/-- Adds what was measured to what was measured before. -/
def join (before : Metrics) (after : Metrics) : Metrics :=
  after.foldl (fun metrics (key, metric) ↦
    update (fun old ↦
      match old, metric with
      | some (.counter m), .counter n => .counter (m + n)
      | some (.distribution vs), .distribution ws => .distribution (vs ++ ws)
      | some (.timings m), .timings n => .timings (m + n)
      | _, metric => metric) key metrics) before

private def escapeLabel (c : Char) : List Char :=
  if c == '\\' then ['\\', '\\']
  else if c == '"' then ['\\', '"']
  else if c == '\n' then ['\\', 'n']
  else [c]

private def labelText (labels : List (String × String)) : String :=
  let quoted (s : String) : String := "\"" ++ String.ofList (s.toList.flatMap escapeLabel) ++ "\""
  "\x7b" ++ ",".intercalate (labels.map fun (name, value) ↦ name ++ "=" ++ quoted value) ++ "\x7d"

private def entryLines (key : MetricKey) (metric : Metric) : List String :=
  let line (suffix : String) (n : Nat) : String :=
    key.name ++ suffix ++ labelText key.labels ++ " " ++ toString n
  match metric with
  | .counter n => [typeLine "counter", line "" n]
  | .distribution values =>
    [typeLine "summary", line "_count" values.length, line "_sum" (values.foldl (· + ·) 0)]
  | .timings n => [typeLine "summary", line "_count" n]
where
  typeLine (type : String) : String :=
    "# TYPE " ++ key.name ++ " " ++ type

/-- The lines in the order of their text. -/
def exposition (metrics : Metrics) : List String :=
  let lines := (metrics.flatMap fun (key, metric) ↦ entryLines key metric).eraseDups
  lines.mergeSort fun a b ↦ decide (a ≤ b)

end Metrics

end Outbound
