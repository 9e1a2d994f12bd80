/-!
# Metrics

Counters and distributions by name and labels. A distribution keeps every value in order.
-/

namespace Outbound

/-- A metric's name with its labels in the order of their names. -/
structure MetricKey where
  name : String
  labels : List (String × String)
deriving Repr, DecidableEq

inductive Metric where
  | counter (total : Nat)
  | distribution (values : List Nat)
  /-- Durations, of which only the number is kept. -/
  | timings (count : Nat)
deriving Repr, DecidableEq

/-- All metrics touched so far. -/
abbrev Metrics := List (MetricKey × Metric)

namespace Metrics

/-- Changes the metric of a key, or starts it. -/
def update (f : Option Metric → Metric) (key : MetricKey) : Metrics → Metrics
  | [] => [(key, f none)]
  | (k, m) :: rest => if k = key then (k, f (some m)) :: rest else (k, m) :: update f key rest

def count (metrics : Metrics) (key : MetricKey) : Metrics :=
  update (fun m ↦
    match m with
    | some (.counter n) => .counter (n + 1)
    | _ => .counter 1) key metrics

def record (metrics : Metrics) (key : MetricKey) (value : Nat) : Metrics :=
  update (fun m ↦
    match m with
    | some (.distribution values) => .distribution (values ++ [value])
    | _ => .distribution [value]) key metrics

def time (metrics : Metrics) (key : MetricKey) : Metrics :=
  update (fun m ↦
    match m with
    | some (.timings n) => .timings (n + 1)
    | _ => .timings 1) key metrics

/-- How far a counter has come. -/
def total (metrics : Metrics) (key : MetricKey) : Nat :=
  match List.lookup key metrics with
  | some (.counter n) => n
  | _ => 0

/-- The values of a distribution. -/
def values (metrics : Metrics) (key : MetricKey) : List Nat :=
  match List.lookup key metrics with
  | some (.distribution values) => values
  | _ => []

section Update

variable (f : Option Metric → Metric) (metrics : Metrics) (key : MetricKey)

theorem lookup_update_self :
    List.lookup key (update f key metrics) = some (f (List.lookup key metrics)) := by
  induction metrics with
  | nil => simp [update]
  | cons entry rest ih =>
    obtain ⟨k, m⟩ := entry
    by_cases hk : k = key
    · simp [update, hk]
    · have hne : (key == k) = false := beq_eq_false_iff_ne.2 (Ne.symm hk)
      simp only [update, if_neg hk, List.lookup_cons, hne, ih]

theorem lookup_update_of_ne {key' : MetricKey} (h : key' ≠ key) :
    List.lookup key' (update f key metrics) = List.lookup key' metrics := by
  induction metrics with
  | nil => simp [update, List.lookup_cons, beq_eq_false_iff_ne.2 h]
  | cons entry rest ih =>
    obtain ⟨k, m⟩ := entry
    by_cases hk : k = key
    · simp [update, hk, List.lookup_cons, beq_eq_false_iff_ne.2 h]
    · simp only [update, if_neg hk, List.lookup_cons, ih]

end Update

theorem total_count (metrics : Metrics) (key key' : MetricKey) :
    (metrics.count key).total key' = metrics.total key' + if key' = key then 1 else 0 := by
  by_cases h : key' = key
  · subst h
    simp only [total, count, lookup_update_self, if_pos]
    rcases List.lookup key' metrics with _ | n | values | n <;> rfl
  · simp only [total, count, lookup_update_of_ne _ _ _ h, if_neg h, Nat.add_zero]

theorem values_count_of_ne {key key' : MetricKey} (h : key' ≠ key) (metrics : Metrics) :
    (metrics.count key).values key' = metrics.values key' := by
  simp only [values, count, lookup_update_of_ne _ _ _ h]

theorem values_record (metrics : Metrics) (key key' : MetricKey) (value : Nat) :
    (metrics.record key value).values key' =
      metrics.values key' ++ if key' = key then [value] else [] := by
  by_cases h : key' = key
  · subst h
    simp only [values, record, lookup_update_self, if_pos]
    rcases List.lookup key' metrics with _ | n | values | n <;> rfl
  · simp only [values, record, lookup_update_of_ne _ _ _ h, if_neg h, List.append_nil]

theorem total_record_of_ne {key key' : MetricKey} (h : key' ≠ key) (metrics : Metrics)
    (value : Nat) : (metrics.record key value).total key' = metrics.total key' := by
  simp only [total, record, lookup_update_of_ne _ _ _ h]

end Metrics

namespace MetricKey

/-- Items per dispatched batch. -/
def batchSize (batcher : String) : MetricKey :=
  ⟨"service_kit_batch_size", [("batcher", batcher)]⟩

/-- Attempts to refresh a client, by outcome. -/
def clientRefresh (client outcome : String) : MetricKey :=
  ⟨"service_kit_client_refresh_total", [("client", client), ("outcome", outcome)]⟩

/-- Round trips to a node, by kind and outcome. -/
def rpcRequests (kind outcome : String) : MetricKey :=
  ⟨"service_kit_rpc_requests_total", [("kind", kind), ("outcome", outcome)]⟩

def rpcSeconds (kind : String) : MetricKey :=
  ⟨"service_kit_rpc_request_duration_seconds", [("kind", kind)]⟩

/-- Repeated attempts at a batch of calls. -/
def batchRetries (lane : String) : MetricKey :=
  ⟨"service_kit_eth_batch_retries_total", [("lane", lane)]⟩

/-- Batches of calls that failed for good. -/
def batchFailures (lane : String) : MetricKey :=
  ⟨"service_kit_eth_batch_failures_total", [("lane", lane)]⟩

theorem batchSize_injective : Function.Injective batchSize := by
  intro a b h
  simpa [batchSize] using h

theorem batchRetries_injective : Function.Injective batchRetries := by
  intro a b h
  simpa [batchRetries] using h

theorem batchFailures_injective : Function.Injective batchFailures := by
  intro a b h
  simpa [batchFailures] using h

end MetricKey

end Outbound
