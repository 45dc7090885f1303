import LedgerClient.Json.Basic

namespace LedgerClient

structure NodeEntry where
  accountId : String
  address : String
deriving DecidableEq, Repr

structure ExecutionSettings where
  maxAttempts : Option UInt32 := none
  minBackoffMillis : UInt64 := 250
  maxBackoffMillis : UInt64 := 8000
  regenerate : Bool := true
  maxNodes : UInt64 := 0
deriving DecidableEq, Repr

structure PenaltySettings where
  minMillis : UInt64 := 8000
  maxMillis : UInt64 := 3600000
deriving DecidableEq, Repr

structure TransportSettings where
  connectTimeoutMillis : UInt64 := 5000
  requestTimeoutMillis : UInt64 := 10000
deriving DecidableEq, Repr

structure ObservabilitySettings where
  logLevel : String := "off"
  metricsEnabled : Bool := false
  metricsAddress : String := "127.0.0.1:9091"
deriving DecidableEq, Repr

structure Config where
  network : List NodeEntry := []
  execution : ExecutionSettings := {}
  penalty : PenaltySettings := {}
  transport : TransportSettings := {}
  operator : Option String := none
  observability : ObservabilitySettings := {}
deriving DecidableEq, Repr

def NodeEntry.json (n : NodeEntry) : Json :=
  .record [("account_id", .text n.accountId), ("address", .text n.address)]

/-- A limit that is not set is left out. -/
def ExecutionSettings.json (e : ExecutionSettings) : Json :=
  let limit := e.maxAttempts.toList.map fun n => ("max_attempts", Json.natural n.toUInt64)
  .record (limit ++ [("min_backoff_ms", .natural e.minBackoffMillis),
    ("max_backoff_ms", .natural e.maxBackoffMillis),
    ("regenerate_transaction_id", .bool e.regenerate),
    ("max_nodes_per_request", .natural e.maxNodes)])

def PenaltySettings.json (p : PenaltySettings) : Json :=
  .record [("min_backoff_ms", .natural p.minMillis), ("max_backoff_ms", .natural p.maxMillis)]

def TransportSettings.json (t : TransportSettings) : Json :=
  .record [("connect_timeout_ms", .natural t.connectTimeoutMillis),
    ("request_timeout_ms", .natural t.requestTimeoutMillis)]

def ObservabilitySettings.json (o : ObservabilitySettings) : Json :=
  .record [("log_level", .text o.logLevel), ("metrics_enabled", .bool o.metricsEnabled),
    ("metrics_address", .text o.metricsAddress)]

/-- An operator that is not set is written as `null`. -/
def Config.json (c : Config) : Json :=
  let operator := match c.operator with
    | none => Json.null
    | some id => .record [("account_id", .text id)]
  .record [("network", .list (c.network.map NodeEntry.json)), ("execution", c.execution.json),
    ("node_backoff", c.penalty.json), ("transport", c.transport.json), ("operator", operator),
    ("observability", c.observability.json)]

end LedgerClient
