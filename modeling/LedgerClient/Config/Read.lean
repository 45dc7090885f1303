import LedgerClient.Config.Basic
import LedgerClient.Json.Record

namespace LedgerClient

def NodeEntry.ofDocument? (surplus : Bool) (d : Document) : Option NodeEntry :=
  match d.fields? ["account_id", "address"] surplus with
  | some [some accountId, some address] => do return ⟨← accountId.text?, ← address.text?⟩
  | _ => none

def operatorOfDocument? (surplus : Bool) (d : Document) : Option String :=
  match d.fields? ["account_id"] surplus with
  | some [some accountId] => accountId.text?
  | _ => none

def ExecutionSettings.ofDocument? (surplus : Bool) (d : Document) : Option ExecutionSettings :=
  let base : ExecutionSettings := {}
  match d.fields? ["max_attempts", "min_backoff_ms", "max_backoff_ms",
    "regenerate_transaction_id", "max_nodes_per_request"] surplus with
  | some [attempts, least, greatest, regenerate, nodes] => do
    return ⟨← fieldOr base.maxAttempts (Document.nullable? Document.uint32?) attempts,
      ← fieldOr base.minBackoffMillis Document.uint64? least,
      ← fieldOr base.maxBackoffMillis Document.uint64? greatest,
      ← fieldOr base.regenerate Document.bool? regenerate,
      ← fieldOr base.maxNodes Document.uint64? nodes⟩
  | _ => none

def PenaltySettings.ofDocument? (surplus : Bool) (d : Document) : Option PenaltySettings :=
  let base : PenaltySettings := {}
  match d.fields? ["min_backoff_ms", "max_backoff_ms"] surplus with
  | some [least, greatest] => do
    return ⟨← fieldOr base.minMillis Document.uint64? least,
      ← fieldOr base.maxMillis Document.uint64? greatest⟩
  | _ => none

def TransportSettings.ofDocument? (surplus : Bool) (d : Document) : Option TransportSettings :=
  let base : TransportSettings := {}
  match d.fields? ["connect_timeout_ms", "request_timeout_ms"] surplus with
  | some [connect, request] => do
    return ⟨← fieldOr base.connectTimeoutMillis Document.uint64? connect,
      ← fieldOr base.requestTimeoutMillis Document.uint64? request⟩
  | _ => none

def ObservabilitySettings.ofDocument? (surplus : Bool) (d : Document) :
    Option ObservabilitySettings :=
  let base : ObservabilitySettings := {}
  match d.fields? ["log_level", "metrics_enabled", "metrics_address"] surplus with
  | some [level, enabled, address] => do
    return ⟨← fieldOr base.logLevel Document.text? level,
      ← fieldOr base.metricsEnabled Document.bool? enabled,
      ← fieldOr base.metricsAddress Document.text? address⟩
  | _ => none

/-- All that is left out keeps its default, but for the parts of a node and of an operator. Lists
that give fields by their places may have a surplus where that is said. -/
def Config.ofDocument? (surplus : Bool) (d : Document) : Option Config :=
  match d.fields? ["network", "execution", "node_backoff", "transport", "operator",
    "observability"] surplus with
  | some [network, execution, penalty, transport, operator, observability] => do
    let nodes (d : Document) : Option (List NodeEntry) :=
      d.items?.bind fun items => items.mapM (NodeEntry.ofDocument? surplus)
    return ⟨← fieldOr [] nodes network,
      ← fieldOr {} (ExecutionSettings.ofDocument? surplus) execution,
      ← fieldOr {} (PenaltySettings.ofDocument? surplus) penalty,
      ← fieldOr {} (TransportSettings.ofDocument? surplus) transport,
      ← fieldOr none (Document.nullable? (operatorOfDocument? surplus)) operator,
      ← fieldOr {} (ObservabilitySettings.ofDocument? surplus) observability⟩
  | _ => none

/-- The configuration in a JSON text. -/
def Config.ofJsonText? (text : String) : Option Config :=
  (Document.parse? text.toList).bind (Config.ofDocument? false)

end LedgerClient
