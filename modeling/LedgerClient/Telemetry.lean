import LedgerClient.Client
import LedgerClient.Json.Basic

namespace LedgerClient

inductive Severity
  | trace
  | debug
  | info
  | warn
deriving DecidableEq, Repr

def Severity.name : Severity → String
  | .trace => "TRACE"
  | .debug => "DEBUG"
  | .info => "INFO"
  | .warn => "WARN"

structure LogRecord where
  severity : Severity
  message : String
  fields : List (String × Json)

def countField (name : String) (n : Nat) : String × Json :=
  (name, .natural (UInt64.ofNat n))

/-- A span in whole milliseconds. -/
def millisField (name : String) (nanos : Nat) : String × Json :=
  countField name (nanos / 1000000)

def nodeField (node : AccountId) : String × Json :=
  ("node", .text node.text)

/-- The record of a decision; executions are told apart by a number. -/
def Event.log (execution : Nat) (e : Event) : LogRecord :=
  let id := countField "request_id" execution
  match e with
  | .nodeSelected attempt node address =>
    ⟨.trace, "Executing request",
      [id, countField "attempt" attempt, nodeField node, ("address", .text address.text)]⟩
  | .nodeUnhealthy node wait =>
    ⟨.trace, "Node is unhealthy, waiting before continuing",
      [id, nodeField node, millisField "wait_ms" wait]⟩
  | .channelFailed node fault =>
    ⟨.debug, "Failed to open channel", [id, nodeField node, ("error", .text fault.text)]⟩
  | .callFailed node fault true =>
    ⟨.debug, "Transient transport error, retrying",
      [id, nodeField node, ("code", .text fault.code.name)]⟩
  | .callFailed node fault false =>
    ⟨.warn, "Transport error", [id, nodeField node, ("error", .text fault.text)]⟩
  | .classified node precheck verdict =>
    ⟨.trace, "Received response",
      [id, nodeField node, ("status", .text precheck.name), ("state", .text verdict.name)]⟩
  | .backoff attempt delay =>
    ⟨.trace, "Retrying request attempt",
      [id, countField "attempt" attempt, millisField "delay_ms" delay.nanos]⟩
  | .regenerated previous next =>
    ⟨.debug, "Transaction expired, regenerated transaction id",
      [id, ("previous", .text previous.text), ("next", .text next.text)]⟩
  | .finished node attempts =>
    ⟨.debug, "Request finished", [id, nodeField node, countField "attempts" attempts]⟩
  | .failed attempts error =>
    ⟨.debug, "Request failed", [id, countField "attempts" attempts, ("error", .text error)]⟩

def penaltyLog (node : AccountId) (delay : Duration) : LogRecord :=
  ⟨.debug, "Node penalized", [nodeField node, millisField "delay_ms" delay.nanos]⟩

/-- The record of a new set of nodes. -/
def Network.log (net : Network) : LogRecord :=
  ⟨.info, "Network updated", [countField "nodes" net.size]⟩

def optionText (text : α → String) : Option α → String
  | none => "None"
  | some x => "Some(" ++ text x ++ ")"

/-- The record of a client that was made from a configuration. -/
def Client.log (c : Client) (net : Network) : LogRecord :=
  let limit := optionText (fun n : UInt32 => String.ofList (decimal n.toNat)) c.maxAttempts
  let operator := optionText (fun id : AccountId => "\"" ++ id.text ++ "\"") c.configuredOperator
  ⟨.info, "Client initialized",
    [countField "nodes" net.size, ("max_attempts", .text limit), ("operator", .text operator)]⟩

def Entry.logs (execution : Nat) : Entry → List LogRecord
  | .event e => [e.log execution]
  | .penalized node delay => [penaltyLog node delay]
  | _ => []

/-- A change of a metric. Labels are sorted by their names. -/
inductive Measurement
  /-- One more of what a counter counts. -/
  | counted (name : String) (labels : List (String × String))
  | measured (name : String) (labels : List (String × String)) (value : Duration)
  /-- One more value of a distribution. -/
  | sampled (name : String) (labels : List (String × String)) (value : Nat)
deriving DecidableEq

def callsMetric : String := "ledger_dispatch_attempts_total"

def faultsMetric : String := "ledger_dispatch_transport_errors_total"

def executionsMetric : String := "ledger_dispatch_executions_total"

def attemptsMetric : String := "ledger_dispatch_execution_attempts"

def penaltyMetric : String := "ledger_dispatch_node_delay_seconds"

def faultMeasurement (node : AccountId) (code : String) : Measurement :=
  .counted faultsMetric [("code", code), ("node", node.text)]

def executionMeasurements (outcome : String) (attempts : Nat) : List Measurement :=
  [.counted executionsMetric [("outcome", outcome)], .sampled attemptsMetric [] attempts]

def Event.measurements : Event → List Measurement
  | .nodeSelected _ node _ => [.counted callsMetric [("node", node.text)]]
  | .channelFailed node _ => [faultMeasurement node "connect"]
  | .callFailed node fault _ => [faultMeasurement node fault.code.name]
  | .finished _ attempts => executionMeasurements "finished" attempts
  | .failed attempts _ => executionMeasurements "failed" attempts
  | _ => []

def Entry.measurements : Entry → List Measurement
  | .event e => e.measurements
  | .penalized node delay => [.measured penaltyMetric [("node", node.text)] delay]
  | _ => []

/-- What all measurements of a metric come to. -/
inductive Reading
  | total (n : Nat)
  | last (value : Duration)
  | samples (values : List Nat)
deriving DecidableEq

def Measurement.key : Measurement → String
  | .counted name labels | .measured name labels _ | .sampled name labels _ =>
    name ++ "\x7b" ++ String.intercalate "," (labels.map fun l => l.1 ++ "=" ++ l.2) ++ "\x7d"

def Measurement.reading (before : Option Reading) : Measurement → Reading
  | .counted _ _ =>
    match before with
    | some (.total n) => .total (n + 1)
    | _ => .total 1
  | .measured _ _ value => .last value
  | .sampled _ _ value =>
    match before with
    | some (.samples values) => .samples (values ++ [value])
    | _ => .samples [value]

/-- The readings of all metrics, by their keys. -/
def readings (ms : List Measurement) : List (String × Reading) :=
  ms.foldl
    (fun table m =>
      let reading := m.reading (table.lookup m.key)
      if (table.lookup m.key).isSome then
        table.map fun row => if row.1 = m.key then (m.key, reading) else row
      else table ++ [(m.key, reading)])
    []

/-- A span in seconds: its whole seconds and its part of a second are rounded on their own. -/
def Duration.seconds? (d : Duration) : Option Double := do
  let whole ← Double.ofNat? (d.nanos / nanosPerSecond)
  let part ← (← Double.ofNat? (d.nanos % nanosPerSecond)).over? (← Double.ofNat? nanosPerSecond)
  whole.plus? part

/-- Values are written with three decimal places. -/
def Reading.json : Reading → Json
  | .total n => .natural (UInt64.ofNat n)
  | .last value => .text ((value.seconds?.map Double.thousandths).getD "")
  | .samples values => .list (values.map fun n =>
      .text (((Double.ofNat? n).map Double.thousandths).getD ""))

end LedgerClient
