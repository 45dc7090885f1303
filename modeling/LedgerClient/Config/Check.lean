import LedgerClient.Client
import LedgerClient.Config.Basic
import LedgerClient.SocketAddress

namespace LedgerClient

/-- A condition that a configuration does not satisfy. Nodes are named by their places. -/
inductive Config.Violation
  | noNodes
  | duplicateNode (index : Nat) (id : AccountId)
  | malformedNode (index : Nat) (cause : AccountId.Malformed)
  | malformedAddress (index : Nat) (cause : NodeAddress.Malformed)
  | noAttempts
  | executionBackoff
  | penaltyBackoff
  | metricsAddress
  | malformedOperator (cause : AccountId.Malformed)
deriving DecidableEq

/-- The part of a node's entry. -/
def nodePath (index : Nat) (part : String) : String :=
  "network[" ++ String.ofList (decimal index) ++ "]." ++ part

def Config.Violation.field : Config.Violation → String
  | .noNodes => "network"
  | .duplicateNode i _ | .malformedNode i _ => nodePath i "account_id"
  | .malformedAddress i _ => nodePath i "address"
  | .noAttempts => "execution.max_attempts"
  | .executionBackoff => "execution.min_backoff_ms"
  | .penaltyBackoff => "node_backoff.min_backoff_ms"
  | .metricsAddress => "observability.metrics_address"
  | .malformedOperator _ => "operator.account_id"

def Config.Violation.message : Config.Violation → String
  | .noNodes => "at least one node is required"
  | .duplicateNode _ id => "duplicate node " ++ id.text
  | .malformedNode _ cause | .malformedOperator cause => cause.message
  | .malformedAddress _ cause => cause.message
  | .noAttempts => "must be greater than zero"
  | .executionBackoff | .penaltyBackoff => "must not exceed max_backoff_ms"
  | .metricsAddress => "must be a socket address (ip:port)"

/-- All violations in one text. -/
def Config.Violation.summary (violations : List Config.Violation) : String :=
  "Validation failed: " ++
    String.intercalate ", " (violations.map fun v => v.field ++ ": " ++ v.message)

/-- The violations of one node's entry, after nodes with the ids `seen`. -/
def NodeEntry.violations (seen : List AccountId) (index : Nat) (entry : NodeEntry) :
    List Config.Violation :=
  let id := match AccountId.parse entry.accountId with
    | .ok id => if id ∈ seen then [.duplicateNode index id] else []
    | .error cause => [.malformedNode index cause]
  let address := match NodeAddress.parse entry.address with
    | .ok _ => []
    | .error cause => [.malformedAddress index cause]
  id ++ address

def NodeEntry.id? (entry : NodeEntry) : Option AccountId :=
  (AccountId.parse entry.accountId).toOption

/-- What an entry stands for. -/
def NodeEntry.read? (entry : NodeEntry) : Option (AccountId × NodeAddress) := do
  return (← entry.id?, ← (NodeAddress.parse entry.address).toOption)

/-- The violations of a list of entries that begins at a place. -/
def nodeViolations : (seen : List AccountId) → (index : Nat) → List NodeEntry →
    List Config.Violation
  | _, _, [] => []
  | seen, index, entry :: rest =>
    entry.violations seen index ++ nodeViolations (entry.id?.toList ++ seen) (index + 1) rest

/-- All violations, in the order of the fields. -/
def Config.violations (c : Config) : List Config.Violation :=
  let listening := c.observability
  (if c.network = [] then [.noNodes] else []) ++
    nodeViolations [] 0 c.network ++
    (if c.execution.maxAttempts = some 0 then [.noAttempts] else []) ++
    (if c.execution.maxBackoffMillis < c.execution.minBackoffMillis then [.executionBackoff]
      else []) ++
    (if c.penalty.maxMillis < c.penalty.minMillis then [.penaltyBackoff] else []) ++
    (if listening.metricsEnabled && !isSocketAddress listening.metricsAddress then
      [.metricsAddress] else []) ++
    (match c.operator.map AccountId.parse with
      | some (.error cause) => [.malformedOperator cause]
      | _ => [])

/-- The parts of a configuration that are texts with a meaning. -/
structure Config.Checked where
  nodes : List (AccountId × NodeAddress)
  operator : Option AccountId
deriving DecidableEq

def Config.check (c : Config) : Except (List Config.Violation) Config.Checked :=
  match c.violations with
  | [] => .ok ⟨c.network.filterMap NodeEntry.read?,
      c.operator.bind fun id => (AccountId.parse id).toOption⟩
  | violations => .error violations

def Config.penaltyBounds (c : Config) : Backoff :=
  ⟨.ofMillis c.penalty.minMillis, .ofMillis c.penalty.maxMillis⟩

/-- The client that a configuration describes, with its network. -/
def Client.ofConfig (c : Config) : Except (List Config.Violation) (Client × Network) :=
  c.check.map fun checked =>
    (⟨checked.operator, c.execution.maxAttempts,
      ⟨.ofMillis c.execution.minBackoffMillis, .ofMillis c.execution.maxBackoffMillis⟩,
      c.execution.regenerate, c.execution.maxNodes⟩,
    Network.ofEntries c.penaltyBounds checked.nodes)

end LedgerClient
