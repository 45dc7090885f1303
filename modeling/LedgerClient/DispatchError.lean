import LedgerClient.Fault
import LedgerClient.Precheck
import LedgerClient.TransactionId

namespace LedgerClient

inductive DispatchError
  /-- The request names a node that the network does not have. -/
  | unknownNode (node : AccountId)
  | noNodes
  /-- There is no transaction id, and no operator to generate one for. -/
  | missingTransactionId
  | transactionIdsLocked
  | fault (f : Fault)
  | transactionRefused (precheck : Precheck) (id : TransactionId)
  | queryRefused (precheck : Precheck)
  | undecodable (reason : String)
  | noAttempts
  /-- Another error, with how many attempts were made of how many allowed. -/
  | afterAttempts (attempts limit : Nat) (source : DispatchError)
deriving DecidableEq, Repr

def DispatchError.message : DispatchError → String
  | .unknownNode node =>
    "invalid node account id set: node " ++ node.text ++ " is not part of the network"
  | .noNodes => "no nodes available to execute against"
  | .missingTransactionId => "transaction has no transaction id and no operator is configured"
  | .transactionIdsLocked => "transaction ids are locked and cannot be replaced"
  | .fault f => f.text
  | .transactionRefused precheck id =>
    "exceptional precheck status " ++ precheck.name ++ " received for transaction " ++ id.text
  | .queryRefused precheck =>
    "exceptional precheck status " ++ precheck.name ++ " received for query"
  | .undecodable reason => "failed to decode response: " ++ reason
  | .noAttempts => "no attempts were made"
  | .afterAttempts attempts limit source =>
    "retry " ++ String.ofList (decimal attempts ++ '/' :: decimal limit) ++ ": " ++ source.message

/-- The cause behind all counts of attempts. -/
def DispatchError.root : DispatchError → DispatchError
  | .afterAttempts _ _ source => source.root
  | e => e

/-- The code a node refused the request with. -/
def DispatchError.precheck? (e : DispatchError) : Option Precheck :=
  match e.root with
  | .transactionRefused precheck _ | .queryRefused precheck => some precheck
  | _ => none

/-- The outermost count of attempts, and their limit. -/
def DispatchError.attempts? : DispatchError → Option (Nat × Nat)
  | .afterAttempts attempts limit _ => some (attempts, limit)
  | _ => none

/-- Whether the cause lies with the client or the request, and not with a node. -/
def DispatchError.isConfiguration (e : DispatchError) : Bool :=
  match e.root with
  | .unknownNode _ | .noNodes | .missingTransactionId | .transactionIdsLocked => true
  | _ => false

end LedgerClient
