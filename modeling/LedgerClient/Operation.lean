import LedgerClient.Request

namespace LedgerClient

/-- What is made of the answers to a request. -/
structure Operation (α : Type) where
  classify : Request → Answer → Verdict
  /-- The error that an answer other than a finished one stands for. -/
  refusal : Request → Answer → DispatchError
  /-- The result in a finished answer of a node to a message. -/
  result : Request → Answer → AccountId → Message → Except DispatchError α

/-- An answer to a query, and the node that gave it. -/
structure QueryOutcome where
  node : AccountId
  answer : QueryAnswer

/-- A transaction that was taken, and the node that took it. -/
structure Submission where
  id : TransactionId
  node : AccountId
deriving DecidableEq

def queryOperation : Operation QueryOutcome where
  classify _ answer := answer.precheck.queryVerdict
  refusal _ answer := .queryRefused answer.precheck
  result _ answer node _ :=
    match answer with
    | .query a => .ok ⟨node, a⟩
    | .submit _ => .error (.undecodable "expected a query response, got a submission response")

def submitOperation : Operation Submission where
  classify _ answer := answer.precheck.transactionVerdict
  refusal request answer :=
    match request.transactionId? with
    | some id => .transactionRefused answer.precheck id
    | none => .missingTransactionId
  result _ answer node message :=
    match answer, message with
    | .submit _, .transaction m => .ok ⟨m.id, node⟩
    | _, _ => .error (.undecodable "expected a submission response for a transaction")

/-- A message and the answer of a node. -/
structure Exchange where
  node : AccountId
  message : Message
  answer : Answer

/-- An operation that looks its verdicts up in a table and hands over what was exchanged. -/
def Operation.ofTable (table : List (Precheck × Verdict)) (default : Verdict) :
    Operation Exchange where
  classify _ answer := (table.lookup answer.precheck).getD default
  refusal _ answer := .queryRefused answer.precheck
  result _ answer node message := .ok ⟨node, message, answer⟩

end LedgerClient
