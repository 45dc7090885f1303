import LedgerClient.Json.Body
import LedgerClient.Precheck
import LedgerClient.TransactionId

namespace LedgerClient

structure QueryMessage where
  node : AccountId
  /-- Pays for the query, if it is not free. -/
  payment : Option TransactionId
  body : Body

structure TransactionMessage where
  id : TransactionId
  node : AccountId
  body : Body

inductive Message
  | query (message : QueryMessage)
  | transaction (message : TransactionMessage)

/-- The node a message is addressed to. -/
def Message.node : Message → AccountId
  | .query m => m.node
  | .transaction m => m.node

structure QueryAnswer where
  precheck : Precheck
  cost : UInt64
  body : Body

structure SubmitAnswer where
  precheck : Precheck
  cost : UInt64
deriving DecidableEq

inductive Answer
  | query (answer : QueryAnswer)
  | submit (answer : SubmitAnswer)

def Answer.precheck : Answer → Precheck
  | .query a => a.precheck
  | .submit a => a.precheck

end LedgerClient
