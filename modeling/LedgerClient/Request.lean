import LedgerClient.Backoff
import LedgerClient.IdSequence
import LedgerClient.Message
import LedgerClient.Rotation

namespace LedgerClient

/-- Bounds that a request sets for itself. -/
structure Limits where
  attempts : Option UInt32
  minDelay : Option Duration
  maxDelay : Option Duration
deriving DecidableEq

def Limits.none : Limits :=
  ⟨.none, .none, .none⟩

structure QueryRequest where
  nodes : Rotation
  body : Body
  payment : Option TransactionId
  limits : Limits

structure TransactionRequest where
  nodes : Rotation
  body : Body
  ids : IdSequence
  /-- Whether an expired id may be replaced; the client decides if this is not set. -/
  regenerate : Option Bool
  limits : Limits

/-- A query that leaves all choices to the client. -/
def QueryRequest.ofBody (body : Body) : QueryRequest :=
  ⟨.ofList [], body, none, .none⟩

/-- A transaction that leaves all choices to the client. -/
def TransactionRequest.ofBody (body : Body) : TransactionRequest :=
  ⟨.ofList [], body, .empty, none, .none⟩

inductive Request
  | query (request : QueryRequest)
  | transaction (request : TransactionRequest)

def Request.nodes : Request → Rotation
  | .query q => q.nodes
  | .transaction t => t.nodes

def Request.body : Request → Body
  | .query q => q.body
  | .transaction t => t.body

def Request.limits : Request → Limits
  | .query q => q.limits
  | .transaction t => t.limits

def Request.withNodes (r : Request) (nodes : Rotation) : Request :=
  match r with
  | .query q => .query { q with nodes := nodes }
  | .transaction t => .transaction { t with nodes := nodes }

/-- Points the request at its next candidate. -/
def Request.advance (r : Request) : Request :=
  r.withNodes r.nodes.advance

/-- The id that a transaction is sent with; a query has none. -/
def Request.transactionId? : Request → Option TransactionId
  | .query _ => none
  | .transaction t => t.ids.current?

/-- What is sent to the current candidate. -/
def Request.message (r : Request) : Except DispatchError Message :=
  match r.nodes.current? with
  | none => .error .noNodes
  | some node =>
    match r with
    | .query q => .ok (.query ⟨node, q.payment, q.body⟩)
    | .transaction t =>
      match t.ids.current? with
      | none => .error .missingTransactionId
      | some id => .ok (.transaction ⟨id, node, t.body⟩)

end LedgerClient
