import LedgerClient.Frame.Ids
import LedgerClient.Json.Printer
import LedgerClient.Message

namespace LedgerClient

def QueryMessage.json (m : QueryMessage) : Json :=
  let payment := m.payment.toList.map fun id => ("payment_transaction_id", id.json)
  .record [("header", .record (("node_account_id", m.node.json) :: payment)), ("body", m.body.json)]

def TransactionMessage.json (m : TransactionMessage) : Json :=
  .record [("transaction_id", m.id.json), ("node_account_id", m.node.json), ("body", m.body.json)]

def Message.payload : Message → Json
  | .query m => m.json
  | .transaction m => m.json

/-- The name of the call that a message is for. -/
def Message.method : Message → String
  | .query _ => "query"
  | .transaction _ => "submit_transaction"

def Message.frame (m : Message) : Json :=
  .record [("method", .text m.method), ("payload", m.payload)]

/-- The text of a request on the line, without the end of the line. -/
def Message.encode (m : Message) : String :=
  m.frame.print

/-- How deep the bodies in frames may nest: two containers lie around them. -/
def bodyRoom : Nat := nestingLimit - 2

def QueryMessage.ofDocument? (d : Document) : Option QueryMessage :=
  match d.fields? ["header", "body"] false with
  | some [some header, some body] =>
    match header.fields? ["node_account_id", "payment_transaction_id"] false with
    | some [some node, payment] => do
      return ⟨← AccountId.ofDocument? node,
        ← fieldOr none (Document.nullable? TransactionId.ofDocument?) payment,
        ← Body.read? bodyRoom body⟩
    | _ => none
  | _ => none

def TransactionMessage.ofDocument? (d : Document) : Option TransactionMessage :=
  match d.fields? ["transaction_id", "node_account_id", "body"] false with
  | some [some id, some node, some body] => do
    return ⟨← TransactionId.ofDocument? id, ← AccountId.ofDocument? node,
      ← Body.read? bodyRoom body⟩
  | _ => none

def Message.ofPayload? (method : String) (payload : Document) : Option Message :=
  if method = "query" then (QueryMessage.ofDocument? payload).map .query
  else if method = "submit_transaction" then
    (TransactionMessage.ofDocument? payload).map .transaction
  else none

/-- A record with a method and a payload among its members, or a list of just these two, where the
method is a text. A payload that stands before the method has to have a value in all its parts. -/
def Message.ofFrame? : Document → Option Message
  | .record members => do
    guard (members.all fun m => m.1.isSome)
    match members.filter fun m => m.1 == some "method" || m.1 == some "payload" with
    | [(some "method", method), (some "payload", payload)] =>
      Message.ofPayload? (← method.tag?) payload
    | [(some "payload", payload), (some "method", method)] =>
      guard (payload.value? (nestingLimit - 1)).isSome
      Message.ofPayload? (← method.tag?) payload
    | _ => none
  | .list [method, payload] => do Message.ofPayload? (← method.text?) payload
  | _ => none

def Message.decode? (text : String) : Option Message :=
  (Document.parse? text.toList).bind Message.ofFrame?

end LedgerClient
