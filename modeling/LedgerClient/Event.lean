import LedgerClient.Fault
import LedgerClient.Message
import LedgerClient.Node
import LedgerClient.Precheck

namespace LedgerClient

/-- A decision of a client, as its observers hear of it. -/
inductive Event
  | nodeSelected (attempt : Nat) (node : AccountId) (address : NodeAddress)
  /-- The node's penalty lasts for `wait` still, so the client sleeps before it calls. -/
  | nodeUnhealthy (node : AccountId) (wait : Nat)
  | channelFailed (node : AccountId) (fault : Fault)
  | callFailed (node : AccountId) (fault : Fault) (transient : Bool)
  | classified (node : AccountId) (precheck : Precheck) (verdict : Verdict)
  | backoff (attempt : Nat) (delay : Duration)
  | regenerated (previous next : TransactionId)
  | finished (node : AccountId) (attempts : Nat)
  | failed (attempts : Nat) (error : String)
deriving DecidableEq

/-- A step of an execution: a decision, or something done to a node. -/
inductive Entry
  | event (event : Event)
  /-- The channel of a node was asked for, while the node was as it is given here. -/
  | acquired (now : Nat) (node : Node)
  | connected (node : AccountId) (address : NodeAddress) (outcome : Except Fault Channel)
  /-- A message was sent to a node, while the node was as it is given here. -/
  | called (now : Nat) (node : Node) (channel : Channel) (message : Message)
      (outcome : Except Fault Answer)
  | penalized (node : AccountId) (delay : Duration)
  /-- The client slept because of the penalty of a node, which took so long. -/
  | waited (node : AccountId) (wait took : Nat)
  /-- The client slept before its next attempt, which took so long. -/
  | delayed (delay : Duration) (took : Nat)
  /-- So long it took until the outcome of the next step was known. -/
  | passed (took : Nat)

/-- The decisions among the steps. -/
def events (journal : List Entry) : List Event :=
  journal.filterMap fun
    | .event e => some e
    | _ => none

def Entry.time : Entry → Nat
  | .waited _ _ took | .delayed _ took | .passed took => took
  | _ => 0

/-- The time that passed on record. -/
def elapsed : List Entry → Nat
  | [] => 0
  | x :: rest => x.time + elapsed rest

end LedgerClient
