import LedgerClient.Frame.Reply
import LedgerClient.NodeAddress

namespace LedgerClient

/-- What arrives over a connection until the time of a call is up. -/
structure Arrival where
  bytes : List UInt8
  /-- Whether the node has closed the connection after these bytes. -/
  closed : Bool

inductive ConnectFailure
  | refused (reason : String)
  | timedOut

/-- The other end of the connections to a node. Connections are told apart by numbers. -/
structure Peer (σ : Type) where
  connect : σ → Except ConnectFailure Nat × σ
  /-- What arrives after a line was sent. -/
  respond : Nat → String → σ → Arrival × σ
  /-- What is said of a line that is no reply to a message. -/
  complain : Message → String → String

def Peer.malformed (p : Peer σ) (m : Message) (line : String) : Fault :=
  ⟨.internal, "malformed reply: " ++ p.complain m line⟩

structure Connection where
  number : Nat
  unread : List UInt8
  closed : Bool
deriving DecidableEq

def lineFeed : UInt8 := 10

/-- Takes a line off the bytes that have not been read. Where the node has closed the connection,
the bytes without an end of line count as a line. -/
def Connection.takeLine? (c : Connection) : Option (List UInt8 × Connection) :=
  let line := c.unread.takeWhile (· != lineFeed)
  if line.length < c.unread.length then
    some (line ++ [lineFeed], { c with unread := c.unread.drop (line.length + 1) })
  else if c.closed && !c.unread.isEmpty then some (c.unread, { c with unread := [] })
  else none

/-- A call with a line for the request and a line for the reply. A connection on which a call went
wrong is given up, and the next call opens another. -/
structure LineChannel where
  address : NodeAddress
  connection : Option Connection

def LineChannel.failToConnect (address : NodeAddress) : ConnectFailure → Fault
  | .refused reason =>
    ⟨.unavailable, "failed to connect to " ++ address.text ++ ": " ++ reason⟩
  | .timedOut => ⟨.deadlineExceeded, "connect to " ++ address.text ++ " timed out"⟩

def LineChannel.openConnection (p : Peer σ) (address : NodeAddress) (s : σ) :
    Except Fault Connection × σ :=
  match p.connect s with
  | (.ok number, s) => (.ok ⟨number, [], false⟩, s)
  | (.error e, s) => (.error (LineChannel.failToConnect address e), s)

/-- A channel with a connection of its own. -/
def LineChannel.connect (p : Peer σ) (address : NodeAddress) (s : σ) :
    Except Fault LineChannel × σ :=
  let (opened, s) := LineChannel.openConnection p address s
  (opened.map fun c => ⟨address, some c⟩, s)

/-- The connection that is kept, or a new one. -/
def LineChannel.reopen (p : Peer σ) (ch : LineChannel) (s : σ) : Except Fault Connection × σ :=
  match ch.connection with
  | some c => (.ok c, s)
  | none => LineChannel.openConnection p ch.address s

/-- Sends a line. A connection that the node has closed takes nothing any more. -/
def Connection.send (p : Peer σ) (line : String) (c : Connection) (s : σ) : Connection × σ :=
  if c.closed then (c, s)
  else
    let (arrival, s) := p.respond c.number line s
    ({ c with unread := c.unread ++ arrival.bytes, closed := arrival.closed }, s)

/-- Sends a line and waits for one. The connection is kept only if a line came. -/
def LineChannel.exchange (p : Peer σ) (line : String) (ch : LineChannel) (s : σ) :
    Except Fault String × LineChannel × σ :=
  let dropped : LineChannel := { ch with connection := none }
  match ch.reopen p s with
  | (.error f, s) => (.error f, dropped, s)
  | (.ok c, s) =>
    let (c, s) := c.send p line s
    match c.takeLine? with
    | some (bytes, c) =>
      match String.fromUTF8? ⟨bytes.toArray⟩ with
      | some text => (.ok text, { ch with connection := some c }, s)
      | none => (.error ⟨.unavailable, "stream did not contain valid UTF-8"⟩, dropped, s)
    | none =>
      if c.closed then (.error ⟨.unavailable, "connection closed by node"⟩, dropped, s)
      else (.error ⟨.deadlineExceeded, "call to " ++ ch.address.text ++ " timed out"⟩, dropped, s)

/-- Sends a message and reads the reply to it. -/
def LineChannel.call (p : Peer σ) (decode? : String → Option (Except Fault α)) (m : Message)
    (ch : LineChannel) (s : σ) : Except Fault α × LineChannel × σ :=
  match ch.exchange p (m.encode ++ "\n") s with
  | (.error f, ch, s) => (.error f, ch, s)
  | (.ok text, ch, s) =>
    match decode? text with
    | some reply => (reply, ch, s)
    | none => (.error (p.malformed m text), ch, s)

def LineChannel.query (p : Peer σ) (m : QueryMessage) :
    LineChannel → σ → Except Fault QueryAnswer × LineChannel × σ :=
  LineChannel.call p QueryAnswer.decode? (.query m)

def LineChannel.submit (p : Peer σ) (m : TransactionMessage) :
    LineChannel → σ → Except Fault SubmitAnswer × LineChannel × σ :=
  LineChannel.call p SubmitAnswer.decode? (.transaction m)

end LedgerClient
