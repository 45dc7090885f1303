import LedgerClient.Execution

namespace LedgerClient

/-- What a node does with each channel that is opened to it and each call it gets. The last entry
holds for all that follow; without entries channels open and calls are answered with `OK`. -/
structure NodeScript where
  connects : List (Option Fault)
  replies : List (Except Fault QueryAnswer)

/-- A node that can be reached, and whose answers have these codes. -/
def NodeScript.answering (codes : List Precheck) : NodeScript :=
  ⟨[], codes.map fun code => .ok ⟨code, 0, default⟩⟩

/-- A node that cannot be reached. -/
def NodeScript.unreachable : NodeScript :=
  ⟨[some ⟨.unavailable, "unreachable"⟩], []⟩

/-- The entry that is next, and the entries after it. -/
def nextEntry : List α → Option α × List α
  | [] => (none, [])
  | [x] => (some x, [x])
  | x :: rest => (some x, rest)

/-- The scripts by address, and how many channels were opened and ids drawn. -/
structure Stage where
  scripts : List (NodeAddress × NodeScript)
  opened : Nat
  drawn : Nat
  /-- The leading digits of the seconds in all drawn ids, which count on in the last nine. -/
  stem : Nat

/-- Whether a part stands somewhere in a text. -/
def occursIn (part : List Char) : List Char → Bool
  | [] => part.isEmpty
  | c :: rest => part.isPrefixOf (c :: rest) || occursIn part rest

/-- Ten digits that stand nowhere in a text. Of the candidates there is one more than the text has
places, so that the text cannot hold them all. -/
def freshStem (text : List Char) : Nat :=
  let candidates := (List.range (text.length + 1)).map (7777777777 + ·)
  (candidates.find? fun stem => !occursIn (decimal stem) text).getD 7777777777

/-- An empty stage, on which no id is drawn that the text names. -/
def Stage.avoiding (text : List Char) : Stage :=
  ⟨[], 0, 0, freshStem text⟩

def Stage.empty : Stage :=
  .avoiding []

def Stage.script (s : Stage) (address : NodeAddress) : NodeScript :=
  (s.scripts.lookup address).getD ⟨[], []⟩

/-- Gives a new script to the node at an address. -/
def Stage.withScript (s : Stage) (address : NodeAddress) (script : NodeScript) : Stage :=
  { s with scripts := (address, script) :: s.scripts.filter fun entry => entry.1 != address }

def Stage.connect (address : NodeAddress) (s : Stage) : Except Fault Channel × Stage :=
  let script := s.script address
  let (entry, rest) := nextEntry script.connects
  let s := s.withScript address { script with connects := rest }
  match entry.join with
  | some f => (.error f, s)
  | none => (.ok ⟨address, s.opened⟩, { s with opened := s.opened + 1 })

def Stage.reply (channel : Channel) (s : Stage) : Except Fault QueryAnswer × Stage :=
  let script := s.script channel.address
  let (entry, rest) := nextEntry script.replies
  (entry.getD (.ok ⟨.ok, 0, default⟩),
    s.withScript channel.address { script with replies := rest })

/-- The seconds of an id by how many ids were drawn before it. -/
def Stage.secondsOf (s : Stage) (earlier : Nat) : Nat :=
  s.stem * 1000000000 + earlier + 1

def Stage.draw (s : Stage) : IdDraw × Stage :=
  let seconds := s.secondsOf s.drawn
  let reading := (WallTime.ofNanos? ((seconds + 5) * nanosPerSecond : Nat)).getD .epoch
  ({ reading := reading, millis := 5000, nanos := 0 }, { s with drawn := s.drawn + 1 })

/-- The node `0.0.n`, which listens at port `n`. -/
def Stage.node (n : Nat) : AccountId × NodeAddress :=
  (⟨0, 0, UInt64.ofNat n⟩, ⟨.name "node", UInt16.ofNat n⟩)

/-- The beginning of a rehearsal, with one node for each script, counted from `0.0.3`. -/
def Stage.situation (scripts : List NodeScript) : Situation Stage :=
  let cast := (scripts.zipIdx 3).map fun (script, n) => (Stage.node n, script)
  { network := .ofEntries defaultPenalty (cast.map Prod.fst)
    now := 0
    world := { Stage.empty with scripts := cast.map fun (node, script) => (node.2, script) } }

/-- Thirty years of 365 days, in nanoseconds. -/
def longestSleep : Nat := 30 * 365 * 86400 * nanosPerSecond

/-- A timer that knows whole milliseconds only: a sleep ends with the first of them that is not too
early, or when the longest sleep is over. -/
def Stage.sleep (now nanos : Nat) : Nat :=
  let milli := 1000000
  min (((now + nanos + (milli - 1)) / milli - now / milli) * milli) longestSleep

/-- Scripted nodes that answer at once, and candidates that keep their order. -/
def Stage.world : World Stage where
  connect address s :=
    let (outcome, s) := s.connect address
    (outcome, 0, s)
  query channel _ s :=
    let (reply, s) := s.reply channel
    (reply, 0, s)
  submit channel _ s :=
    let (reply, s) := s.reply channel
    (reply.map fun a => ⟨a.precheck, a.cost⟩, 0, s)
  sleep now nanos s := (Stage.sleep now nanos, s)
  shuffle ids s := (ids, s)
  draw := Stage.draw
  perm_shuffle _ _ := .rfl

/-- The operator in rehearsals, `0.0.2`. -/
def Stage.operator : AccountId :=
  ⟨0, 0, 2⟩

/-- The id that is drawn for the operator after `earlier` others. -/
def Stage.id (earlier : Nat) : TransactionId :=
  .generate Stage.operator { Stage.empty with drawn := earlier }.draw.1

/-- A transaction is submitted with so many attempts to a node whose answers have these codes. -/
def Stage.submit (attempts : UInt32) (codes : List Precheck) :
    Except DispatchError Submission × Progress Stage :=
  let client := { Client.default with
    configuredOperator := some Stage.operator
    maxAttempts := some attempts }
  client.submit Stage.world (.ofBody default) (Stage.situation [.answering codes])

end LedgerClient
