import LedgerClient.LineChannel

namespace LedgerClient

/-- The answers to the lines of each connection, in their order; a line beyond them closes the
connection. -/
structure LineScript where
  isListening : Bool
  connections : List (List Arrival)
  opened : Nat
  /-- The lines that came, the last one first, with the numbers of their connections. -/
  received : List (Nat × String)

def LineScript.connect (s : LineScript) : Except ConnectFailure Nat × LineScript :=
  if s.isListening then (.ok s.opened, { s with opened := s.opened + 1 })
  else (.error (.refused "nothing listens"), s)

def LineScript.respond (number : Nat) (line : String) (s : LineScript) : Arrival × LineScript :=
  let arrivals := (s.connections[number]?).getD []
  (arrivals.head?.getD ⟨[], true⟩,
    { s with
      connections := s.connections.set number arrivals.tail
      received := (number, line) :: s.received })

def LineScript.peer : Peer LineScript where
  connect := LineScript.connect
  respond := LineScript.respond
  complain _ _ := "not a reply of the expected kind"

end LedgerClient
