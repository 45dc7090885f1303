import LedgerClient.Ipv6

namespace LedgerClient

def isPort (s : List Char) : Bool :=
  (readDecimal? s).any (· < UInt16.size)

/-- Nothing, or a percent sign and the number of a zone. -/
def isZone : List Char → Bool
  | [] => true
  | c :: s => c == '%' && (readDecimal? s).any (· < UInt32.size)

/-- Four bytes with dots between them, or an address of version 6 with an optional zone in
brackets; then a colon and a port. -/
def isSocketAddress (text : String) : Bool :=
  match text.toList with
  | '[' :: s =>
    let inside := s.takeWhile (· != ']')
    let address := inside.takeWhile (· != '%')
    match s.drop inside.length with
    | ']' :: ':' :: port =>
      (Ipv6.parse? address).isSome && isZone (inside.drop address.length) && isPort port
    | _ => false
  | s =>
    let address := s.takeWhile (· != ':')
    match s.drop address.length with
    | ':' :: port => (readDottedBytes? address).isSome && isPort port
    | _ => false

end LedgerClient
