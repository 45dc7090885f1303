import LedgerClient.Node

namespace LedgerClient

structure Network where
  nodes : List Node
  /-- The bounds of the penalties of all nodes. -/
  bounds : Backoff
  nodup : (nodes.map Node.id).Nodup

def Network.empty (bounds : Backoff) : Network :=
  ⟨[], bounds, by simp⟩

def Network.find? (net : Network) (id : AccountId) : Option Node :=
  net.nodes.find? fun node => node.id == id

def Network.size (net : Network) : Nat :=
  net.nodes.length

/-- Puts a node in the place of the one with its id, or else at the end. -/
def putNode (nodes : List Node) (node : Node) : List Node :=
  if node.id ∈ nodes.map Node.id then
    nodes.map fun old => if old.id = node.id then node else old
  else nodes ++ [node]

theorem ids_replaceNode (nodes : List Node) (node : Node) :
    (nodes.map fun old => if old.id = node.id then node else old).map Node.id =
      nodes.map Node.id := by
  rw [List.map_map]
  refine List.map_congr_left fun old _ => ?_
  by_cases h : old.id = node.id <;> simp [h]

theorem nodup_putNode {nodes : List Node} (node : Node) (h : (nodes.map Node.id).Nodup) :
    ((putNode nodes node).map Node.id).Nodup := by
  unfold putNode
  split
  · rwa [ids_replaceNode]
  · rename_i hn
    rw [List.map_append, List.nodup_append]
    refine ⟨h, by simp, fun a ha b hb hab => hn ?_⟩
    obtain rfl : b = node.id := by simpa using hb
    exact hab ▸ ha

/-- The node that a new entry stands for: the one with this id and address, if there is one, else
a fresh one. -/
def Network.carryOver (net : Network) (entry : AccountId × NodeAddress) : Node :=
  match net.find? entry.1 with
  | some node => if node.address = entry.2 then node else .fresh entry.1 entry.2
  | none => .fresh entry.1 entry.2

theorem nodup_foldl_putNode (net : Network) (entries : List (AccountId × NodeAddress))
    {nodes : List Node} (h : (nodes.map Node.id).Nodup) :
    ((entries.foldl (fun nodes entry => putNode nodes (net.carryOver entry)) nodes).map
      Node.id).Nodup := by
  induction entries generalizing nodes with
  | nil => exact h
  | cons entry rest ih => exact ih (nodup_putNode _ h)

/-- Replaces the nodes. One that keeps its id and address keeps its state; of entries with one id
the last counts. -/
def Network.set (net : Network) (entries : List (AccountId × NodeAddress)) : Network where
  nodes := entries.foldl (fun nodes entry => putNode nodes (net.carryOver entry)) []
  bounds := net.bounds
  nodup := nodup_foldl_putNode net entries (by simp)

def Network.ofEntries (bounds : Backoff) (entries : List (AccountId × NodeAddress)) : Network :=
  (Network.empty bounds).set entries

/-- Changes the state of one node. -/
def Network.update (net : Network) (id : AccountId) (f : NodeState → NodeState) : Network where
  nodes := net.nodes.map fun node =>
    if node.id = id then { node with state := f node.state } else node
  bounds := net.bounds
  nodup := by
    have h : (Node.id ∘ fun node : Node =>
        if node.id = id then { node with state := f node.state } else node) = Node.id := by
      funext node
      by_cases h : node.id = id <;> simp [h]
    rw [List.map_map, h]
    exact net.nodup

/-- The ids a request may be sent to if it names none: those of the healthy nodes, or of all if
none is healthy. -/
def Network.candidates (net : Network) (now : Nat) : List AccountId :=
  let healthy := net.nodes.filter fun node => node.state.isHealthy now
  (if healthy.isEmpty then net.nodes else healthy).map Node.id

/-- At most so many candidates, where zero stands for all. -/
def atMost (max : UInt64) (ids : List AccountId) : List AccountId :=
  if max = 0 then ids else ids.take max.toNat

end LedgerClient
