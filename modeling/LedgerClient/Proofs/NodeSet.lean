import LedgerClient.Proofs.Availability
import Mathlib.Data.Finset.Card

namespace LedgerClient

variable {net net' : Network} {node : Node} {nodes : List Node} {id other : AccountId}
  {address : NodeAddress} {entries entries' : List (AccountId × NodeAddress)}
  {f : NodeState → NodeState} {n : Nat}

/-- What can happen to a node. -/
inductive NodeEvent
  | used (now : Nat)
  | penalized (now : Nat)
  | rewarded
  /-- A channel was opened. It is kept, and no other takes its place. -/
  | opened (channel : Channel)

def NodeEvent.effect (bounds : Backoff) : NodeEvent → NodeState → NodeState
  | .used now, s => s.use now
  | .penalized now, s => s.penalize bounds now
  | .rewarded, s => s.reward
  | .opened channel, s => { s with channel := s.channel.or (some channel) }

/-- What can happen to a network. -/
inductive Change
  | set (entries : List (AccountId × NodeAddress))
  | event (id : AccountId) (event : NodeEvent)

def Network.change (net : Network) : Change → Network
  | .set entries => net.set entries
  | .event id event => net.update id (event.effect net.bounds)

def Network.after (net : Network) (changes : List Change) : Network :=
  changes.foldl Network.change net

/-- The address in the last entry for an id. -/
def lastAddress? (entries : List (AccountId × NodeAddress)) (id : AccountId) :
    Option NodeAddress :=
  ((entries.filter fun entry => entry.1 == id).getLast?).map Prod.snd

theorem lastAddress?_concat {entry : AccountId × NodeAddress} :
    lastAddress? (entries ++ [entry]) id =
      if entry.1 = id then some entry.2 else lastAddress? entries id := by
  by_cases h : entry.1 = id <;> simp [lastAddress?, List.filter_append, h]

theorem lastAddress?_eq_none_iff : lastAddress? entries id = none ↔ id ∉ entries.map Prod.fst := by
  simp only [lastAddress?, Option.map_eq_none_iff, List.getLast?_eq_none_iff,
    List.filter_eq_nil_iff, List.mem_map, beq_iff_eq, not_exists, not_and]

theorem filter_eq_of_perm (h : entries'.Perm entries) (hn : (entries.map Prod.fst).Nodup) :
    (entries'.filter fun entry => entry.1 == id) = entries.filter fun entry => entry.1 == id := by
  have hone : (entries.filter fun entry => entry.1 == id).length ≤ 1 := by
    have hcount : (entries.filter fun entry => entry.1 == id).length =
        (entries.map Prod.fst).count id := by
      rw [List.count_eq_countP, List.countP_map, List.countP_eq_length_filter]
      rfl
    rw [hcount]
    exact List.nodup_iff_count_le_one.mp hn id
  have hfilter := h.filter fun entry => entry.1 == id
  generalize entries.filter (fun entry => entry.1 == id) = kept at hone hfilter
  match kept with
  | [] => exact hfilter.eq_nil
  | [entry] => exact List.perm_singleton.mp hfilter
  | _ :: _ :: _ => simp at hone

theorem carryOver_id {entry : AccountId × NodeAddress} : (net.carryOver entry).id = entry.1 := by
  unfold Network.carryOver
  split
  next found hfound =>
    split
    · exact (Network.find?_eq_some hfound).2
    · rfl
  next => rfl

theorem carryOver_address {entry : AccountId × NodeAddress} :
    (net.carryOver entry).address = entry.2 := by
  unfold Network.carryOver
  split
  · split
    next h => exact h
    next => rfl
  · rfl

theorem find?_putNode :
    (putNode nodes node).find? (fun node => node.id == id) =
      if node.id = id then some node else nodes.find? fun node => node.id == id := by
  unfold putNode
  split
  next hmem =>
    have hids : ((fun node : Node => node.id == id) ∘
        fun old => if old.id = node.id then node else old) = fun node => node.id == id := by
      funext old
      by_cases h : old.id = node.id <;> simp [h]
    rw [List.find?_map, hids]
    by_cases h : node.id = id
    · obtain ⟨old, hold, hid⟩ := List.mem_map.mp hmem
      rw [if_pos h]
      cases hf : nodes.find? fun node => node.id == id with
      | none => simpa [hid, h] using List.find?_eq_none.mp hf old hold
      | some found =>
        have hfound : found.id = id := by simpa using List.find?_some hf
        simp [hfound, h]
    · rw [if_neg h]
      cases hf : nodes.find? fun node => node.id == id with
      | none => rfl
      | some found =>
        have hfound : found.id = id := by simpa using List.find?_some hf
        simp [hfound, Ne.symm h]
  next hmem =>
    rw [List.find?_append]
    by_cases h : node.id = id
    · have hnone : nodes.find? (fun node => node.id == id) = none := by
        refine List.find?_eq_none.mpr fun old hold hid => hmem ?_
        exact List.mem_map.mpr ⟨old, hold, (beq_iff_eq.mp hid).trans h.symm⟩
      simp [hnone, h]
    · simp [h]

/-- All that counts about an id is its last entry. -/
theorem Network.find?_set : (net.set entries).find? id =
    (lastAddress? entries id).map fun address => net.carryOver (id, address) := by
  unfold Network.find? Network.set
  -- from the end, where a later entry takes the place of an earlier one
  induction entries using List.reverseRecOn with
  | nil => rfl
  | append_singleton entries entry ih =>
    simp only [List.foldl_append, List.foldl_cons, List.foldl_nil]
    rw [find?_putNode, ih, carryOver_id, lastAddress?_concat]
    by_cases h : entry.1 = id
    · simp [← h]
    · simp [h]

theorem Network.find?_update : (net.update other f).find? id =
    (net.find? id).map fun node =>
      if id = other then { node with state := f node.state } else node := by
  have hids : ((fun node : Node => node.id == id) ∘ fun node : Node =>
      if node.id = other then { node with state := f node.state } else node) =
        fun node => node.id == id := by
    funext node
    by_cases h : node.id = other <;> simp [h]
  unfold Network.find? Network.update
  rw [List.find?_map, hids]
  refine Option.map_congr fun node hnode => ?_
  have hid : node.id = id := by simpa using List.find?_some hnode
  rw [hid]

theorem Network.find?_update_self (h : net.find? id = some node) :
    (net.update id f).find? id = some { node with state := f node.state } := by
  rw [Network.find?_update, h, Option.map_some, if_pos rfl]

/-- A network is what can be found in it. -/
theorem Network.mem_nodes_iff : node ∈ net.nodes ↔ net.find? node.id = some node := by
  constructor
  · intro h
    cases hf : net.find? node.id with
    | none => simpa using List.find?_eq_none.mp hf node h
    | some found =>
      obtain ⟨hmem, hid⟩ := Network.find?_eq_some hf
      rw [List.inj_on_of_nodup_map net.nodup hmem h hid]
  · exact fun h => (Network.find?_eq_some h).1

theorem Network.perm_of_find? (h : ∀ id, net'.find? id = net.find? id) :
    net'.nodes.Perm net.nodes := by
  refine (List.perm_ext_iff_of_nodup (.of_map _ net'.nodup) (.of_map _ net.nodup)).mpr
    fun node => ?_
  rw [Network.mem_nodes_iff, Network.mem_nodes_iff, h]

theorem Network.eq_of_find? (hids : net'.ids = net.ids) (hb : net'.bounds = net.bounds)
    (h : ∀ id, net'.find? id = net.find? id) : net' = net := by
  have hsome : ∀ net : Network, net.nodes.map some = net.ids.map net.find? := by
    intro net
    rw [Network.ids, List.map_map]
    exact List.map_congr_left fun node hn => (Network.mem_nodes_iff.mp hn).symm
  have hnodes : net'.nodes.map some = net.nodes.map some := by
    rw [hsome, hsome, hids]
    exact List.map_congr_left fun id _ => h id
  obtain ⟨nodes', bounds', nodup'⟩ := net'
  obtain ⟨nodes, bounds, nodup⟩ := net
  obtain rfl := List.map_injective_iff.mpr (Option.some_injective _) hnodes
  obtain rfl : bounds' = bounds := hb
  rfl

theorem ids_putNode : (putNode nodes node).map Node.id =
    if node.id ∈ nodes.map Node.id then nodes.map Node.id else nodes.map Node.id ++ [node.id] := by
  unfold putNode
  split
  · exact ids_replaceNode nodes node
  · simp

/-- In which order the ids are kept is a matter of the entries alone. -/
theorem Network.ids_set : (net'.set entries).ids = (net.set entries).ids := by
  unfold Network.ids Network.set
  induction entries using List.reverseRecOn with
  | nil => rfl
  | append_singleton entries entry ih =>
    simp only [List.foldl_append, List.foldl_cons, List.foldl_nil, ids_putNode, carryOver_id, ih]

theorem Network.bounds_change {change : Change} : (net.change change).bounds = net.bounds := by
  cases change <;> rfl

theorem Network.bounds_after (changes : List Change) : (net.after changes).bounds = net.bounds := by
  induction changes generalizing net with
  | nil => rfl
  | cons change rest ih => exact ih.trans Network.bounds_change

theorem carryOver_of_held (h : net.find? id = some node) (ha : node.address = address) :
    net.carryOver (id, address) = node := by
  simp [Network.carryOver, h, ha]

theorem carryOver_of_not_held (h : ∀ old, net.find? id = some old → old.address ≠ address) :
    net.carryOver (id, address) = .fresh id address := by
  unfold Network.carryOver
  split
  next old hold => rw [if_neg (h old hold)]
  next => rfl

theorem find?_eq_carryOver_iff : net.find? id = some (net.carryOver (id, address)) ↔
    ∃ old, net.find? id = some old ∧ old.address = address := by
  constructor
  · exact fun h => ⟨_, h, carryOver_address⟩
  · rintro ⟨old, hold, ha⟩
    rw [carryOver_of_held hold ha, hold]

/-- Nothing has happened to the node yet. -/
structure NodeState.IsUnused (bounds : Backoff) (s : NodeState) : Prop where
  healthy : ∀ now, s.isHealthy now = true ∧ s.waitRemaining now = 0
  least : ∀ n, (s.currentDelay bounds).nanos ≤ (bounds.delay n).nanos
  delay : (s.currentDelay bounds).nanos = min bounds.min.nanos bounds.max.nanos
  uses : s.uses = 0 ∧ s.lastUsed = none
  channel : s.channel = none

theorem isUnused_fresh {bounds : Backoff} : NodeState.fresh.IsUnused bounds := by
  have hdelay : (NodeState.fresh.currentDelay bounds).nanos =
      min bounds.min.nanos bounds.max.nanos := by
    have hzero : (bounds.delay 0).nanos = _ := bounds.delay_nanos 0
    have hcurrent : NodeState.fresh.currentDelay bounds = bounds.delay 0 := rfl
    rw [hcurrent, hzero]
    split <;> omega
  refine ⟨fun now => ⟨rfl, Nat.zero_sub now⟩, fun n => ?_, hdelay, ⟨rfl, rfl⟩, rfl⟩
  have hpow : bounds.min.nanos ≤ bounds.min.nanos * 2 ^ n :=
    Nat.le_mul_of_pos_right _ (Nat.two_pow_pos n)
  rw [hdelay, Backoff.delay_nanos]
  split <;> omega

/-- Whether a change leaves the node with this id at this address. -/
def Change.Keeps (id : AccountId) (address : NodeAddress) : Change → Prop
  | .set entries => lastAddress? entries id = some address
  | .event _ _ => True

/-- What a change does to the state of the node with this id, if it keeps the node. -/
def Change.effect (bounds : Backoff) (id : AccountId) : Change → NodeState → NodeState
  | .set _, s => s
  | .event other what, s => if id = other then what.effect bounds s else s

theorem Network.find?_change {change : Change} (h : net.find? id = some node)
    (hk : change.Keeps id node.address) : (net.change change).find? id =
      some { node with state := change.effect net.bounds id node.state } := by
  cases change with
  | set entries =>
    have hlast : lastAddress? entries id = some node.address := hk
    rw [Network.change, Network.find?_set, hlast, Option.map_some, carryOver_of_held h rfl,
      Change.effect]
  | event other what =>
    rw [Network.change, Network.find?_update, h, Option.map_some]
    by_cases hid : id = other <;> simp [Change.effect, hid]

/-- A node that is kept is changed by what happens to it, and by nothing else. -/
theorem Network.find?_after {changes : List Change} (h : net.find? id = some node)
    (hk : ∀ change ∈ changes, change.Keeps id node.address) : (net.after changes).find? id =
      some { node with
        state := changes.foldl (fun s change => change.effect net.bounds id s) node.state } := by
  induction changes generalizing net node with
  | nil => exact h
  | cons change rest ih =>
    have hchange := Network.find?_change h (hk change (by simp))
    have hrest := ih hchange fun next hn => hk next (by simp [hn])
    rw [Network.bounds_change] at hrest
    exact hrest

theorem Network.mem_ids_set : id ∈ (net.set entries).ids ↔ id ∈ entries.map Prod.fst := by
  rw [← Network.isSome_find?_iff, Network.find?_set, Option.isSome_map, Option.isSome_iff_ne_none,
    ne_eq, lastAddress?_eq_none_iff, not_not]

theorem Network.size_set : (net.set entries).size = (entries.map Prod.fst).toFinset.card := by
  have hids : (net.set entries).ids.toFinset = (entries.map Prod.fst).toFinset := by
    ext id
    rw [List.mem_toFinset, List.mem_toFinset, Network.mem_ids_set]
  have hnodup : (net.set entries).ids.Nodup := (net.set entries).nodup
  rw [← hids, List.toFinset_card_of_nodup hnodup, Network.ids, List.length_map, Network.size]

theorem Network.set_set : (net.set entries).set entries = net.set entries := by
  refine Network.eq_of_find? Network.ids_set rfl fun id => ?_
  rw [Network.find?_set, Network.find?_set]
  refine Option.map_congr fun address ha => ?_
  refine carryOver_of_held ?_ carryOver_address
  rw [Network.find?_set, ha, Option.map_some]

theorem Network.find?_set_congr
    (h : (entries'.filter fun entry => entry.1 == id) = entries.filter fun entry => entry.1 == id) :
    (net.set entries').find? id = (net.set entries).find? id := by
  rw [Network.find?_set, Network.find?_set, lastAddress?, lastAddress?, h]

/-- Whatever has happened to the nodes before: the nodes that are set are those in the entries, each
at the address that comes last for its id. A node that was there at that address is still the same,
and goes on to be, and any other is new. Setting the nodes once more changes nothing, and neither
does another order of entries that have different ids, whether all have or only those that change
places. -/
theorem nodes_of_set (bounds : Backoff) (changes : List Change)
    (entries : List (AccountId × NodeAddress)) :
    let net := (Network.empty bounds).after changes
    let next := net.set entries
    (∀ id, next.find? id = none ↔ id ∉ entries.map Prod.fst) ∧
    (∀ id node, next.find? id = some node →
      node.id = id ∧ lastAddress? entries id = some node.address ∧
      (net.find? id = some node ↔ ∃ old, net.find? id = some old ∧ old.address = node.address) ∧
      (net.find? id ≠ some node → node.state = .fresh ∧ node.state.IsUnused bounds) ∧
      ∀ later : List Change, (∀ change ∈ later, change.Keeps id node.address) →
        (next.after later).find? id = some { node with
          state := later.foldl (fun s change => change.effect bounds id s) node.state }) ∧
    next.size = (entries.map Prod.fst).toFinset.card ∧
    next.set entries = next ∧
    (∀ entries', ((entries.map Prod.fst).Nodup ∧ entries'.Perm entries ∨
        ∀ id, (entries'.filter fun entry => entry.1 == id) =
          entries.filter fun entry => entry.1 == id) →
      (net.set entries').nodes.Perm next.nodes ∧
        ∀ id, (net.set entries').find? id = next.find? id) := by
  intro net next
  have hbounds : next.bounds = bounds := Network.bounds_after changes
  refine ⟨fun id => ?_, fun id node hnode => ?_, Network.size_set, Network.set_set,
    fun entries' horder => ?_⟩
  · rw [Network.find?_set, Option.map_eq_none_iff, lastAddress?_eq_none_iff]
  · have hset : (lastAddress? entries id).map (fun address => net.carryOver (id, address)) =
        some node := by
      rw [← Network.find?_set]
      exact hnode
    obtain ⟨address, hlast, rfl⟩ := Option.map_eq_some_iff.mp hset
    have haddress : (net.carryOver (id, address)).address = address := carryOver_address
    refine ⟨carryOver_id, by rw [hlast, haddress], ?_, fun hne => ?_, fun later hk => ?_⟩
    · rw [haddress]
      exact find?_eq_carryOver_iff
    · have hfresh : net.carryOver (id, address) = .fresh id address :=
        carryOver_of_not_held fun old hold ha => hne (find?_eq_carryOver_iff.mpr ⟨old, hold, ha⟩)
      rw [hfresh]
      exact ⟨rfl, isUnused_fresh⟩
    · rw [← hbounds]
      exact Network.find?_after hnode hk
  · have hfind : ∀ id, (net.set entries').find? id = next.find? id := by
      rcases horder with ⟨hn, hp⟩ | hfilter
      · exact fun id => Network.find?_set_congr (filter_eq_of_perm hp hn)
      · exact fun id => Network.find?_set_congr (hfilter id)
    exact ⟨Network.perm_of_find? hfind, hfind⟩

/-- One node is penalized and keeps its address. Another moves, and the last of its entries
counts. -/
theorem nodes_of_penalized_and_moved :
    let three := (Stage.node 3).1
    let four := (Stage.node 4).1
    let place : NodeAddress := ⟨.name "node", 5⟩
    let changes : List Change := [.set [Stage.node 3, Stage.node 4],
      .event three (.penalized 0), .event four (.used 0)]
    let entries := [Stage.node 4, Stage.node 3, (four, place)]
    let net := (Network.empty defaultPenalty).after changes
    let next := net.set entries
    let penalized : Node :=
      ⟨three, (Stage.node 3).2, NodeState.fresh.penalize defaultPenalty 0⟩
    net.find? three = some penalized ∧ next.find? three = some penalized ∧
    penalized.state.isHealthy 0 = false ∧
    (net.find? four).map Node.address = some (Stage.node 4).2 ∧
    next.find? four = some (.fresh four place) ∧ next.size = 2 := by
  intro three four place changes entries net next penalized
  obtain ⟨hnone, hnodes, hsize, -⟩ := nodes_of_set defaultPenalty changes entries
  have hheld : net.find? three = some penalized := by decide +kernel
  have hmoved : (net.find? four).map Node.address = some (Stage.node 4).2 := by decide +kernel
  have hthree : next.find? three = some penalized := by
    obtain ⟨node, hnode⟩ := Option.ne_none_iff_exists'.mp fun h => (hnone three).mp h (by decide)
    obtain ⟨-, hlast, hkept, -⟩ := hnodes three node hnode
    have haddress : penalized.address = node.address := Option.some.inj hlast
    rw [← hheld, hkept.mpr ⟨penalized, hheld, haddress⟩]
    exact hnode
  have hfour : next.find? four = some (.fresh four place) := by
    obtain ⟨node, hnode⟩ := Option.ne_none_iff_exists'.mp fun h => (hnone four).mp h (by decide)
    obtain ⟨hid, hlast, -, hfresh, -⟩ := hnodes four node hnode
    have haddress : place = node.address := Option.some.inj hlast
    have hother : net.find? four ≠ some node := by
      intro h
      rw [h, Option.map_some, ← haddress] at hmoved
      exact absurd (Option.some.inj hmoved) (by decide)
    have hstate : node.state = .fresh := (hfresh hother).1
    rw [hnode, Node.fresh, haddress, ← hid, ← hstate]
  exact ⟨hheld, hthree, by decide +kernel, hmoved, hfour, hsize⟩

end LedgerClient
