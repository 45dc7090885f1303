import LedgerClient.World
import LedgerClient.Proofs.Delay

namespace LedgerClient

variable {σ : Type} {s : Situation σ} {net : Network} {node : Node} {nodes : List Node}
  {state : NodeState} {id : AccountId} {f : NodeState → NodeState} {bounds : Backoff} {now n : Nat}

theorem Backoff.delay_le : (bounds.delay n).nanos ≤ bounds.max.nanos := by
  rw [Backoff.delay_nanos]
  split <;> omega

theorem NodeState.isHealthy_iff : state.isHealthy now = true ↔ state.waitRemaining now = 0 := by
  unfold NodeState.isHealthy NodeState.waitRemaining
  cases state.badUntil with
  | none => simp
  | some t => simp [Nat.sub_eq_zero_iff_le]

theorem NodeState.waitRemaining_add :
    state.waitRemaining (now + n) = state.waitRemaining now - n := by
  simp only [NodeState.waitRemaining]
  omega

theorem NodeState.waitRemaining_penalize_le :
    (state.penalize bounds now).waitRemaining now ≤
      max (state.waitRemaining now) bounds.max.nanos := by
  rcases Nat.lt_or_ge lastInstant (now + (state.currentDelay bounds).nanos) with hlt | hle
  · rw [NodeState.penalize_of_lt hlt]
    exact Nat.le_max_left ..
  · have hdelay : (state.currentDelay bounds).nanos ≤ bounds.max.nanos := Backoff.delay_le
    rw [NodeState.penalize_of_le hle]
    simp only [NodeState.waitRemaining, Option.getD_some]
    omega

/-- No penalty lasts longer than the greatest. -/
def Situation.Bounded (s : Situation σ) : Prop :=
  ∀ node ∈ s.network.nodes, node.state.waitRemaining s.now ≤ s.network.bounds.max.nanos

theorem Situation.Bounded.world {world : σ} (h : s.Bounded) :
    Situation.Bounded { s with world := world } :=
  h

theorem Situation.Bounded.elapse (h : s.Bounded) : (s.elapse n).Bounded := by
  intro node hn
  have hwait := h node hn
  simp only [Situation.elapse, NodeState.waitRemaining_add]
  omega

/-- A change to a node may begin a penalty, or leave the one there is. -/
theorem Situation.Bounded.update (h : s.Bounded)
    (hf : ∀ state : NodeState, (f state).waitRemaining s.now ≤
      max (state.waitRemaining s.now) s.network.bounds.max.nanos) : (s.update id f).Bounded := by
  intro node hn
  obtain ⟨old, hold, rfl⟩ := List.mem_map.mp hn
  have hwait := h old hold
  split
  · have hstep := hf old.state
    exact Nat.le_trans hstep (Nat.max_le.mpr ⟨hwait, Nat.le_refl _⟩)
  · exact hwait

theorem Situation.Bounded.penalizeNode (h : s.Bounded) : (s.penalizeNode node).1.Bounded :=
  h.update fun _ => NodeState.waitRemaining_penalize_le

theorem Network.find?_eq_some {net : Network} {id : AccountId} (h : net.find? id = some node) :
    node ∈ net.nodes ∧ node.id = id :=
  ⟨List.mem_of_find?_eq_some h, by simpa using List.find?_some h⟩

theorem mem_putNode {old : Node} (h : old ∈ putNode nodes node) : old = node ∨ old ∈ nodes := by
  unfold putNode at h
  split at h
  · obtain ⟨old', hold, rfl⟩ := List.mem_map.mp h
    split
    · exact .inl rfl
    · exact .inr hold
  · simpa [or_comm] using h

/-- Nodes that are named for the first time have no penalty. -/
theorem state_of_ofEntries {entries : List (AccountId × NodeAddress)}
    (h : node ∈ (Network.ofEntries bounds entries).nodes) : node.state = .fresh := by
  have fresh : ∀ (entries : List (AccountId × NodeAddress)) (nodes : List Node),
      (∀ node ∈ nodes, node.state = .fresh) →
      ∀ node ∈ entries.foldl
        (fun nodes entry => putNode nodes ((Network.empty bounds).carryOver entry)) nodes,
        node.state = .fresh := by
    intro entries
    induction entries with
    | nil => exact fun _ hn => hn
    | cons entry rest ih =>
      refine fun nodes hn => ih _ fun node hnode => ?_
      rcases mem_putNode hnode with rfl | hnode
      · rfl
      · exact hn node hnode
  exact fresh entries [] (by simp) node h

theorem bounded_of_ofEntries {entries : List (AccountId × NodeAddress)} {world : σ} :
    Situation.Bounded ⟨.ofEntries bounds entries, now, world⟩ := by
  intro node hn
  rw [state_of_ofEntries hn]
  simp [NodeState.waitRemaining, NodeState.fresh]

end LedgerClient
