import LedgerClient.Proofs.NodeSet

namespace LedgerClient

variable {σ α : Type} {c : Client} {w : World σ} {op : Operation α} {r : Request}
  {s : Situation σ} {p q : Progress σ} {e : Ending α} {k now : Nat} {error : DispatchError}
  {o : Outcome} {node : Node} {nodes : List Node} {id : AccountId} {ids : List AccountId}
  {net : Network} {l l' : Rotation} {max : UInt64}

/-- A choice of at most `max` of these nodes, where zero stands for no limit. -/
structure Choice (nodes : List Node) (max : UInt64) (ids : List AccountId) : Prop where
  nodup : ids.Nodup
  drawn : ∀ id ∈ ids, ∃ node ∈ nodes, node.id = id
  length_eq : ids.length = if max = 0 then nodes.length else min max.toNat nodes.length

def Network.healthy (net : Network) (now : Nat) : List Node :=
  net.nodes.filter fun node => node.state.isHealthy now

theorem Network.mem_healthy :
    node ∈ net.healthy now ↔ node ∈ net.nodes ∧ node.state.isHealthy now = true :=
  List.mem_filter

theorem choice_of_perm (hn : (nodes.map Node.id).Nodup) (h : ids.Perm (nodes.map Node.id)) :
    Choice nodes max (atMost max ids) := by
  have hdrawn : ∀ id ∈ ids, ∃ node ∈ nodes, node.id = id :=
    fun id hid => List.mem_map.mp (h.mem_iff.mp hid)
  have hnodup : ids.Nodup := h.nodup_iff.mpr hn
  have hlength : ids.length = nodes.length := h.length_eq.trans (List.length_map _)
  unfold atMost
  split
  next hmax => exact ⟨hnodup, hdrawn, by rw [if_pos hmax, hlength]⟩
  next hmax =>
    refine ⟨hnodup.sublist (List.take_sublist ..), fun id hid => ?_, ?_⟩
    · exact hdrawn id (List.mem_of_mem_take hid)
    · rw [if_neg hmax, List.length_take, hlength]

/-- Only where there is nothing to choose from is nothing chosen. -/
theorem Choice.eq_nil_iff (h : Choice nodes max ids) : ids = [] ↔ nodes = [] := by
  rw [← List.length_eq_zero_iff, ← List.length_eq_zero_iff, h.length_eq]
  split
  next => exact Iff.rfl
  next hmax =>
    have hpos : max.toNat ≠ 0 := fun hzero => hmax (UInt64.toNat_inj.mp hzero)
    omega

/-- Whatever order chance brings about, the choice is among the healthy nodes, or among all if none
is healthy. -/
theorem choice_of_select (s : Situation σ) (w : World σ) (max : UInt64) :
    (s.network.healthy s.now ≠ [] →
      Choice (s.network.healthy s.now) max (s.select w max).1) ∧
    (s.network.healthy s.now = [] → Choice s.network.nodes max (s.select w max).1) := by
  have hperm := w.perm_shuffle (s.network.candidates s.now) s.world
  refine ⟨fun h => ?_, fun h => ?_⟩
  · have hcandidates : s.network.candidates s.now = (s.network.healthy s.now).map Node.id :=
      congrArg (List.map Node.id) (if_neg (mt List.isEmpty_iff.mp h))
    have hnodup : ((s.network.healthy s.now).map Node.id).Nodup :=
      s.network.nodup.sublist (List.filter_sublist.map Node.id)
    exact choice_of_perm hnodup (hcandidates ▸ hperm)
  · have hcandidates : s.network.candidates s.now = s.network.nodes.map Node.id :=
      congrArg (List.map Node.id) (if_pos (List.isEmpty_iff.mpr h))
    exact choice_of_perm s.network.nodup (hcandidates ▸ hperm)

theorem select_eq_nil_iff : (s.select w max).1 = [] ↔ s.network.nodes = [] := by
  obtain ⟨hsome, hnone⟩ := choice_of_select s w max
  by_cases h : s.network.healthy s.now = []
  · exact (hnone h).eq_nil_iff
  · have hnodes : s.network.nodes ≠ [] := fun hempty => h (by rw [Network.healthy, hempty]; rfl)
    exact (hsome h).eq_nil_iff.trans (iff_of_false h hnodes)

/-- Where some node is healthy, all that are chosen are. -/
theorem healthy_of_select (h : id ∈ (s.select w max).1) :
    ∃ node, s.network.find? id = some node ∧
      (s.network.healthy s.now ≠ [] → node.state.isHealthy s.now = true) := by
  obtain ⟨hsome, hnone⟩ := choice_of_select s w max
  by_cases hempty : s.network.healthy s.now = []
  · obtain ⟨node, hnode, rfl⟩ := (hnone hempty).drawn id h
    exact ⟨node, Network.mem_nodes_iff.mp hnode, fun hne => absurd hempty hne⟩
  · obtain ⟨node, hnode, rfl⟩ := (hsome hempty).drawn id h
    obtain ⟨hmem, hhealthy⟩ := Network.mem_healthy.mp hnode
    exact ⟨node, Network.mem_nodes_iff.mp hmem, fun _ => hhealthy⟩

theorem candidates_of_unnamed (h : r.nodes.ids = []) :
    c.candidates w r s = (s.select w c.maxNodes).1 :=
  if_pos (List.isEmpty_iff.mpr h)

theorem Rotation.Serves.mem_ids (h : l.Serves ids l') : ∀ id ∈ ids, id ∈ l.ids := by
  induction h with
  | nil => simp
  | cons hid _ ih =>
    intro id hmem
    rcases List.mem_cons.mp hmem with rfl | hmem
    · exact List.mem_of_getElem? hid
    · exact Rotation.advance_ids _ ▸ ih id hmem

/-- An execution goes to its candidates only. -/
theorem mem_candidates_of_dispatch (h : id ∈ dispatches (c.run w op r s).2.journal) :
    id ∈ c.candidates w r s := by
  generalize hrun : c.run w op r s = run at h
  obtain ⟨result, q⟩ := run
  rcases run_cases hrun with ⟨e, _, _, -, -, rfl⟩ | ⟨prepared, s', hp, hend⟩
  · cases h
  · obtain ⟨hserves, -⟩ := hend.serves rfl
    rw [← candidates_of_prepare hp, List.mem_rotate]
    exact hserves.mem_ids id h

theorem Client.Makes.mem_candidates (h : c.Makes w op r s k p e q)
    (hid : p.request.nodes.current? = some id) : id ∈ c.candidates w r s := by
  cases h with
  | intro hp reach =>
    rw [← candidates_of_prepare hp, List.mem_rotate, ← (reach.serves rfl).ids_eq]
    exact List.mem_of_getElem? hid

/-- If all nodes that a request names are known, no attempt is made at a node that is not. -/
theorem Client.EndsWith.not_unknownNode (h : c.EndsWith w op r s k p o q)
    (known : ∀ id ∈ r.nodes.ids, (s.network.find? id).isSome) : o ≠ .unknownNode id := by
  rintro rfl
  obtain ⟨_, _, makes⟩ := h.makes
  obtain ⟨m, hm, hcurrent⟩ := makes.sendable
  have hmem := mem_ids_of_candidates known (makes.mem_candidates hcurrent)
  have hf : (p.situation.network.find? m.node).isSome := by
    rw [Network.isSome_find?_iff, makes.ids_eq]
    exact hmem
  have hdispatched := isDispatched_of_contact h.contact hm hf
  cases hdispatched

/-- An answer is taken, and the operation itself finds this error in it. -/
def Client.Finds (c : Client) (w : World σ) (op : Operation α) (r : Request) (s : Situation σ)
    (error : DispatchError) : Prop :=
  ∃ k p node m a q, c.EndsWith w op r s k p (.answered node m a) q ∧
    op.classify q.request a = .finished ∧ op.result q.request a node.id m = .error error

theorem Client.Finds.execute_eq (h : c.Finds w op r s error) :
    (c.execute w op r s).1 = .error error := by
  obtain ⟨k, p, node, m, a, q, ends, hv, hresult⟩ := h
  rw [(execute_eq_run c w op r s).1, ends.result]
  simp only [Outcome.settlement, hv, if_true, hresult]

theorem Client.Finds.of_query (h : c.Finds w queryOperation r s error) :
    ∃ reason, error = .undecodable reason := by
  obtain ⟨_, _, _, _, _, _, -, -, hresult⟩ := h
  exact queryOperation_result_eq_error hresult

theorem Client.Finds.of_submit (h : c.Finds w submitOperation r s error) :
    ∃ reason, error = .undecodable reason := by
  obtain ⟨_, _, _, _, _, _, -, -, hresult⟩ := h
  exact submitOperation_result_eq_error hresult

/-- Without nodes an execution fails at once, whatever else the request lacks. -/
theorem execute_of_no_nodes (hr : r.nodes.ids = []) (hs : s.network.nodes = []) :
    (c.execute w op r s).1 = .error .noNodes := by
  have hselect : (s.select w c.maxNodes).1 = [] := select_eq_nil_iff.mpr hs
  obtain ⟨s', hp⟩ : ∃ s', c.prepare w r s = .error (.noNodes, r, s') := by
    have hnodes : c.chooseNodes w r s = .error (.noNodes, r, (s.select w c.maxNodes).2) := by
      unfold Client.chooseNodes
      rw [if_pos (List.isEmpty_iff.mpr hr)]
      split
      next hpicked => rw [hpicked]
      next ids picked hne hpicked =>
        have hids : (s.select w c.maxNodes).1 = ids := congrArg Prod.fst hpicked
        exact absurd (hids.symm.trans hselect) hne
    rw [Client.prepare, hnodes]
    exact ⟨_, rfl⟩
  rw [(execute_eq_run c w op r s).1, run_of_unprepared op hp]

/-- That there are no nodes, or that one is not known, is said of a request that names none only
where the network is empty, or where the operation says so. -/
theorem finds_of_error (hr : r.nodes.ids = []) (h : (c.execute w op r s).1 = .error error)
    (he : error = .noNodes ∨ ∃ id, error = .unknownNode id) :
    (s.network.nodes = [] ∧ error = .noNodes) ∨ c.Finds w op r s error := by
  cases fails_of_execute h with
  | unprepared hp =>
    rcases prepare_eq_error hp with ⟨-, hselect, rfl⟩ | ⟨_, -, -, ⟨-, rfl⟩ | ⟨-, rfl⟩⟩
    · exact .inl ⟨select_eq_nil_iff.mp hselect, rfl⟩
    · simp at he
    · simp at he
  | unknownNode ends => exact absurd rfl (ends.not_unknownNode (by simp [hr]))
  | faulted | refused => simp at he
  | undecoded ends hv hresult => exact .inr ⟨_, _, _, _, _, _, ends, hv, hresult⟩

theorem execute_eq_noNodes_iff (hr : r.nodes.ids = []) :
    (c.execute w op r s).1 = .error .noNodes ↔
      s.network.nodes = [] ∨ c.Finds w op r s .noNodes := by
  refine ⟨fun h => ?_, fun h => h.elim (execute_of_no_nodes hr) Client.Finds.execute_eq⟩
  exact (finds_of_error hr h (.inl rfl)).imp_left And.left

theorem execute_eq_unknownNode_iff (hr : r.nodes.ids = []) :
    (c.execute w op r s).1 = .error (.unknownNode id) ↔ c.Finds w op r s (.unknownNode id) := by
  refine ⟨fun h => ?_, Client.Finds.execute_eq⟩
  exact (finds_of_error hr h (.inr ⟨id, rfl⟩)).resolve_left (by simp)

/-- What is picked for a request that names no nodes is a choice among the healthy nodes, or among
all if none is healthy. Its execution fails for want of nodes exactly if there are none, never meets
a node that is not known, and goes only to nodes that were picked. An operation may make such errors
of an answer itself, but the usual ones do not. -/
theorem selection_of_nodes (c : Client) (w : World σ) (op : Operation α) (r : Request)
    (s : Situation σ) :
    let healthy := s.network.healthy s.now
    (∀ max, let chosen := (s.select w max).1
      (healthy ≠ [] → Choice healthy max chosen) ∧
      (healthy = [] → Choice s.network.nodes max chosen) ∧
      (chosen = [] ↔ s.network.nodes = [])) ∧
    (r.nodes.ids = [] →
      let run := c.execute w op r s
      let asked := c.execute w queryOperation r s
      let sent := c.execute w submitOperation r s
      (run.1 = .error .noNodes ↔ s.network.nodes = [] ∨ c.Finds w op r s .noNodes) ∧
      (∀ id, run.1 = .error (.unknownNode id) ↔ c.Finds w op r s (.unknownNode id)) ∧
      (asked.1 = .error .noNodes ↔ s.network.nodes = []) ∧
      (sent.1 = .error .noNodes ↔ s.network.nodes = []) ∧
      (∀ id, asked.1 ≠ .error (.unknownNode id) ∧ sent.1 ≠ .error (.unknownNode id)) ∧
      ∀ id ∈ dispatches run.2.journal, id ∈ (s.select w c.maxNodes).1 ∧
        ∃ node, s.network.find? id = some node ∧
          (healthy ≠ [] → node.state.isHealthy s.now = true)) := by
  intro healthy
  refine ⟨fun max => ?_, fun hr => ?_⟩
  · obtain ⟨hsome, hnone⟩ := choice_of_select s w max
    exact ⟨hsome, hnone, select_eq_nil_iff⟩
  intro run asked sent
  have hquery : ∀ e, c.Finds w queryOperation r s e → ∃ reason, e = .undecodable reason :=
    fun _ h => h.of_query
  have hsubmit : ∀ e, c.Finds w submitOperation r s e → ∃ reason, e = .undecodable reason :=
    fun _ h => h.of_submit
  refine ⟨execute_eq_noNodes_iff hr, fun _ => execute_eq_unknownNode_iff hr, ?_, ?_,
    fun id => ⟨fun h => ?_, fun h => ?_⟩, fun id hid => ?_⟩
  · exact (execute_eq_noNodes_iff hr).trans (or_iff_left fun h => by simpa using hquery _ h)
  · exact (execute_eq_noNodes_iff hr).trans (or_iff_left fun h => by simpa using hsubmit _ h)
  · simpa using hquery _ ((execute_eq_unknownNode_iff hr).mp h)
  · simpa using hsubmit _ ((execute_eq_unknownNode_iff hr).mp h)
  · have hjournal : run.2.journal = (c.run w op r s).2.journal :=
      (execute_eq_run c w op r s).2.2.1
    rw [hjournal] at hid
    have hchosen := candidates_of_unnamed (c := c) (w := w) hr ▸ mem_candidates_of_dispatch hid
    exact ⟨hchosen, healthy_of_select hchosen⟩

/-- Of three nodes the first is penalized. A query goes to the others, of which one is busy. -/
theorem selection_of_penalized :
    let four := (Stage.node 4).1
    let five := (Stage.node 5).1
    let s := (Stage.situation [.answering [.ok], .answering [.busy], .answering [.ok]]).update
      (Stage.node 3).1 fun state => state.penalize defaultPenalty 0
    let request := Request.query (.ofBody default)
    let run := Client.default.execute Stage.world queryOperation request s
    request.nodes.ids = [] ∧ Choice (s.network.healthy s.now) 0 [four, five] ∧
      dispatches run.2.journal = [four, five] ∧ run.1 ≠ .error .noNodes ∧
      ∃ node, s.network.find? five = some node ∧ node.state.isHealthy s.now = true := by
  intro four five s request run
  have hhealthy : s.network.healthy s.now ≠ [] := by decide +kernel
  have hchosen : (s.select Stage.world 0).1 = [four, five] := by decide +kernel
  have hdispatches : dispatches run.2.journal = [four, five] := by decide +kernel
  have hr : request.nodes.ids = [] := rfl
  obtain ⟨hselect, hexecute⟩ :=
    selection_of_nodes Client.default Stage.world queryOperation request s
  obtain ⟨-, -, hempty, -, -, hgoes⟩ := hexecute hr
  have hnodes : s.network.nodes ≠ [] := by decide +kernel
  obtain ⟨-, node, hnode, hh⟩ := hgoes five (hdispatches ▸ by decide)
  exact ⟨hr, hchosen ▸ (hselect 0).1 hhealthy, hdispatches, mt hempty.mp hnodes, node, hnode,
    hh hhealthy⟩

end LedgerClient
