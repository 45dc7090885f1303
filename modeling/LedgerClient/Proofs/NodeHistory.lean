import LedgerClient.Proofs.Visits
import LedgerClient.Proofs.Waiting

namespace LedgerClient

variable {σ α : Type} {c : Client} {w : World σ} {op : Operation α} {policy : Policy}
  {r : Request} {situation s start : Situation σ} {p q : Progress σ} {e : Ending α}
  {k made limit now : Nat} {last : DispatchError} {o : Outcome} {node : Node} {m : Message}
  {channel : Channel} {id : AccountId} {bounds : Backoff} {state : NodeState}
  {a b : List Entry} {x : Entry} {es : List Event}

/-- The node that a step is about, as far as it matters to the node. -/
def Entry.node? : Entry → Option AccountId
  | .event (.nodeSelected _ id _) | .event (.channelFailed id _) | .event (.callFailed id _ _)
  | .event (.classified id _ _) | .connected id _ _ => some id
  | _ => none

/-- What a step makes of the node it is about. Any answer counts as a success, whatever it says, and
only a transient fault of a call as a failure. -/
def Entry.effect (bounds : Backoff) (now : Nat) : Entry → NodeState → NodeState
  | .event (.nodeSelected _ _ _), s => s.use now
  | .event (.channelFailed _ _), s | .event (.callFailed _ _ true), s => s.penalize bounds now
  | .event (.classified _ _ _), s => s.reward
  | .connected _ _ (.ok channel), s => { s with channel := some channel }
  | _, s => s

/-- The state of node `id` after a step. -/
def NodeState.after (bounds : Backoff) (id : AccountId) (now : Nat) (s : NodeState) (x : Entry) :
    NodeState :=
  if x.node? = some id then x.effect bounds now s else s

/-- The state of node `id` after all steps, where each happens at its time on the clock. -/
def NodeState.replay (bounds : Backoff) (id : AccountId) : Nat → NodeState → List Entry → NodeState
  | _, s, [] => s
  | now, s, x :: rest => (s.after bounds id now x).replay bounds id (now + elapsed [x]) rest

theorem NodeState.replay_append :
    state.replay bounds id now (a ++ b) =
      (state.replay bounds id now a).replay bounds id (now + elapsed a) b := by
  induction a generalizing now state with
  | nil => rfl
  | cons x rest ih =>
    rw [List.cons_append, NodeState.replay, ih, NodeState.replay, Nat.add_assoc, ← elapsed_append,
      List.singleton_append]

/-- A step about another node changes nothing. -/
theorem NodeState.replay_of_ne (h : ∀ x ∈ a, x.node? ≠ some id) :
    state.replay bounds id now a = state := by
  induction a generalizing now state with
  | nil => rfl
  | cons x rest ih =>
    have hx : state.after bounds id now x = state := if_neg (h x List.mem_cons_self)
    rw [NodeState.replay, hx]
    exact ih fun y hy => h y (List.mem_cons_of_mem x hy)

theorem Entry.effect_of_node? (h : x.node? = none) : x.effect bounds now state = state := by
  unfold Entry.effect
  split <;> first | rfl | cases h

theorem Entry.useCount_effect (h : x.dispatch? = none) :
    (x.effect bounds now state).useCount = state.useCount := by
  unfold Entry.effect
  split
  next => cases h
  all_goals first | rfl | exact NodeState.useCount_penalize ..

theorem Entry.eq_of_dispatch? (h : x.dispatch? = some id) :
    ∃ k address, x = .event (.nodeSelected k id address) := by
  unfold Entry.dispatch? at h
  split at h
  next k selected address =>
    cases h
    exact ⟨k, address, rfl⟩
  next => cases h

theorem NodeState.useCount_after : (state.after bounds id now x).useCount =
    state.useCount + UInt64.ofNat ((dispatches [x]).count id) := by
  cases hd : x.dispatch? with
  | none =>
    have hnone : dispatches [x] = [] := by simp [dispatches, hd]
    rw [hnone, List.count_nil, NodeState.after]
    split
    · exact (Entry.useCount_effect hd).trans (UInt64.add_zero _).symm
    · exact (UInt64.add_zero _).symm
  | some selected =>
    obtain ⟨k, address, rfl⟩ := Entry.eq_of_dispatch? hd
    have hone : dispatches [.event (.nodeSelected k selected address)] = [selected] := rfl
    rw [hone, List.count_singleton, NodeState.after]
    by_cases h : selected = id
    · simp [h, Entry.node?, Entry.effect, NodeState.use]
    · simp [h, Entry.node?]

theorem NodeState.useCount_replay : (state.replay bounds id now a).useCount =
    state.useCount + UInt64.ofNat ((dispatches a).count id) := by
  induction a generalizing now state with
  | nil => exact (UInt64.add_zero _).symm
  | cons x rest ih =>
    have hcons : x :: rest = [x] ++ rest := rfl
    rw [NodeState.replay, ih, NodeState.useCount_after, hcons, dispatches_append, List.count_append,
      UInt64.ofNat_add, UInt64.add_assoc]

/-- Every selection of a node is a use of it, and nothing else is. -/
theorem NodeState.uses_replay : (state.replay bounds id now a).uses =
    (state.uses + (dispatches a).count id) % UInt64.size := by
  rw [NodeState.uses, NodeState.useCount_replay, UInt64.toNat_add, UInt64.toNat_ofNat']
  exact Nat.add_mod_mod ..

/-- What a step says of its node's health. -/
inductive Judgement
  | failed (now : Nat)
  | answered

def Entry.judgement? (now : Nat) : Entry → Option Judgement
  | .event (.channelFailed _ _) | .event (.callFailed _ _ true) => some (.failed now)
  | .event (.classified _ _ _) => some .answered
  | _ => none

/-- All that the steps say of the health of node `id`. -/
def judgements (id : AccountId) : Nat → List Entry → List Judgement
  | _, [] => []
  | now, x :: rest =>
    (if x.node? = some id then x.judgement? now else none).toList ++
      judgements id (now + elapsed [x]) rest

def NodeState.judge (bounds : Backoff) (s : NodeState) : Judgement → NodeState
  | .failed now => s.penalize bounds now
  | .answered => s.reward

/-- How often the next penalty has been doubled, and the end of the last. -/
def NodeState.delay (s : NodeState) : Nat × Option Nat :=
  (s.level, s.badUntil)

theorem NodeState.delay_penalize : (state.penalize bounds now).delay =
    let delay := (bounds.delay state.delay.1).nanos
    if now + delay ≤ lastInstant then
      (if delay < bounds.max.nanos then state.delay.1 + 1 else state.delay.1, some (now + delay))
    else state.delay := by
  rcases Nat.lt_or_ge lastInstant (now + (state.currentDelay bounds).nanos) with hlt | hle
  · rw [NodeState.penalize_of_lt hlt]
    exact (if_neg (Nat.not_le.mpr hlt)).symm
  · rw [NodeState.penalize_of_le hle]
    exact (if_pos hle).symm

theorem NodeState.delay_judge {t : NodeState} {j : Judgement} (h : state.delay = t.delay) :
    (state.judge bounds j).delay = (t.judge bounds j).delay := by
  cases j with
  | failed now => rw [NodeState.judge, NodeState.delay_penalize, h, NodeState.judge,
      NodeState.delay_penalize]
  | answered =>
    obtain ⟨hlevel, hends⟩ := Prod.mk.inj h
    simp [NodeState.judge, NodeState.delay, NodeState.reward, hlevel, hends]

theorem Entry.delay_effect :
    (x.effect bounds now state).delay =
      ((x.judgement? now).toList.foldl (NodeState.judge bounds) state).delay := by
  rcases x with ⟨event⟩ | _ | ⟨_, _, outcome⟩ | _ | _ | _ | _ | _
  · cases event with
    | callFailed _ _ transient => cases transient <;> rfl
    | _ => rfl
  · rfl
  · cases outcome <;> rfl
  all_goals rfl

/-- Uses and channels have no part in penalties. -/
theorem NodeState.delay_replay {t : NodeState} (h : state.delay = t.delay) :
    (state.replay bounds id now a).delay =
      ((judgements id now a).foldl (NodeState.judge bounds) t).delay := by
  induction a generalizing now state t with
  | nil => exact h
  | cons x rest ih =>
    rw [NodeState.replay, judgements, List.foldl_append]
    refine ih ?_
    rw [NodeState.after]
    split
    · rw [Entry.delay_effect]
      cases x.judgement? now with
      | none => exact h
      | some j => exact NodeState.delay_judge h
    · exact h

/-- What holds all along an execution that began at `start`: the record accounts for the clock and
for the states of all nodes, and only of nodes that were selected there is anything on record. -/
structure Told (start : Situation σ) (p : Progress σ) : Prop where
  now : p.situation.now = start.now + elapsed p.journal
  bounds : p.situation.network.bounds = start.network.bounds
  nodes : p.situation.network.nodes = start.network.nodes.map fun node =>
    { node with
      state := node.state.replay start.network.bounds node.id start.now p.journal }
  selected : ∀ x ∈ p.journal, ∀ id, x.node? = some id → id ∈ dispatches p.journal

theorem Told.step (h : Told start p) (hj : q.journal = p.journal ++ [x])
    (hnow : q.situation.now = p.situation.now + elapsed [x])
    (hb : q.situation.network.bounds = p.situation.network.bounds)
    (hn : q.situation.network.nodes = p.situation.network.nodes.map fun node =>
      { node with
        state := node.state.after start.network.bounds node.id p.situation.now x })
    (hid : ∀ id, x.node? = some id → id ∈ dispatches q.journal) : Told start q where
  now := by rw [hnow, h.now, hj, elapsed_append, Nat.add_assoc]
  bounds := hb.trans h.bounds
  nodes := by
    rw [hn, h.nodes, List.map_map]
    refine List.map_congr_left fun node _ => ?_
    rw [hj, NodeState.replay_append, ← h.now]
    rfl
  selected y hy id hy' := by
    rw [hj] at hy
    rcases List.mem_append.mp hy with hy | hy
    · rw [hj, dispatches_append]
      exact List.mem_append_left _ (h.selected y hy id hy')
    · obtain rfl := List.mem_singleton.mp hy
      exact hid id hy'

/-- A step that the network does not feel. -/
theorem Told.keep (h : Told start p) (hj : q.journal = p.journal ++ [x])
    (hnow : q.situation.now = p.situation.now + elapsed [x])
    (hnet : q.situation.network = p.situation.network)
    (hx : ∀ s, x.effect start.network.bounds p.situation.now s = s)
    (hid : ∀ id, x.node? = some id → id ∈ dispatches q.journal) : Told start q := by
  refine h.step hj hnow (congrArg Network.bounds hnet) ?_ hid
  rw [hnet]
  refine (List.map_id _).symm.trans (List.map_congr_left fun node _ => ?_)
  simp [NodeState.after, hx]

theorem Told.change {f : NodeState → NodeState} (h : Told start p)
    (hj : q.journal = p.journal ++ [x])
    (hnow : q.situation.now = p.situation.now + elapsed [x])
    (hnet : q.situation.network = p.situation.network.update id f) (hid : x.node? = some id)
    (hx : x.effect start.network.bounds p.situation.now = f)
    (hd : id ∈ dispatches q.journal) : Told start q := by
  refine h.step hj hnow (by rw [hnet]; rfl) ?_ fun id' hid' => ?_
  · rw [hnet]
    refine List.map_congr_left fun node _ => ?_
    simp only [NodeState.after, hid, hx, Option.some.injEq]
    by_cases hn : node.id = id
    · simp [hn]
    · simp [hn, Ne.symm hn]
  · obtain rfl := Option.some.inj (hid.symm.trans hid')
    exact hd

/-- A step that is about no node. -/
theorem Told.pass (h : Told start p) (hj : q.journal = p.journal ++ [x])
    (hnow : q.situation.now = p.situation.now + elapsed [x])
    (hnet : q.situation.network = p.situation.network) (hx : x.node? = none) : Told start q :=
  h.keep hj hnow hnet (fun _ => Entry.effect_of_node? hx) (by simp [hx])

theorem Told.note {event : Event} (h : Told start p) (hx : (Entry.event event).node? = none) :
    Told start (p.note event) :=
  h.pass rfl rfl rfl hx

theorem Told.sleep {nanos : Nat} {step : Nat → Entry} (h : Told start p)
    (hstep : ∀ took, (step took).node? = none ∧ elapsed [step took] = took) :
    Told start (p.sleep w nanos step) := by
  obtain ⟨took, world, -, hslept⟩ := sleep_eq w p nanos step
  rw [hslept]
  exact h.pass rfl (by rw [(hstep took).2]; rfl) rfl (hstep took).1

theorem Told.approach (h : Told start p) :
    Told start (p.approach w k (node.use p.situation.now)).advance := by
  have hselected : Told start (Progress.note { p with
      situation := p.situation.useNode node.id } (.nodeSelected k node.id node.address)) :=
    h.change rfl rfl rfl rfl rfl (by simp [Progress.note, dispatches, Entry.dispatch?])
  suffices happroach : Told start (p.approach w k (node.use p.situation.now)) from
    ⟨happroach.now, happroach.bounds, happroach.nodes, happroach.selected⟩
  simp only [Progress.approach]
  split
  next => exact hselected
  next => exact (hselected.note rfl).sleep fun _ => ⟨rfl, rfl⟩

theorem mem_dispatches_of_append (h : id ∈ dispatches a) : id ∈ dispatches (a ++ b) := by
  rw [dispatches_append]
  exact List.mem_append_left _ h

theorem Told.acquire {y : Except Fault Channel} (h : Told start p)
    (hd : node.id ∈ dispatches p.journal) (ha : p.acquire w node = (y, q)) : Told start q := by
  have hasked : Told start { p with
      journal := p.journal ++ [.acquired p.situation.now node] } :=
    h.pass rfl rfl rfl rfl
  have hpassed : ∀ took world, Told start { p with
      situation := { p.situation with world := world }.elapse took
      journal := p.journal ++ [.acquired p.situation.now node, .passed took] } :=
    fun _ _ => hasked.pass (List.append_assoc _ [_] [_]).symm rfl rfl rfl
  cases acquired_of_acquire ha with
  | held => exact hasked
  | @opened _ took world =>
    exact (hpassed took world).change (List.append_assoc _ [_, _] [_]).symm rfl rfl rfl rfl
      (mem_dispatches_of_append hd)
  | @closed _ took world =>
    refine (hpassed took world).keep (List.append_assoc _ [_, _] [_]).symm rfl rfl (fun _ => rfl)
      fun id hid => ?_
    obtain rfl := Option.some.inj hid
    exact mem_dispatches_of_append hd

theorem Told.call {y : Except Fault Answer} (h : Told start p)
    (hc : p.call w node channel m = (y, q)) : Told start q := by
  obtain ⟨took, world, -, hs, hj⟩ := call_eq hc
  have hpassed : Told start { p with
      situation := { p.situation with world := world }.elapse took
      journal := p.journal ++ [.passed took] } :=
    h.pass rfl rfl rfl rfl
  exact hpassed.pass (hj.trans (List.append_assoc _ [_] [_]).symm) (by rw [hs]; rfl) (by rw [hs])
    rfl

theorem Told.penalize (h : Told start p) (hj : q.journal = p.journal ++ [x])
    (hq : q.situation = (p.situation.penalizeNode node).1) (hid : x.node? = some node.id)
    (hx : ∀ bounds now, x.effect bounds now = (NodeState.penalize · bounds now))
    (ht : elapsed [x] = 0) (hd : node.id ∈ dispatches q.journal) : Told start q := by
  have hnet : q.situation.network = p.situation.network.update node.id
      (NodeState.penalize · start.network.bounds p.situation.now) := by
    rw [hq, ← h.bounds]
    rfl
  exact h.change hj (by rw [hq, ht]; rfl) hnet hid (hx _ _) hd

/-- What a contact leads to is on record, except for an answer that has still to be classified. -/
def Outcome.tells (start : Situation σ) (q : Progress σ) : Outcome → Prop
  | .answered node _ a => ∀ verdict, Told start (q.note (.classified node.id a.precheck verdict))
  | _ => Told start q

theorem Told.opened {found : Node} {y : Except Fault Channel} (h : Told start p)
    (hu : found.use p.situation.now = node)
    (ho : (p.approach w k node).advance.acquire w node = (y, q)) :
    Told start q ∧ node.id ∈ dispatches q.journal := by
  subst hu
  have happroach : (found.use p.situation.now).id ∈
      dispatches (p.approach w k (found.use p.situation.now)).advance.journal := by
    obtain ⟨-, pause, -, hj⟩ := (approached_of_approach w k (found.use p.situation.now) p).pauses
    simp [Progress.advance, hj, dispatches, Entry.dispatch?]
  refine ⟨h.approach.acquire happroach ho, ?_⟩
  rw [dispatches_of_visited (visited_of_acquire ho)]
  simp

theorem mem_dispatches_of_call {y : Except Fault Answer} (hd : id ∈ dispatches p.journal)
    (hc : p.call w node channel m = (y, q)) : id ∈ dispatches q.journal := by
  obtain ⟨_, _, -, -, hj⟩ := call_eq hc
  rw [hj]
  exact mem_dispatches_of_append hd

theorem tells_of_contact (h : Told start p) (hk : p.contact w k = (o, q)) : o.tells start q := by
  cases contacted_of_contact hk with
  | unsendable | unknownNode => exact h
  | @unopened _ _ node f q _ _ hu ho =>
    obtain ⟨hq, hd⟩ := h.opened hu ho
    have hshown : Told start { q with
        journal := q.journal ++ [.penalized node.id (node.state.currentDelay
          q.situation.network.bounds)] } :=
      hq.pass rfl rfl rfl rfl
    exact hshown.penalize rfl rfl rfl (fun _ _ => rfl) rfl
      (mem_dispatches_of_append (mem_dispatches_of_append hd))
  | @dropped _ _ node channel f _ s _ _ hu ho hc ht =>
    obtain ⟨hq, hd⟩ := h.opened hu ho
    have hfailed : Told start { s with
        situation := (s.situation.penalizeNode node).1
        journal := s.journal ++ [.event (.callFailed node.id f f.isTransient)] } :=
      (hq.call hc).penalize rfl rfl rfl (by rw [ht]; exact fun _ _ => rfl) rfl
        (mem_dispatches_of_append (mem_dispatches_of_call hd hc))
    exact hfailed.pass rfl rfl rfl rfl
  | broken _ _ hu ho hc ht =>
    obtain ⟨hq, hd⟩ := h.opened hu ho
    refine (hq.call hc).keep rfl rfl rfl (by rw [ht]; exact fun _ => rfl) fun id hid => ?_
    obtain rfl := Option.some.inj hid
    exact mem_dispatches_of_append (mem_dispatches_of_call hd hc)
  | answered _ _ hu ho hc =>
    obtain ⟨hq, hd⟩ := h.opened hu ho
    have hd' := mem_dispatches_of_call hd hc
    intro verdict
    exact (hq.call hc).change rfl rfl rfl rfl rfl (mem_dispatches_of_append hd')

theorem told_of_attempt (h : Told start p) (ha : c.attempt w op policy k p = (e, q)) :
    Told start q := by
  cases attempted_of_attempt ha with
  | unsendable hk =>
    have htold : Told start _ := tells_of_contact h hk
    exact htold.note rfl
  | unknownNode hk =>
    have htold : Told start _ := tells_of_contact h hk
    exact htold.note rfl
  | unopened hk => exact tells_of_contact h hk
  | dropped hk => exact tells_of_contact h hk
  | broken hk =>
    have htold : Told start _ := tells_of_contact h hk
    exact htold.note rfl
  | retried hk _ _ hr =>
    subst hr
    have htold : Told start _ := tells_of_contact h hk .retry
    exact (htold.note rfl).sleep fun _ => ⟨rfl, rfl⟩
  | spent hk => exact tells_of_contact h hk .retry
  | replaced hk _ hr =>
    have htold := tells_of_contact h hk .expired
    obtain ⟨_, _, _, _, _, _, _, rfl⟩ := replaceExpired?_eq_some hr
    exact Told.note ⟨htold.now, htold.bounds, htold.nodes, htold.selected⟩ rfl
  | stale hk => exact Told.note (tells_of_contact h hk .expired) rfl
  | refused hk => exact Told.note (tells_of_contact h hk .error) rfl
  | finished hk => exact Told.note (tells_of_contact h hk .finished) rfl

theorem told_of_journal_eq_nil (h : p.situation.network = start.network)
    (hnow : p.situation.now = start.now) (hj : p.journal = []) : Told start p where
  now := by rw [hj]; exact hnow
  bounds := congrArg Network.bounds h
  nodes := by
    rw [hj, h]
    exact (List.map_id _).symm
  selected := by simp [hj]

theorem Told.afresh : Told p.situation p.afresh :=
  told_of_journal_eq_nil rfl rfl rfl

theorem Told.andThen (h : Told start p) (hq : Told p.situation q) : Told start (p.andThen q) where
  now := by
    have hnow : (p.andThen q).situation.now = q.situation.now := rfl
    rw [hnow, hq.now, h.now, Progress.andThen, elapsed_append, Nat.add_assoc]
  bounds := hq.bounds.trans h.bounds
  nodes := by
    have hnodes : (p.andThen q).situation.network.nodes = q.situation.network.nodes := rfl
    rw [hnodes, hq.nodes, h.nodes, List.map_map, h.bounds, h.now]
    refine List.map_congr_left fun node _ => ?_
    rw [Progress.andThen, NodeState.replay_append]
    rfl
  selected x hx id hid := by
    rw [Progress.andThen] at hx ⊢
    rw [dispatches_append]
    rcases List.mem_append.mp hx with hx | hx
    · exact List.mem_append_left _ (h.selected x hx id hid)
    · exact List.mem_append_right _ (hq.selected x hx id hid)

theorem Client.Reaches.told (reach : c.Reaches w op policy p made last q)
    (h : Told start p) : Told start q := by
  induction reach with
  | start => exact h
  | next _ ha ih => exact ih.andThen (told_of_attempt .afresh ha)

theorem told_of_run : Told situation (c.run w op r situation).2 := by
  generalize hrun : c.run w op r situation = run
  obtain ⟨result, q⟩ := run
  rcases run_cases hrun with ⟨e, r', _, hp, -, rfl⟩ | ⟨prepared, s, hp, hend⟩
  · obtain ⟨-, world, rfl⟩ := unprepared_of_prepare hp
    have hstart : Told situation ⟨r', { situation with world := world }, []⟩ :=
      told_of_journal_eq_nil rfl rfl rfl
    exact hstart.note rfl
  · obtain ⟨world, rfl⟩ := prepare_situation hp
    have hstart : Told situation ⟨prepared, { situation with world := world }, []⟩ :=
      told_of_journal_eq_nil rfl rfl rfl
    cases hend with
    | settled reach _ ha =>
      exact (reach.told hstart).andThen (told_of_attempt .afresh ha)
    | exhausted reach => exact (reach.told hstart).note rfl

/-- Executions change nothing about the nodes but what is on record. Each selection of a node is a
use of it, and ends before the next in a failed channel, a failed call or an answer; these decide
about its penalties. Nodes that are not selected are as they were. -/
theorem nodes_of_execution (c : Client) (w : World σ) (op : Operation α) (r : Request)
    (situation : Situation σ) :
    let run := (c.execute w op r situation).2
    let bounds := situation.network.bounds
    let next (node : Node) := node.state.replay bounds node.id situation.now run.journal
    run.situation.now = situation.now + elapsed run.journal ∧
    run.situation.network.bounds = bounds ∧
    run.situation.network.nodes =
      situation.network.nodes.map (fun node => { node with state := next node }) ∧
    marks (events run.journal) = visits (dispatches run.journal) ∧
    ∀ node ∈ situation.network.nodes,
      (next node).uses =
        (node.state.uses + (dispatches run.journal).count node.id) % UInt64.size ∧
      (next node).delay = ((judgements node.id situation.now run.journal).foldl
        (NodeState.judge bounds) node.state).delay ∧
      (node.id ∉ dispatches run.journal → next node = node.state) := by
  obtain ⟨-, hsituation, hjournal, -⟩ := execute_eq_run c w op r situation
  have told : Told situation (c.run w op r situation).2 := told_of_run
  simp only [hsituation, hjournal]
  refine ⟨told.now, told.bounds, told.nodes, (visits_of_run ..).1, fun node _ => ?_⟩
  refine ⟨NodeState.uses_replay, NodeState.delay_replay rfl, fun hnot => ?_⟩
  exact NodeState.replay_of_ne fun x hx hid => hnot (told.selected x hx node.id hid)

end LedgerClient
