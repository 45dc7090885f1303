import LedgerClient.Proofs.Causes
import LedgerClient.Proofs.Locking
import LedgerClient.Proofs.Turns

namespace LedgerClient

variable {σ α : Type} {c : Client} {w : World σ} {op : Operation α} {policy : Policy}
  {r chosen prepared : Request} {s s' : Situation σ} {start p q q' : Progress σ} {e : Ending α}
  {k n made : Nat} {last : DispatchError} {o : Outcome} {node : Node} {m : Message} {a : Answer}
  {id : AccountId} {net : Network} {l : Rotation} {x : Except Fault Channel} {error : DispatchError}

/-- The nodes that an execution may go to, in the order of their first turns: those that the request
names, beginning with the one that is next, or else those that the client picks. -/
def Client.candidates (c : Client) (w : World σ) (r : Request) (s : Situation σ) :
    List AccountId :=
  if r.nodes.ids.isEmpty then (s.select w c.maxNodes).1 else r.nodes.ids.rotate r.nodes.index

/-- Whether a request has the id that it is sent with or can be given one. A query needs none. -/
def Client.canIdentify (c : Client) : Request → Bool
  | .query _ => true
  | .transaction t => !t.ids.ids.isEmpty || (c.operator?.isSome && !t.ids.locked)

/-- Attempt `k` of an execution is dispatched to a node, with this outcome, and leads to `q`. -/
def Client.Meets (c : Client) (w : World σ) (op : Operation α) (r : Request) (s : Situation σ)
    (k : Nat) (id : AccountId) (o : Outcome) (q : Progress σ) : Prop :=
  ∃ p e q', c.Makes w op r s k p e q' ∧ p.request.nodes.current? = some id ∧
    p.afresh.contact w k = (o, q) ∧ o.isDispatched = true

/-- The failures of nodes that another attempt may follow. `r` is the request after the contact. -/
inductive Outcome.Passes (c : Client) (op : Operation α) (r : Request) : Outcome → Prop
  | unopened {node : Node} {f : Fault} : Passes c op r (.unopened node f)
  | dropped {node : Node} {m : Message} {f : Fault} : f.isTransient = true →
      Passes c op r (.unanswered node m f)
  | retried {node : Node} {m : Message} {a : Answer} : op.classify r a = .retry →
      Passes c op r (.answered node m a)
  | stale {node : Node} {m : Message} {a : Answer} : op.classify r a = .expired →
      c.mayReplaceId r = true → Passes c op r (.answered node m a)

theorem Outcome.Passes.isTerminal_eq (h : o.Passes c op r) : o.isTerminal c op r = false := by
  cases h with
  | unopened => rfl
  | dropped hf => simp [Outcome.isTerminal, hf]
  | retried hv => simp [Outcome.isTerminal, hv]
  | stale hv hm => simp [Outcome.isTerminal, hv, hm]

def Network.ids (net : Network) : List AccountId :=
  net.nodes.map Node.id

theorem Network.isSome_find?_iff : (net.find? id).isSome ↔ id ∈ net.ids := by
  simp [Network.find?, Network.ids, List.find?_isSome, List.mem_map]

theorem Network.ids_update {f : NodeState → NodeState} : (net.update id f).ids = net.ids := by
  simp only [Network.ids, Network.update, List.map_map]
  refine List.map_congr_left fun node _ => ?_
  by_cases h : node.id = id <;> simp [h]

theorem ids_of_acquire (h : p.acquire w node = (x, q)) :
    q.situation.network.ids = p.situation.network.ids := by
  cases acquired_of_acquire h with
  | held | closed => rfl
  | opened => exact Network.ids_update

theorem ids_of_approach (h : (p.approach w k node).advance.acquire w node = (x, q)) :
    q.situation.network.ids = p.situation.network.ids := by
  have hacquire := ids_of_acquire h
  have happroach := congrArg Network.ids (approached_of_approach w k node p).network_eq
  exact hacquire.trans (happroach.trans Network.ids_update)

theorem network_of_call {channel : Channel} {y : Except Fault Answer}
    (h : p.call w node channel m = (y, q)) : q.situation.network = p.situation.network := by
  cases h
  cases m <;> rfl

/-- An execution changes the states of nodes, but neither adds nor removes any. -/
theorem ids_of_contact (h : p.contact w k = (o, q)) :
    q.situation.network.ids = p.situation.network.ids := by
  cases contacted_of_contact h with
  | unsendable | unknownNode => rfl
  | unopened _ _ _ ho => exact Network.ids_update.trans (ids_of_approach ho)
  | dropped _ _ _ ho hc =>
    have hcall := congrArg Network.ids (network_of_call hc)
    exact Network.ids_update.trans (hcall.trans (ids_of_approach ho))
  | broken _ _ _ ho hc =>
    have hcall := congrArg Network.ids (network_of_call hc)
    exact hcall.trans (ids_of_approach ho)
  | answered _ _ _ ho hc =>
    have hcall := congrArg Network.ids (network_of_call hc)
    exact Network.ids_update.trans (hcall.trans (ids_of_approach ho))

theorem ids_of_attempt (h : c.attempt w op policy k p.afresh = (e, q)) :
    q.situation.network.ids = p.situation.network.ids := by
  cases attempted_of_attempt h with
  | unsendable hk | unknownNode hk | unopened hk | dropped hk | broken hk | spent hk | stale hk
  | refused hk | finished hk =>
    have hids := ids_of_contact hk
    exact hids
  | retried hk _ _ hr =>
    subst hr
    have hids := ids_of_contact hk
    exact hids
  | replaced hk _ hr =>
    obtain ⟨_, _, _, _, _, _, _, rfl⟩ := replaceExpired?_eq_some hr
    have hids := ids_of_contact hk
    exact hids

theorem Client.Reaches.ids_eq (reach : c.Reaches w op policy start made last p) :
    p.situation.network.ids = start.situation.network.ids := by
  induction reach with
  | start => rfl
  | next _ ha ih =>
    have hattempt := ids_of_attempt ha
    exact hattempt.trans ih

theorem Rotation.current?_turn (h : n < l.ids.length) :
    (l.turn n).current? = (l.ids.rotate l.index)[n]? := by
  have hne : l.ids ≠ [] := List.ne_nil_of_length_pos (by omega)
  rw [Rotation.current?, Rotation.turn_ids, Rotation.index_turn hne, List.getElem?_rotate h,
    Nat.add_comm]

theorem candidates_of_chooseNodes (h : c.chooseNodes w r s = .ok (chosen, s')) :
    chosen.nodes.ids.rotate chosen.nodes.index = c.candidates w r s := by
  unfold Client.chooseNodes at h
  split at h
  next hn =>
    split at h
    next => cases h
    next ids picked _ hselect =>
      cases h
      have hids : (s.select w c.maxNodes).1 = ids := congrArg Prod.fst hselect
      rw [Request.nodes_withNodes, Client.candidates, if_pos hn, hids]
      exact List.rotate_zero ids
  next hn =>
    cases h
    rw [Client.candidates, if_neg hn]

theorem candidates_of_prepare (h : c.prepare w r s = .ok (prepared, s')) :
    prepared.nodes.ids.rotate prepared.nodes.index = c.candidates w r s := by
  unfold Client.prepare at h
  cases hn : c.chooseNodes w r s with
  | error e =>
    rw [hn] at h
    cases h
  | ok x =>
    obtain ⟨chosen, s₁⟩ := x
    rw [hn] at h
    have hnodes : prepared.nodes = chosen.nodes := by
      rcases chooseId_eq_ok h with ⟨rfl, -⟩ | ⟨t, _, ht, -, -, -, rfl⟩
      · rfl
      · rw [ht]
        rfl
    rw [hnodes]
    exact candidates_of_chooseNodes hn

/-- The nodes that the client picks are nodes of the network. -/
theorem mem_ids_of_select {max : UInt64} (h : id ∈ (s.select w max).1) : id ∈ s.network.ids := by
  have hshuffled : id ∈ (w.shuffle (s.network.candidates s.now) s.world).1 := by
    simp only [Situation.select, atMost] at h
    split at h
    · exact h
    · exact List.mem_of_mem_take h
  have hcandidate : id ∈ s.network.candidates s.now := (w.perm_shuffle _ _).mem_iff.mp hshuffled
  obtain ⟨node, hnode, rfl⟩ := List.mem_map.mp hcandidate
  refine List.mem_map.mpr ⟨node, ?_, rfl⟩
  split at hnode
  · exact hnode
  · exact (List.mem_filter.mp hnode).1

theorem mem_ids_of_candidates (known : ∀ id ∈ r.nodes.ids, (s.network.find? id).isSome)
    (h : id ∈ c.candidates w r s) : id ∈ s.network.ids := by
  unfold Client.candidates at h
  split at h
  · exact mem_ids_of_select h
  · exact Network.isSome_find?_iff.mp (known id (List.mem_rotate.mp h))

/-- The first attempts go to the candidates in turn. -/
theorem Client.Makes.current?_eq (h : c.Makes w op r s (made + 1) p e q)
    (hm : made < (c.candidates w r s).length) :
    p.request.nodes.current? = (c.candidates w r s)[made]? := by
  cases h with
  | intro hp reach =>
    have hcandidates := candidates_of_prepare hp
    have hturn := reach.turns rfl (Nat.le_refl made)
    rw [course_of_reaches reach] at hturn
    rw [← hcandidates, List.length_rotate] at hm
    rw [hturn, ← hcandidates]
    exact Rotation.current?_turn hm

theorem Client.Makes.ids_eq (h : c.Makes w op r s k p e q) :
    p.situation.network.ids = s.network.ids := by
  cases h with
  | intro hp reach =>
    obtain ⟨world, rfl⟩ := prepare_situation hp
    exact reach.ids_eq

theorem isDispatched_of_contact (hk : p.contact w k = (o, q)) (hm : p.request.message = .ok m)
    (hf : (p.situation.network.find? m.node).isSome) : o.isDispatched = true := by
  cases contacted_of_contact hk with
  | unsendable he =>
    rw [hm] at he
    cases he
  | unknownNode hm' hnone =>
    rw [hm] at hm'
    cases hm'
    rw [hnone] at hf
    cases hf
  | unopened | dropped | broken | answered => rfl

/-- As long as there are candidates that had no turn yet, an attempt is dispatched to the next. -/
theorem Client.Makes.meets (h : c.Makes w op r s (made + 1) p e q)
    (known : ∀ id ∈ r.nodes.ids, (s.network.find? id).isSome)
    (hid : (c.candidates w r s)[made]? = some id) :
    ∃ o q', c.Meets w op r s (made + 1) id o q' ∧ p.afresh.contact w (made + 1) = (o, q') := by
  obtain ⟨hm, -⟩ := List.getElem?_eq_some_iff.mp hid
  have hcurrent : p.request.nodes.current? = some id := (h.current?_eq hm).trans hid
  obtain ⟨m, hmessage, hnode⟩ := h.sendable
  obtain rfl : id = m.node := Option.some.inj (hcurrent.symm.trans hnode)
  have hmem := mem_ids_of_candidates known (List.mem_of_getElem? hid)
  have hf : (p.situation.network.find? m.node).isSome := by
    rw [Network.isSome_find?_iff, h.ids_eq]
    exact hmem
  have hd := isDispatched_of_contact (p := p.afresh) (w := w) (k := made + 1) rfl hmessage hf
  exact ⟨_, _, ⟨p, e, q, h, hcurrent, rfl, hd⟩, rfl⟩

/-- Until the first candidate that can be relied on has its turn, all attempts pass. -/
theorem reaches_of_passes (good : AccountId → Prop)
    (hp : c.prepare w r s = .ok (prepared, s'))
    (known : ∀ id ∈ r.nodes.ids, (s.network.find? id).isSome)
    (passes : ∀ k id o q, c.Meets w op r s k id o q → ¬ good id → o.Passes c op q.request)
    (hn : n ≤ (c.policy r.limits).attempts) (bad : ∀ i < n, ∃ id,
      (c.candidates w r s)[i]? = some id ∧ ¬ good id) :
    ∃ last p, c.Reaches w op (c.policy r.limits) ⟨prepared, s', []⟩ n last p := by
  -- By induction on the turns taken: what the next candidate does is known only of attempts that
  -- are made, so each attempt has to be reached before its outcome can be used.
  induction n with
  | zero => exact ⟨_, _, .start⟩
  | succ n ih =>
    obtain ⟨last, p, reach⟩ := ih (by omega) fun i hi => bad i (by omega)
    obtain ⟨id, hid, hbad⟩ := bad n (by omega)
    have makes : c.Makes w op r s (n + 1) p _ _ := .intro hp reach hn rfl
    obtain ⟨o, q, hmeets, hk⟩ := makes.meets known hid
    have hpasses := (passes _ _ _ _ hmeets hbad).isTerminal_eq
    obtain ⟨q', ha, -⟩ := attempt_of_not_terminal _ hk makes.of_prepared.1 hpasses
    exact ⟨_, _, .next reach ha⟩

theorem canIdentify_withNodes : c.canIdentify (r.withNodes l) = c.canIdentify r := by
  cases r <;> rfl

theorem canIdentify_of_chooseId (h : c.chooseId w r s = .ok (prepared, s')) :
    c.canIdentify r = true := by
  rcases chooseId_eq_ok h with ⟨-, hids⟩ | ⟨t, operator, rfl, -, hl, ho, -⟩
  · cases r with
    | query q => rfl
    | transaction t => simp [Client.canIdentify, hids t rfl]
  · simp [Client.canIdentify, hl, ho]

/-- A request that could be prepared has an id or was given one. -/
theorem canIdentify_of_prepare (h : c.prepare w r s = .ok (prepared, s')) :
    c.canIdentify r = true := by
  unfold Client.prepare at h
  cases hn : c.chooseNodes w r s with
  | error e =>
    rw [hn] at h
    cases h
  | ok x =>
    obtain ⟨chosen, s₁⟩ := x
    rw [hn] at h
    obtain ⟨nodes, -, rfl, -⟩ := chooseNodes_eq_ok hn
    have hchosen := canIdentify_of_chooseId h
    rwa [canIdentify_withNodes] at hchosen

/-- Where there are candidates, only an id can be missing. -/
theorem unidentified_of_prepare (hne : c.candidates w r s ≠ [])
    (h : c.CannotPrepare w r s error) :
    ∃ t, r = .transaction t ∧ t.ids.ids = [] ∧
      ((c.operator? = none ∧ error = .missingTransactionId) ∨
        (t.ids.locked = true ∧ error = .transactionIdsLocked)) := by
  rcases prepare_eq_error h with ⟨hempty, hselect, -⟩ | hunidentified
  · have hnone : c.candidates w r s = [] := by
      rw [Client.candidates, if_pos (List.isEmpty_iff.mpr hempty), hselect]
    exact absurd hnone hne
  · exact hunidentified

theorem prepare_of_canIdentify (hne : c.candidates w r s ≠ []) (hid : c.canIdentify r = true) :
    ∃ prepared s', c.prepare w r s = .ok (prepared, s') := by
  cases hp : c.prepare w r s with
  | ok x => exact ⟨x.1, x.2, rfl⟩
  | error x =>
    obtain ⟨t, rfl, hempty, hcause⟩ := unidentified_of_prepare hne ⟨_, _, hp⟩
    simp only [Client.canIdentify, hempty, List.isEmpty_nil, Bool.not_true, Bool.false_or,
      Bool.and_eq_true, Bool.not_eq_true'] at hid
    obtain ⟨ho, hl⟩ := hid
    rcases hcause with ⟨hnone, -⟩ | ⟨hlocked, -⟩
    · rw [hnone] at ho
      cases ho
    · rw [hl] at hlocked
      cases hlocked

/-- Without an id nothing is done but to report it. -/
theorem run_of_not_canIdentify (op : Operation α) (hne : c.candidates w r s ≠ [])
    (hid : c.canIdentify r = false) :
    ((c.run w op r s).1 = .error .missingTransactionId ∨
      (c.run w op r s).1 = .error .transactionIdsLocked) ∧
      selections (c.run w op r s).2.journal = [] := by
  cases hp : c.prepare w r s with
  | ok x =>
    obtain ⟨prepared, s'⟩ := x
    rw [canIdentify_of_prepare hp] at hid
    cases hid
  | error x =>
    obtain ⟨e, r', s''⟩ := x
    obtain ⟨_, -, -, hcause⟩ := unidentified_of_prepare hne ⟨r', s'', hp⟩
    rw [run_of_unprepared op hp]
    refine ⟨?_, rfl⟩
    rcases hcause with ⟨-, rfl⟩ | ⟨-, rfl⟩
    · exact .inl rfl
    · exact .inr rfl

theorem exists_first {good : AccountId → Prop} {ids : List AccountId}
    (h : ∃ id ∈ ids, good id) :
    ∃ before id after, ids = before ++ id :: after ∧ good id ∧ ∀ x ∈ before, ¬ good x := by
  classical
  obtain ⟨id, hid, hgood⟩ := h
  have hsome : (ids.find? fun x => decide (good x)).isSome := by
    rw [List.find?_isSome]
    exact ⟨id, hid, decide_eq_true hgood⟩
  obtain ⟨first, hfirst⟩ := Option.isSome_iff_exists.mp hsome
  obtain ⟨hgood', before, after, hsplit, hbefore⟩ := List.find?_eq_some_iff_append.mp hfirst
  refine ⟨before, first, after, hsplit, of_decide_eq_true hgood', fun x hx => ?_⟩
  simpa using hbefore x hx

/-- The first candidate that can be relied on carries the request out. -/
theorem run_of_available (op : Operation α) (good : AccountId → Prop)
    {before after : List AccountId} (hp : c.prepare w r s = .ok (prepared, s'))
    (known : ∀ id ∈ r.nodes.ids, (s.network.find? id).isSome)
    (finishes : ∀ k id o q, c.Meets w op r s k id o q → good id →
      ∃ node m a, o = .answered node m a ∧ op.classify q.request a = .finished)
    (passes : ∀ k id o q, c.Meets w op r s k id o q → ¬ good id → o.Passes c op q.request)
    (hsplit : c.candidates w r s = before ++ id :: after) (hgood : good id)
    (hbefore : ∀ x ∈ before, ¬ good x)
    (hlimit : before.length + 1 ≤ (c.policy r.limits).attempts) :
    ∃ node m a q, c.Meets w op r s (before.length + 1) id (.answered node m a) q ∧
      op.classify q.request a = .finished ∧
      (c.run w op r s).1 = op.result q.request a node.id m ∧
      selections (c.run w op r s).2.journal = List.range' 1 (before.length + 1) := by
  have bad : ∀ i < before.length, ∃ id, (c.candidates w r s)[i]? = some id ∧ ¬ good id := by
    intro i hi
    refine ⟨before[i], ?_, hbefore _ (List.getElem_mem hi)⟩
    rw [hsplit, List.getElem?_append_left hi, List.getElem?_eq_getElem hi]
  have hid : (c.candidates w r s)[before.length]? = some id := by
    rw [hsplit, List.getElem?_append_right (Nat.le_refl _), Nat.sub_self]
    rfl
  obtain ⟨last, p, reach⟩ := reaches_of_passes good hp known passes (by omega) bad
  have makes : c.Makes w op r s (before.length + 1) p _ _ := .intro hp reach hlimit rfl
  obtain ⟨o, q, hmeets, hk⟩ := makes.meets known hid
  obtain ⟨node, m, a, rfl, hv⟩ := finishes _ _ _ _ hmeets hgood
  have hterminal : (Outcome.answered node m a).isTerminal c op q.request = true := by
    simp [Outcome.isTerminal, hv]
  obtain ⟨q', ha, -⟩ := attempt_of_terminal (c.policy r.limits) hk hterminal
  have settled : c.Makes w op r s (before.length + 1) p _ q' := .intro hp reach hlimit ha
  refine ⟨node, m, a, q, hmeets, hv, ?_, ?_⟩
  · rw [settled.run_of_settled]
    simp only [Outcome.settlement, hv, if_true]
  · obtain ⟨hselected, -⟩ := attempt_projections ha hk
    have hsome : selections q'.journal ≠ [] := by
      rw [hselected]
      simp [Outcome.isDispatched]
    rw [settled.run_of_settled]
    exact settled.selections_eq hsome

/-- A request with an id is carried out by the first of its candidates that can be relied on, if the
nodes before it fail only in ways that another attempt may follow, and if there are as many attempts
as candidates. A transaction that has no id and is given none fails before any attempt. -/
theorem execute_of_available (op : Operation α) (good : AccountId → Prop)
    (known : ∀ id ∈ r.nodes.ids, (s.network.find? id).isSome)
    (available : ∃ id ∈ c.candidates w r s, good id)
    (finishes : ∀ k id o q, c.Meets w op r s k id o q → good id →
      ∃ node m a, o = .answered node m a ∧ op.classify q.request a = .finished)
    (passes : ∀ k id o q, c.Meets w op r s k id o q → ¬ good id → o.Passes c op q.request)
    (enough : (c.candidates w r s).length ≤
      max 1 ((c.maxAttempts.or r.limits.attempts).getD 10).toNat) :
    let run := c.execute w op r s
    (c.canIdentify r = true → ∃ before id after node m a q,
      c.candidates w r s = before ++ id :: after ∧ good id ∧ (∀ x ∈ before, ¬ good x) ∧
      c.Meets w op r s (before.length + 1) id (.answered node m a) q ∧
      op.classify q.request a = .finished ∧ run.1 = op.result q.request a node.id m ∧
      selections run.2.journal = List.range' 1 (before.length + 1) ∧
      (selections run.2.journal).length ≤ (c.candidates w r s).length) ∧
    (c.canIdentify r = false →
      (run.1 = .error .missingTransactionId ∨ run.1 = .error .transactionIdsLocked) ∧
      selections run.2.journal = []) := by
  intro run
  obtain ⟨before, id, after, hsplit, hgood, hbefore⟩ := exists_first available
  have hlength : (c.candidates w r s).length = before.length + 1 + after.length := by
    rw [hsplit, List.length_append, List.length_cons]
    omega
  have hlimit : before.length + 1 ≤ (c.policy r.limits).attempts :=
    Nat.le_trans (by omega) enough
  have hne : c.candidates w r s ≠ [] := List.ne_nil_of_length_pos (by omega)
  obtain ⟨hresult, -, hjournal, -⟩ := execute_eq_run c w op r s
  have hresult' : run.1 = (c.run w op r s).1 := hresult
  have hjournal' : run.2.journal = (c.run w op r s).2.journal := hjournal
  rw [hresult', hjournal']
  refine ⟨fun hid => ?_, run_of_not_canIdentify op hne⟩
  obtain ⟨prepared, s', hp⟩ := prepare_of_canIdentify hne hid
  obtain ⟨node, m, a, q, hmeets, hv, hrun, hselected⟩ :=
    run_of_available op good hp known finishes passes hsplit hgood hbefore hlimit
  refine ⟨before, id, after, node, m, a, q, hsplit, hgood, hbefore, hmeets, hv, hrun,
    hselected, ?_⟩
  rw [hselected, List.length_range', hlength]
  omega

theorem Client.Meets.contactAt_eq (h : c.Meets w op r s k id o q)
    (hp : c.prepare w r s = .ok (prepared, s')) :
    let policy := c.policy r.limits
    let start : Progress σ := ⟨prepared, s', []⟩
    ∃ made < policy.attempts, k = made + 1 ∧ c.contactAt w op policy start made = (o, q) ∧
      (c.course w op policy start made).request.nodes.current? = some id := by
  intro policy start
  obtain ⟨p, e, q', makes, hid, hk, -⟩ := h
  cases makes with
  | @intro _ _ made _ _ _ _ hp' reach hm _ =>
    cases hp.symm.trans hp'
    have hcourse : c.course w op policy start made = p := course_of_reaches reach
    refine ⟨made, hm, rfl, ?_, ?_⟩
    · rw [Client.contactAt, hcourse]
      exact hk
    · rw [hcourse]
      exact hid

/-- Of two nodes the first cannot be reached, and the second carries the request out. -/
theorem execute_of_unreachable_and_answering :
    let ids := [(Stage.node 3).1, (Stage.node 4).1]
    let s := Stage.situation [.unreachable, .answering [.ok]]
    let request := Request.query { QueryRequest.ofBody default with nodes := .ofList ids }
    let client := { Client.default with maxAttempts := some 2 }
    let run := client.execute Stage.world queryOperation request s
    client.candidates Stage.world request s = ids ∧ client.canIdentify request = true ∧
      selections run.2.journal = [1, 2] ∧
      ∃ node m a q, client.Meets Stage.world queryOperation request s 2 (Stage.node 4).1
        (.answered node m a) q ∧ run.1 = queryOperation.result q.request a node.id m := by
  intro ids s request client run
  have hp : client.prepare Stage.world request s = .ok (request, s) := rfl
  have hlimit : (client.policy request.limits).attempts = 2 := rfl
  have hne : (Stage.node 3).1 ≠ (Stage.node 4).1 := by decide
  let contactAt := client.contactAt Stage.world queryOperation (client.policy request.limits)
    ⟨request, s, []⟩
  have first : ∃ node f, (contactAt 0).1 = .unopened node f := ⟨_, _, rfl⟩
  have second : ∃ node m a, (contactAt 1).1 = .answered node m a ∧
      queryOperation.classify (contactAt 1).2.request a = .finished := ⟨_, _, _, rfl, rfl⟩
  have meets : ∀ k id o q, client.Meets Stage.world queryOperation request s k id o q →
      (id = (Stage.node 3).1 ∧ contactAt 0 = (o, q)) ∨
        (id = (Stage.node 4).1 ∧ contactAt 1 = (o, q)) := by
    intro k id o q h
    obtain ⟨made, hm, -, hk, hid⟩ := h.contactAt_eq hp
    rw [hlimit] at hm
    obtain rfl | rfl : made = 0 ∨ made = 1 := by omega
    · have hid' : some (Stage.node 3).1 = some id := hid
      exact .inl ⟨(Option.some.inj hid').symm, hk⟩
    · have hid' : some (Stage.node 4).1 = some id := hid
      exact .inr ⟨(Option.some.inj hid').symm, hk⟩
  obtain ⟨hmain, -⟩ := execute_of_available (c := client) (w := Stage.world) (r := request) (s := s)
    queryOperation (fun id => id = (Stage.node 4).1) (by decide) ⟨_, by decide, rfl⟩
    (fun k id o q h hgood => by
      rcases meets k id o q h with ⟨hid, -⟩ | ⟨-, hk⟩
      · exact absurd (hid.symm.trans hgood) hne
      · obtain ⟨node, m, a, ho, hv⟩ := second
        rw [hk] at ho hv
        exact ⟨node, m, a, ho, hv⟩)
    (fun k id o q h hbad => by
      rcases meets k id o q h with ⟨-, hk⟩ | ⟨hid, -⟩
      · obtain ⟨node, f, ho⟩ := first
        rw [hk] at ho
        obtain rfl : o = .unopened node f := ho
        exact .unopened
      · exact absurd hid hbad)
    (by decide)
  obtain ⟨before, id, after, node, m, a, q, hsplit, rfl, hbefore, hmeets, -, hresult,
    hselected, -⟩ := hmain rfl
  have hlength : before.length = 1 := by
    have hids : [(Stage.node 3).1, (Stage.node 4).1] = before ++ (Stage.node 4).1 :: after := hsplit
    rcases before with _ | ⟨x, _ | ⟨y, rest⟩⟩
    · exact absurd (List.cons.inj hids).1 hne
    · rfl
    · simp at hids
  rw [hlength] at hmeets hselected
  exact ⟨rfl, rfl, hselected, node, m, a, q, hmeets, hresult⟩

/-- A transaction without an id and a client without an operator: the one candidate would take the
transaction, as it does with an operator, but nothing is ever sent to it. If the ids are locked, an
operator does not help. -/
theorem execute_without_id :
    let s := Stage.situation [.answering [.ok]]
    let t := { TransactionRequest.ofBody default with nodes := .ofList [(Stage.node 3).1] }
    let locked := { t with ids := IdSequence.empty.lock }
    let client := { Client.default with maxAttempts := some 1 }
    let operated := { client with configuredOperator := some Stage.operator }
    let run := client.execute Stage.world submitOperation (.transaction t) s
    client.candidates Stage.world (.transaction t) s = [(Stage.node 3).1] ∧
      (s.network.find? (Stage.node 3).1).isSome ∧
      (client.policy t.limits).attempts = 1 ∧
      (∀ k id o q, client.Meets Stage.world submitOperation (.transaction t) s k id o q →
        ∃ node m a, o = .answered node m a ∧
          submitOperation.classify q.request a = .finished) ∧
      (operated.submit Stage.world t s).1 = .ok ⟨Stage.id 0, (Stage.node 3).1⟩ ∧
      run.1 = .error .missingTransactionId ∧ calls run.2.journal = [] ∧
      (∀ r a id m, run.1 ≠ submitOperation.result r a id m) ∧
      (operated.submit Stage.world locked s).1 = .error .transactionIdsLocked := by
  intro s t locked client operated run
  have hrun : run.1 = .error .missingTransactionId := rfl
  have hp : client.CannotPrepare Stage.world (.transaction t) s .missingTransactionId :=
    ⟨_, _, rfl⟩
  refine ⟨rfl, rfl, rfl, fun k id o q h => ?_, rfl, hrun, rfl, fun r a id m hresult => ?_, rfl⟩
  · obtain ⟨p, e, q', makes, -⟩ := h
    cases makes with
    | intro hp' =>
      obtain ⟨_, _, hp⟩ := hp
      cases hp.symm.trans hp'
  · obtain ⟨reason, he⟩ := submitOperation_result_eq_error (hresult.symm.trans hrun)
    cases he

end LedgerClient
