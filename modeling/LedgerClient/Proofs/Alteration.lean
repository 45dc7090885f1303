import LedgerClient.Proofs.Turns

namespace LedgerClient

variable {σ α : Type} {c : Client} {w : World σ} {op : Operation α} {policy : Policy}
  {r s t prepared chosen : Request} {situation after : Situation σ} {start q : Progress σ}
  {result : Except DispatchError α} {e : DispatchError} {ids more : IdSequence}

/-- Ids that are there before and after an execution. Only the current one may have been replaced;
where there was none, there is one. -/
structure IdSequence.Keeps (ids after : IdSequence) : Prop where
  index : after.index = ids.index
  locked : after.locked = ids.locked
  first : ids.ids = [] → ∃ id, after.ids = [id]
  replaced : ids.ids ≠ [] → after.ids = ids.ids ∨ ∃ id, after.ids = ids.ids.set ids.index id

/-- A request before and after an execution. -/
inductive Request.Keeps : Request → Request → Prop
  | query {q : QueryRequest} (nodes : Rotation) :
      Keeps (.query q) (.query { q with nodes := nodes })
  | transaction {t : TransactionRequest} (nodes : Rotation) {ids : IdSequence} : t.ids.Keeps ids →
      Keeps (.transaction t) (.transaction { t with nodes := nodes, ids := ids })

theorem IdSequence.Keeps.refl (h : ids.ids ≠ []) : ids.Keeps ids :=
  ⟨rfl, rfl, fun hnone => absurd hnone h, fun _ => .inl rfl⟩

theorem IdSequence.Keeps.append (h : ids.ids = []) (id : TransactionId) :
    ids.Keeps (ids.append id) :=
  ⟨rfl, rfl, fun _ => ⟨id, by simp [IdSequence.append, h]⟩, fun hne => absurd h hne⟩

theorem IdSequence.Keeps.overwrite (h : ids.Keeps more) (id : TransactionId) :
    ids.Keeps (more.overwrite id) where
  index := h.index
  locked := h.locked
  first hnone := by
    obtain ⟨first, hfirst⟩ := h.first hnone
    have hindex : ids.index = 0 := by
      have hinside := ids.inside
      simpa [hnone] using hinside
    exact ⟨id, by simp [IdSequence.overwrite, hfirst, h.index, hindex]⟩
  replaced hne := by
    have hids : (more.overwrite id).ids = more.ids.set ids.index id :=
      congrArg (more.ids.set · id) h.index
    refine .inr ⟨id, hids.trans ?_⟩
    rcases h.replaced hne with hsame | ⟨other, hset⟩
    · rw [hsame]
    · rw [hset, List.set_set]

theorem Request.Keeps.withNodes (h : r.Keeps s) (nodes : Rotation) :
    r.Keeps (s.withNodes nodes) := by
  cases h with
  | query => exact .query nodes
  | transaction _ hids => exact .transaction nodes hids

theorem Request.Keeps.becomes (h : r.Keeps s) (hb : s.Becomes t) : r.Keeps t := by
  induction hb with
  | refl => exact h
  | advance _ ih => exact ih.withNodes _
  | overwrite id _ ih =>
    cases ih with
    | transaction nodes hids => exact .transaction nodes (hids.overwrite id)

/-- All that is filled in before the first attempt. -/
theorem keeps_of_prepare (h : c.prepare w r situation = .ok (prepared, after)) :
    r.Keeps prepared := by
  unfold Client.prepare at h
  cases hn : c.chooseNodes w r situation with
  | error e =>
    rw [hn] at h
    cases h
  | ok x =>
    obtain ⟨chosen, situation₁⟩ := x
    rw [hn] at h
    obtain ⟨nodes, -, rfl, -⟩ := chooseNodes_eq_ok hn
    rcases chooseId_eq_ok h with ⟨rfl, hids⟩ | ⟨t, operator, ht, hnone, -, -, rfl⟩
    · cases r with
      | query q => exact .query nodes
      | transaction t => exact .transaction nodes (.refl (hids { t with nodes := nodes } rfl))
    · cases r with
      | query q => cases ht
      | transaction t' =>
        cases ht
        exact .transaction nodes (.append hnone _)

theorem Client.Ends.becomes (h : c.Ends w op policy start result q) :
    start.request.Becomes q.request := by
  cases h with
  | settled reach _ ha =>
    have hlast := becomes_of_attempt ha
    exact reach.becomes.trans hlast
  | exhausted reach => exact reach.becomes

theorem keeps_of_run (h : c.prepare w r situation = .ok (prepared, after)) :
    r.Keeps (c.run w op r situation).2.request := by
  generalize hrun : c.run w op r situation = run
  obtain ⟨result, q⟩ := run
  rcases run_cases hrun with ⟨_, _, _, herror, -⟩ | ⟨prepared', after', hp, hend⟩
  · rw [h] at herror
    cases herror
  · exact (keeps_of_prepare hp).becomes hend.becomes

theorem Rotation.eq_ofList_nil {l : Rotation} (h : l.ids = []) : l = .ofList [] := by
  obtain ⟨ids, index, hin⟩ := l
  obtain rfl : ids = [] := h
  obtain rfl : index = 0 := by simpa using hin
  rfl

theorem Request.withNodes_eq_self (h : r.nodes.ids = []) : r.withNodes (.ofList []) = r := by
  rw [← Rotation.eq_ofList_nil h]
  cases r <;> rfl

/-- Nodes that were picked are forgotten again. -/
theorem forget_nodes {nodes : Rotation} (hchosen : chosen = r.withNodes nodes)
    (hsame : r.nodes.ids ≠ [] → chosen = r) :
    (if r.nodes.ids = [] then chosen.withNodes (.ofList []) else chosen) = r := by
  by_cases hids : r.nodes.ids = []
  · rw [if_pos hids, hchosen, ← Request.withNodes_eq_self hids]
    cases r <;> rfl
  · rw [if_neg hids, hsame hids]

theorem forget_chooseNodes (h : c.chooseNodes w r situation = .ok (chosen, after)) :
    (if r.nodes.ids = [] then chosen.withNodes (.ofList []) else chosen) = r := by
  obtain ⟨nodes, -, hchosen, hsame⟩ := chooseNodes_eq_ok h
  exact forget_nodes hchosen hsame

theorem execute_request :
    (c.execute w op r situation).2.request =
      if r.nodes.ids = [] then (c.run w op r situation).2.request.withNodes (.ofList [])
      else (c.run w op r situation).2.request := by
  by_cases hids : r.nodes.ids = [] <;> simp [Client.execute, hids]

/-- If a request cannot be prepared, it is left as it is, and no node is touched. Else an execution
alters only whose turn it is among the nodes that the request names, and the ids of a transaction,
by the first one or in the current place. -/
theorem request_of_execute (c : Client) (w : World σ) (op : Operation α) (r : Request)
    (situation : Situation σ) :
    let run := c.execute w op r situation
    let altered := run.2.request
    (match c.prepare w r situation with
      | .error (e, _, _) =>
          (e = .noNodes ∨ e = .missingTransactionId ∨ e = .transactionIdsLocked) ∧
          run.1 = .error e ∧ altered = r ∧ exchanges run.2.journal = [] ∧
          (∃ world, run.2.situation = { situation with world := world }) ∧
          ∀ chosen after, c.chooseNodes w r situation = .ok (chosen, after) →
            (if r.nodes.ids = [] then chosen.withNodes (.ofList []) else chosen) = r
      | .ok _ => r.Keeps altered ∧ altered.nodes.ids = r.nodes.ids ∧
          (r.nodes.ids ≠ [] → altered.nodes.index =
            (r.nodes.index + (dispatches run.2.journal).length) % r.nodes.ids.length)) ∧
    (r.nodes.ids = [] → altered.nodes = .ofList []) := by
  intro run altered
  obtain ⟨hresult, hsituation, hjournal, -⟩ := execute_eq_run c w op r situation
  have haltered : altered = _ := execute_request
  refine ⟨?_, fun hids => by rw [haltered, if_pos hids, Request.nodes_withNodes]⟩
  cases hp : c.prepare w r situation with
  | error x =>
    obtain ⟨e, r', s'⟩ := x
    have hcause := prepare_eq_error ⟨r', s', hp⟩
    obtain ⟨⟨nodes, hr', hsame⟩, hworld⟩ := unprepared_of_prepare hp
    rw [run_of_unprepared op hp] at hresult hsituation hjournal haltered
    refine ⟨?_, hresult, haltered.trans ?_, by rw [hjournal]; rfl, hsituation ▸ hworld,
      fun _ _ => forget_chooseNodes⟩
    · rcases hcause with ⟨-, -, rfl⟩ | ⟨_, -, -, ⟨-, rfl⟩ | ⟨-, rfl⟩⟩ <;> simp
    · exact forget_nodes hr' hsame
  | ok x =>
    have hkeeps : r.Keeps (c.run w op r situation).2.request := keeps_of_run hp
    by_cases hids : r.nodes.ids = []
    · rw [if_pos hids] at haltered
      refine ⟨haltered ▸ hkeeps.withNodes _, ?_, fun hne => absurd hids hne⟩
      rw [haltered, Request.nodes_withNodes, hids]
      rfl
    · have hserves := (turns_of_run ⟨c, w, α, op, situation⟩ hids).1
      have hnodes : altered.nodes = r.nodes.turn (dispatches run.2.journal).length :=
        hserves.eq_turn.1
      rw [if_neg hids] at haltered
      exact ⟨haltered ▸ hkeeps, hserves.ids_eq, fun _ => by rw [hnodes, Rotation.index_turn hids]⟩

end LedgerClient
