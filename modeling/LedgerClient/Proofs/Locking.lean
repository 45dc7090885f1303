import LedgerClient.Proofs.Dispatch
import LedgerClient.Proofs.LastSentId
import LedgerClient.Proofs.Renewal
import LedgerClient.Proofs.Repetition

namespace LedgerClient

variable {σ α : Type} {c : Client} {w : World σ} {op : Operation α} {policy : Policy}
  {r s prepared : Request} {situation s' : Situation σ} {start p q : Progress σ} {e : Ending α}
  {k made : Nat} {last : DispatchError} {o : Outcome} {t : TransactionRequest} {ids : IdSequence}
  {call : Call} {now : Nat} {node : Node} {channel : Channel} {m : Message} {a : Answer}
  {before after : List Entry}

theorem mayReplaceId_of_locked (h : r.ids? = some ids) (locked : ids.locked = true) :
    c.mayReplaceId r = false := by
  obtain ⟨t, rfl, rfl⟩ := Request.exists_of_ids? h
  simp [Client.mayReplaceId, locked]

theorem Client.Renews.ids?_eq (h : c.Renews op policy k p e q)
    (hno : c.mayReplaceId p.request = false) : q.request.ids? = p.request.ids? := by
  cases h with
  | kept _ _ hq => exact hq
  | renewed hm => simp [hno] at hm
  | refused _ hq => exact hq

theorem Client.Reaches.ids?_eq (reach : c.Reaches w op policy start made last p)
    (hno : c.mayReplaceId start.request = false) : p.request.ids? = start.request.ids? := by
  induction reach with
  | start => rfl
  | next prior ha ih =>
    have hno' := prior.becomes.mayReplaceId_eq.trans hno
    exact ((renews_of_attempt ha).ids?_eq hno').trans ih

/-- No id is generated for a request whose ids are locked. -/
theorem ids?_of_prepare (h : c.prepare w r situation = .ok (prepared, s'))
    (hids : r.ids? = some ids) (locked : ids.locked = true) :
    prepared.ids? = some ids ∧ ids.ids ≠ [] := by
  unfold Client.prepare at h
  cases hn : c.chooseNodes w r situation with
  | error e => rw [hn] at h; cases h
  | ok x =>
    obtain ⟨chosen, s₁⟩ := x
    rw [hn] at h
    obtain ⟨nodes, -, rfl, -⟩ := chooseNodes_eq_ok hn
    have hids' : (r.withNodes nodes).ids? = some ids := Request.ids?_withNodes.trans hids
    obtain ⟨t, ht, rfl⟩ := Request.exists_of_ids? hids'
    rcases chooseId_eq_ok h with ⟨rfl, hne⟩ | ⟨t', operator, ht', -, hl, -⟩
    · exact ⟨hids', hne t ht⟩
    · rw [ht] at ht'
      cases ht'
      simp [locked] at hl

theorem ids?_of_run (hids : r.ids? = some ids) (locked : ids.locked = true) :
    (c.run w op r situation).2.request.ids? = some ids := by
  generalize hrun : c.run w op r situation = run
  obtain ⟨result, q⟩ := run
  rcases run_cases hrun with ⟨e, r', s', hp, -, rfl⟩ | ⟨prepared, s, hp, hend⟩
  · obtain ⟨⟨nodes, rfl, -⟩, -⟩ := unprepared_of_prepare hp
    exact Request.ids?_withNodes.trans hids
  · obtain ⟨hprepared, -⟩ := ids?_of_prepare hp hids locked
    have hno : c.mayReplaceId prepared = false := mayReplaceId_of_locked hprepared locked
    cases hend with
    | settled reach _ ha =>
      have hno' := reach.becomes.mayReplaceId_eq.trans hno
      exact ((renews_of_attempt ha).ids?_eq hno').trans ((reach.ids?_eq hno).trans hprepared)
    | exhausted reach => exact (reach.ids?_eq hno).trans hprepared

/-- Nothing is done for a request that is locked without an id, except that nodes may be put in an
order for it. -/
theorem run_of_no_ids (hids : r.ids? = some ids) (locked : ids.locked = true)
    (hempty : ids.ids = []) :
    ∃ error, (c.run w op r situation).1 = .error error ∧
      (∃ world, (c.run w op r situation).2.situation = { situation with world := world }) ∧
      (c.run w op r situation).2.journal = [.event (.failed 0 error.message)] := by
  generalize hrun : c.run w op r situation = run
  obtain ⟨result, q⟩ := run
  rcases run_cases hrun with ⟨error, r', s', hp, rfl, rfl⟩ | ⟨prepared, s, hp, -⟩
  · exact ⟨error, rfl, (unprepared_of_prepare hp).2, rfl⟩
  · exact absurd hempty (ids?_of_prepare hp hids locked).2

theorem ids?_of_execute (hids : r.ids? = some ids) (locked : ids.locked = true) :
    (c.execute w op r situation).2.request.ids? = some ids := by
  have hrun : (c.run w op r situation).2.request.ids? = some ids := ids?_of_run hids locked
  simp only [Client.execute]
  split
  next => exact Request.ids?_withNodes.trans hrun
  next => exact hrun

theorem ids?_of_after (occasions : List (Occasion σ)) (hids : r.ids? = some ids)
    (locked : ids.locked = true) : (r.after occasions).ids? = some ids := by
  induction occasions generalizing r with
  | nil => exact hids
  | cons o later ih => exact ih (ids?_of_execute hids locked)

theorem Request.message_of_ids? (h : r.message = .ok m) (hids : r.ids? = some ids) :
    ∃ sent, m = .transaction sent ∧ ids.current? = some sent.id := by
  obtain ⟨t, rfl, rfl⟩ := Request.exists_of_ids? hids
  obtain ⟨-, hkind, hid⟩ := Request.message_eq_ok h
  obtain ⟨sent, rfl⟩ := Message.exists_transaction hkind
  exact ⟨sent, rfl, hid sent rfl⟩

theorem Client.Makes.ids?_eq (h : c.Makes w op r situation k p e q) (hids : r.ids? = some ids)
    (locked : ids.locked = true) : p.request.ids? = some ids := by
  cases h with
  | intro hp reach =>
    obtain ⟨hprepared, -⟩ := ids?_of_prepare hp hids locked
    exact (reach.ids?_eq (mayReplaceId_of_locked hprepared locked)).trans hprepared

theorem Client.Makes.message_of_call (h : c.Makes w op r situation k p e q)
    (hc : call ∈ calls q.journal) : p.request.message = .ok call.message := by
  obtain ⟨o, s, conclusions, hk, -⟩ := attempt_split h.attempt_eq
  obtain ⟨-, hcalls, -⟩ := attempt_projections h.attempt_eq hk
  rw [hcalls] at hc
  exact (contacted_of_contact hk).message_eq hc

theorem message_of_call (hids : r.ids? = some ids) (locked : ids.locked = true)
    (hc : call ∈ calls (c.run w op r situation).2.journal) :
    ∃ m, call.message = .transaction m ∧ ids.current? = some m.id := by
  obtain ⟨x, hx, hcall⟩ := List.mem_filterMap.mp hc
  obtain ⟨before, after, hj⟩ := List.append_of_mem hx
  rcases takes_of_step hj with ⟨k, text, rfl⟩ | ⟨makes, hq, -, -⟩
  · cases hcall
  · have hmem : call ∈ calls _ := List.mem_filterMap.mpr ⟨x, mem_of_split hq, hcall⟩
    exact Request.message_of_ids? (makes.message_of_call hmem) (makes.ids?_eq hids locked)

theorem Client.Makes.selections_eq (h : c.Makes w op r situation k p e q)
    (hd : selections q.journal ≠ []) : selections (p.journal ++ q.journal) = List.range' 1 k := by
  cases h with
  | intro _ reach _ ha =>
    obtain ⟨o, s, _, hk, -⟩ := attempt_split ha
    obtain ⟨hsel, -⟩ := attempt_projections ha hk
    rw [hsel] at hd
    cases ho : o.isDispatched with
    | false => simp [ho] at hd
    | true =>
      rw [selections_append, reach.selections_eq rfl, hsel, if_pos ho, List.range'_concat,
        Nat.one_mul, Nat.add_comm]

/-- An attempt whose answer takes the id for too old is the last if the ids are locked. -/
theorem Client.Makes.classified_of_called (h : c.Makes w op r situation k p e q)
    (hids : r.ids? = some ids) (locked : ids.locked = true)
    (hj : q.journal = before ++ .called now node channel m (.ok a) :: after) :
    ∃ s rest, s.ids? = some ids ∧
      after = .event (.classified node.id a.precheck (op.classify s a)) :: rest ∧
      (op.classify s a = .expired →
        let error := DispatchError.afterAttempts k (c.policy r.limits).attempts (op.refusal s a)
        rest = [.event (.failed k error.message)] ∧ e = .settled (.error error) ∧
          selections (p.journal ++ q.journal) = List.range' 1 k) := by
  have hp : p.request.ids? = some ids := h.ids?_eq hids locked
  obtain ⟨o, s, conclusions, hk, hq, spec, hc, -⟩ := attempt_split h.attempt_eq
  rw [hq] at hj
  rcases split_append hj with ⟨rest, hs⟩ | ⟨rest, hs, -⟩
  · obtain ⟨rfl, found, rfl, hid⟩ := answered_of_called hk hs
    obtain rfl : conclusions = after := by simpa [hs] using hj
    have hsids : s.request.ids? = some ids := (ids?_of_contact (p := p.afresh) hk).trans hp
    obtain ⟨rest, hrest⟩ := classified_of_answered h.attempt_eq hk
    rw [hq, hid] at hrest
    refine ⟨s.request, rest, hsids, List.append_cancel_left hrest, fun hx => ?_⟩
    obtain ⟨he, hstale⟩ :=
      stale_of_answered h.attempt_eq hk hx (mayReplaceId_of_locked hsids locked)
    have hrest' := List.append_cancel_left (hrest.symm.trans (hq.symm.trans hstale))
    refine ⟨(List.cons.inj hrest').2, he, h.selections_eq ?_⟩
    rw [hq, selections_append, spec.selections]
    simp [Outcome.isDispatched]
  · have hcalled := hc _ (mem_of_split hs)
    cases hcalled

theorem classified_of_run (hids : r.ids? = some ids) (locked : ids.locked = true)
    (hj : (c.run w op r situation).2.journal =
      before ++ .called now node channel m (.ok a) :: after) :
    ∃ s rest, s.ids? = some ids ∧
      after = .event (.classified node.id a.precheck (op.classify s a)) :: rest ∧
      (op.classify s a = .expired → ∃ k,
        let error := DispatchError.afterAttempts k (c.policy r.limits).attempts (op.refusal s a)
        selections (c.run w op r situation).2.journal = List.range' 1 k ∧
          rest = [.event (.failed k error.message)] ∧
          (c.run w op r situation).1 = .error error) := by
  rcases takes_of_step hj with
    ⟨k, text, hx⟩ | @⟨k, p, q, e, earlier, later, more, makes, hq, rfl, rfl⟩
  · cases hx
  · obtain ⟨s, rest, hs, rfl, hstale⟩ := makes.classified_of_called hids locked hq
    refine ⟨s, rest ++ more, hs, rfl, fun hx => ⟨k, ?_⟩⟩
    obtain ⟨hrest, rfl, hsel⟩ := hstale hx
    -- The attempt settles the matter, so nothing stands on record after it.
    have hrun := makes.run_of_settled
    have hmore : more = [] := by
      rw [hrun, Progress.andThen, hq] at hj
      simpa using hj
    rw [hrun]
    exact ⟨hsel, by rw [hmore, List.append_nil, hrest], rfl⟩

/-- Locked ids stay as they are however often the request is executed, and nothing else is sent.
An answer that takes the id for too old ends the execution with the error of the operation, and a
request that is locked without an id fails before anything is done. -/
theorem locked_ids_of_executions (locked : t.ids.locked = true) (earlier : List (Occasion σ))
    (o : Occasion σ) :
    let r := (Request.transaction t).after earlier
    let run := o.run r
    let limit := (o.client.policy r.limits).attempts
    r.ids? = some t.ids ∧ run.2.request.ids? = some t.ids ∧
    (∀ call ∈ calls run.2.journal, ∃ m, call.message = .transaction m ∧
      t.ids.current? = some m.id) ∧
    (∀ before now node channel m a after,
      run.2.journal = before ++ .called now node channel m (.ok a) :: after →
      ∃ s rest, s.ids? = some t.ids ∧
        after = .event (.classified node.id a.precheck (o.operation.classify s a)) :: rest ∧
        (o.operation.classify s a = .expired → ∃ k,
          let error := DispatchError.afterAttempts k limit (o.operation.refusal s a)
          selections run.2.journal = List.range' 1 k ∧
            rest = [.event (.failed k error.message)] ∧ run.1 = .error error)) ∧
    (t.ids.ids = [] → ∃ error, run.1 = .error error ∧
      (∃ world, run.2.situation = { o.situation with world := world }) ∧
      run.2.journal = [.event (.failed 0 error.message)]) ∧
    ∀ id, t.ids.push id = .error .transactionIdsLocked ∧
      t.ids.replaceCurrent id = .error .transactionIdsLocked := by
  intro r run limit
  have hids : r.ids? = some t.ids := ids?_of_after earlier rfl locked
  obtain ⟨hresult, hsituation, hjournal, -⟩ :=
    execute_eq_run o.client o.world o.operation r o.situation
  have hresult' : run.1 = _ := hresult
  have hsituation' : run.2.situation = _ := hsituation
  have hjournal' : run.2.journal = _ := hjournal
  rw [hresult', hsituation', hjournal']
  refine ⟨hids, ids?_of_execute hids locked, fun call => message_of_call hids locked,
    fun _ _ _ _ _ _ _ => classified_of_run hids locked, run_of_no_ids hids locked, fun id => ?_⟩
  simp [IdSequence.push, IdSequence.replaceCurrent, locked]

/-- The second execution of a pinned transaction meets the same answer with the same id. -/
theorem pinned_id_after_stale_answers :
    let client := { Client.default with
      configuredOperator := some Stage.operator
      maxAttempts := some 5 }
    let o : Occasion Stage := ⟨client, Stage.world, Submission, submitOperation,
      Stage.situation [.answering [.transactionExpired]]⟩
    let t := { TransactionRequest.ofBody default with ids := .pinned (Stage.id 0) }
    let run := o.run ((Request.transaction t).after [o])
    t.ids.locked = true ∧ run.2.request.ids? = some t.ids ∧
      (calls run.2.journal).map Call.message =
        [.transaction ⟨Stage.id 0, (Stage.node 3).1, default⟩] ∧
      ∃ e, run.1 = .error (.afterAttempts 1 5 e) := by
  intro client o t run
  obtain ⟨-, hids, -, hstale, -⟩ := locked_ids_of_executions (t := t) rfl [o] o
  obtain ⟨s, rest, -, -, hlast⟩ := hstale (run.2.journal.take 5) _ _ _ _ _ _ rfl
  obtain ⟨k, hsel, -, hresult⟩ := hlast rfl
  obtain rfl : 1 = k := (congrArg List.length hsel).trans List.length_range'
  exact ⟨rfl, hids, rfl, _, hresult⟩

end LedgerClient
