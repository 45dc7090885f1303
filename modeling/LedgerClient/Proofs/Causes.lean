import LedgerClient.Proofs.LastAttempt
import LedgerClient.Proofs.LastSentId
import LedgerClient.Proofs.Reporting
import LedgerClient.Rehearsal.Nodes

namespace LedgerClient

variable {σ α : Type} {c : Client} {w : World σ} {op : Operation α} {request : Request}
  {situation : Situation σ} {p r : Progress σ} {k : Nat} {e : DispatchError} {o : Outcome}
  {node : Node} {m : Message} {a : Answer} {code : Precheck}

/-- Where the error of an execution comes from. -/
inductive Client.Fails (c : Client) (w : World σ) (op : Operation α) (request : Request)
    (situation : Situation σ) : DispatchError → Prop
  | unprepared {e : DispatchError} : c.CannotPrepare w request situation e →
      Fails c w op request situation e
  | unknownNode {id : AccountId} {k : Nat} {p r : Progress σ} :
      c.EndsWith w op request situation k p (.unknownNode id) r →
      Fails c w op request situation (.unknownNode id)
  | faulted {k : Nat} {p r : Progress σ} {o : Outcome} {f : Fault} :
      c.EndsWith w op request situation k p o r → o.isDispatched = true →
      (∀ node m a, o ≠ .answered node m a) →
      Fails c w op request situation
        (.afterAttempts k (c.policy request.limits).attempts (.fault f))
  | refused {k : Nat} {p r : Progress σ} {node : Node} {m : Message} {a : Answer} :
      c.EndsWith w op request situation k p (.answered node m a) r →
      op.classify r.request a ≠ .finished →
      Fails c w op request situation
        (.afterAttempts k (c.policy request.limits).attempts (op.refusal r.request a))
  | undecoded {k : Nat} {p r : Progress σ} {node : Node} {m : Message} {a : Answer}
      {e : DispatchError} :
      c.EndsWith w op request situation k p (.answered node m a) r →
      op.classify r.request a = .finished → op.result r.request a node.id m = .error e →
      Fails c w op request situation e

theorem fails_of_run (h : (c.run w op request situation).1 = .error e) :
    c.Fails w op request situation e := by
  rcases error_of_run h with hp | ⟨k, p, o, r, ends⟩
  · exact .unprepared hp
  have hresult := ends.result.symm.trans h
  cases o with
  | unsendable error =>
    obtain ⟨_, _, makes⟩ := ends.makes
    exact absurd ends.contact makes.not_unsendable
  | unknownNode id =>
    cases hresult
    exact .unknownNode ends
  | unopened | unanswered =>
    cases hresult
    exact .faulted ends rfl (by simp)
  | answered node m a =>
    by_cases hv : op.classify r.request a = .finished
    · simp only [Outcome.settlement, hv, if_true] at hresult
      exact .undecoded ends hv hresult
    · simp only [Outcome.settlement, hv, if_false] at hresult
      cases hresult
      exact .refused ends hv

theorem fails_of_execute (h : (c.execute w op request situation).1 = .error e) :
    c.Fails w op request situation e := by
  have hresult := (execute_eq_run c w op request situation).1
  exact fails_of_run (hresult.symm.trans h)

theorem Client.EndsWith.le_limit (h : c.EndsWith w op request situation k p o r) :
    1 ≤ k ∧ k ≤ (c.policy request.limits).attempts := by
  obtain ⟨_, _, makes⟩ := h.makes
  exact makes.le_limit

/-- A request, its last message and the answer to it are of one kind. -/
theorem Client.EndsWith.isQuery_eq
    (h : c.EndsWith w op request situation k p (.answered node m a) r) :
    m.isQuery = request.isQuery ∧ a.isQuery = request.isQuery ∧
      r.request.isQuery = request.isQuery := by
  obtain ⟨_, _, makes⟩ := h.makes
  have hkind : p.request.isQuery = request.isQuery := makes.of_prepared.2.1
  obtain ⟨hm, ha⟩ := (contacted_of_contact h.contact).isQuery_eq
  have hr := (becomes_of_contact (p := p.afresh) h.contact).isQuery_eq
  exact ⟨hm.trans hkind, ha.trans hkind, hr.trans hkind⟩

theorem Client.EndsWith.transactionId?_eq
    (h : c.EndsWith w op request situation k p (.answered node m a) r)
    (hq : request.isQuery = false) :
    ∃ sent, m = .transaction sent ∧ r.request.transactionId? = some sent.id := by
  obtain ⟨hm, -, -⟩ := h.isQuery_eq
  obtain ⟨sent, rfl⟩ := Message.exists_transaction (hm.trans hq)
  have hcall : (⟨.transaction sent, .ok a⟩ : Call) ∈
      (Outcome.answered node (.transaction sent) a).calls := by simp [Outcome.calls]
  have hmessage := (contacted_of_contact h.contact).message_eq hcall
  have hid := (Request.message_eq_ok hmessage).2.2 sent rfl
  exact ⟨sent, rfl, (transactionId?_of_contact h.contact).trans hid⟩

theorem submitOperation_refusal {t : Request} {id : TransactionId}
    (h : t.transactionId? = some id) :
    submitOperation.refusal t a = .transactionRefused a.precheck id := by
  simp only [submitOperation, h]

theorem submitOperation_refusal_of_query {t : Request} (h : t.isQuery = true) :
    submitOperation.refusal t a = .missingTransactionId := by
  cases t with
  | query q => rfl
  | transaction t => cases h

theorem transactionVerdict_eq_finished_iff : code.transactionVerdict = .finished ↔ code = .ok := by
  cases code <;> simp [Precheck.transactionVerdict]

/-- If an operation finds a result in all answers that it takes, the errors of nodes are counted
once, and nothing else is. -/
theorem Client.Fails.causes (h : c.Fails w op request situation e) (refusal : DispatchError → Prop)
    (taken : ∀ k p node m a r, c.EndsWith w op request situation k p (.answered node m a) r →
      ∃ x, op.result r.request a node.id m = .ok x)
    (refused : ∀ k p node m a r, c.EndsWith w op request situation k p (.answered node m a) r →
      refusal (op.refusal r.request a)) :
    let limit := (c.policy request.limits).attempts
    c.CannotPrepare w request situation e ∨ (∃ id, e = .unknownNode id) ∨
      ∃ k source, e = .afterAttempts k limit source ∧ 1 ≤ k ∧ k ≤ limit ∧
        ((∃ f, source = .fault f) ∨ refusal source) := by
  intro limit
  cases h with
  | unprepared hp => exact .inl hp
  | unknownNode => exact .inr (.inl ⟨_, rfl⟩)
  | faulted ends =>
    obtain ⟨hpos, hle⟩ := ends.le_limit
    exact .inr (.inr ⟨_, _, rfl, hpos, hle, .inl ⟨_, rfl⟩⟩)
  | refused ends =>
    obtain ⟨hpos, hle⟩ := ends.le_limit
    have hrefusal := refused _ _ _ _ _ _ ends
    exact .inr (.inr ⟨_, _, rfl, hpos, hle, .inr hrefusal⟩)
  | undecoded ends _ hresult =>
    obtain ⟨x, hx⟩ := taken _ _ _ _ _ _ ends
    rw [hx] at hresult
    cases hresult

/-- A query fails because there are no nodes, or one is not known, or with the count of its attempts
and what was wrong with the last of them. A submission may also lack an id. Whatever the nodes do,
each attempt has a message and a node to send it to. -/
theorem errors_of_query_and_submit (c : Client) (w : World σ) (q : QueryRequest)
    (t : TransactionRequest) (situation : Situation σ) :
    let limit (limits : Limits) := max 1 ((c.maxAttempts.or limits.attempts).getD 10).toNat
    (∀ e, (c.query w q situation).1 = .error e →
      (c.CannotPrepare w (.query q) situation e ∧ e = .noNodes) ∨
      (∃ id, e = .unknownNode id) ∨
      ∃ k source, e = .afterAttempts k (limit q.limits) source ∧ 1 ≤ k ∧ k ≤ limit q.limits ∧
        ((∃ f, source = .fault f) ∨ ∃ code, source = .queryRefused code)) ∧
    (∀ e, (c.submit w t situation).1 = .error e →
      (c.CannotPrepare w (.transaction t) situation e ∧
        (e = .noNodes ∨ e = .missingTransactionId ∨ e = .transactionIdsLocked)) ∨
      (∃ id, e = .unknownNode id) ∨
      ∃ k source, e = .afterAttempts k (limit t.limits) source ∧ 1 ≤ k ∧ k ≤ limit t.limits ∧
        ((∃ f, source = .fault f) ∨ ∃ code id, source = .transactionRefused code id)) ∧
    (∀ k p e p', c.Makes w queryOperation (.query q) situation k p e p' →
      ∃ m, p.request.message = .ok m ∧ p.request.nodes.current? = some m.node) ∧
    (∀ k p e p', c.Makes w submitOperation (.transaction t) situation k p e p' →
      ∃ m, p.request.message = .ok m ∧ p.request.nodes.current? = some m.node) := by
  intro limit
  refine ⟨fun e h => ?_, fun e h => ?_, fun _ _ _ _ makes => makes.sendable,
    fun _ _ _ _ makes => makes.sendable⟩
  · have hcauses := (fails_of_execute h).causes (fun e => ∃ code, e = .queryRefused code)
      (fun _ _ _ _ _ _ ends => queryOperation_result_ok_iff.mpr ends.isQuery_eq.2.1)
      (fun _ _ _ _ _ _ _ => ⟨_, rfl⟩)
    refine hcauses.imp_left fun hp => ⟨hp, ?_⟩
    rcases prepare_eq_error hp with ⟨-, -, he⟩ | ⟨t, ht, -⟩
    · exact he
    · cases ht
  · have hcauses := (fails_of_execute h).causes (fun e => ∃ code id, e = .transactionRefused code id)
      (fun _ _ _ _ _ _ ends => by
        obtain ⟨hm, ha, -⟩ := ends.isQuery_eq
        exact submitOperation_result_ok_iff.mpr ⟨ha, hm⟩)
      (fun _ _ _ _ _ _ ends => by
        obtain ⟨sent, -, hid⟩ := ends.transactionId?_eq rfl
        exact ⟨_, _, submitOperation_refusal hid⟩)
    refine hcauses.imp_left fun hp => ⟨hp, ?_⟩
    rcases prepare_eq_error hp with ⟨-, -, he⟩ | ⟨_, -, -, ⟨-, he⟩ | ⟨-, he⟩⟩
    · exact .inl he
    · exact .inr (.inl he)
    · exact .inr (.inr he)

/-- A query to nodes that cannot be reached fails with the fault of its second attempt, and a
transaction without an id before its first. -/
theorem errors_of_unreachable_nodes :
    let client := { Client.default with maxAttempts := some 2 }
    let situation := Stage.situation [.unreachable, .unreachable]
    (∃ source, (client.query Stage.world (.ofBody default) situation).1 =
        .error (.afterAttempts 2 2 source) ∧
      ((∃ f, source = .fault f) ∨ ∃ code, source = .queryRefused code)) ∧
    (client.submit Stage.world (.ofBody default) situation).1 = .error .missingTransactionId ∧
    client.CannotPrepare Stage.world (.transaction (.ofBody default)) situation
      .missingTransactionId := by
  intro client situation
  obtain ⟨hquery, hsubmit, -⟩ :=
    errors_of_query_and_submit client Stage.world (.ofBody default) (.ofBody default) situation
  have hasked : (client.query Stage.world (.ofBody default) situation).1 =
    .error (.afterAttempts 2 2 (.fault ⟨.unavailable, "unreachable"⟩)) := rfl
  have hsent : (client.submit Stage.world (.ofBody default) situation).1 =
    .error .missingTransactionId := rfl
  refine ⟨?_, hsent, ?_⟩
  · rcases hquery _ hasked with ⟨-, he⟩ | ⟨_, he⟩ | ⟨k, source, he, -, -, hsource⟩
    · cases he
    · cases he
    · obtain ⟨-, -, rfl⟩ := DispatchError.afterAttempts.inj he
      exact ⟨_, hasked, hsource⟩
  · rcases hsubmit _ hsent with ⟨hp, -⟩ | ⟨_, he⟩ | ⟨_, _, he, -⟩
    · exact hp
    · cases he
    · cases he

theorem attempts?_of_prepare (h : c.CannotPrepare w request situation e) :
    e.attempts? = none := by
  rcases prepare_eq_error h with ⟨-, -, rfl⟩ | ⟨_, -, -, ⟨-, rfl⟩ | ⟨-, rfl⟩⟩ <;> rfl

theorem not_lastAnswer_of_prepare (h : c.CannotPrepare w request situation e) :
    ¬ LastAnswer (c.run w op request situation).2.journal node m a := by
  rintro ⟨before, now, channel, after, hj, -⟩
  have hrun : (c.run w op request situation).2.journal = [.event (.failed 0 e.message)] := by
    obtain ⟨r, s, hp⟩ := h
    rw [run_of_unprepared op hp]
  rw [hrun] at hj
  have hmem := List.mem_singleton.mp (mem_of_split hj)
  cases hmem

theorem queryOperation_result_eq_error {t : Request} {id : AccountId}
    (h : queryOperation.result t a id m = .error e) : ∃ reason, e = .undecodable reason := by
  cases a with
  | query a => cases h
  | submit a =>
    cases h
    exact ⟨_, rfl⟩

theorem submitOperation_result_eq_error {t : Request} {id : AccountId}
    (h : submitOperation.result t a id m = .error e) : ∃ reason, e = .undecodable reason := by
  simp only [submitOperation] at h
  split at h
  · cases h
  · cases h
    exact ⟨_, rfl⟩

/-- An error of configuration without a count does not come from a node. -/
theorem Client.Fails.of_uncounted (h : c.Fails w op request situation e)
    (undecoded : ∀ {r a id m error}, op.result r a id m = .error error →
      ∃ reason, error = .undecodable reason)
    (hconf : e.isConfiguration = true) (hnone : e.attempts? = none) :
    c.CannotPrepare w request situation e ∨ ∃ id, e = .unknownNode id := by
  cases h with
  | unprepared hp => exact .inl hp
  | unknownNode => exact .inr ⟨_, rfl⟩
  | faulted | refused => cases hnone
  | undecoded _ _ hresult =>
    obtain ⟨reason, rfl⟩ := undecoded hresult
    cases hconf

theorem Client.Fails.attempts?_eq_none (h : c.Fails w queryOperation request situation e)
    (hconf : e.isConfiguration = true) : e.attempts? = none := by
  cases h with
  | unprepared hp => exact attempts?_of_prepare hp
  | unknownNode => rfl
  | faulted | refused => cases hconf
  | undecoded _ _ hresult =>
    obtain ⟨reason, rfl⟩ := queryOperation_result_eq_error hresult
    rfl

theorem Client.Fails.lastAnswer_of_counted (h : c.Fails w submitOperation request situation e)
    (hconf : e.isConfiguration = true) (hcounted : e.attempts? ≠ none) :
    request.isQuery = true ∧ (∀ id, e ≠ .unknownNode id) ∧ ∃ node m a,
      LastAnswer (c.run w submitOperation request situation).2.journal node m a ∧
        a.precheck ≠ .ok := by
  cases h with
  | unprepared hp => exact absurd (attempts?_of_prepare hp) hcounted
  | unknownNode => exact absurd rfl hcounted
  | faulted => cases hconf
  | @refused k p r node m a ends hv =>
    have hcode : a.precheck ≠ .ok := mt transactionVerdict_eq_finished_iff.mpr hv
    obtain ⟨called, hlast, -⟩ := ends.lastAnswer
    cases hq : request.isQuery with
    | true => exact ⟨rfl, by simp, called, m, a, hlast, hcode⟩
    | false =>
      -- A transaction is refused under its id.
      obtain ⟨_, -, hid⟩ := ends.transactionId?_eq hq
      rw [submitOperation_refusal hid] at hconf
      cases hconf
  | undecoded _ _ hresult =>
    obtain ⟨reason, rfl⟩ := submitOperation_result_eq_error hresult
    cases hconf

theorem Client.Fails.counted_of_lastAnswer (h : c.Fails w submitOperation request situation e)
    (hq : request.isQuery = true) (hknown : ∀ id, e ≠ .unknownNode id)
    (hlast : LastAnswer (c.run w submitOperation request situation).2.journal node m a)
    (hcode : a.precheck ≠ .ok) : e.isConfiguration = true ∧ e.attempts? ≠ none := by
  cases h with
  | unprepared hp => exact absurd hlast (not_lastAnswer_of_prepare hp)
  | unknownNode => exact absurd rfl (hknown _)
  | faulted ends hd hno =>
    obtain ⟨found, rfl, -⟩ := ends.answered_of_lastAnswer hd hlast
    exact absurd rfl (hno found m a)
  | refused ends =>
    have hkind := ends.isQuery_eq.2.2
    rw [submitOperation_refusal_of_query (hkind.trans hq)]
    exact ⟨rfl, by simp [DispatchError.attempts?]⟩
  | undecoded ends hv =>
    obtain ⟨found, ho, -⟩ := ends.answered_of_lastAnswer rfl hlast
    cases ho
    exact absurd (transactionVerdict_eq_finished_iff.mp hv) hcode

/-- Errors of configuration are not counted and come before any answer, with one exception: a query
that is submitted like a transaction and whose last answer is not a success. -/
theorem configuration_errors_of_execute (c : Client) (w : World σ) (request : Request)
    (situation : Situation σ) :
    let asked := c.execute w queryOperation request situation
    let sent := c.execute w submitOperation request situation
    (∀ e, asked.1 = .error e → e.isConfiguration = true → e.attempts? = none ∧
      (c.CannotPrepare w request situation e ∨ ∃ id, e = .unknownNode id)) ∧
    (∀ e, sent.1 = .error e → e.isConfiguration = true → e.attempts? = none →
      c.CannotPrepare w request situation e ∨ ∃ id, e = .unknownNode id) ∧
    (∀ e, sent.1 = .error e → ((e.isConfiguration = true ∧ e.attempts? ≠ none) ↔
      request.isQuery = true ∧ (∀ id, e ≠ .unknownNode id) ∧
        ∃ node m a, LastAnswer sent.2.journal node m a ∧ a.precheck ≠ .ok)) := by
  intro asked sent
  have hjournal : sent.2.journal = (c.run w submitOperation request situation).2.journal :=
    (execute_eq_run c w submitOperation request situation).2.2.1
  rw [hjournal]
  refine ⟨fun e h hconf => ?_, fun e h hconf hnone => ?_, fun e h => ⟨?_, ?_⟩⟩
  · have fails := fails_of_execute h
    have hnone := fails.attempts?_eq_none hconf
    exact ⟨hnone, fails.of_uncounted queryOperation_result_eq_error hconf hnone⟩
  · exact (fails_of_execute h).of_uncounted submitOperation_result_eq_error hconf hnone
  · rintro ⟨hconf, hcounted⟩
    exact (fails_of_execute h).lastAnswer_of_counted hconf hcounted
  · rintro ⟨hq, hknown, node, m, a, hlast, hcode⟩
    exact (fails_of_execute h).counted_of_lastAnswer hq hknown hlast hcode

/-- A query is submitted like a transaction to a node that is busy. The error is that there is no
transaction id, counted after two attempts. -/
theorem counted_configuration_error :
    let client := { Client.default with maxAttempts := some 2 }
    let run := client.execute Stage.world submitOperation (.query (.ofBody default))
      (Stage.situation [.answering [.busy]])
    let e := DispatchError.afterAttempts 2 2 .missingTransactionId
    run.1 = .error e ∧ e.isConfiguration = true ∧ e.attempts? = some (2, 2) ∧
      (calls run.2.journal).map (fun call => call.outcome.map Answer.precheck) =
        [.ok .busy, .ok .busy] :=
  ⟨rfl, rfl, rfl, rfl⟩

end LedgerClient
