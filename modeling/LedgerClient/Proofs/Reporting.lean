import LedgerClient.Proofs.Course
import LedgerClient.Rehearsal.Nodes

namespace LedgerClient

variable {σ α : Type} {c : Client} {w : World σ} {op : Operation α} {policy : Policy}
  {start p q : Progress σ} {k : Nat} {result : Except DispatchError α}

/-- What observers hear last is what the caller gets: a failure with the text of the error, or
else that the execution has finished. -/
structure Agrees (result : Except DispatchError α) (journal : List Entry) : Prop where
  failed : ∀ e, result = .error e →
    ∃ k, (events journal).getLast? = some (.failed k e.message)
  of_failed : ∀ k text, (events journal).getLast? = some (.failed k text) →
    ∃ e, result = .error e ∧ e.message = text
  finished : ∀ x, result = .ok x → ∃ id k, (events journal).getLast? = some (.finished id k)
  of_finished : ∀ id k, (events journal).getLast? = some (.finished id k) → ∃ x, result = .ok x

inductive Reported (op : Operation α) (r : Request) (journal : List Entry) :
    Except DispatchError α → Prop
  | failed {e : DispatchError} {k : Nat} :
      (events journal).getLast? = some (.failed k e.message) → Reported op r journal (.error e)
  | finished {id : AccountId} {k : Nat} {m : Message} {a : Answer} {after : List Entry} :
      (events journal).getLast? = some (.finished id k) →
      lastCall? journal = some (⟨m, .ok a⟩, after) → op.classify r a = .finished →
      m.isQuery = r.isQuery → a.isQuery = r.isQuery →
      Reported op r journal (op.result r a id m)

theorem reported_of_attempt (h : c.attempt w op policy k p.afresh = (.settled result, q)) :
    Reported op q.request q.journal result := by
  cases attempted_of_attempt h with
  | unsendable hk => exact .failed getLast?_events_concat
  | unknownNode hk => exact .failed getLast?_events_concat
  | broken hk => exact .failed getLast?_events_concat
  | stale hk => exact .failed getLast?_events_concat
  | refused hk => exact .failed getLast?_events_concat
  | @finished node m a r hk hv =>
    have hc := contacted_of_contact hk
    have hq := (becomes_of_contact hk).isQuery_eq
    obtain ⟨hmq, haq⟩ := hc.isQuery_eq
    obtain ⟨-, hcalls, -⟩ := attempt_projections h hk
    have hlast := congrArg List.getLast? hcalls
    rw [← lastCall?_map_fst] at hlast
    obtain ⟨⟨call, after⟩, hl, rfl⟩ := Option.map_eq_some_iff.mp hlast
    exact .finished getLast?_events_concat hl hv (hmq.trans hq.symm) (haq.trans hq.symm)

theorem Reported.append {r : Request} {a b : List Entry} (h : Reported op r b result) :
    Reported op r (a ++ b) result := by
  cases h with
  | failed h => exact .failed (getLast?_events_append h)
  | finished h hl hv hm ha =>
    exact .finished (getLast?_events_append h) (lastCall?_append_of_some hl) hv hm ha

theorem run_reported {request : Request} {situation : Situation σ}
    (h : c.run w op request situation = (result, q)) :
    Reported op q.request q.journal result ∧ q.request.isQuery = request.isQuery := by
  rcases run_cases h with ⟨e, _, _, hp, rfl, rfl⟩ | ⟨prepared, s, hs, hend⟩
  · obtain ⟨⟨nodes, rfl, -⟩, -⟩ := unprepared_of_prepare hp
    exact ⟨.failed rfl, Request.isQuery_withNodes⟩
  · have hq := (prepare_eq_ok hs).2.2.2
    cases hend with
    | settled reach _ ha =>
      exact ⟨(reported_of_attempt ha).append,
        (becomes_of_attempt ha).isQuery_eq.trans (reach.becomes.isQuery_eq.trans hq)⟩
    | exhausted reach =>
      exact ⟨.failed getLast?_events_concat, reach.becomes.isQuery_eq.trans hq⟩

/-- The result of the last answer is all that observers can be wrong about. -/
theorem Reported.agrees_iff {r : Request} {journal : List Entry}
    (h : Reported op r journal result) :
    Agrees result journal ↔
      ∀ id k m a after, (events journal).getLast? = some (.finished id k) →
        lastCall? journal = some (⟨m, .ok a⟩, after) → ∃ x, op.result r a id m = .ok x := by
  cases h with
  | @failed e k hlast =>
    constructor
    · intro _ id k' m a after hf
      rw [hlast] at hf
      cases hf
    · intro _
      refine ⟨fun e' he => ?_, fun k' text hf => ?_, fun x hx => ?_, fun id k' hf => ?_⟩
      · cases he
        exact ⟨k, hlast⟩
      · rw [hlast] at hf
        cases hf
        exact ⟨e, rfl, rfl⟩
      · cases hx
      · rw [hlast] at hf
        cases hf
  | @finished id k m a after hlast hcall hv hm ha =>
    constructor
    · intro agrees id' k' m' a' after' hf hc
      rw [hlast] at hf
      rw [hcall] at hc
      cases hf
      cases hc
      exact agrees.of_finished id k hlast
    · intro taken
      obtain ⟨x, hx⟩ := taken id k m a after hlast hcall
      refine ⟨fun e he => ?_, fun k' text hf => ?_, fun y _ => ⟨id, k, hlast⟩,
        fun id' k' _ => ⟨x, hx⟩⟩
      · rw [hx] at he
        cases he
      · rw [hlast] at hf
        cases hf

theorem queryOperation_result_ok_iff {r : Request} {a : Answer} {id : AccountId} {m : Message} :
    (∃ x, queryOperation.result r a id m = .ok x) ↔ a.isQuery = true := by
  cases a <;> simp [queryOperation, Answer.isQuery]

theorem submitOperation_result_ok_iff {r : Request} {a : Answer} {id : AccountId} {m : Message} :
    (∃ x, submitOperation.result r a id m = .ok x) ↔ a.isQuery = false ∧ m.isQuery = false := by
  cases a <;> cases m <;> simp [submitOperation, Answer.isQuery, Message.isQuery]

/-- Where an operation takes finished answers exactly if the request is of its kind, observers are
right exactly for requests of that kind and for those that never finish. -/
theorem Reported.agrees_iff_of_kind {r : Request} {journal : List Entry} {taken : Prop}
    (h : Reported op r journal result)
    (ht : ∀ a id m, m.isQuery = r.isQuery → a.isQuery = r.isQuery →
      ((∃ x, op.result r a id m = .ok x) ↔ taken)) :
    Agrees result journal ↔
      taken ∨ ∀ id k, (events journal).getLast? ≠ some (.finished id k) := by
  rw [h.agrees_iff]
  cases h with
  | failed hlast =>
    rw [hlast]
    simp
  | @finished id k m a after hlast hcall hv hm ha =>
    rw [hlast, hcall]
    have hx := ht a id m hm ha
    constructor
    · intro all
      exact .inl (hx.mp (all id k m a after rfl rfl))
    · rintro (hk | hne)
      · intro id' k' m' a' after' hf hc
        cases hf
        cases hc
        exact hx.mpr hk
      · exact absurd rfl (hne id k)

/-- An execution ends with a failure and its text, or with an answer that counts as finished and the
result that the operation finds in it, which may be an error that no observer hears of. With the two
operations that there are, this happens exactly to finished requests of the other kind. -/
theorem execute_agrees_iff (c : Client) (w : World σ) (request : Request)
    (situation : Situation σ) :
    let asked := c.execute w queryOperation request situation
    let sent := c.execute w submitOperation request situation
    (∀ (α : Type) (op : Operation α),
      let run := c.execute w op request situation
      let r := (c.run w op request situation).2.request
      Reported op r run.2.journal run.1 ∧
      (Agrees run.1 run.2.journal ↔
        ∀ id k m a after, (events run.2.journal).getLast? = some (.finished id k) →
          lastCall? run.2.journal = some (⟨m, .ok a⟩, after) → ∃ x, op.result r a id m = .ok x)) ∧
    (Agrees asked.1 asked.2.journal ↔ request.isQuery = true ∨
      ∀ id k, (events asked.2.journal).getLast? ≠ some (.finished id k)) ∧
    (Agrees sent.1 sent.2.journal ↔ request.isQuery = false ∨
      ∀ id k, (events sent.2.journal).getLast? ≠ some (.finished id k)) := by
  have reported : ∀ {α : Type} (op : Operation α),
      let run := c.execute w op request situation
      let r := (c.run w op request situation).2.request
      Reported op r run.2.journal run.1 ∧ r.isQuery = request.isQuery := by
    intro α op run r
    obtain ⟨hresult, -, hjournal, -⟩ := execute_eq_run c w op request situation
    simp only [run, hresult, hjournal]
    exact run_reported rfl
  refine ⟨fun α op => ?_, ?_, ?_⟩
  · exact ⟨(reported op).1, (reported op).1.agrees_iff⟩
  · obtain ⟨hr, hq⟩ := reported queryOperation
    refine hr.agrees_iff_of_kind fun a id m _ ha => ?_
    rw [queryOperation_result_ok_iff, ha, hq]
  · obtain ⟨hr, hq⟩ := reported submitOperation
    refine hr.agrees_iff_of_kind fun a id m hm ha => ?_
    rw [submitOperation_result_ok_iff, ha, hm, hq, and_self]

/-- A transaction that is executed as a query and taken by its node: the last event is that it has
finished, but the caller gets an error. -/
theorem query_of_transaction_not_agrees :
    let run := Client.default.execute Stage.world queryOperation
      (.transaction { TransactionRequest.ofBody default with
        ids := .pinned (.starting (Stage.node 2).1 .epoch) })
      (Stage.situation [.answering [.ok]])
    (events run.2.journal).getLast? = some (.finished (Stage.node 3).1 1) ∧
      run.1.isOk = false ∧ ¬ Agrees run.1 run.2.journal := by
  intro run
  have hlast : (events run.2.journal).getLast? = some (.finished (Stage.node 3).1 1) := by decide
  have herr : run.1.isOk = false := by decide
  refine ⟨hlast, herr, fun agrees => ?_⟩
  obtain ⟨x, hx⟩ := agrees.of_finished _ _ hlast
  rw [hx] at herr
  cases herr

end LedgerClient
