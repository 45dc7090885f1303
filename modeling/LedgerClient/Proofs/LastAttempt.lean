import LedgerClient.Proofs.FirstTerminal
import LedgerClient.Proofs.Origin

namespace LedgerClient

variable {σ α : Type} {c : Client} {w : World σ} {op : Operation α} {policy : Policy}
  {request prepared : Request} {situation s : Situation σ} {p q r : Progress σ} {e : Ending α}
  {k limit : Nat} {error : DispatchError} {o : Outcome} {node : Node} {m : Message} {a : Answer}
  {journal conclusions : List Entry}

theorem settlement_of_not_terminal {t : Request} (h : o.isTerminal c op t = false) :
    o.settlement op t k limit = .error (.afterAttempts k limit (o.failure op t)) := by
  cases o with
  | unsendable | unopened | unanswered => rfl
  | unknownNode => cases h
  | answered node m a =>
    have hne : op.classify t a ≠ .finished := by
      intro hv
      simp [Outcome.isTerminal, hv] at h
    simp only [Outcome.settlement, hne, if_false]

/-- Whether an attempt settles the matter, and how, is known from its contact. -/
theorem ending_of_attempt (h : c.attempt w op policy k p = (e, q)) (hk : p.contact w k = (o, r))
    (ready : p.request.Ready) :
    e = if o.isTerminal c op r.request then .settled (o.settlement op r.request k policy.attempts)
      else .unsettled (o.failure op r.request) := by
  by_cases ht : o.isTerminal c op r.request = true
  · obtain ⟨q', hq', -⟩ := attempt_of_terminal policy hk ht
    rw [if_pos ht]
    exact congrArg Prod.fst (h.symm.trans hq')
  · have hf : o.isTerminal c op r.request = false := Bool.eq_false_iff.mpr ht
    obtain ⟨q', hq', -⟩ := attempt_of_not_terminal policy hk ready hf
    rw [if_neg ht]
    exact congrArg Prod.fst (h.symm.trans hq')

theorem request_of_attempt (h : c.attempt w op policy k p.afresh = (e, q))
    (hk : p.afresh.contact w k = (o, r)) (hs : o.isStale c op r.request = false) :
    q.request = r.request := by
  obtain ⟨o', r', conclusions, hk', -, -, -, hf⟩ := attempt_split h
  obtain ⟨rfl, rfl⟩ := Prod.mk.inj (hk.symm.trans hk')
  generalize q.request = t at hf
  cases hf with
  | kept => rfl
  | replaced _ _ _ hstale =>
    rw [hs] at hstale
    cases hstale

/-- All attempts have something to send, and a node to send it to. -/
theorem Client.Makes.sendable (h : c.Makes w op request situation k p e q) :
    ∃ m, p.request.message = .ok m ∧ p.request.nodes.current? = some m.node := by
  obtain ⟨m, hm⟩ := Request.ready_iff.mp h.of_prepared.1
  exact ⟨m, hm, (Request.message_eq_ok hm).1⟩

theorem Client.Makes.not_unsendable (h : c.Makes w op request situation k p e q) :
    p.afresh.contact w k ≠ (.unsendable error, r) := by
  intro hk
  obtain ⟨m, hm, -⟩ := h.sendable
  cases contacted_of_contact hk with
  | unsendable he =>
    have hm' : p.afresh.request.message = .ok m := hm
    rw [he] at hm'
    cases hm'

theorem Client.Makes.le_limit (h : c.Makes w op request situation k p e q) :
    1 ≤ k ∧ k ≤ (c.policy request.limits).attempts := by
  cases h with
  | intro _ _ hm => omega

/-- Attempt `k` is the last one. It begins at `p`, and its contact has this outcome and leads to
`r`. -/
structure Client.EndsWith (c : Client) (w : World σ) (op : Operation α) (request : Request)
    (situation : Situation σ) (k : Nat) (p : Progress σ) (o : Outcome) (r : Progress σ) : Prop where
  makes : ∃ e q, c.Makes w op request situation k p e q
  contact : p.afresh.contact w k = (o, r)
  result : (c.run w op request situation).1 =
    o.settlement op r.request k (c.policy request.limits).attempts
  record : ∃ conclusions, (c.run w op request situation).2.journal =
    p.journal ++ (r.journal ++ conclusions) ∧ ∀ x ∈ conclusions, x.isConclusion = true
  kept : o.isStale c op r.request = false → (c.run w op request situation).2.request = r.request

/-- What remains to be said of an attempt that is the last: how the execution goes on from it. -/
theorem Client.Makes.endsWith (h : c.Makes w op request situation k p e q) (closing : List Entry)
    (hresult : ∀ o r, p.afresh.contact w k = (o, r) → (c.run w op request situation).1 =
      o.settlement op r.request k (c.policy request.limits).attempts)
    (hrequest : (c.run w op request situation).2.request = q.request)
    (hjournal : (c.run w op request situation).2.journal = p.journal ++ (q.journal ++ closing))
    (hclosing : ∀ x ∈ closing, x.isConclusion = true) :
    ∃ o r, c.EndsWith w op request situation k p o r := by
  obtain ⟨o, r, conclusions, hk, hj, -, hc, -⟩ := attempt_split h.attempt_eq
  refine ⟨o, r, ⟨_, _, h⟩, hk, hresult o r hk, ⟨conclusions ++ closing, ?_, ?_⟩, fun hs => ?_⟩
  · rw [hjournal, hj, List.append_assoc]
  · intro x hx
    exact (List.mem_append.mp hx).elim (hc x) (hclosing x)
  · exact hrequest.trans (request_of_attempt h.attempt_eq hk hs)

theorem Client.Makes.endsWith_of_settled {result : Except DispatchError α}
    (h : c.Makes w op request situation k p (.settled result) q) :
    ∃ o r, c.EndsWith w op request situation k p o r := by
  have hrun := h.run_of_settled
  refine h.endsWith [] (fun o r hk => ?_) ?_ ?_ (by simp)
  · have hending := ending_of_attempt h.attempt_eq hk h.of_prepared.1
    rw [hrun]
    split at hending
    next => exact Ending.settled.inj hending
    next => cases hending
  · rw [hrun]
    rfl
  · rw [hrun, List.append_nil]
    rfl

/-- When no attempts are left, the error of the last one counts. -/
theorem Client.Makes.run_of_unsettled
    (h : c.Makes w op request situation k p (.unsettled error) q)
    (hk : k = (c.policy request.limits).attempts) :
    c.run w op request situation = (p.andThen q).fail k (error.afterAttempts k k) := by
  cases h with
  | intro hp reach hm ha =>
    rw [run_of_reaches hp (.next reach ha) hm, ← hk, Nat.sub_self]
    simp only [Client.attempts, ← hk]

theorem Client.Makes.endsWith_of_unsettled
    (h : c.Makes w op request situation k p (.unsettled error) q)
    (hk : k = (c.policy request.limits).attempts) :
    ∃ o r, c.EndsWith w op request situation k p o r := by
  have hrun := h.run_of_unsettled hk
  refine h.endsWith [.event (.failed k (error.afterAttempts k k).message)] (fun o r ho => ?_) ?_ ?_
    (by simp [Entry.isConclusion])
  · -- The attempt is not terminal, and its error is what remains when none is left.
    have hending := ending_of_attempt h.attempt_eq ho h.of_prepared.1
    rw [hrun, ← hk]
    split at hending
    next => cases hending
    next ht =>
      have hf : o.isTerminal c op r.request = false := Bool.eq_false_iff.mpr ht
      rw [settlement_of_not_terminal hf, Ending.unsettled.inj hending]
      rfl
  · rw [hrun]
    rfl
  · rw [hrun]
    exact List.append_assoc ..

theorem endsWith_of_prepare (op : Operation α)
    (hp : c.prepare w request situation = .ok (prepared, s)) :
    ∃ k p o r, c.EndsWith w op request situation k p o r := by
  generalize hrun : c.run w op request situation = run
  obtain ⟨result, final⟩ := run
  rcases run_cases hrun with ⟨_, _, _, herr, -⟩ | ⟨prepared', s', hp', hend⟩
  · rw [hp] at herr
    cases herr
  cases hend with
  | settled reach hm ha =>
    have makes : c.Makes w op request situation _ _ _ _ := .intro hp' reach hm ha
    exact ⟨_, _, makes.endsWith_of_settled⟩
  | exhausted reach =>
    have hpos : 1 ≤ (c.policy request.limits).attempts := Nat.le_max_left ..
    generalize hlimit : (c.policy request.limits).attempts = limit at reach hpos
    cases reach with
    | start => omega
    | next prior ha =>
      have makes : c.Makes w op request situation _ _ _ _ := .intro hp' prior (by omega) ha
      exact ⟨_, _, makes.endsWith_of_unsettled hlimit.symm⟩

theorem error_of_run (h : (c.run w op request situation).1 = .error error) :
    c.CannotPrepare w request situation error ∨
      ∃ k p o r, c.EndsWith w op request situation k p o r := by
  cases hp : c.prepare w request situation with
  | error x =>
    simp only [Client.run, hp, Progress.fail] at h
    cases h
    exact .inl ⟨_, _, hp⟩
  | ok x => exact .inr (endsWith_of_prepare op hp)

/-- The last that was done to any node: it was sent a message and gave an answer. -/
def LastAnswer (journal : List Entry) (node : Node) (m : Message) (a : Answer) : Prop :=
  ∃ before now channel after,
    journal = before ++ .called now node channel m (.ok a) :: after ∧
      ∀ x ∈ after, x.isConclusion = true

theorem Client.EndsWith.lastAnswer
    (h : c.EndsWith w op request situation k p (.answered node m a) r) :
    ∃ called, LastAnswer (c.run w op request situation).2.journal called m a ∧
      called.id = node.id := by
  obtain ⟨conclusions, hj, hc⟩ := h.record
  have hcalls : calls r.journal = [⟨m, .ok a⟩] := (contactSteps_of_contact h.contact).calls
  have hmem : ⟨m, .ok a⟩ ∈ calls r.journal := by simp [hcalls]
  obtain ⟨x, hx, hcall⟩ := List.mem_filterMap.mp hmem
  obtain ⟨before, after, hr⟩ := List.append_of_mem hx
  unfold Entry.call? at hcall
  split at hcall
  next now called channel m' outcome =>
    cases hcall
    obtain ⟨rfl, found, ho, hid⟩ := answered_of_called h.contact hr
    cases ho
    refine ⟨called, ⟨p.journal ++ before, now, channel, conclusions, ?_, hc⟩, hid.symm⟩
    rw [hj, hr]
    simp
  next => cases hcall

theorem Client.EndsWith.answered_of_lastAnswer (h : c.EndsWith w op request situation k p o r)
    (hd : o.isDispatched = true)
    (hl : LastAnswer (c.run w op request situation).2.journal node m a) :
    ∃ found, o = .answered found m a ∧ found.id = node.id := by
  obtain ⟨conclusions, hj, hc⟩ := h.record
  obtain ⟨before, now, channel, after, hl, hafter⟩ := hl
  have spec := contactSteps_of_contact h.contact
  rw [if_pos hd] at spec
  rw [hj] at hl
  rcases split_append hl with ⟨rest, hp⟩ | ⟨rest, hr, -⟩
  · -- What was done before this attempt is followed by its selection, which is no conclusion.
    have hafter' : after = rest ++ (r.journal ++ conclusions) := by
      rw [hp] at hl
      simpa using hl.symm
    have hnone : selections r.journal = [] := by
      refine (projections_eq_nil fun x hx => hafter x ?_).1
      rw [hafter']
      simp [hx]
    rw [spec.selections] at hnone
    cases hnone
  · rcases split_append hr with ⟨rest', hq⟩ | ⟨rest', hq, -⟩
    · obtain ⟨-, found, ho, hid⟩ := answered_of_called h.contact hq
      exact ⟨found, ho, hid⟩
    · have hcalled := hc _ (mem_of_split hq)
      cases hcalled

end LedgerClient
