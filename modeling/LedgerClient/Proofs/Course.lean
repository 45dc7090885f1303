import LedgerClient.Proofs.Attempt
import LedgerClient.Proofs.Preparation

namespace LedgerClient

variable {σ α : Type} {c : Client} {w : World σ} {op : Operation α} {policy : Policy}
  {start p q : Progress σ} {k made : Nat} {last error : DispatchError}

/-- What the first `made` attempts lead to if none of them settles the matter, and the error of the
last of them. -/
inductive Client.Reaches (c : Client) (w : World σ) (op : Operation α) (policy : Policy)
    (start : Progress σ) : Nat → DispatchError → Progress σ → Prop
  | start : Reaches c w op policy start 0 .noAttempts start
  | next {made : Nat} {last error : DispatchError} {p q : Progress σ} :
      Reaches c w op policy start made last p →
      c.attempt w op policy (made + 1) p.afresh = (.unsettled error, q) →
      Reaches c w op policy start (made + 1) error (p.andThen q)

/-- An execution ends with an attempt that settles the matter, or when no attempts are left. -/
inductive Client.Ends (c : Client) (w : World σ) (op : Operation α) (policy : Policy)
    (start : Progress σ) : Except DispatchError α → Progress σ → Prop
  | settled {made : Nat} {last : DispatchError} {result : Except DispatchError α}
      {p q : Progress σ} :
      c.Reaches w op policy start made last p → made < policy.attempts →
      c.attempt w op policy (made + 1) p.afresh = (.settled result, q) →
      Ends c w op policy start result (p.andThen q)
  | exhausted {last : DispatchError} {p : Progress σ} :
      c.Reaches w op policy start policy.attempts last p →
      Ends c w op policy start (.error (.afterAttempts policy.attempts policy.attempts last))
        (p.note (.failed policy.attempts
          (DispatchError.afterAttempts policy.attempts policy.attempts last).message))

theorem ends_of_attempts {left : Nat} {result : Except DispatchError α}
    (reach : c.Reaches w op policy start made last p) (hn : made + left = policy.attempts)
    (h : c.attempts w op policy left made last p = (result, q)) :
    c.Ends w op policy start result q := by
  induction left generalizing made last p with
  | zero =>
    obtain rfl : made = policy.attempts := hn
    cases h
    exact .exhausted reach
  | succ left ih =>
    simp only [Client.attempts] at h
    split at h
    next result r ha => cases h; exact .settled reach (by omega) ha
    next error r ha => exact ih (.next reach ha) (by omega) h

theorem attempts_eq_of_reaches (reach : c.Reaches w op policy start made last p)
    (hn : made ≤ policy.attempts) :
    c.attempts w op policy policy.attempts 0 .noAttempts start =
      c.attempts w op policy (policy.attempts - made) made last p := by
  induction reach with
  | start => rfl
  | @next made last error p q _ ha ih =>
    rw [ih (by omega), show policy.attempts - made = policy.attempts - (made + 1) + 1 by omega]
    simp only [Client.attempts, ha]

theorem becomes_of_contact {o : Outcome} (h : p.contact w k = (o, q)) :
    p.request.Becomes q.request := by
  rw [(contacted_of_contact h).request_eq]
  split
  next => exact .advance .refl
  next => exact .refl

theorem becomes_of_attempt {e : Ending α} (h : c.attempt w op policy k p.afresh = (e, q)) :
    p.request.Becomes q.request := by
  obtain ⟨o, r, _, hk, -, -, hf⟩ := (attempted_of_attempt h).after_contact
  exact (becomes_of_contact (p := p.afresh) hk).trans hf.becomes

theorem Client.Reaches.becomes (reach : c.Reaches w op policy start made last p) :
    start.request.Becomes p.request := by
  induction reach with
  | start => exact .refl
  | next _ ha ih =>
    have hb := becomes_of_attempt ha
    exact ih.trans hb

theorem contactSteps_of_contact {o : Outcome} {r : Progress σ}
    (h : p.afresh.contact w k = (o, r)) :
    ContactSteps (if o.isDispatched then [k] else []) o.calls r.journal := by
  obtain ⟨steps, hs, spec⟩ := (contacted_of_contact h).steps
  obtain rfl : r.journal = steps := hs
  exact spec

/-- An answer is the last step of a contact. -/
theorem answered_of_called {o : Outcome} {now : Nat} {node : Node} {channel : Channel} {m : Message}
    {a : Answer} {before after : List Entry} (hk : p.afresh.contact w k = (o, q))
    (hj : q.journal = before ++ .called now node channel m (.ok a) :: after) :
    after = [] ∧ ∃ found, o = .answered found m a ∧ found.id = node.id := by
  have hmem : ⟨m, .ok a⟩ ∈ o.calls := by
    rw [← (contactSteps_of_contact hk).calls, hj, calls_append]
    simp [calls, Entry.call?]
  cases contacted_of_contact hk with
  | unsendable | unknownNode | unopened => simp [Outcome.calls] at hmem
  | dropped | broken => simp [Outcome.calls] at hmem
  | @answered m' found used open' a' opened reached hm hf hu ho hc =>
    simp only [Outcome.calls, List.mem_singleton, Call.mk.injEq, Except.ok.injEq] at hmem
    obtain ⟨rfl, rfl⟩ := hmem
    obtain ⟨steps, hsteps, spec⟩ := (visited_of_acquire ho).steps
    obtain ⟨took, _, -, -, hcall⟩ := call_eq hc
    have hj' : (opened.journal ++ [.passed took]) ++ [_] =
        before ++ .called now node channel m (.ok a) :: after :=
      (List.append_assoc ..).trans (hcall.symm.trans hj)
    rcases split_append hj' with ⟨rest, hr⟩ | ⟨rest, hr, -⟩
    · have hnone : calls (opened.journal ++ [.passed took]) = [] := by
        obtain rfl : opened.journal = steps := hsteps
        rw [calls_append, spec.calls]
        rfl
      rw [hr, calls_append] at hnone
      simp [calls, Entry.call?] at hnone
    · cases rest with
      | cons y rest => simp at hr
      | nil =>
        simp only [List.nil_append, List.cons.injEq, Entry.called.injEq] at hr
        obtain ⟨⟨-, rfl, -⟩, rfl⟩ := hr
        exact ⟨rfl, used, rfl, rfl⟩

/-- An attempt is a contact, which concludes nothing, with its conclusions. -/
theorem attempt_split {e : Ending α} (h : c.attempt w op policy k p.afresh = (e, q)) :
    ∃ o r conclusions, p.afresh.contact w k = (o, r) ∧ q.journal = r.journal ++ conclusions ∧
      ContactSteps (if o.isDispatched then [k] else []) o.calls r.journal ∧
      (∀ e ∈ conclusions, e.isConclusion = true) ∧
      Followed c op o r.request conclusions q.request := by
  obtain ⟨o, r, conclusions, hk, hj, hc, hf⟩ := (attempted_of_attempt h).after_contact
  exact ⟨o, r, conclusions, hk, hj, contactSteps_of_contact hk, hc, hf⟩

theorem attempt_projections {e : Ending α} {o : Outcome} {r : Progress σ}
    (h : c.attempt w op policy k p.afresh = (e, q)) (hk : p.afresh.contact w k = (o, r)) :
    selections q.journal = (if o.isDispatched then [k] else []) ∧ calls q.journal = o.calls ∧
      exchanges q.journal = exchanges r.journal := by
  obtain ⟨o', r', conclusions, hk', hj, spec, hc, -⟩ := attempt_split h
  obtain ⟨rfl, rfl⟩ := Prod.mk.inj (hk.symm.trans hk')
  obtain ⟨hsel, hcall, hex⟩ := projections_eq_nil hc
  rw [hj, selections_append, calls_append, exchanges_append, hsel, hcall, hex]
  simp [spec.selections, spec.calls]

/-- No attempt is dispatched twice. -/
theorem length_selections_le {e : Ending α}
    (h : c.attempt w op policy k p.afresh = (e, q)) :
    (selections q.journal).length ≤ 1 := by
  obtain ⟨o, r, _, hk, -⟩ := attempt_split h
  obtain ⟨hsel, -⟩ := attempt_projections h hk
  rw [hsel]
  split <;> simp

theorem replacements_of_attempt {e : Ending α} (h : c.attempt w op policy k p.afresh = (e, q)) :
    (replacements q.journal).length ≤ 1 := by
  obtain ⟨o, r, conclusions, -, hj, spec, -, hf⟩ := attempt_split h
  rw [hj, replacements_append, replacements_eq_nil spec.undecided, List.nil_append]
  generalize q.request = s at hf
  cases hf with
  | kept hrep => simp [hrep]
  | replaced _ _ hrep => simp [hrep]

theorem selections_of_unsettled {error : DispatchError}
    (h : c.attempt w op policy k p.afresh = (.unsettled error, q)) :
    selections q.journal = [k] := by
  have dispatched : ∀ {o r}, p.afresh.contact w k = (o, r) → o.isDispatched = true →
      selections q.journal = [k] := by
    intro o r hk hd
    obtain ⟨hsel, -, -⟩ := attempt_projections h hk
    rw [hsel, if_pos hd]
  cases attempted_of_attempt h with
  | unopened hk => exact dispatched hk rfl
  | dropped hk => exact dispatched hk rfl
  | retried hk => exact dispatched hk rfl
  | spent hk => exact dispatched hk rfl
  | replaced hk => exact dispatched hk rfl

/-- The attempts that settle nothing are all dispatched, and each replaces one id at most. -/
theorem Client.Reaches.selections_eq (reach : c.Reaches w op policy start made last p)
    (hs : start.journal = []) : selections p.journal = List.range' 1 made := by
  induction reach with
  | start =>
    rw [hs]
    rfl
  | next _ ha ih =>
    rw [Progress.andThen, selections_append, ih, selections_of_unsettled ha,
      List.range'_concat, Nat.one_mul, Nat.add_comm]

theorem Client.Reaches.replacements_le (reach : c.Reaches w op policy start made last p)
    (hs : start.journal = []) : (replacements p.journal).length ≤ made := by
  induction reach with
  | start =>
    rw [hs]
    exact Nat.le_refl 0
  | next _ ha ih =>
    have hone := replacements_of_attempt ha
    rw [Progress.andThen, replacements_append, List.length_append]
    omega

theorem run_of_unprepared {request r : Request} {situation s : Situation σ} {e : DispatchError}
    (op : Operation α) (h : c.prepare w request situation = .error (e, r, s)) :
    c.run w op request situation = (.error e, ⟨r, s, [.event (.failed 0 e.message)]⟩) := by
  simp only [Client.run, h]
  rfl

theorem run_cases {request : Request} {situation : Situation σ}
    {result : Except DispatchError α} (h : c.run w op request situation = (result, q)) :
    (∃ e r s, c.prepare w request situation = .error (e, r, s) ∧ result = .error e ∧
      q = ⟨r, s, [.event (.failed 0 e.message)]⟩) ∨
      ∃ prepared s, c.prepare w request situation = .ok (prepared, s) ∧
        c.Ends w op (c.policy request.limits) ⟨prepared, s, []⟩ result q := by
  unfold Client.run at h
  split at h
  next e r s he => cases h; exact .inl ⟨e, r, s, he, rfl, rfl⟩
  next prepared s hs =>
    refine .inr ⟨prepared, s, hs, ?_⟩
    rw [← (prepare_eq_ok hs).2.1]
    exact ends_of_attempts .start (Nat.zero_add _) h

section execute

variable (c w op) (request : Request) (situation : Situation σ)

/-- Forgetting the nodes that were picked is all that follows a run. -/
theorem execute_eq_run :
    (c.execute w op request situation).1 = (c.run w op request situation).1 ∧
      (c.execute w op request situation).2.situation =
        (c.run w op request situation).2.situation ∧
      (c.execute w op request situation).2.journal = (c.run w op request situation).2.journal ∧
      (c.execute w op request situation).2.request.transactionId? =
        (c.run w op request situation).2.request.transactionId? := by
  simp only [Client.execute]
  split
  next =>
    refine ⟨rfl, rfl, rfl, ?_⟩
    cases h : (c.run w op request situation).2.request <;>
      simp [Request.withNodes, Request.transactionId?]
  next => exact ⟨rfl, rfl, rfl, rfl⟩

end execute

end LedgerClient
