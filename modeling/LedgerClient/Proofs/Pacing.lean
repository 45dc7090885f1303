import LedgerClient.Proofs.Course
import LedgerClient.Proofs.Delay
import LedgerClient.Rehearsal.Nodes

namespace LedgerClient

variable {σ α : Type} {c : Client} {w : World σ} {op : Operation α} {policy : Policy}
  {start p q : Progress σ} {k n made : Nat} {last : DispatchError} {delay : Duration}
  {before after later journal : List Entry}

/-- Each delay on record is that of the attempt it follows, counted from zero, and at most one id
was replaced in each attempt before. -/
def Paced (bounds : Backoff) (journal : List Entry) : Prop :=
  ∀ before k delay after, journal = before ++ .event (.backoff k delay) :: after →
    ∃ earlier, k = earlier + 1 ∧ delay = bounds.delay earlier ∧
      selections before = List.range' 1 k ∧ (replacements before).length ≤ earlier

theorem paced_nil {bounds : Backoff} : Paced bounds [] := by
  intro before k delay after hj
  simp at hj

theorem Paced.append {bounds : Backoff} (h : Paced bounds journal)
    (hl : ∀ k delay, .event (.backoff k delay) ∉ later) : Paced bounds (journal ++ later) := by
  intro before k delay after hj
  rcases split_append hj with ⟨rest, hr⟩ | ⟨rest, hr, -⟩
  · exact h before k delay rest hr
  · exact absurd (by simp [hr]) (hl k delay)

theorem no_backoff_of_contact {o : Outcome} {r : Progress σ}
    (h : p.afresh.contact w k = (o, r)) : .event (.backoff n delay) ∉ r.journal := by
  intro hb
  have hu := (contactSteps_of_contact h).undecided _ hb
  cases hu

/-- Only an attempt that is to be repeated delays the next. With that it ends, once the client has
slept. -/
theorem retried_of_backoff {e : Ending α} (h : c.attempt w op policy k p.afresh = (e, q))
    (hb : .event (.backoff n delay) ∈ q.journal) :
    n = k ∧ delay = policy.backoff.delay (k - 1) ∧
      ∃ steps took, q.journal = steps ++ [.event (.backoff n delay), .delayed delay took] ∧
        .event (.backoff n delay) ∉ steps ∧ selections steps = [k] ∧ replacements steps = [] := by
  cases attempted_of_attempt h with
  | unsendable hk => simp [Progress.note, no_backoff_of_contact hk] at hb
  | unknownNode hk => simp [Progress.note, no_backoff_of_contact hk] at hb
  | unopened hk => exact absurd hb (no_backoff_of_contact hk)
  | dropped hk => exact absurd hb (no_backoff_of_contact hk)
  | broken hk => simp [Progress.note, no_backoff_of_contact hk] at hb
  | @retried node m a r _ hk hv _ hr =>
    subst hr
    obtain ⟨took, _, -, hslept⟩ := sleep_eq w
      ((r.note (.classified node.id a.precheck .retry)).note
        (.backoff k (policy.backoff.delay (k - 1))))
      (policy.backoff.delay (k - 1)).nanos (.delayed (policy.backoff.delay (k - 1)))
    rw [hslept] at hb ⊢
    simp only [Progress.note, List.append_assoc, List.cons_append, List.nil_append,
      List.mem_append, no_backoff_of_contact hk, false_or, List.mem_cons, Entry.event.injEq,
      reduceCtorEq, List.not_mem_nil, or_false, Event.backoff.injEq] at hb
    obtain ⟨rfl, rfl⟩ := hb
    have spec := contactSteps_of_contact hk
    refine ⟨rfl, rfl, r.journal ++ [.event (.classified node.id a.precheck .retry)], took,
      List.append_assoc .., ?_, ?_, ?_⟩
    · simp [no_backoff_of_contact hk]
    · rw [selections_append, spec.selections]
      rfl
    · rw [replacements_append, replacements_eq_nil spec.undecided]
      rfl
  | spent hk => simp [Progress.note, no_backoff_of_contact hk] at hb
  | replaced hk _ hr =>
    obtain ⟨_, _, _, _, _, _, _, rfl⟩ := replaceExpired?_eq_some hr
    simp [Progress.note, no_backoff_of_contact hk] at hb
  | stale hk => simp [Progress.note, no_backoff_of_contact hk] at hb
  | refused hk => simp [Progress.note, no_backoff_of_contact hk] at hb
  | finished hk => simp [Progress.note, no_backoff_of_contact hk] at hb

theorem paced_of_attempt {e : Ending α} (hp : Paced policy.backoff p.journal)
    (hsel : selections p.journal = List.range' 1 made)
    (hrep : (replacements p.journal).length ≤ made)
    (h : c.attempt w op policy (made + 1) p.afresh = (e, q)) :
    Paced policy.backoff (p.journal ++ q.journal) := by
  intro before k delay after hj
  rcases split_append hj with ⟨rest, hr⟩ | ⟨pre, hq, rfl⟩
  · exact hp before k delay rest hr
  · have hb : .event (.backoff k delay) ∈ q.journal := by simp [hq]
    obtain ⟨rfl, hd, steps, took, hs, hno, hsel', hrep'⟩ := retried_of_backoff h hb
    -- Only the sleep follows a delay in its attempt, so it cannot stand anywhere else in it.
    obtain rfl : pre = steps := by
      rw [hs] at hq
      rcases split_append hq with ⟨rest, hr⟩ | ⟨rest, hr, hpre⟩
      · exact absurd (by simp [hr]) hno
      · cases rest with
        | nil => simpa using hpre
        | cons x rest => cases rest <;> simp at hr
    refine ⟨made, rfl, hd, ?_, ?_⟩
    · rw [selections_append, hsel, hsel', List.range'_concat, Nat.one_mul, Nat.add_comm]
    · rw [replacements_append, hrep', List.append_nil]
      exact hrep

theorem Client.Reaches.paced (reach : c.Reaches w op policy start made last p)
    (hs : start.journal = []) : Paced policy.backoff p.journal := by
  induction reach with
  | start =>
    rw [hs]
    exact paced_nil
  | next prior ha ih =>
    exact paced_of_attempt ih (prior.selections_eq hs) (prior.replacements_le hs) ha

theorem Client.Ends.paced {result : Except DispatchError α}
    (h : c.Ends w op policy start result p) (hs : start.journal = []) :
    Paced policy.backoff p.journal := by
  cases h with
  | settled reach _ ha =>
    exact paced_of_attempt (reach.paced hs) (reach.selections_eq hs) (reach.replacements_le hs) ha
  | exhausted reach => exact (reach.paced hs).append (by simp)

/-- The delay after an attempt doubles with every attempt before it, also with those that replaced
an expired id. Not counting these gives the same delay only if there are none, or if the delay is
the greatest without them, or if all delays are zero. -/
theorem backoff_of_execute {request : Request} {situation : Situation σ}
    (h : (c.execute w op request situation).2.journal =
      before ++ .event (.backoff k delay) :: after) :
    let bounds := (c.policy request.limits).backoff
    let replaced := (replacements before).length
    ∃ earlier, k = earlier + 1 ∧ selections before = List.range' 1 k ∧ replaced ≤ earlier ∧
      delay = bounds.delay earlier ∧
      (delay = bounds.delay (earlier - replaced) ↔
        replaced = 0 ∨ bounds.delay (earlier - replaced) = bounds.max ∨
          (bounds.min.nanos = 0 ∧ earlier < 32)) := by
  intro bounds replaced
  have hpaced : Paced bounds (c.run w op request situation).2.journal := by
    generalize hrun : c.run w op request situation = run
    obtain ⟨result, p⟩ := run
    rcases run_cases hrun with ⟨e, _, _, -, -, rfl⟩ | ⟨prepared, s, -, hend⟩
    · exact paced_nil.append (by simp)
    · exact hend.paced rfl
  obtain ⟨-, -, hjournal, -⟩ := execute_eq_run c w op request situation
  obtain ⟨earlier, hk, hd, hsel, hrep⟩ := hpaced before k delay after (hjournal.symm.trans h)
  refine ⟨earlier, hk, hsel, hrep, hd, ?_⟩
  subst hd
  rcases Nat.eq_zero_or_pos replaced with hz | hpos
  · simp [hz]
  · rw [Backoff.delay_eq_delay_iff (by omega)]
    have hne : replaced ≠ 0 := by omega
    simp [hne]

/-- The second delay counts the attempt that replaced an id too, and would be shorter without it. -/
theorem backoff_of_expired_and_busy :
    let journal := (Stage.submit 5 [.transactionExpired, .busy, .busy, .ok]).2.journal
    let bounds := Client.default.backoff
    ∃ before after, journal = before ++ .event (.backoff 3 (.ofMillis 1000)) :: after ∧
      (replacements before).length = 1 ∧ .ofMillis 1000 = bounds.delay 2 ∧
      .ofMillis 1000 ≠ bounds.delay (2 - 1) := by
  intro journal bounds
  let before := journal.take 20
  let after := journal.drop 21
  have hj : journal = before ++ .event (.backoff 3 (.ofMillis 1000)) :: after := rfl
  have hone : (replacements before).length = 1 := rfl
  obtain ⟨earlier, hk, -, -, hd, hagree⟩ := backoff_of_execute hj
  obtain rfl : earlier = 2 := by omega
  rw [hone] at hagree
  have hlonger : ¬ (1 = 0 ∨ bounds.delay (2 - 1) = bounds.max ∨
    (bounds.min.nanos = 0 ∧ 2 < 32)) := by decide
  exact ⟨before, after, hj, hone, hd, mt hagree.mp hlonger⟩

/-- After an expired id the delay is not the least one, but twice as long. -/
theorem backoff_after_replacement :
    ∃ before after, (Stage.submit 5 [.transactionExpired, .busy, .ok]).2.journal =
        before ++ .event (.backoff 2 (.ofMillis 500)) :: after ∧
      selections before = [1, 2] ∧ replacements before = [(Stage.id 0, Stage.id 1)] ∧
      Client.default.backoff.delay (1 - 1) ≠ .ofMillis 500 :=
  ⟨(Stage.submit 5 [.transactionExpired, .busy, .ok]).2.journal.take 13,
    (Stage.submit 5 [.transactionExpired, .busy, .ok]).2.journal.drop 14,
    rfl, rfl, rfl, by decide⟩

end LedgerClient
