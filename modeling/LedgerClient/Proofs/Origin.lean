import LedgerClient.Proofs.Course

namespace LedgerClient

variable {σ α : Type} {c : Client} {w : World σ} {op : Operation α} {policy : Policy}
  {request prepared : Request} {situation s : Situation σ} {start p p' q q' : Progress σ}
  {e e' : Ending α} {k made : Nat} {last last' : DispatchError} {result : Except DispatchError α}
  {before after : List Entry} {x : Entry}

/-- An execution comes to attempt `k`, which begins at `p` and ends with `e` at `q`; `q` has on
record only the steps of this attempt. -/
inductive Client.Makes (c : Client) (w : World σ) (op : Operation α) (request : Request)
    (situation : Situation σ) : Nat → Progress σ → Ending α → Progress σ → Prop
  | intro {prepared : Request} {s : Situation σ} {made : Nat} {last : DispatchError}
      {p q : Progress σ} {e : Ending α} :
      c.prepare w request situation = .ok (prepared, s) →
      c.Reaches w op (c.policy request.limits) ⟨prepared, s, []⟩ made last p →
      made < (c.policy request.limits).attempts →
      c.attempt w op (c.policy request.limits) (made + 1) p.afresh = (e, q) →
      Makes c w op request situation (made + 1) p e q

theorem Client.Makes.attempt_eq (h : c.Makes w op request situation k p e q) :
    c.attempt w op (c.policy request.limits) k p.afresh = (e, q) := by
  cases h with
  | intro _ _ _ ha => exact ha

theorem mem_of_split {a : List Entry} (h : a = before ++ x :: after) : x ∈ a := by
  simp [h]

theorem Client.Reaches.unique (reach : c.Reaches w op policy start made last p)
    (reach' : c.Reaches w op policy start made last' p') : p = p' := by
  induction reach generalizing last' p' with
  | start =>
    cases reach'
    rfl
  | next _ ha ih =>
    cases reach' with
    | next prior ha' =>
      obtain rfl := ih prior
      rw [ha] at ha'
      cases ha'
      rfl

theorem attempts_journal (left made : Nat) (last : DispatchError) (p : Progress σ) :
    ∃ later, (c.attempts w op policy left made last p).2.journal = p.journal ++ later := by
  induction left generalizing made last p with
  | zero => exact ⟨_, rfl⟩
  | succ left ih =>
    simp only [Client.attempts]
    split
    next result q _ => exact ⟨_, rfl⟩
    next error q _ =>
      obtain ⟨later, h⟩ := ih (made + 1) error (p.andThen q)
      exact ⟨q.journal ++ later, by rw [h, Progress.andThen, List.append_assoc]⟩

/-- At least one attempt is made of a request that could be prepared. -/
theorem Client.Makes.first (op : Operation α)
    (hp : c.prepare w request situation = .ok (prepared, s)) :
    let start : Progress σ := ⟨prepared, s, []⟩
    let attempt := c.attempt w op (c.policy request.limits) 1 start.afresh
    c.Makes w op request situation 1 start attempt.1 attempt.2 :=
  .intro hp .start (Nat.le_max_left ..) rfl

theorem Client.Makes.succ {error : DispatchError}
    (h : c.Makes w op request situation k p (.unsettled error) q)
    (hk : k < (c.policy request.limits).attempts) :
    let attempt := c.attempt w op (c.policy request.limits) (k + 1) (p.andThen q).afresh
    c.Makes w op request situation (k + 1) (p.andThen q) attempt.1 attempt.2 := by
  cases h with
  | intro hp reach _ ha => exact .intro hp (.next reach ha) hk rfl

/-- What is left of an execution that has come so far. -/
theorem run_of_reaches (hp : c.prepare w request situation = .ok (prepared, s))
    (reach : c.Reaches w op (c.policy request.limits) ⟨prepared, s, []⟩ made last p)
    (hm : made ≤ (c.policy request.limits).attempts) :
    c.run w op request situation = c.attempts w op (c.policy request.limits)
      ((c.policy request.limits).attempts - made) made last p := by
  rw [← attempts_eq_of_reaches reach hm, ← (prepare_eq_ok hp).2.1]
  simp only [Client.run, hp]

theorem Client.Makes.run_of_settled
    (h : c.Makes w op request situation k p (.settled result) q) :
    c.run w op request situation = (result, p.andThen q) := by
  cases h with
  | @intro prepared s made last _ _ _ hp reach hm ha =>
    rw [run_of_reaches hp reach (by omega),
      show (c.policy request.limits).attempts - made =
        (c.policy request.limits).attempts - (made + 1) + 1 by omega]
    simp only [Client.attempts, ha]

/-- The steps of an attempt follow those of the earlier attempts on the record of the execution. -/
theorem Client.Makes.record (h : c.Makes w op request situation k p e q) :
    ∃ later, (c.run w op request situation).2.journal = p.journal ++ q.journal ++ later := by
  cases e with
  | settled result =>
    rw [h.run_of_settled]
    exact ⟨[], (List.append_nil _).symm⟩
  | unsettled error =>
    cases h with
    | intro hp reach hm ha =>
      rw [run_of_reaches hp (.next reach ha) hm]
      exact attempts_journal _ _ _ _

/-- Only an attempt that settles nothing is followed by another, which begins where it ended. -/
theorem Client.Makes.next (h : c.Makes w op request situation k p e q)
    (h' : c.Makes w op request situation (k + 1) p' e' q') :
    p' = p.andThen q ∧ ∃ error, e = .unsettled error := by
  cases h with
  | intro hp reach _ ha =>
    cases h' with
    | intro hp' reach' =>
      cases hp.symm.trans hp'
      cases reach' with
      | next prior hb =>
        obtain rfl := reach.unique prior
        rw [ha] at hb
        cases hb
        exact ⟨rfl, _, rfl⟩

/-- All attempts are made of a request that can be sent, of one kind, with one lock on its ids. -/
theorem Client.Makes.of_prepared (h : c.Makes w op request situation k p e q) :
    p.request.Ready ∧ p.request.isQuery = request.isQuery ∧
      c.mayReplaceId p.request = c.mayReplaceId request := by
  cases h with
  | intro hp reach =>
    obtain ⟨ready, -, hmay, hkind⟩ := prepare_eq_ok hp
    exact ⟨reach.becomes.ready_iff.mpr ready, reach.becomes.isQuery_eq.trans hkind,
      reach.becomes.mayReplaceId_eq.trans hmay⟩

/-- A step that has `before` and `after` around it on record is one of an attempt. -/
inductive Client.Takes (c : Client) (w : World σ) (op : Operation α) (request : Request)
    (situation : Situation σ) (before : List Entry) (x : Entry) (after : List Entry) : Prop
  | intro {k : Nat} {p q : Progress σ} {e : Ending α} {earlier later rest : List Entry} :
      c.Makes w op request situation k p e q → q.journal = earlier ++ x :: later →
      before = p.journal ++ earlier → after = later ++ rest →
      Takes c w op request situation before x after

theorem Client.Takes.append (h : c.Takes w op request situation before x after)
    (more : List Entry) : c.Takes w op request situation before x (after ++ more) := by
  obtain ⟨makes, hx, hb, rfl⟩ := h
  exact .intro makes hx hb (List.append_assoc ..)

theorem Client.Reaches.takes (hp : c.prepare w request situation = .ok (prepared, s))
    (reach : c.Reaches w op (c.policy request.limits) ⟨prepared, s, []⟩ made last p)
    (hm : made ≤ (c.policy request.limits).attempts) (hj : p.journal = before ++ x :: after) :
    c.Takes w op request situation before x after := by
  induction reach generalizing after with
  | start => simp at hj
  | @next made last error p q prior ha ih =>
    have hj' : p.journal ++ q.journal = before ++ x :: after := hj
    rcases split_append hj' with ⟨rest, hr⟩ | ⟨earlier, hq, rfl⟩
    · obtain rfl : rest ++ q.journal = after := by simpa [hr] using hj'
      exact (ih (by omega) hr).append q.journal
    · exact .intro (.intro hp prior hm ha) hq rfl (List.append_nil _).symm

/-- Every step on record is one of an attempt, except for the last word of an execution that could
not be prepared or that has used up its attempts. -/
theorem takes_of_step (hj : (c.run w op request situation).2.journal = before ++ x :: after) :
    (∃ k text, x = .event (.failed k text)) ∨ c.Takes w op request situation before x after := by
  generalize hrun : c.run w op request situation = run at hj
  obtain ⟨result, q⟩ := run
  rcases run_cases hrun with ⟨e, _, _, -, -, rfl⟩ | ⟨prepared, s, hp, hend⟩
  · exact .inl ⟨_, _, List.mem_singleton.mp (mem_of_split hj)⟩
  · cases hend with
    | @settled made last _ p q reach hm ha =>
      right
      have hj' : p.journal ++ q.journal = before ++ x :: after := hj
      rcases split_append hj' with ⟨rest, hr⟩ | ⟨earlier, hq, rfl⟩
      · obtain rfl : rest ++ q.journal = after := by simpa [hr] using hj'
        exact (reach.takes hp (by omega) hr).append q.journal
      · exact .intro (.intro hp reach hm ha) hq rfl (List.append_nil _).symm
    | @exhausted last p reach =>
      have hj' : p.journal ++ [.event (.failed _ _)] = before ++ x :: after := hj
      rcases split_append hj' with ⟨rest, hr⟩ | ⟨earlier, hq, -⟩
      · right
        obtain rfl : rest ++ [.event (.failed _ _)] = after := by simpa [hr] using hj'
        exact (reach.takes hp (Nat.le_refl _) hr).append _
      · exact .inl ⟨_, _, List.mem_singleton.mp (mem_of_split hq)⟩

end LedgerClient
