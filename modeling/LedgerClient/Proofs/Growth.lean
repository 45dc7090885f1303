import LedgerClient.Proofs.Waiting

namespace LedgerClient

variable {σ α : Type} {c : Client} {w : World σ} {op : Operation α} {policy : Policy}
  {start p q : Progress σ} {e : Ending α} {b b' : Backoff} {i j k made t : Nat}
  {last : DispatchError} {x : Entry}

theorem Backoff.delay_mono (hmin : b.min.nanos ≤ b'.min.nanos) (hmax : b.max.nanos ≤ b'.max.nanos)
    (h : i ≤ j) : (b.delay i).nanos ≤ (b'.delay j).nanos := by
  rcases Nat.lt_or_ge j 32 with hj | hj
  · have hscaled : b.min.nanos * 2 ^ i ≤ b'.min.nanos * 2 ^ j :=
      Nat.mul_le_mul hmin (Nat.pow_le_pow_right (by omega) h)
    rw [Backoff.delay_nanos_of_lt (by omega), Backoff.delay_nanos_of_lt hj]
    unfold Backoff.exactDelay
    omega
  -- from here on the later delay is the greatest there is
  · rw [Backoff.delay_of_le hj]
    exact Nat.le_trans Backoff.delay_le hmax

theorem Entry.delay?_eq_some (h : x.delay? = some t) :
    ∃ k delay, x = .event (.backoff k delay) ∧ delay.nanos = t := by
  unfold Entry.delay? at h
  split at h
  next k delay => exact ⟨k, delay, rfl, Option.some.inj h⟩
  next => cases h

theorem delays_of_attempt (h : c.attempt w op policy k p.afresh = (e, q)) :
    delays q.journal = [] ∨ delays q.journal = [(policy.backoff.delay (k - 1)).nanos] := by
  cases hdelays : delays q.journal with
  | nil => exact .inl rfl
  | cons t rest =>
    right
    have ht : t ∈ delays q.journal := by simp [hdelays]
    obtain ⟨x, hx, hd⟩ := List.mem_filterMap.mp ht
    obtain ⟨n, delay, rfl, -⟩ := Entry.delay?_eq_some hd
    obtain ⟨rfl, rfl, steps, took, hj, hno, -⟩ := retried_of_backoff h hx
    -- two delays of one attempt would be equal, and the steps before hold no equal one
    have hsteps : delays steps = [] := List.filterMap_eq_nil_iff.mpr fun y hy => by
      cases hy' : y.delay? with
      | none => rfl
      | some t' =>
        obtain ⟨n', delay', rfl, -⟩ := Entry.delay?_eq_some hy'
        obtain ⟨rfl, rfl, -⟩ := retried_of_backoff h (by rw [hj]; exact List.mem_append_left _ hy)
        exact absurd hy hno
    rw [← hdelays, hj, delays_append, hsteps]
    rfl

/-- The delays of the first attempts, one after each. -/
def Backoff.ladder (b : Backoff) (made : Nat) : List Nat :=
  (List.range made).map fun k => (b.delay k).nanos

theorem Backoff.ladder_sorted : (b.ladder made).Pairwise (· ≤ ·) :=
  List.pairwise_map.mpr <| List.pairwise_lt_range.imp fun h =>
    Backoff.delay_mono (Nat.le_refl _) (Nat.le_refl _) (Nat.le_of_lt h)

/-- Some attempts are followed by their delay, and the others by none. -/
theorem ladder_of_attempt (hp : (delays p.journal).Sublist (policy.backoff.ladder made))
    (h : c.attempt w op policy (made + 1) p.afresh = (e, q)) :
    (delays (p.andThen q).journal).Sublist (policy.backoff.ladder (made + 1)) := by
  rw [Progress.andThen, delays_append, Backoff.ladder, List.range_succ, List.map_append]
  refine hp.append ?_
  rcases delays_of_attempt h with hd | hd
  · rw [hd]
    exact List.nil_sublist _
  · rw [hd]
    exact List.Sublist.refl _

theorem Client.Reaches.ladder (reach : c.Reaches w op policy start made last p)
    (hs : start.journal = []) : (delays p.journal).Sublist (policy.backoff.ladder made) := by
  induction reach with
  | start =>
    rw [hs]
    exact List.nil_sublist _
  | next _ ha ih => exact ladder_of_attempt ih ha

theorem ladder_of_run (c : Client) (w : World σ) (op : Operation α) (r : Request)
    (situation : Situation σ) :
    ∃ made, (delays (c.run w op r situation).2.journal).Sublist
      ((c.policy r.limits).backoff.ladder made) := by
  generalize hrun : c.run w op r situation = run
  obtain ⟨result, q⟩ := run
  rcases run_cases hrun with ⟨e, _, _, -, -, rfl⟩ | ⟨prepared, s, -, hend⟩
  · exact ⟨0, List.nil_sublist _⟩
  · cases hend with
    | settled reach _ ha => exact ⟨_, ladder_of_attempt (reach.ladder rfl) ha⟩
    | exhausted reach =>
      refine ⟨(c.policy r.limits).attempts, ?_⟩
      have hend : ∀ n text, delays [.event (.failed n text)] = [] := fun _ _ => rfl
      rw [Progress.note, delays_append, hend, List.append_nil]
      exact reach.ladder rfl

/-- Whatever the bounds are, also if the least delay is above the greatest or nothing at all: no
delay is beyond the greatest, and none shrinks with the attempt or with either bound. So the delays
of an execution never decrease. -/
theorem delays_never_decrease :
    (∀ (b : Backoff) (attempt : Nat), (b.delay attempt).nanos ≤ b.max.nanos) ∧
    (∀ (b b' : Backoff) (i j : Nat), b.min.nanos ≤ b'.min.nanos → b.max.nanos ≤ b'.max.nanos →
      i ≤ j → (b.delay i).nanos ≤ (b'.delay j).nanos) ∧
    ∀ {σ α : Type} (c : Client) (w : World σ) (op : Operation α) (r : Request) (s : Situation σ),
      (delays (c.execute w op r s).2.journal).Pairwise (· ≤ ·) := by
  refine ⟨fun b attempt => Backoff.delay_le, fun b b' i j => Backoff.delay_mono,
    fun c w op r s => ?_⟩
  obtain ⟨-, -, hjournal, -⟩ := execute_eq_run c w op r s
  obtain ⟨made, hladder⟩ := ladder_of_run c w op r s
  rw [hjournal]
  exact Backoff.ladder_sorted.sublist hladder

end LedgerClient
