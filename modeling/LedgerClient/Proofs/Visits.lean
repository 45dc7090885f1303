import LedgerClient.Proofs.Rounds
import LedgerClient.Proofs.Turns

namespace LedgerClient

variable {σ α : Type} {c : Client} {w : World σ} {op : Operation α} {r : Request}
  {situation : Situation σ} {p q : Progress σ} {e : Ending α} {k made limit : Nat} {m : Message}
  {id : AccountId} {a : List Entry} {es es' : List Event} {ids more : List AccountId}

/-- The round of a node begins with its selection. Its part in it ends when its channel or the call
fails, or with its answer. -/
inductive Mark
  | selected (id : AccountId)
  | ended (id : AccountId)

def Event.mark? : Event → Option Mark
  | .nodeSelected _ id _ => some (.selected id)
  | .channelFailed id _ | .callFailed id _ _ | .classified id _ _ => some (.ended id)
  | _ => none

def marks (es : List Event) : List Mark :=
  es.filterMap Event.mark?

/-- Each of these nodes in turn is selected, and has ended its part before the next. -/
def visits (ids : List AccountId) : List Mark :=
  ids.flatMap fun id => [.selected id, .ended id]

/-- The attempts that an execution took, as its terminal event gives them. -/
def Event.total? : Event → Option Nat
  | .finished _ attempts | .failed attempts _ => some attempts
  | _ => none

def totals (es : List Event) : List Nat :=
  es.filterMap Event.total?

@[simp]
theorem marks_append : marks (es ++ es') = marks es ++ marks es' :=
  List.filterMap_append

@[simp]
theorem visits_append : visits (ids ++ more) = visits ids ++ visits more :=
  List.flatMap_append

@[simp]
theorem totals_append : totals (es ++ es') = totals es ++ totals es' :=
  List.filterMap_append

theorem totals_of_not_isTerminal (h : ∀ x ∈ es, x.isTerminal = false) : totals es = [] := by
  refine List.filterMap_eq_nil_iff.mpr fun x hx => ?_
  have hopen := h x hx
  cases x <;> first | rfl | cases hopen

theorem marks_announcement {address : NodeAddress} {wait : Option Nat} :
    marks (announcement k id address wait) = [.selected id] := by
  cases wait <;> rfl

theorem LeavesOpen.marks_eq (h : LeavesOpen limit k id es) : marks es = [.ended id] := by
  cases h <;> rfl

theorem Closes.marks_eq (h : Closes k id es) : marks es = [.ended id] := by
  cases h <;> rfl

theorem Closes.totals_eq (h : Closes k id es) : totals es = [k] := by
  cases h <;> rfl

theorem Rounds.totals_eq (h : Rounds limit made es) : totals es = [] :=
  totals_of_not_isTerminal fun _ => h.not_isTerminal

theorem Rounds.visits (h : Rounds limit made es) :
    ∃ ids, marks es = visits ids ∧ ids.length = made := by
  induction h with
  | none => exact ⟨[], rfl, rfl⟩
  | @next made heard rest id address wait _ hopen ih =>
    obtain ⟨ids, hids, hlength⟩ := ih
    refine ⟨ids ++ [id], ?_, by simp [hlength]⟩
    rw [marks_append, marks_append, hids, marks_announcement, hopen.marks_eq, visits_append]
    rfl

/-- An execution takes as many attempts as it visits nodes, and one more if it ends without a
round. -/
theorem Word.visits {unknown : Nat → Prop} (h : Word limit unknown es) :
    ∃ ids attempts, marks es = visits ids ∧ totals es = [attempts] ∧
      (attempts = ids.length ∨ attempts = ids.length + 1 ∧ unknown attempts) := by
  cases h with
  | @unknownNode made _ text rounds _ hunknown =>
    obtain ⟨ids, hids, rfl⟩ := rounds.visits
    refine ⟨ids, ids.length + 1, ?_, ?_, .inr ⟨rfl, hunknown⟩⟩
    · rw [marks_append, hids]
      exact List.append_nil _
    · rw [totals_append, rounds.totals_eq]
      rfl
  | @closed made _ rest id address wait rounds _ hcloses =>
    obtain ⟨ids, hids, rfl⟩ := rounds.visits
    refine ⟨ids ++ [id], ids.length + 1, ?_, ?_, .inl (by simp)⟩
    · rw [marks_append, marks_append, hids, marks_announcement, hcloses.marks_eq, visits_append]
      rfl
    · rw [totals_append, totals_append, rounds.totals_eq, hcloses.totals_eq,
        totals_of_not_isTerminal fun _ => not_isTerminal_of_announcement]
      rfl
  | exhausted rounds =>
    obtain ⟨ids, hids, rfl⟩ := rounds.visits
    refine ⟨ids, ids.length, ?_, ?_, .inl rfl⟩
    · rw [marks_append, hids]
      exact List.append_nil _
    · rw [totals_append, rounds.totals_eq]
      rfl

def Mark.selected? : Mark → Option AccountId
  | .selected id => some id
  | .ended _ => none

theorem selected_marks : (marks (events a)).filterMap Mark.selected? = dispatches a := by
  simp only [marks, events, dispatches, List.filterMap_filterMap]
  refine List.filterMap_congr fun x _ => ?_
  rcases x with ⟨event⟩ | _ | _ | _ | _
  · cases event <;> rfl
  all_goals rfl

theorem selected_visits : (visits ids).filterMap Mark.selected? = ids := by
  induction ids with
  | nil => rfl
  | cons id rest ih =>
    have hcons : visits (id :: rest) = [.selected id, .ended id] ++ visits rest := rfl
    rw [hcons, List.filterMap_append, ih]
    rfl

theorem visits_of_run (c : Client) (w : World σ) (op : Operation α) (r : Request)
    (situation : Situation σ) :
    let journal := (c.run w op r situation).2.journal
    marks (events journal) = visits (dispatches journal) ∧
      ∃ attempts, totals (events journal) = [attempts] ∧
        (attempts = (dispatches journal).length ∨
          attempts = (dispatches journal).length + 1 ∧
            c.FindsNoNode w op r situation attempts) := by
  intro journal
  cases hp : c.prepare w r situation with
  | error e =>
    simp only [journal, Client.run, hp]
    exact ⟨rfl, 0, rfl, .inl rfl⟩
  | ok x =>
    obtain ⟨ids, attempts, hmarks, htotals, hattempts⟩ := Word.visits (word_of_run hp)
    have hids : dispatches journal = ids := by rw [← selected_marks, hmarks, selected_visits]
    rw [hids]
    exact ⟨hmarks, attempts, htotals, hattempts⟩

end LedgerClient
