import LedgerClient.Proofs.Replacement

namespace LedgerClient

variable {σ : Type} {c : Client} {w : World σ} {r r' prepared : Request} {s s' : Situation σ}
  {e : DispatchError}

/-- The request cannot be prepared, for this reason. -/
def Client.CannotPrepare (c : Client) (w : World σ) (r : Request) (s : Situation σ)
    (e : DispatchError) : Prop :=
  ∃ r' s', c.prepare w r s = .error (e, r', s')

theorem chooseNodes_eq_ok (h : c.chooseNodes w r s = .ok (prepared, s')) :
    ∃ nodes, nodes.ids ≠ [] ∧ prepared = r.withNodes nodes ∧
      (r.nodes.ids ≠ [] → prepared = r) := by
  unfold Client.chooseNodes at h
  split at h
  next hn =>
    split at h
    next => cases h
    next ids _ hne _ =>
      cases h
      exact ⟨.ofList ids, hne, rfl, fun hp => absurd (List.isEmpty_iff.mp hn) hp⟩
  next hn =>
    cases h
    refine ⟨r.nodes, by simpa using hn, ?_, fun _ => rfl⟩
    cases r <;> rfl

/-- An id is generated only where there is none, and where the ids are not locked. -/
theorem chooseId_eq_ok (h : c.chooseId w r s = .ok (prepared, s')) :
    (prepared = r ∧ ∀ t, r = .transaction t → t.ids.ids ≠ []) ∨
      ∃ t operator, r = .transaction t ∧ t.ids.ids = [] ∧ t.ids.locked = false ∧
        c.operator? = some operator ∧
        prepared = .transaction { t with ids := t.ids.append (s.generate w operator).1 } := by
  unfold Client.chooseId at h
  split at h
  next q => cases h; exact .inl ⟨rfl, by simp⟩
  next t =>
    split at h
    next hi =>
      cases h
      refine .inl ⟨rfl, fun t' ht => ?_⟩
      cases ht
      exact IdSequence.current?_isSome_iff.mp hi
    next hi =>
      split at h
      next => cases h
      next operator ho =>
        simp only [IdSequence.push] at h
        cases hl : t.ids.locked with
        | true => simp [hl] at h
        | false =>
          simp only [hl, Bool.false_eq_true, if_false] at h
          cases h
          refine .inr ⟨t, operator, rfl, ?_, hl, ho, rfl⟩
          simpa [IdSequence.current?_isSome_iff] using hi

/-- A prepared request can be sent. What it says about attempts and ids is as it was. -/
theorem prepare_eq_ok (h : c.prepare w r s = .ok (prepared, s')) :
    prepared.Ready ∧ prepared.limits = r.limits ∧
      c.mayReplaceId prepared = c.mayReplaceId r ∧
      prepared.isQuery = r.isQuery := by
  unfold Client.prepare at h
  cases hn : c.chooseNodes w r s with
  | error e => rw [hn] at h; cases h
  | ok x =>
    obtain ⟨chosen, s₁⟩ := x
    rw [hn] at h
    obtain ⟨nodes, hne, rfl, -⟩ := chooseNodes_eq_ok hn
    rcases chooseId_eq_ok h with ⟨rfl, hid⟩ | ⟨t, operator, ht, _, hl, _, rfl⟩
    · cases r with
      | query q => exact ⟨hne, rfl, rfl, rfl⟩
      | transaction t => exact ⟨⟨hne, hid _ rfl⟩, rfl, rfl, rfl⟩
    · cases r with
      | query q => cases ht
      | transaction t =>
        cases ht
        exact ⟨⟨hne, by simp [IdSequence.append]⟩, rfl, rfl, rfl⟩

theorem chooseNodes_eq_error (h : c.chooseNodes w r s = .error (e, r', s')) :
    r.nodes.ids = [] ∧ (s.select w c.maxNodes).1 = [] ∧ e = .noNodes ∧ r' = r ∧
      ∃ world, s' = { s with world := world } := by
  unfold Client.chooseNodes at h
  split at h
  next hn =>
    split at h
    next picked hselect =>
      cases h
      exact ⟨List.isEmpty_iff.mp hn, congrArg Prod.fst hselect, rfl, rfl, _,
        (congrArg Prod.snd hselect).symm⟩
    next => cases h
  next => cases h

theorem chooseId_eq_error (h : c.chooseId w r s = .error (e, r', s')) :
    r' = r ∧ (∃ world, s' = { s with world := world }) ∧
    ∃ t, r = .transaction t ∧ t.ids.ids = [] ∧
      ((c.operator? = none ∧ e = .missingTransactionId) ∨
        (t.ids.locked = true ∧ e = .transactionIdsLocked)) := by
  unfold Client.chooseId at h
  split at h
  next => cases h
  next t =>
    split at h
    next => cases h
    next hi =>
      have hempty : t.ids.ids = [] := by simpa [IdSequence.current?_isSome_iff] using hi
      split at h
      next ho =>
        cases h
        exact ⟨rfl, ⟨_, rfl⟩, t, rfl, hempty, .inl ⟨ho, rfl⟩⟩
      next operator _ =>
        by_cases hl : t.ids.locked = true
        · simp only [IdSequence.push, hl, if_true] at h
          cases h
          exact ⟨rfl, ⟨_, rfl⟩, t, rfl, hempty, .inr ⟨hl, rfl⟩⟩
        · simp only [IdSequence.push, hl] at h
          cases h

theorem chooseNodes_situation (h : c.chooseNodes w r s = .ok (prepared, s')) :
    ∃ world, s' = { s with world := world } := by
  unfold Client.chooseNodes at h
  split at h
  next =>
    split at h
    next => cases h
    next ids picked _ hs =>
      cases h
      exact ⟨_, (congrArg Prod.snd hs).symm⟩
  next =>
    cases h
    exact ⟨_, rfl⟩

theorem chooseId_situation (h : c.chooseId w r s = .ok (prepared, s')) :
    ∃ world, s' = { s with world := world } := by
  unfold Client.chooseId at h
  split at h
  next =>
    cases h
    exact ⟨_, rfl⟩
  next t =>
    split at h
    next =>
      cases h
      exact ⟨_, rfl⟩
    next =>
      split at h
      next => cases h
      next operator _ =>
        cases hp : t.ids.push (s.generate w operator).1 with
        | error e => simp [hp] at h
        | ok ids =>
          simp only [hp] at h
          cases h
          exact ⟨_, rfl⟩

/-- Before the first attempt only the world is asked, for an order of the nodes and for an id. -/
theorem prepare_situation (h : c.prepare w r s = .ok (prepared, s')) :
    ∃ world, s' = { s with world := world } := by
  unfold Client.prepare at h
  cases hn : c.chooseNodes w r s with
  | error e =>
    rw [hn] at h
    cases h
  | ok x =>
    obtain ⟨chosen, s₁⟩ := x
    rw [hn] at h
    obtain ⟨world, rfl⟩ := chooseNodes_situation hn
    have h' : c.chooseId w chosen { s with world := world } = .ok (prepared, s') := h
    obtain ⟨world', rfl⟩ := chooseId_situation h'
    exact ⟨world', rfl⟩

/-- Preparation fails where there is no node to choose, and where a transaction has no id and none
may be generated. -/
theorem prepare_eq_error (h : c.CannotPrepare w r s e) :
    (r.nodes.ids = [] ∧ (s.select w c.maxNodes).1 = [] ∧ e = .noNodes) ∨
      ∃ t, r = .transaction t ∧ t.ids.ids = [] ∧
        ((c.operator? = none ∧ e = .missingTransactionId) ∨
          (t.ids.locked = true ∧ e = .transactionIdsLocked)) := by
  obtain ⟨r', s', h⟩ := h
  unfold Client.prepare at h
  cases hn : c.chooseNodes w r s with
  | error x =>
    rw [hn] at h
    cases h
    obtain ⟨hids, hselect, he, -⟩ := chooseNodes_eq_error hn
    exact .inl ⟨hids, hselect, he⟩
  | ok x =>
    obtain ⟨chosen, s₁⟩ := x
    rw [hn] at h
    obtain ⟨nodes, -, rfl, -⟩ := chooseNodes_eq_ok hn
    obtain ⟨-, -, t, ht, hempty, hcause⟩ := chooseId_eq_error h
    cases r with
    | query q => cases ht
    | transaction t' =>
      cases ht
      exact .inr ⟨t', rfl, hempty, hcause⟩

/-- A request that could not be prepared has been given nodes at most, where it named none. -/
theorem unprepared_of_prepare (h : c.prepare w r s = .error (e, r', s')) :
    (∃ nodes, r' = r.withNodes nodes ∧ (r.nodes.ids ≠ [] → r' = r)) ∧
      ∃ world, s' = { s with world := world } := by
  unfold Client.prepare at h
  cases hn : c.chooseNodes w r s with
  | error x =>
    rw [hn] at h
    cases h
    obtain ⟨-, -, -, rfl, hworld⟩ := chooseNodes_eq_error hn
    exact ⟨⟨r'.nodes, by cases r' <;> rfl, fun _ => rfl⟩, hworld⟩
  | ok x =>
    obtain ⟨chosen, s₁⟩ := x
    rw [hn] at h
    obtain ⟨nodes, -, rfl, hsame⟩ := chooseNodes_eq_ok hn
    obtain ⟨world, rfl⟩ := chooseNodes_situation hn
    obtain ⟨rfl, ⟨world', rfl⟩, -⟩ := chooseId_eq_error h
    exact ⟨⟨nodes, rfl, hsame⟩, world', rfl⟩

end LedgerClient
