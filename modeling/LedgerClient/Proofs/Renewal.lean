import LedgerClient.Proofs.Origin
import LedgerClient.Rehearsal.Nodes

namespace LedgerClient

variable {σ α : Type} {c : Client} {w : World σ} {op : Operation α} {policy : Policy}
  {r s : Request} {situation : Situation σ} {p p' q q' : Progress σ} {e e' : Ending α} {k : Nat}
  {o : Outcome} {t : TransactionRequest} {journal : List Entry} {x : Entry}

def Request.ids? : Request → Option IdSequence
  | .query _ => none
  | .transaction t => some t.ids

theorem Request.ids?_withNodes {nodes : Rotation} : (r.withNodes nodes).ids? = r.ids? := by
  cases r <;> rfl

theorem Request.exists_of_ids? {ids : IdSequence} (h : r.ids? = some ids) :
    ∃ t, r = .transaction t ∧ t.ids = ids := by
  cases r with
  | query q => cases h
  | transaction t =>
    cases h
    exact ⟨t, rfl, rfl⟩

theorem ids?_of_contact (h : p.contact w k = (o, q)) : q.request.ids? = p.request.ids? := by
  rw [(contacted_of_contact h).request_eq]
  split
  next => exact Request.ids?_withNodes
  next => rfl

/-- Whether an answer on record was taken to mean that the transaction id is too old. -/
def Expired (journal : List Entry) : Prop :=
  ∃ id code, .event (.classified id code .expired) ∈ journal

/-- What an attempt does to the ids. An id is replaced at once, and otherwise the ids stay; an
attempt that would need another id and must not replace it is the last. -/
inductive Client.Renews (c : Client) (op : Operation α) (policy : Policy) (k : Nat)
    (p : Progress σ) : Ending α → Progress σ → Prop
  | kept {e : Ending α} {q : Progress σ} : ¬ Expired q.journal → replacements q.journal = [] →
      q.request.ids? = p.request.ids? → Renews c op policy k p e q
  | renewed {error : DispatchError} {q : Progress σ} {ids : IdSequence} {steps : List Entry}
      {id : AccountId} {code : Precheck} {previous next : TransactionId} :
      c.mayReplaceId p.request = true → p.request.ids? = some ids →
      ids.current? = some previous → c.operator? = some next.account →
      q.request.ids? = some (ids.overwrite next) →
      (∀ x ∈ steps, x.isConclusion = false) →
      q.journal = steps ++ [.event (.classified id code .expired),
        .event (.regenerated previous next)] →
      Renews c op policy k p (.unsettled error) q
  | refused {q : Progress σ} {steps : List Entry} {id : AccountId} {code : Precheck}
      {error : DispatchError} :
      (p.request.Ready → c.mayReplaceId p.request = false) →
      q.request.ids? = p.request.ids? → (∀ x ∈ steps, x.isConclusion = false) →
      q.journal = steps ++ [.event (.classified id code .expired),
        .event (.failed k (DispatchError.afterAttempts k policy.attempts error).message)] →
      Renews c op policy k p (.settled (.error (.afterAttempts k policy.attempts error))) q

theorem not_expired_of_append {steps : List Entry} (hs : ∀ x ∈ steps, x.isConclusion = false)
    (hj : ∀ id code, .event (.classified id code .expired) ∉ journal) :
    ¬ Expired (steps ++ journal) := by
  rintro ⟨id, code, h⟩
  rcases List.mem_append.mp h with h | h
  · have hc := hs _ h
    cases hc
  · exact hj id code h

theorem renews_of_attempt (h : c.attempt w op policy k p.afresh = (e, q)) :
    c.Renews op policy k p e q := by
  have quiet : ∀ {o r}, p.afresh.contact w k = (o, r) → ∀ x ∈ r.journal, x.isConclusion = false :=
    fun hk => (contactSteps_of_contact hk).undecided
  have same : ∀ {o r}, p.afresh.contact w k = (o, r) → r.request.ids? = p.request.ids? :=
    fun hk => ids?_of_contact (p := p.afresh) hk
  have may : ∀ {o r}, p.afresh.contact w k = (o, r) →
      c.mayReplaceId r.request = c.mayReplaceId p.request := fun hk =>
    (becomes_of_contact (p := p.afresh) hk).mayReplaceId_eq
  have kept : ∀ {o r} (conclusions : List Entry), p.afresh.contact w k = (o, r) →
      (∀ id code, .event (.classified id code .expired) ∉ conclusions) →
      replacements conclusions = [] → q.journal = r.journal ++ conclusions →
      q.request = r.request → c.Renews op policy k p e q := by
    intro o r conclusions hk hx hrep hj hr
    refine .kept ?_ ?_ ?_
    · rw [hj]
      exact not_expired_of_append (quiet hk) hx
    · rw [hj, replacements_append, replacements_eq_nil (quiet hk), hrep]
      rfl
    · rw [hr]
      exact same hk
  cases attempted_of_attempt h with
  | unsendable hk => exact kept _ hk (by simp) rfl rfl rfl
  | unknownNode hk => exact kept _ hk (by simp) rfl rfl rfl
  | unopened hk => exact kept [] hk (by simp) rfl (by simp) rfl
  | dropped hk => exact kept [] hk (by simp) rfl (by simp) rfl
  | broken hk => exact kept _ hk (by simp) rfl rfl rfl
  | retried hk _ _ hr =>
    subst hr
    exact kept _ hk (by simp) rfl ((List.append_assoc ..).trans (List.append_assoc ..)) rfl
  | spent hk => exact kept _ hk (by simp) rfl rfl rfl
  | @replaced node m a previous next r _ hk _ hr =>
    obtain ⟨operator, t, ho, ht, hm, hcur, hnext, rfl⟩ := replaceExpired?_eq_some hr
    have ht' : r.request = .transaction t := ht
    refine .renewed ((may hk).symm.trans hm) ((same hk).symm.trans (by rw [ht']; rfl)) hcur ?_ rfl
      (quiet hk) (List.append_assoc ..)
    rw [hnext]
    exact ho
  | @stale node m a r hk _ hr =>
    have hsame := same hk
    refine .refused (fun ready => ?_) hsame (quiet hk) (List.append_assoc ..)
    have hready : r.request.Ready := (becomes_of_contact (p := p.afresh) hk).ready_iff.mpr ready
    have hno : ¬ c.mayReplaceId r.request = true := fun hm => by
      have hsome := (replaceExpired?_isSome_iff (c := c) (w := w)
        (p := r.note (.classified node.id a.precheck .expired)) hready).mpr hm
      simp [hr] at hsome
    simpa [may hk] using hno
  | refused hk => exact kept _ hk (by simp) rfl (List.append_assoc ..) rfl
  | finished hk => exact kept _ hk (by simp) rfl (List.append_assoc ..) rfl

theorem Client.Makes.renews (h : c.Makes w op r situation k p e q) :
    c.Renews op (c.policy r.limits) k p e q :=
  renews_of_attempt h.attempt_eq

/-- What an attempt of a transaction sends, whether or not it comes to be sent. -/
theorem Client.Makes.payload (h : c.Makes w op (.transaction t) situation k p e q) :
    ∃ u m, p.request = .transaction u ∧ p.request.message = .ok (.transaction m) ∧
      u.ids.current? = some m.id := by
  obtain ⟨ready, hkind, -⟩ := h.of_prepared
  obtain ⟨m, hm⟩ := Request.ready_iff.mp ready
  obtain ⟨-, hmq, hid⟩ := Request.message_eq_ok hm
  obtain ⟨m, rfl⟩ := Message.exists_transaction (hmq.trans hkind)
  have hcur := hid m rfl
  cases hp : p.request with
  | query u =>
    rw [hp] at hkind
    cases hkind
  | transaction u =>
    rw [hp] at hm hcur
    exact ⟨u, m, rfl, hm, hcur⟩

theorem Client.mayReplaceId_iff :
    c.mayReplaceId (.transaction t) = true ↔
      (∃ operator, c.configuredOperator = some operator ∧ operator.isZero = false) ∧
        t.regenerate.getD c.regenerate = true ∧ t.ids.locked = false := by
  simp [Client.mayReplaceId, Client.operator?, Option.any_eq_true, and_assoc]

/-- The id of the next attempt is the id of this one, unless the answer takes this one for too old
and it is replaced. -/
theorem id_of_next_attempt (h : c.Makes w op (.transaction t) situation k p e q) :
    let renewals := replacements q.journal
    let run := c.execute w op (.transaction t) situation
    let next (id : TransactionId) : Prop :=
      ∀ p' e' q', c.Makes w op (.transaction t) situation (k + 1) p' e' q' →
        ∃ m, p'.request.message = .ok (.transaction m) ∧ m.id = id
    ∃ u m, p.request = .transaction u ∧ p.request.message = .ok (.transaction m) ∧
      (∃ later, run.2.journal = p.journal ++ q.journal ++ later) ∧
      (Expired q.journal → (renewals ≠ [] ↔
        (∃ operator, c.configuredOperator = some operator ∧ operator.isZero = false) ∧
          t.regenerate.getD c.regenerate = true ∧ t.ids.locked = false)) ∧
      ((renewals = [] ∧ next m.id ∧ q.request.ids? = some u.ids ∧
        (Expired q.journal → run.2.journal = p.journal ++ q.journal ∧
          ∃ error, run.1 = .error error ∧ e = .settled (.error error))) ∨
      ∃ id ids, renewals = [(m.id, id)] ∧ next id ∧ Expired q.journal ∧
        c.operator? = some id.account ∧ q.request.ids? = some ids ∧
        ids.ids = u.ids.ids.set u.ids.index id ∧ ids.index = u.ids.index ∧
        ids.locked = u.ids.locked ∧ ∀ n delay, .event (.backoff n delay) ∉ q.journal) := by
  intro renewals run next
  obtain ⟨u, m, hu, hm, hcur⟩ := h.payload
  obtain ⟨ready, -, hmay⟩ := h.of_prepared
  have hids : p.request.ids? = some u.ids := by rw [hu]; rfl
  -- The next attempt begins with the ids that this one leaves.
  have hnext : ∀ ids id, q.request.ids? = some ids → ids.current? = some id → next id := by
    intro ids id hq hi p' e' q' h'
    obtain ⟨u', m', hu', hm', hcur'⟩ := h'.payload
    obtain ⟨rfl, -⟩ := h.next h'
    have hq' : q.request = .transaction u' := hu'
    rw [hq'] at hq
    cases hq
    exact ⟨m', hm', Option.some.inj (hcur'.symm.trans hi)⟩
  obtain ⟨hresult, -, hjournal, -⟩ := execute_eq_run c w op (.transaction t) situation
  obtain ⟨later, hrecord⟩ := h.record
  refine ⟨u, m, hu, hm, ⟨later, hjournal.trans hrecord⟩, ?_⟩
  rw [← Client.mayReplaceId_iff, ← hmay]
  cases h.renews with
  | kept hx hrep hq =>
    have hq' := hq.trans hids
    exact ⟨fun hx' => absurd hx' hx,
      .inl ⟨hrep, hnext _ _ hq' hcur, hq', fun hx' => absurd hx' hx⟩⟩
  | @renewed _ _ ids steps id code previous fresh hm' hp hprev ho hq hs hj =>
    obtain rfl : u.ids = ids := Option.some.inj (hids.symm.trans hp)
    obtain rfl : m.id = previous := Option.some.inj (hcur.symm.trans hprev)
    have hrep : renewals = [(m.id, fresh)] := by
      simp only [renewals, hj, replacements_append, replacements_eq_nil hs]
      rfl
    have hx : Expired q.journal := ⟨id, code, by simp [hj]⟩
    have hb : ∀ n delay, .event (.backoff n delay) ∉ q.journal := by
      intro n delay hb
      rw [hj, List.mem_append] at hb
      rcases hb with hb | hb
      · have hc := hs _ hb
        cases hc
      · simp at hb
    refine ⟨fun _ => ⟨fun _ => hm', fun _ => by simp [hrep]⟩, .inr ⟨fresh, _, hrep, ?_, hx, ho, hq,
      rfl, rfl, rfl, hb⟩⟩
    exact hnext _ _ hq (IdSequence.current?_overwrite (by simp [hcur]))
  | @refused _ steps id code error hno hq hs hj =>
    have hq' := hq.trans hids
    have hrep : renewals = [] := by
      simp only [renewals, hj, replacements_append, replacements_eq_nil hs]
      rfl
    rw [h.run_of_settled] at hresult hjournal
    refine ⟨fun _ => ?_, .inl ⟨hrep, hnext _ _ hq' hcur, hq', fun _ => ⟨hjournal, _, hresult, rfl⟩⟩⟩
    simp [hrep, hno ready]

/-- Of two ids the first is sent and taken for too old. The second attempt is made with another one
in its place, and the id that was not sent stays. -/
theorem id_of_attempt_after_stale :
    let c := { Client.default with
      configuredOperator := some Stage.operator
      maxAttempts := some 2 }
    let ids := (IdSequence.empty.append (Stage.id 8)).append (Stage.id 9)
    let nodes := Rotation.ofList [(Stage.node 3).1]
    let t := { TransactionRequest.ofBody default with nodes, ids }
    let situation := Stage.situation [.answering [.transactionExpired, .ok]]
    ∃ p e q p' e' q' m m',
      c.Makes Stage.world submitOperation (.transaction t) situation 1 p e q ∧
      c.Makes Stage.world submitOperation (.transaction t) situation 2 p' e' q' ∧
      p.request.message = .ok (.transaction m) ∧ m.id = Stage.id 8 ∧
      p'.request.message = .ok (.transaction m') ∧ m'.id = Stage.id 0 ∧
      (q.request.ids?.map IdSequence.ids) = some [Stage.id 0, Stage.id 9] := by
  intro c ids nodes t situation
  have hp : c.prepare Stage.world (.transaction t) situation = .ok (.transaction t, situation) :=
    rfl
  have first := Client.Makes.first submitOperation hp
  have second := first.succ (by decide)
  obtain ⟨u, m, hu, hm, -, -, ⟨hrep, -⟩ | ⟨id, ids', hrep, hnext, -, -, hids, hset, -⟩⟩ :=
    id_of_next_attempt first
  · cases hrep
  · obtain ⟨m', hm', hid'⟩ := hnext _ _ _ second
    cases hu
    cases hm
    cases hrep
    exact ⟨_, _, _, _, _, _, _, m', first, second, rfl, rfl, hm', hid', by simp [hids, hset]; rfl⟩

end LedgerClient
