import LedgerClient.Proofs.Course
import LedgerClient.Rehearsal.Nodes

namespace LedgerClient

variable {σ : Type} {c : Client} {w : World σ} {policy : Policy} {start p q : Progress σ}
  {k made : Nat} {last : DispatchError} {o : Outcome} {r s : Request} {call : Call}
  {after later : List Entry}

/-- Whether the node took the id that it was sent for too old, and another may take its place. -/
def Call.IsStale (c : Client) (r : Request) (call : Call) : Prop :=
  c.mayReplaceId r = true ∧ ∃ a, call.outcome = .ok a ∧ a.precheck = .transactionExpired

/-- A transaction has the id that it was sent with, or after a stale one the id in its place. -/
inductive Follows (c : Client) (r : Request) (call : Call) (after : List Entry) : Prop
  | kept {m : TransactionMessage} : call.message = .transaction m → ¬ call.IsStale c r →
      replacements after = [] → r.transactionId? = some m.id → Follows c r call after
  | replaced {m : TransactionMessage} {next : TransactionId} : call.message = .transaction m →
      call.IsStale c r → replacements after = [(m.id, next)] → r.transactionId? = some next →
      Follows c r call after

theorem transactionVerdict_eq_expired_iff {code : Precheck} :
    code.transactionVerdict = .expired ↔ code = .transactionExpired := by
  cases code <;> simp [Precheck.transactionVerdict]

theorem isStale_iff_call :
    o.isStale c submitOperation r = true ↔ ∃ call ∈ o.calls, call.IsStale c r := by
  cases o <;> simp [Outcome.isStale, Outcome.calls, Call.IsStale, submitOperation,
    transactionVerdict_eq_expired_iff, and_comm]

theorem calls_eq_of_mem (h : call ∈ o.calls) : o.calls = [call] := by
  cases o <;> simp_all [Outcome.calls]

theorem Contacted.message_eq (h : Contacted w k p o q) (hc : call ∈ o.calls) :
    p.request.message = .ok call.message := by
  cases h with
  | unsendable | unknownNode | unopened => simp [Outcome.calls] at hc
  | dropped hm | broken hm | answered hm =>
    simp only [Outcome.calls, List.mem_singleton] at hc
    exact hc ▸ hm

theorem transactionId?_of_contact (h : p.contact w k = (o, q)) :
    q.request.transactionId? = p.request.transactionId? := by
  rw [(contacted_of_contact h).request_eq]
  split
  next => cases p.request <;> rfl
  next => rfl

theorem Follows.append (h : Follows c r call after) (hr : replacements later = [])
    (hid : s.transactionId? = r.transactionId?) (hb : r.Becomes s) :
    Follows c s call (after ++ later) := by
  have hs : call.IsStale c s ↔ call.IsStale c r := by
    rw [Call.IsStale, Call.IsStale, hb.mayReplaceId_eq]
  cases h with
  | kept hm hn ha hi =>
    exact .kept hm (mt hs.mp hn) (by rw [replacements_append, ha, hr]; rfl) (hid.trans hi)
  | replaced hm hn ha hi =>
    exact .replaced hm (hs.mpr hn) (by rw [replacements_append, ha, hr]; rfl) (hid.trans hi)

/-- An attempt without a call leaves the id as it is. After a call, its answer says it all. -/
theorem id_of_attempt {e : Ending Submission} (ready : p.request.Ready)
    (hq : p.request.isQuery = false)
    (h : c.attempt w submitOperation policy k p.afresh = (e, q)) :
    (calls q.journal = [] ∧ replacements q.journal = [] ∧
      q.request.transactionId? = p.request.transactionId?) ∨
    ∃ call after, lastCall? q.journal = some (call, after) ∧ Follows c q.request call after := by
  obtain ⟨o, r, conclusions, hk, hj, spec, hc, hf⟩ := attempt_split h
  have hid : r.request.transactionId? = p.afresh.request.transactionId? :=
    transactionId?_of_contact hk
  have hnone : replacements r.journal = [] := replacements_eq_nil spec.undecided
  have hend : calls conclusions = [] := (projections_eq_nil hc).2.1
  rcases hcalls : o.calls with _ | ⟨call, rest⟩
  · left
    rw [hj, calls_append, replacements_append, spec.calls, hcalls, hend, hnone]
    generalize q.request = s at hf
    cases hf with
    | kept hrep => exact ⟨rfl, hrep, hid⟩
    | replaced _ _ _ hstale => simp [isStale_iff_call, hcalls] at hstale
  · right
    have hmem : call ∈ o.calls := by simp [hcalls]
    have hone : o.calls = [call] := calls_eq_of_mem hmem
    obtain ⟨-, hkind, hsent⟩ :=
      Request.message_eq_ok ((contacted_of_contact hk).message_eq hmem)
    obtain ⟨m, hm⟩ := Message.exists_transaction (hkind.trans hq)
    have hmid : r.request.transactionId? = some m.id := hid.trans (hsent m hm)
    obtain ⟨after, hafter⟩ : ∃ after, lastCall? r.journal = some (call, after) := by
      have hlast := lastCall?_map_fst (a := r.journal)
      rw [spec.calls, hone] at hlast
      obtain ⟨⟨_, after⟩, hx, rfl⟩ := Option.map_eq_some_iff.mp hlast
      exact ⟨after, hx⟩
    -- A contact replaces no id, so after its call only the conclusions of the attempt can.
    have hrest : replacements after = [] := by
      obtain ⟨before, e, hb, -, -⟩ := lastCall?_eq_some hafter
      exact replacements_eq_nil fun e he => spec.undecided e (by simp [hb, he])
    have hstale : o.isStale c submitOperation r.request = true ↔ call.IsStale c r.request := by
      simp [isStale_iff_call, hone]
    refine ⟨call, after ++ conclusions, ?_, ?_⟩
    · rw [hj, lastCall?_append_of_calls_eq_nil hend, hafter]
      rfl
    · have hready := (becomes_of_contact (p := p.afresh) hk).ready_iff.mpr ready
      generalize q.request = s at hf
      cases hf with
      | kept hrep hkept =>
        refine .kept hm (fun hs => ?_) (by rw [replacements_append, hrest, hrep]; rfl) hmid
        have hno := hkept hready
        simp [hstale.mpr hs] at hno
      | @replaced t previous next ht hcur hrep hs =>
        rw [ht] at hmid
        have hcur' : t.ids.current? = some m.id := hmid
        obtain rfl : previous = m.id := Option.some.inj (hcur.symm.trans hcur')
        refine .replaced hm ?_ (by rw [replacements_append, hrest, hrep]; rfl)
          (IdSequence.current?_overwrite (by simp [hcur]))
        have hs' := hstale.mp hs
        rw [ht] at hs'
        exact hs'

def IdFollows (c : Client) (r : Request) (journal : List Entry) : Prop :=
  ∀ call after, lastCall? journal = some (call, after) → Follows c r call after

theorem IdFollows.append {journal : List Entry} (h : IdFollows c r journal)
    (hc : calls later = []) (hr : replacements later = [])
    (hid : s.transactionId? = r.transactionId?) (hb : r.Becomes s) :
    IdFollows c s (journal ++ later) := by
  intro call after hl
  rw [lastCall?_append_of_calls_eq_nil hc] at hl
  obtain ⟨⟨call', after'⟩, hl', hx⟩ := Option.map_eq_some_iff.mp hl
  cases hx
  exact (h _ _ hl').append hr hid hb

theorem idFollows_of_attempt {e : Ending Submission} (hp : IdFollows c p.request p.journal)
    (ready : p.request.Ready) (hq : p.request.isQuery = false)
    (h : c.attempt w submitOperation policy k p.afresh = (e, q)) :
    IdFollows c q.request (p.journal ++ q.journal) := by
  rcases id_of_attempt ready hq h with ⟨hcalls, hrep, hid⟩ | ⟨call, after, hl, hf⟩
  · exact hp.append hcalls hrep hid (becomes_of_attempt h)
  · intro call' after' hl'
    rw [lastCall?_append_of_some hl] at hl'
    cases hl'
    exact hf

theorem Client.Reaches.idFollows (reach : c.Reaches w submitOperation policy start made last p)
    (ready : start.request.Ready) (hq : start.request.isQuery = false)
    (hs : start.journal = []) : IdFollows c p.request p.journal := by
  induction reach with
  | start =>
    intro call after hl
    rw [hs] at hl
    cases hl
  | next prior ha ih =>
    exact idFollows_of_attempt ih (prior.becomes.ready_iff.mpr ready)
      (prior.becomes.isQuery_eq.trans hq) ha

theorem Client.Ends.idFollows {result : Except DispatchError Submission}
    (h : c.Ends w submitOperation policy start result p) (ready : start.request.Ready)
    (hq : start.request.isQuery = false) (hs : start.journal = []) :
    start.request.Becomes p.request ∧ IdFollows c p.request p.journal := by
  cases h with
  | settled reach _ ha =>
    have hb := becomes_of_attempt ha
    exact ⟨reach.becomes.trans hb, idFollows_of_attempt (reach.idFollows ready hq hs)
      (reach.becomes.ready_iff.mpr ready) (reach.becomes.isQuery_eq.trans hq) ha⟩
  | exhausted reach =>
    exact ⟨reach.becomes, (reach.idFollows ready hq hs).append rfl rfl rfl .refl⟩

/-- After a submission with a call in it, the transaction has the id that was sent last, unless the
node took that id for too old: then it has the one that was put in its place since. -/
theorem submit_id_of_last_call {request : TransactionRequest} {situation : Situation σ}
    (h : lastCall? (c.submit w request situation).2.journal = some (call, after)) :
    let id := (c.submit w request situation).2.request.transactionId?
    let stale := call.IsStale c (.transaction request)
    ∃ m, call.message = .transaction m ∧
      (¬ stale → replacements after = [] ∧ id = some m.id) ∧
      (stale → ∃ next, replacements after = [(m.id, next)] ∧ id = some next) ∧
      (id = some m.id ↔ (stale → replacements after = [(m.id, m.id)])) := by
  intro id stale
  obtain ⟨-, -, hjournal, hid⟩ :=
    execute_eq_run c w submitOperation (.transaction request) situation
  generalize hrun : c.run w submitOperation (.transaction request) situation = run
    at hjournal hid
  have hl : lastCall? run.2.journal = some (call, after) := hjournal ▸ h
  have hid' : id = run.2.request.transactionId? := hid
  obtain ⟨result, p⟩ := run
  rcases run_cases hrun with ⟨e, _, _, -, -, rfl⟩ | ⟨prepared, s, hs, hend⟩
  · cases hl
  · obtain ⟨ready, -, hmay, hq⟩ := prepare_eq_ok hs
    obtain ⟨hb, hf⟩ := hend.idFollows ready hq rfl
    have hstale : call.IsStale c p.request ↔ stale := by
      rw [Call.IsStale, hb.mayReplaceId_eq, hmay]
      rfl
    cases hf call after hl with
    | kept hm hn hr hi =>
      have hn' : ¬ stale := mt hstale.mpr hn
      have hi' := hid'.trans hi
      exact ⟨_, hm, fun _ => ⟨hr, hi'⟩, fun hst => absurd hst hn', fun _ hst => absurd hst hn',
        fun _ => hi'⟩
    | @replaced m next hm hn hr hi =>
      have hi' := hid'.trans hi
      refine ⟨m, hm, fun hst => absurd (hstale.mp hn) hst, fun _ => ⟨next, hr, hi'⟩, ?_⟩
      rw [hi', hr]
      simp [hstale.mp hn]

theorem submit_id_after_replacement :
    let sent : Call := ⟨.transaction ⟨Stage.id 1, (Stage.node 3).1, default⟩,
      .ok (.submit ⟨.ok, 0⟩)⟩
    (lastCall? (Stage.submit 2 [.transactionExpired, .ok]).2.journal).map Prod.fst = some sent ∧
      (Stage.submit 2 [.transactionExpired, .ok]).2.request.transactionId? =
        some (Stage.id 1) := by
  intro sent
  have hlast : (lastCall? (Stage.submit 2 [.transactionExpired, .ok]).2.journal).map Prod.fst =
    some sent := rfl
  obtain ⟨⟨call, after⟩, h, hcall⟩ := Option.map_eq_some_iff.mp hlast
  obtain rfl : call = sent := hcall
  obtain ⟨m, hm, hkept, -, -⟩ := submit_id_of_last_call h
  cases hm
  refine ⟨hlast, (hkept ?_).2⟩
  rintro ⟨-, a, ha, hx⟩
  cases ha
  cases hx

/-- With one attempt, the id that takes the place of the first is not sent to anybody. -/
theorem submit_id_never_sent :
    calls (Stage.submit 1 [.transactionExpired]).2.journal =
        [⟨.transaction ⟨Stage.id 0, (Stage.node 3).1, default⟩,
          .ok (.submit ⟨.transactionExpired, 0⟩)⟩] ∧
      (Stage.submit 1 [.transactionExpired]).2.request.transactionId? = some (Stage.id 1) ∧
      Stage.id 1 ≠ Stage.id 0 :=
  ⟨rfl, rfl, by decide⟩

end LedgerClient
