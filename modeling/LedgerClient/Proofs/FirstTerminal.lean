import LedgerClient.Proofs.Course
import LedgerClient.Rehearsal.Nodes

namespace LedgerClient

variable {σ α : Type} {c : Client} {w : World σ} {op : Operation α} {policy : Policy}
  {start p : Progress σ} {k made : Nat}

/-- Whether no attempt may follow. `r` is the request after the contact. -/
def Outcome.isTerminal (c : Client) (op : Operation α) (r : Request) : Outcome → Bool
  | .unsendable _ | .unopened _ _ => false
  | .unknownNode _ => true
  | .unanswered _ _ f => !f.isTransient
  | .answered _ _ a =>
    match op.classify r a with
    | .retry => false
    | .expired => !c.mayReplaceId r
    | .error | .finished => true

def Outcome.failure (op : Operation α) (r : Request) : Outcome → DispatchError
  | .unsendable e => e
  | .unknownNode id => .unknownNode id
  | .unopened _ f | .unanswered _ _ f => .fault f
  | .answered _ _ a => op.refusal r a

/-- What an execution comes to if attempt `k` is the last and has this outcome. -/
def Outcome.settlement (op : Operation α) (r : Request) (k limit : Nat) (o : Outcome) :
    Except DispatchError α :=
  match o with
  | .unknownNode id => .error (.unknownNode id)
  | .answered node m a =>
    if op.classify r a = .finished then op.result r a node.id m
    else .error (.afterAttempts k limit (o.failure op r))
  | _ => .error (.afterAttempts k limit (o.failure op r))

/-- What the first attempts lead to, whether or not one of them settles the matter. -/
def Client.course (c : Client) (w : World σ) (op : Operation α) (policy : Policy)
    (start : Progress σ) : Nat → Progress σ
  | 0 => start
  | made + 1 =>
    let p := c.course w op policy start made
    p.andThen (c.attempt w op policy (made + 1) p.afresh).2

def Client.contactAt (c : Client) (w : World σ) (op : Operation α) (policy : Policy)
    (start : Progress σ) (made : Nat) : Outcome × Progress σ :=
  (c.course w op policy start made).afresh.contact w (made + 1)

def Client.isTerminalAt (c : Client) (w : World σ) (op : Operation α) (policy : Policy)
    (start : Progress σ) (made : Nat) : Bool :=
  let (o, r) := c.contactAt w op policy start made
  o.isTerminal c op r.request

def Client.failureAt (c : Client) (w : World σ) (op : Operation α) (policy : Policy)
    (start : Progress σ) (made : Nat) : DispatchError :=
  let (o, r) := c.contactAt w op policy start made
  o.failure op r.request

def Client.settlementAt (c : Client) (w : World σ) (op : Operation α) (policy : Policy)
    (start : Progress σ) (made limit : Nat) : Except DispatchError α :=
  let (o, r) := c.contactAt w op policy start made
  o.settlement op r.request (made + 1) limit

theorem contact_course :
    (c.course w op policy start made).afresh.contact w (made + 1) =
      ((c.contactAt w op policy start made).1, (c.contactAt w op policy start made).2) :=
  rfl

theorem attempt_of_terminal (policy : Policy) {o : Outcome} {r : Progress σ}
    (hk : p.contact w k = (o, r)) (ht : o.isTerminal c op r.request = true) :
    ∃ q, c.attempt w op policy k p = (.settled (o.settlement op r.request k policy.attempts), q) ∧
      q.situation = r.situation := by
  obtain ⟨e, q, h⟩ : ∃ e q, c.attempt w op policy k p = (e, q) := ⟨_, _, rfl⟩
  rw [h]
  cases attempted_of_attempt h with
  | unsendable hk' => cases hk.symm.trans hk'; simp [Outcome.isTerminal] at ht
  | unknownNode hk' => cases hk.symm.trans hk'; exact ⟨_, rfl, rfl⟩
  | unopened hk' => cases hk.symm.trans hk'; simp [Outcome.isTerminal] at ht
  | dropped hk' hf => cases hk.symm.trans hk'; simp [Outcome.isTerminal, hf] at ht
  | broken hk' => cases hk.symm.trans hk'; exact ⟨_, rfl, rfl⟩
  | retried hk' hv => cases hk.symm.trans hk'; simp [Outcome.isTerminal, hv] at ht
  | spent hk' hv => cases hk.symm.trans hk'; simp [Outcome.isTerminal, hv] at ht
  | replaced hk' hv hr =>
    cases hk.symm.trans hk'
    obtain ⟨_, _, _, _, hm, _⟩ := replaceExpired?_eq_some hr
    have hm' : c.mayReplaceId r.request = true := hm
    simp [Outcome.isTerminal, hv, hm'] at ht
  | stale hk' hv =>
    cases hk.symm.trans hk'
    refine ⟨_, Prod.ext (congrArg Ending.settled ?_) rfl, rfl⟩
    simp [Outcome.settlement, Outcome.failure, hv]
  | refused hk' hv =>
    cases hk.symm.trans hk'
    refine ⟨_, Prod.ext (congrArg Ending.settled ?_) rfl, rfl⟩
    simp [Outcome.settlement, Outcome.failure, hv]
  | finished hk' hv =>
    cases hk.symm.trans hk'
    refine ⟨_, Prod.ext (congrArg Ending.settled ?_) rfl, rfl⟩
    simp [Outcome.settlement, hv]

theorem attempt_of_not_terminal (policy : Policy) {o : Outcome} {r : Progress σ}
    (hk : p.contact w k = (o, r)) (ready : p.request.Ready)
    (ht : o.isTerminal c op r.request = false) :
    ∃ q, c.attempt w op policy k p = (.unsettled (o.failure op r.request), q) ∧
      o.isDispatched = true := by
  obtain ⟨e, q, h⟩ : ∃ e q, c.attempt w op policy k p = (e, q) := ⟨_, _, rfl⟩
  rw [h]
  cases attempted_of_attempt h with
  | @unsendable e _ hk' =>
    -- Not terminal, but out of reach: a prepared request stays one that can be sent.
    obtain ⟨m, hm⟩ := Request.ready_iff.mp ready
    cases contacted_of_contact hk' with
    | unsendable he => simp [hm] at he
  | unknownNode hk' => cases hk.symm.trans hk'; simp [Outcome.isTerminal] at ht
  | unopened hk' => cases hk.symm.trans hk'; exact ⟨_, rfl, rfl⟩
  | dropped hk' => cases hk.symm.trans hk'; exact ⟨_, rfl, rfl⟩
  | broken hk' hf => cases hk.symm.trans hk'; simp [Outcome.isTerminal, hf] at ht
  | retried hk' => cases hk.symm.trans hk'; exact ⟨_, rfl, rfl⟩
  | spent hk' => cases hk.symm.trans hk'; exact ⟨_, rfl, rfl⟩
  | replaced hk' => cases hk.symm.trans hk'; exact ⟨_, rfl, rfl⟩
  | @stale node m a _ hk' hv hr =>
    have hready := (becomes_of_contact hk).ready_iff.mpr ready
    cases hk.symm.trans hk'
    have hm : c.mayReplaceId r.request = true := by simpa [Outcome.isTerminal, hv] using ht
    have := (replaceExpired?_isSome_iff (c := c) (w := w)
      (p := r.note (.classified node.id a.precheck .expired)) hready).mpr hm
    simp [hr] at this
  | refused hk' hv => cases hk.symm.trans hk'; simp [Outcome.isTerminal, hv] at ht
  | finished hk' hv => cases hk.symm.trans hk'; simp [Outcome.isTerminal, hv] at ht

/-- Attempts that are not terminal settle nothing, and only the last of them is remembered. -/
theorem reaches_course (ready : start.request.Ready) (hs : start.journal = [])
    (h : ∀ j < made, c.isTerminalAt w op policy start j = false) :
    ∃ last, c.Reaches w op policy start made last (c.course w op policy start made) ∧
      exchanges (c.course w op policy start made).journal = (List.range made).flatMap
        (fun j => exchanges (c.contactAt w op policy start j).2.journal) ∧
      ∀ j, made = j + 1 → last = c.failureAt w op policy start j ∧
        (c.contactAt w op policy start j).1.isDispatched = true := by
  induction made with
  | zero =>
    exact ⟨_, .start, by simp [Client.course, hs, exchanges], by simp⟩
  | succ made ih =>
    obtain ⟨last, reach, hex, -⟩ := ih fun j hj => h j (by omega)
    obtain ⟨q, ha, hd⟩ := attempt_of_not_terminal policy contact_course
      (reach.becomes.ready_iff.mpr ready) (h made (by omega))
    obtain ⟨-, -, hqex⟩ := attempt_projections ha contact_course
    have hcourse : c.course w op policy start (made + 1) =
        (c.course w op policy start made).andThen q := by simp [Client.course, ha]
    -- The error is forgotten with every further attempt, so it is known only by the last of them.
    refine ⟨_, hcourse ▸ Client.Reaches.next reach ha, ?_, fun j hj => ?_⟩
    · simp [hcourse, Progress.andThen, hex, hqex, List.range_succ]
    · obtain rfl : made = j := by omega
      exact ⟨rfl, hd⟩

theorem attempts_of_terminal (start : Progress σ) (ready : start.request.Ready)
    (hs : start.journal = []) (hm : made < policy.attempts)
    (ht : c.isTerminalAt w op policy start made = true)
    (h : ∀ j < made, c.isTerminalAt w op policy start j = false) :
    ∃ q, c.attempts w op policy policy.attempts 0 .noAttempts start =
        (c.settlementAt w op policy start made policy.attempts, q) ∧
      q.situation = (c.contactAt w op policy start made).2.situation ∧
      exchanges q.journal = (List.range (made + 1)).flatMap
        fun j => exchanges (c.contactAt w op policy start j).2.journal := by
  obtain ⟨last, reach, hex, -⟩ := reaches_course ready hs h
  obtain ⟨q, ha, hq⟩ := attempt_of_terminal policy contact_course ht
  obtain ⟨-, -, hqex⟩ := attempt_projections ha contact_course
  refine ⟨(c.course w op policy start made).andThen q, ?_, hq, ?_⟩
  · rw [attempts_eq_of_reaches reach (by omega),
      show policy.attempts - made = policy.attempts - (made + 1) + 1 by omega]
    simp only [Client.attempts, ha]
    rfl
  · simp [Progress.andThen, hex, hqex, List.range_succ]

theorem attempts_of_none_terminal (start : Progress σ) (ready : start.request.Ready)
    (hs : start.journal = []) (hm : policy.attempts = made + 1)
    (h : ∀ j < policy.attempts, c.isTerminalAt w op policy start j = false) :
    ∃ q, c.attempts w op policy policy.attempts 0 .noAttempts start =
        (.error (.afterAttempts policy.attempts policy.attempts
          (c.failureAt w op policy start made)), q) ∧
      selections q.journal = List.range' 1 policy.attempts ∧
      (c.contactAt w op policy start made).1.isDispatched = true := by
  obtain ⟨last, reach, -, hlast⟩ := reaches_course ready hs h
  obtain ⟨rfl, hd⟩ := hlast made hm
  rw [attempts_eq_of_reaches reach (Nat.le_refl _), Nat.sub_self]
  refine ⟨_, rfl, ?_, hd⟩
  rw [Progress.note, selections_append, reach.selections_eq hs]
  exact List.append_nil _

/-- Only the operation itself can make of an answer that no attempts were made. -/
theorem answered_of_failure_eq_noAttempts {o : Outcome} {r : Request}
    (hd : o.isDispatched = true) (h : o.failure op r = .noAttempts) :
    ∃ node m a, o = .answered node m a ∧ op.refusal r a = .noAttempts := by
  cases o with
  | unsendable => simp [Outcome.isDispatched] at hd
  | unknownNode => simp [Outcome.isDispatched] at hd
  | unopened | unanswered => simp [Outcome.failure] at h
  | answered node m a => exact ⟨node, m, a, rfl, h⟩

/-- The first terminal attempt ends an execution and decides it alone; nothing happens after it.
Without one, all attempts are dispatched, and the error is that of the last; that no attempts were
made is said only where the operation says so. -/
theorem execute_of_first_terminal (op : Operation α) {request prepared : Request}
    {situation s : Situation σ}
    (hp : c.prepare w request situation = .ok (prepared, s)) :
    let limit := max 1 ((c.maxAttempts.or request.limits.attempts).getD 10).toNat
    let policy := c.policy request.limits
    let start : Progress σ := ⟨prepared, s, []⟩
    let run := c.execute w op request situation
    (∀ made < limit, c.isTerminalAt w op policy start made = true →
      (∀ j < made, c.isTerminalAt w op policy start j = false) →
      run.1 = c.settlementAt w op policy start made limit ∧
      run.2.situation = (c.contactAt w op policy start made).2.situation ∧
      exchanges run.2.journal = (List.range (made + 1)).flatMap
        fun j => exchanges (c.contactAt w op policy start j).2.journal) ∧
    ((∀ made < limit, c.isTerminalAt w op policy start made = false) →
      selections run.2.journal = List.range' 1 limit ∧
      run.1 = .error (.afterAttempts limit limit (c.failureAt w op policy start (limit - 1))) ∧
      (c.failureAt w op policy start (limit - 1) = .noAttempts → ∃ node m a,
        (c.contactAt w op policy start (limit - 1)).1 = .answered node m a ∧
        op.refusal (c.contactAt w op policy start (limit - 1)).2.request a = .noAttempts)) := by
  intro limit policy start run
  obtain ⟨ready, hlimits, -⟩ := prepare_eq_ok hp
  obtain ⟨hresult, hsituation, hjournal, -⟩ := execute_eq_run c w op request situation
  have hrun : c.run w op request situation =
      c.attempts w op policy limit 0 .noAttempts start := by
    simp only [Client.run, hp, hlimits]
    rfl
  rw [hrun] at hresult hsituation hjournal
  constructor
  · intro made hm ht h
    obtain ⟨q, hq, hs, hx⟩ := attempts_of_terminal start ready rfl hm ht h
    have hq' : c.attempts w op policy limit 0 .noAttempts start = _ := hq
    rw [hq'] at hresult hsituation hjournal
    exact ⟨hresult, hsituation.trans hs, (congrArg exchanges hjournal).trans hx⟩
  · intro h
    have hm : policy.attempts = limit - 1 + 1 := show limit = limit - 1 + 1 by omega
    obtain ⟨q, hq, hsel, hd⟩ := attempts_of_none_terminal start ready rfl hm h
    have hq' : c.attempts w op policy limit 0 .noAttempts start = _ := hq
    rw [hq'] at hresult hjournal
    exact ⟨(congrArg selections hjournal).trans hsel, hresult, answered_of_failure_eq_noAttempts hd⟩

/-- Of two nodes the first cannot be reached and the second refuses: with five attempts the refusal
of the second decides, and with one the fault of the first. -/
theorem execute_of_unreachable_and_refusing :
    let s := Stage.situation [.unreachable, .answering [.invalidSignature]]
    let nodes := Rotation.ofList [(Stage.node 3).1, (Stage.node 4).1]
    let request := Request.query { QueryRequest.ofBody default with nodes }
    let patient := { Client.default with maxAttempts := some 5 }
    let hasty := { Client.default with maxAttempts := some 1 }
    (patient.prepare Stage.world request s = .ok (request, s) ∧
      (patient.execute Stage.world queryOperation request s).1 =
        .error (.afterAttempts 2 5 (.queryRefused .invalidSignature))) ∧
    (hasty.prepare Stage.world request s = .ok (request, s) ∧
      (hasty.execute Stage.world queryOperation request s).1 =
        .error (.afterAttempts 1 1 (.fault ⟨.unavailable, "unreachable"⟩))) := by
  intro s nodes request patient hasty
  have hpatient : patient.prepare Stage.world request s = .ok (request, s) := rfl
  have hhasty : hasty.prepare Stage.world request s = .ok (request, s) := rfl
  have hterminal := (execute_of_first_terminal queryOperation hpatient).1 1
    (by decide) (by decide) (by decide)
  have hnone := (execute_of_first_terminal queryOperation hhasty).2 (by decide)
  exact ⟨⟨hpatient, hterminal.1⟩, hhasty, hnone.2.1⟩

end LedgerClient
