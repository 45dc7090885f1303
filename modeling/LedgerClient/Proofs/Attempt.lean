import LedgerClient.Proofs.Dispatch
import LedgerClient.Proofs.Replacement

namespace LedgerClient

variable {σ α : Type} {w : World σ} {k : Nat} {p q : Progress σ} {o : Outcome}

/-- The ways a contact can go, with what it leads to. This is the part of an attempt that the nodes
decide. -/
inductive Contacted (w : World σ) (k : Nat) (p : Progress σ) : Outcome → Progress σ → Prop
  | unsendable {e : DispatchError} : p.request.message = .error e →
      Contacted w k p (.unsendable e) p
  | unknownNode {m : Message} : p.request.message = .ok m →
      p.situation.network.find? m.node = none → Contacted w k p (.unknownNode m.node) p
  | unopened {m : Message} {found node : Node} {f : Fault} {q : Progress σ} :
      p.request.message = .ok m → p.situation.network.find? m.node = some found →
      found.use p.situation.now = node →
      (p.approach w k node).advance.acquire w node = (.error f, q) →
      Contacted w k p (.unopened node f) ((q.penalize node).note (.channelFailed node.id f))
  | dropped {m : Message} {found node : Node} {channel : Channel} {f : Fault} {q r : Progress σ} :
      p.request.message = .ok m → p.situation.network.find? m.node = some found →
      found.use p.situation.now = node →
      (p.approach w k node).advance.acquire w node = (.ok channel, q) →
      q.call w node channel m = (.error f, r) → f.isTransient = true →
      Contacted w k p (.unanswered node m f)
        ((r.note (.callFailed node.id f f.isTransient)).penalize node)
  | broken {m : Message} {found node : Node} {channel : Channel} {f : Fault} {q r : Progress σ} :
      p.request.message = .ok m → p.situation.network.find? m.node = some found →
      found.use p.situation.now = node →
      (p.approach w k node).advance.acquire w node = (.ok channel, q) →
      q.call w node channel m = (.error f, r) → f.isTransient = false →
      Contacted w k p (.unanswered node m f) (r.note (.callFailed node.id f f.isTransient))
  | answered {m : Message} {found node : Node} {channel : Channel} {a : Answer}
      {q r : Progress σ} :
      p.request.message = .ok m → p.situation.network.find? m.node = some found →
      found.use p.situation.now = node →
      (p.approach w k node).advance.acquire w node = (.ok channel, q) →
      q.call w node channel m = (.ok a, r) →
      Contacted w k p (.answered node m a) (r.reward node)

theorem contacted_of_contact (h : p.contact w k = (o, q)) : Contacted w k p o q := by
  unfold Progress.contact at h
  split at h
  next e hm => cases h; exact .unsendable hm
  next m hm =>
    split at h
    next hf => cases h; exact .unknownNode hm hf
    next found hf =>
      simp only at h
      split at h
      next f r hr => cases h; exact .unopened hm hf rfl hr
      next channel r hr =>
        split at h
        next f s hs =>
          cases h
          by_cases ht : f.isTransient = true
          · rw [if_pos ht]
            exact .dropped hm hf rfl hr hs ht
          · rw [if_neg ht]
            exact .broken hm hf rfl hr hs (Bool.eq_false_iff.mpr ht)
        next a s hs => cases h; exact .answered hm hf rfl hr hs

def Outcome.calls : Outcome → List Call
  | .unanswered _ m f => [⟨m, .error f⟩]
  | .answered _ m a => [⟨m, .ok a⟩]
  | _ => []

def Outcome.isDispatched : Outcome → Bool
  | .unsendable _ | .unknownNode _ => false
  | _ => true

theorem Contacted.eq_of_not_dispatched (h : Contacted w k p o q) (hd : o.isDispatched = false) :
    q = p := by
  cases h with
  | unsendable | unknownNode => rfl
  | unopened | dropped | broken | answered => cases hd

/-- All that is dispatched is a visit to the node that the message names. -/
theorem Contacted.visited (h : Contacted w k p o q) (hd : o.isDispatched = true) :
    ∃ m found, p.request.message = .ok m ∧ p.situation.network.find? m.node = some found ∧
      Visited w k (found.use p.situation.now) o.calls p q := by
  cases h with
  | unsendable | unknownNode => cases hd
  | @unopened m found _ _ _ hm hf hu ho =>
    subst hu
    refine ⟨m, found, hm, hf,
      (visited_of_acquire ho).append rfl (Nat.le_refl _) (List.append_assoc ..) ?_ rfl⟩
    simp [Node.Trail.penalized, Node.Trail.channelFailed]
  | @dropped m found _ _ _ _ _ hm hf hu ho hc =>
    subst hu
    refine ⟨m, found, hm, hf, (visited_of_call (visited_of_acquire ho) hc).append rfl
      (Nat.le_refl _) (List.append_assoc ..) ?_ rfl⟩
    simp [Node.Trail.penalized, Node.Trail.callFailed]
  | @broken m found _ _ _ _ _ hm hf hu ho hc =>
    subst hu
    refine ⟨m, found, hm, hf, (visited_of_call (visited_of_acquire ho) hc).append rfl
      (Nat.le_refl _) rfl ?_ rfl⟩
    simp [Node.Trail.callFailed]
  | @answered m found _ _ _ _ _ hm hf hu ho hc =>
    subst hu
    exact ⟨m, found, hm, hf, (visited_of_call (visited_of_acquire ho) hc).append rfl
      (Nat.le_refl _) (List.append_nil _).symm (by simp) rfl⟩

theorem Contacted.request_eq (h : Contacted w k p o q) :
    q.request = if o.isDispatched then p.request.advance else p.request := by
  cases hd : o.isDispatched with
  | false => exact congrArg Progress.request (h.eq_of_not_dispatched hd)
  | true =>
    obtain ⟨_, _, -, -, hr, -⟩ := h.visited hd
    exact hr

/-- A request, its message and the answer to it are of one kind. -/
theorem Contacted.isQuery_eq {node : Node} {m : Message} {a : Answer}
    (h : Contacted w k p (.answered node m a) q) :
    m.isQuery = p.request.isQuery ∧ a.isQuery = p.request.isQuery := by
  cases h with
  | @answered m found node channel a r s hm hf hn ho hc =>
    have hmq := (Request.message_eq_ok hm).2.1
    refine ⟨hmq, hmq ▸ ?_⟩
    unfold Progress.call Situation.call at hc
    cases m with
    | query m =>
      simp only [Prod.mk.injEq] at hc
      cases hw : (w.query channel m r.situation.world).1 with
      | error f => simp [hw, Except.map] at hc
      | ok x => simp only [hw, Except.map, Except.ok.injEq] at hc; rw [← hc.1]; rfl
    | transaction m =>
      simp only [Prod.mk.injEq] at hc
      cases hw : (w.submit channel m r.situation.world).1 with
      | error f => simp [hw, Except.map] at hc
      | ok x => simp only [hw, Except.map, Except.ok.injEq] at hc; rw [← hc.1]; rfl

theorem Contacted.steps (h : Contacted w k p o q) :
    ∃ steps, q.journal = p.journal ++ steps ∧
      ContactSteps (if o.isDispatched then [k] else []) o.calls steps := by
  cases hd : o.isDispatched with
  | false =>
    have hcalls : o.calls = [] := by
      cases o with
      | unsendable | unknownNode => rfl
      | unopened | unanswered | answered => cases hd
    rw [h.eq_of_not_dispatched hd, hcalls]
    exact ⟨[], (List.append_nil _).symm, by simp, rfl, rfl⟩
  | true =>
    obtain ⟨_, _, -, -, hv⟩ := h.visited hd
    exact hv.steps

/-- All that one attempt can be: what the client makes of its contact. -/
inductive Attempted (c : Client) (w : World σ) (op : Operation α) (policy : Policy) (k : Nat)
    (p : Progress σ) : Ending α → Progress σ → Prop
  | unsendable {e : DispatchError} {q : Progress σ} : p.contact w k = (.unsendable e, q) →
      Attempted c w op policy k p (.settled (.error e)) (q.note (.failed k e.message))
  | unknownNode {id : AccountId} {q : Progress σ} : p.contact w k = (.unknownNode id, q) →
      Attempted c w op policy k p (.settled (.error (.unknownNode id)))
        (q.note (.failed k (DispatchError.unknownNode id).message))
  | unopened {node : Node} {f : Fault} {q : Progress σ} : p.contact w k = (.unopened node f, q) →
      Attempted c w op policy k p (.unsettled (.fault f)) q
  | dropped {node : Node} {m : Message} {f : Fault} {q : Progress σ} :
      p.contact w k = (.unanswered node m f, q) → f.isTransient = true →
      Attempted c w op policy k p (.unsettled (.fault f)) q
  | broken {node : Node} {m : Message} {f : Fault} {q : Progress σ} :
      p.contact w k = (.unanswered node m f, q) → f.isTransient = false →
      Attempted c w op policy k p (.settled (.error (.afterAttempts k policy.attempts (.fault f))))
        (q.note (.failed k (DispatchError.afterAttempts k policy.attempts (.fault f)).message))
  | retried {node : Node} {m : Message} {a : Answer} {q r : Progress σ} :
      p.contact w k = (.answered node m a, q) → op.classify q.request a = .retry →
      k < policy.attempts →
      (q.note (.classified node.id a.precheck .retry)).note
        (.backoff k (policy.backoff.delay (k - 1))) = r →
      Attempted c w op policy k p (.unsettled (op.refusal q.request a))
        (r.sleep w (policy.backoff.delay (k - 1)).nanos (.delayed (policy.backoff.delay (k - 1))))
  | spent {node : Node} {m : Message} {a : Answer} {q : Progress σ} :
      p.contact w k = (.answered node m a, q) → op.classify q.request a = .retry →
      policy.attempts ≤ k →
      Attempted c w op policy k p (.unsettled (op.refusal q.request a))
        (q.note (.classified node.id a.precheck .retry))
  | replaced {node : Node} {m : Message} {a : Answer} {previous next : TransactionId}
      {q r : Progress σ} :
      p.contact w k = (.answered node m a, q) → op.classify q.request a = .expired →
      c.replaceExpired? w (q.note (.classified node.id a.precheck .expired)) =
        some (previous, next, r) →
      Attempted c w op policy k p (.unsettled (op.refusal q.request a))
        (r.note (.regenerated previous next))
  | stale {node : Node} {m : Message} {a : Answer} {q : Progress σ} :
      p.contact w k = (.answered node m a, q) → op.classify q.request a = .expired →
      c.replaceExpired? w (q.note (.classified node.id a.precheck .expired)) = none →
      Attempted c w op policy k p
        (.settled (.error (.afterAttempts k policy.attempts (op.refusal q.request a))))
        ((q.note (.classified node.id a.precheck .expired)).note
          (.failed k (DispatchError.afterAttempts k policy.attempts
            (op.refusal q.request a)).message))
  | refused {node : Node} {m : Message} {a : Answer} {q : Progress σ} :
      p.contact w k = (.answered node m a, q) → op.classify q.request a = .error →
      Attempted c w op policy k p
        (.settled (.error (.afterAttempts k policy.attempts (op.refusal q.request a))))
        ((q.note (.classified node.id a.precheck .error)).note
          (.failed k (DispatchError.afterAttempts k policy.attempts
            (op.refusal q.request a)).message))
  | finished {node : Node} {m : Message} {a : Answer} {q : Progress σ} :
      p.contact w k = (.answered node m a, q) → op.classify q.request a = .finished →
      Attempted c w op policy k p (.settled (op.result q.request a node.id m))
        ((q.note (.classified node.id a.precheck .finished)).note (.finished node.id k))

theorem attempted_of_attempt {c : Client} {op : Operation α} {policy : Policy} {e : Ending α}
    (h : c.attempt w op policy k p = (e, q)) : Attempted c w op policy k p e q := by
  unfold Client.attempt at h
  split at h
  next e q hc => cases h; exact .unsendable hc
  next id q hc => cases h; exact .unknownNode hc
  next node f q hc => cases h; exact .unopened hc
  next node m f q hc =>
    split at h
    next ht => cases h; exact .dropped hc ht
    next ht => cases h; exact .broken hc (Bool.eq_false_iff.mpr ht)
  next node m a q hc =>
    unfold Client.conclude at h
    simp only [show (q.note (.classified node.id a.precheck (op.classify q.request a))).request =
      q.request from rfl] at h
    split at h
    next hv =>
      rw [hv] at h
      split at h
      next hk => cases h; exact .retried hc hv hk rfl
      next hk => cases h; exact .spent hc hv (by omega)
    next hv =>
      rw [hv] at h
      split at h
      next previous next r hr => cases h; exact .replaced hc hv hr
      next hr => cases h; exact .stale hc hv hr
    next hv => rw [hv] at h; cases h; exact .refused hc hv
    next hv => rw [hv] at h; cases h; exact .finished hc hv

section answered

variable {c : Client} {op : Operation α} {policy : Policy} {e : Ending α} {r : Progress σ}
  {node : Node} {m : Message} {a : Answer}

/-- Right after an answer stands what the operation takes it for. -/
theorem classified_of_answered (h : c.attempt w op policy k p = (e, q))
    (hk : p.contact w k = (.answered node m a, r)) :
    ∃ rest, q.journal = r.journal ++
      .event (.classified node.id a.precheck (op.classify r.request a)) :: rest := by
  cases attempted_of_attempt h with
  | unsendable hk' | unknownNode hk' | unopened hk' | dropped hk' | broken hk' =>
    cases hk.symm.trans hk'
  | retried hk' hv _ hs =>
    cases hk.symm.trans hk'
    subst hs
    rw [hv]
    exact ⟨_, (List.append_assoc ..).trans (List.append_assoc ..)⟩
  | spent hk' hv =>
    cases hk.symm.trans hk'
    rw [hv]
    exact ⟨[], rfl⟩
  | replaced hk' hv hr =>
    cases hk.symm.trans hk'
    obtain ⟨_, _, _, _, _, _, _, rfl⟩ := replaceExpired?_eq_some hr
    rw [hv]
    exact ⟨_, List.append_assoc ..⟩
  | stale hk' hv | refused hk' hv | finished hk' hv =>
    cases hk.symm.trans hk'
    rw [hv]
    exact ⟨_, List.append_assoc ..⟩

/-- An id that is too old and must not be replaced is the end of an execution. -/
theorem stale_of_answered (h : c.attempt w op policy k p = (e, q))
    (hk : p.contact w k = (.answered node m a, r)) (hx : op.classify r.request a = .expired)
    (hno : c.mayReplaceId r.request = false) :
    let error := DispatchError.afterAttempts k policy.attempts (op.refusal r.request a)
    e = .settled (.error error) ∧ q.journal = r.journal ++
      [.event (.classified node.id a.precheck .expired), .event (.failed k error.message)] := by
  cases attempted_of_attempt h with
  | unsendable hk' | unknownNode hk' | unopened hk' | dropped hk' | broken hk' =>
    cases hk.symm.trans hk'
  | retried hk' hv | spent hk' hv | refused hk' hv | finished hk' hv =>
    cases hk.symm.trans hk'
    cases hx.symm.trans hv
  | replaced hk' hv hr =>
    cases hk.symm.trans hk'
    obtain ⟨_, _, _, _, hm, _⟩ := replaceExpired?_eq_some hr
    cases hno.symm.trans hm
  | stale hk' =>
    cases hk.symm.trans hk'
    exact ⟨rfl, List.append_assoc ..⟩

end answered

/-- Whether the answer calls for another id, and one may be put in its place. -/
def Outcome.isStale (c : Client) (op : Operation α) (r : Request) : Outcome → Bool
  | .answered _ _ a => op.classify r a = .expired && c.mayReplaceId r
  | _ => false

/-- What the conclusions of an attempt make of the request after its contact. -/
inductive Followed (c : Client) (op : Operation α) (o : Outcome) (r : Request)
    (conclusions : List Entry) : Request → Prop
  | kept : replacements conclusions = [] → (r.Ready → o.isStale c op r = false) →
      Followed c op o r conclusions r
  | replaced {t : TransactionRequest} {previous next : TransactionId} :
      r = .transaction t → t.ids.current? = some previous →
      replacements conclusions = [(previous, next)] → o.isStale c op r = true →
      Followed c op o r conclusions (.transaction { t with ids := t.ids.overwrite next })

theorem Followed.becomes {c : Client} {op : Operation α} {r s : Request}
    {conclusions : List Entry} (h : Followed c op o r conclusions s) : r.Becomes s := by
  cases h with
  | kept => exact .refl
  | replaced ht =>
    subst ht
    exact .overwrite _ .refl

/-- After its contact an attempt records conclusions, and replaces the id at most. -/
theorem Attempted.after_contact {c : Client} {op : Operation α} {policy : Policy} {e : Ending α}
    (h : Attempted c w op policy k p e q) :
    ∃ o r conclusions, p.contact w k = (o, r) ∧ q.journal = r.journal ++ conclusions ∧
      (∀ e ∈ conclusions, e.isConclusion = true) ∧
      Followed c op o r.request conclusions q.request := by
  cases h with
  | unsendable hk =>
    exact ⟨_, _, _, hk, rfl, by simp [Entry.isConclusion], .kept rfl fun _ => rfl⟩
  | unknownNode hk =>
    exact ⟨_, _, _, hk, rfl, by simp [Entry.isConclusion], .kept rfl fun _ => rfl⟩
  | unopened hk => exact ⟨_, _, [], hk, by simp, by simp, .kept rfl fun _ => rfl⟩
  | dropped hk => exact ⟨_, _, [], hk, by simp, by simp, .kept rfl fun _ => rfl⟩
  | broken hk =>
    exact ⟨_, _, _, hk, rfl, by simp [Entry.isConclusion], .kept rfl fun _ => rfl⟩
  | retried hk hv _ hr =>
    subst hr
    exact ⟨_, _, _, hk, (List.append_assoc ..).trans (List.append_assoc ..),
      by simp [Entry.isConclusion], .kept rfl fun _ => by simp [Outcome.isStale, hv]⟩
  | spent hk hv =>
    exact ⟨_, _, _, hk, rfl, by simp [Entry.isConclusion],
      .kept rfl fun _ => by simp [Outcome.isStale, hv]⟩
  | replaced hk hv hr =>
    obtain ⟨_, t, _, ht, hm, hcur, _, rfl⟩ := replaceExpired?_eq_some hr
    refine ⟨_, _, _, hk, List.append_assoc .., by simp [Entry.isConclusion],
      .replaced ht hcur rfl ?_⟩
    simp only [Outcome.isStale, hv, decide_true, Bool.true_and]
    exact hm
  | @stale node m a r hk hv hr =>
    refine ⟨_, _, _, hk, List.append_assoc .., by simp [Entry.isConclusion],
      .kept rfl fun ready => ?_⟩
    -- A request that can be sent has an id, which is replaced wherever that is allowed.
    have hnone : ¬ (c.replaceExpired? w
        (r.note (.classified node.id a.precheck .expired))).isSome := by simp [hr]
    have hm : ¬ c.mayReplaceId r.request = true := fun hm =>
      hnone ((replaceExpired?_isSome_iff (p := r.note _) ready).mpr hm)
    simpa [Outcome.isStale, hv] using hm
  | refused hk hv =>
    exact ⟨_, _, _, hk, List.append_assoc .., by simp [Entry.isConclusion],
      .kept rfl fun _ => by simp [Outcome.isStale, hv]⟩
  | finished hk hv =>
    exact ⟨_, _, _, hk, List.append_assoc .., by simp [Entry.isConclusion],
      .kept rfl fun _ => by simp [Outcome.isStale, hv]⟩

end LedgerClient
