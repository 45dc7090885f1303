import LedgerClient.Proofs.Causes

namespace LedgerClient

variable {σ α : Type} {c : Client} {w : World σ} {op : Operation α} {request : Request}
  {situation : Situation σ} {p q r : Progress σ} {k asked now : Nat} {e : DispatchError}
  {o : Outcome} {node : Node} {channel : Channel} {m : Message} {a : Answer}
  {x : Except Fault Answer} {code : Precheck} {y z : Entry}
  {before after earlier later pause opening : List Entry}

/-- What is on record between asking for the channel of a node and having it, and the time by then.
If the node holds one, that is nothing. -/
inductive Node.Opening (node : Node) (channel : Channel) (asked : Nat) : List Entry → Nat → Prop
  | held : node.state.channel = some channel → Opening node channel asked [] asked
  | opened {took : Nat} : node.state.channel = none → Opening node channel asked
      [.passed took, .connected node.id node.address (.ok channel)] (asked + took)

theorem Node.Opening.calls_eq (h : node.Opening channel asked opening now) :
    calls opening = [] := by
  cases h <;> rfl

theorem Node.Pause.calls_eq (h : node.Pause w asked pause now) : calls pause = [] :=
  List.filterMap_eq_nil_iff.mpr fun _ hx => (h.undecided hx).2.2

theorem opening_of_acquire (h : p.acquire w node = (.ok channel, q)) :
    ∃ opening, node.Opening channel p.situation.now opening q.situation.now ∧
      q.journal = p.journal ++ .acquired p.situation.now node :: opening := by
  unfold Progress.acquire Situation.acquire at h
  cases hch : node.state.channel with
  | some held =>
    simp only [hch] at h
    cases h
    exact ⟨[], .held hch, rfl⟩
  | none =>
    rcases hc : w.connect node.address p.situation.world with ⟨outcome, took, world⟩
    simp only [hch, hc] at h
    cases outcome with
    | error f => cases h
    | ok opened =>
      cases h
      exact ⟨_, .opened hch, rfl⟩

/-- A step that is neither before nor after another on record is the same. -/
theorem eq_of_split (h : earlier ++ y :: later = before ++ z :: after) (hearlier : z ∉ earlier)
    (hlater : z ∉ later) : before = earlier ∧ z = y ∧ after = later := by
  rcases split_append h with ⟨rest, hr⟩ | ⟨rest, hr, hb⟩
  · exact absurd (mem_of_split hr) hearlier
  · cases rest with
    | nil =>
      cases hr
      exact ⟨by rw [hb, List.append_nil], rfl, rfl⟩
    | cons first rest =>
      have htail : later = rest ++ z :: after := (List.cons.inj hr).2
      exact absurd (mem_of_split htail) hlater

/-- On a record with a single call, every split at a call is a split at this one. -/
theorem eq_of_split_at_call (h : earlier ++ y :: later = before ++ z :: after)
    (hearlier : calls earlier = []) (hlater : calls later = []) (hz : z.call?.isSome) :
    before = earlier ∧ z = y ∧ after = later := by
  obtain ⟨call, hcall⟩ := Option.isSome_iff_exists.mp hz
  have hnot : ∀ {l : List Entry}, calls l = [] → z ∉ l := by
    intro l hl hmem
    have hnone := List.filterMap_eq_nil_iff.mp hl z hmem
    rw [hcall] at hnone
    cases hnone
  exact eq_of_split h (hnot hearlier) (hnot hlater)

/-- The way of a message to a node, from the selection of the node to the call: the message names
the node, the channel is the one the node holds, or else one opened to its address, and the outcome
is what comes back over this channel. -/
structure Delivered (w : World σ) (before : List Entry) (now : Nat) (node : Node)
    (channel : Channel) (m : Message) (x : Except Fault Answer) : Prop where
  named : node.id = m.node
  reply : ∃ s : Situation σ, s.now = now ∧ (s.call w channel m).1 = x
  trail : ∃ earlier k selected since pause asked opening took,
    node = Node.holding selected channel ∧ selected.Pause w since pause asked ∧
    selected.Opening channel asked opening now ∧
    before = earlier ++ .event (.nodeSelected k selected.id selected.address) ::
      (pause ++ .acquired asked selected :: (opening ++ [.passed took]))

theorem Delivered.prepend (h : Delivered w before now node channel m x) (first : List Entry) :
    Delivered w (first ++ before) now node channel m x := by
  obtain ⟨earlier, k, selected, since, pause, asked, opening, took, hnode, hpause, hopening, hb⟩ :=
    h.trail
  refine ⟨h.named, h.reply, first ++ earlier, k, selected, since, pause, asked, opening, took,
    hnode, hpause, hopening, ?_⟩
  rw [hb, List.append_assoc]

theorem delivered_of_call {found selected : Node} {opened : Channel} {sent : Message}
    {outcome : Except Fault Answer} (hf : p.situation.network.find? sent.node = some found)
    (hu : found.use p.situation.now = selected)
    (ho : (p.afresh.approach w k selected).advance.acquire w selected = (.ok opened, q))
    (hc : q.call w selected opened sent = (outcome, r)) (hlater : calls later = [])
    (hj : r.journal ++ later = before ++ .called now node channel m x :: after) :
    Delivered w before now node channel m x := by
  obtain ⟨-, pause, hpause, hp⟩ := (approached_of_approach w k selected p.afresh).pauses
  obtain ⟨opening, hopening, hq⟩ := opening_of_acquire ho
  obtain ⟨took, _, -, -, hr⟩ := call_eq hc
  have hreply : (q.situation.call w opened sent).1 = outcome := congrArg Prod.fst hc
  have htrail : q.journal ++ [.passed took] =
      .event (.nodeSelected k selected.id selected.address) :: (pause ++
        .acquired (p.afresh.approach w k selected).situation.now selected ::
          (opening ++ [.passed took])) := by
    have hp' : (p.afresh.approach w k selected).advance.journal =
      .event (.nodeSelected k selected.id selected.address) :: pause := hp
    rw [hq, hp']
    simp [Progress.advance]
  have hnone : calls (q.journal ++ [.passed took]) = [] := by
    have hsince : calls (pause ++
        .acquired (p.afresh.approach w k selected).situation.now selected ::
          (opening ++ [.passed took])) = [] := by
      rw [calls_append, hpause.calls_eq]
      exact (calls_append (a := opening)).trans (by rw [hopening.calls_eq]; rfl)
    rw [htrail]
    exact hsince
  have hj' : (q.journal ++ [.passed took]) ++
      (.called q.situation.now (selected.holding opened) opened sent outcome :: later) =
      before ++ .called now node channel m x :: after := by
    rw [← hj, hr]
    simp
  obtain ⟨rfl, hcall, -⟩ := eq_of_split_at_call hj' hnone hlater rfl
  cases hcall
  have hnamed : selected.id = m.node := by
    subst hu
    exact (Network.find?_eq_some hf).2
  exact ⟨hnamed, ⟨q.situation, rfl, hreply⟩, [], k, selected, p.situation.now, pause, _, opening,
    took, rfl, hpause, hopening, htrail⟩

/-- Whatever a contact sends is delivered to the node that it names. -/
theorem delivered_of_contact (h : p.afresh.contact w k = (o, r))
    (hj : r.journal = before ++ .called now node channel m x :: after) :
    Delivered w before now node channel m x := by
  have hsome : o.calls ≠ [] := by
    intro hnone
    have hcalls := (contactSteps_of_contact h).calls
    rw [hj, hnone, calls_append] at hcalls
    simp [calls, Entry.call?] at hcalls
  cases contacted_of_contact h with
  | unsendable | unknownNode | unopened => exact absurd rfl hsome
  | dropped _ hf hu ho hc =>
    exact delivered_of_call hf hu ho hc rfl ((List.append_assoc ..).symm.trans hj)
  | broken _ hf hu ho hc => exact delivered_of_call hf hu ho hc rfl hj
  | answered _ hf hu ho hc =>
    exact delivered_of_call hf hu ho hc rfl ((List.append_nil _).trans hj)

/-- So it is with all that an execution sends. -/
theorem delivered_of_run
    (hj : (c.run w op request situation).2.journal =
      before ++ .called now node channel m x :: after) :
    Delivered w before now node channel m x := by
  rcases takes_of_step hj with ⟨k, text, hx⟩ | ⟨makes, hq, rfl, -⟩
  · cases hx
  obtain ⟨o, r, conclusions, hk, hr, -, hc, -⟩ := attempt_split makes.attempt_eq
  rw [hr] at hq
  rcases split_append hq with ⟨rest, hcontact⟩ | ⟨rest, hconclusions, -⟩
  · exact (delivered_of_contact hk hcontact).prepend _
  · have hcalled := hc _ (mem_of_split hconclusions)
    cases hcalled

/-- Every message on record was delivered to the node that it names. -/
def Addressed (w : World σ) (journal : List Entry) : Prop :=
  ∀ before now node channel m x after,
    journal = before ++ .called now node channel m x :: after →
      Delivered w before now node channel m x

theorem addressed_of_execute (c : Client) (w : World σ) (op : Operation α) (request : Request)
    (situation : Situation σ) : Addressed w (c.execute w op request situation).2.journal := by
  intro before now node channel m x after hj
  have hjournal := (execute_eq_run c w op request situation).2.2.1
  exact delivered_of_run (hjournal.symm.trans hj)

theorem Addressed.node_eq {journal : List Entry} (h : Addressed w journal)
    (hl : LastAnswer journal node m a) : m.node = node.id := by
  obtain ⟨before, now, channel, after, hj, -⟩ := hl
  exact (h before now node channel m _ after hj).named.symm

/-- A result is found in the answer of the last attempt. -/
theorem answered_of_execute {result : α}
    (h : (c.execute w op request situation).1 = .ok result) :
    ∃ k p node m a r, c.EndsWith w op request situation k p (.answered node m a) r ∧
      op.classify r.request a = .finished ∧ op.result r.request a node.id m = .ok result := by
  rw [(execute_eq_run c w op request situation).1] at h
  cases hp : c.prepare w request situation with
  | error e =>
    simp only [Client.run, hp, Progress.fail] at h
    cases h
  | ok prepared =>
    obtain ⟨k, p, o, r, ends⟩ := endsWith_of_prepare op hp
    have hresult := ends.result.symm.trans h
    cases o with
    | unsendable | unknownNode | unopened | unanswered => cases hresult
    | answered node m a =>
      by_cases hv : op.classify r.request a = .finished
      · simp only [Outcome.settlement, hv, if_true] at hresult
        exact ⟨k, p, node, m, a, r, ends, hv, hresult⟩
      · simp only [Outcome.settlement, hv, if_false] at hresult
        cases hresult

theorem precheck?_of_prepare (h : c.CannotPrepare w request situation e) :
    e.precheck? = none := by
  rcases prepare_eq_error h with ⟨-, -, rfl⟩ | ⟨_, -, -, ⟨-, rfl⟩ | ⟨-, rfl⟩⟩ <;> rfl

/-- A refusal is read off the answer of the last attempt. -/
theorem refused_of_execute (h : (c.execute w op request situation).1 = .error e)
    (hcode : e.precheck? = some code)
    (undecoded : ∀ {r a id m error}, op.result r a id m = .error error →
      ∃ reason, error = .undecodable reason) :
    ∃ k p node m a r, c.EndsWith w op request situation k p (.answered node m a) r ∧
      (op.refusal r.request a).precheck? = some code ∧
      e.root = (op.refusal r.request a).root := by
  cases fails_of_execute h with
  | unprepared hp =>
    rw [precheck?_of_prepare hp] at hcode
    cases hcode
  | unknownNode | faulted => cases hcode
  | refused ends => exact ⟨_, _, _, _, _, _, ends, hcode, rfl⟩
  | undecoded _ _ hresult =>
    obtain ⟨reason, rfl⟩ := undecoded hresult
    cases hcode

theorem Client.EndsWith.lastAnswer_of_execute
    (h : c.EndsWith w op request situation k p (.answered node m a) r) :
    ∃ called, LastAnswer (c.execute w op request situation).2.journal called m a ∧
      called.id = node.id := by
  rw [(execute_eq_run c w op request situation).2.2.1]
  exact h.lastAnswer

theorem Client.EndsWith.exists_query {q : QueryRequest}
    (h : c.EndsWith w op (.query q) situation k p (.answered node m a) r) :
    ∃ sent found, m = .query sent ∧ a = .query found := by
  obtain ⟨hm, ha, -⟩ := h.isQuery_eq
  cases m with
  | transaction sent => cases hm
  | query sent =>
    cases a with
    | submit found => cases ha
    | query found => exact ⟨sent, found, rfl, rfl⟩

theorem Client.EndsWith.exists_transaction {t : TransactionRequest}
    (h : c.EndsWith w op (.transaction t) situation k p (.answered node m a) r) :
    ∃ sent found, m = .transaction sent ∧ a = .submit found ∧
      r.request.transactionId? = some sent.id := by
  obtain ⟨-, ha, -⟩ := h.isQuery_eq
  obtain ⟨sent, hm, hid⟩ := h.transactionId?_eq rfl
  cases a with
  | query found => cases ha
  | submit found => exact ⟨sent, found, hm, rfl, hid⟩

/-- All messages are delivered to the nodes that they name. A result is that of the node that was
called last: its own answer, or the id that it was sent, which is then the id of the request. An
error with the code of a refusal has it from the last answer too, with the id that this node was
sent, even where the request has another by now. -/
theorem origin_of_results (c : Client) (w : World σ) (q : QueryRequest) (t : TransactionRequest)
    (situation : Situation σ) :
    let asked := c.execute w queryOperation (.query q) situation
    let sent := c.execute w submitOperation (.transaction t) situation
    Addressed w asked.2.journal ∧ Addressed w sent.2.journal ∧
    (∀ x, asked.1 = .ok x → ∃ node m a,
      LastAnswer asked.2.journal node (.query m) (.query a) ∧ m.node = node.id ∧
        x = ⟨node.id, a⟩) ∧
    (∀ x, sent.1 = .ok x → ∃ node m a,
      LastAnswer sent.2.journal node (.transaction m) (.submit a) ∧ m.node = node.id ∧
        x = ⟨m.id, node.id⟩ ∧ sent.2.request.transactionId? = some m.id) ∧
    (∀ e code, asked.1 = .error e → e.precheck? = some code → ∃ node m a,
      LastAnswer asked.2.journal node (.query m) (.query a) ∧ code = a.precheck ∧
        e.root = .queryRefused code) ∧
    (∀ e code, sent.1 = .error e → e.precheck? = some code → ∃ node m a,
      LastAnswer sent.2.journal node (.transaction m) (.submit a) ∧ code = a.precheck ∧
        e.root = .transactionRefused code m.id) := by
  intro asked sent
  have hasked : Addressed w asked.2.journal := addressed_of_execute _ _ _ _ _
  have hsent : Addressed w sent.2.journal := addressed_of_execute _ _ _ _ _
  refine ⟨hasked, hsent, fun x h => ?_, fun x h => ?_, fun e code h hcode => ?_,
    fun e code h hcode => ?_⟩
  · obtain ⟨k, p, node, m, a, r, ends, -, hresult⟩ := answered_of_execute h
    obtain ⟨called, hlast, hid⟩ := ends.lastAnswer_of_execute
    obtain ⟨m, a, rfl, rfl⟩ := ends.exists_query
    refine ⟨called, m, a, hlast, hasked.node_eq hlast, ?_⟩
    rw [hid]
    exact (Except.ok.inj hresult).symm
  · obtain ⟨k, p, node, m, a, r, ends, hv, hresult⟩ := answered_of_execute h
    obtain ⟨called, hlast, hid⟩ := ends.lastAnswer_of_execute
    obtain ⟨m, a, rfl, rfl, hm⟩ := ends.exists_transaction
    have hfresh : (Outcome.answered node (.transaction m) (.submit a)).isStale c submitOperation
        r.request = false := by
      simp [Outcome.isStale, hv]
    refine ⟨called, m, a, hlast, hsent.node_eq hlast, ?_, ?_⟩
    · rw [hid]
      exact (Except.ok.inj hresult).symm
    · have hrequest := (execute_eq_run c w submitOperation (.transaction t) situation).2.2.2
      rw [ends.kept hfresh] at hrequest
      exact hrequest.trans hm
  · obtain ⟨k, p, node, m, a, r, ends, hrefused, hroot⟩ :=
      refused_of_execute h hcode queryOperation_result_eq_error
    obtain ⟨called, hlast, -⟩ := ends.lastAnswer_of_execute
    obtain ⟨m, a, rfl, rfl⟩ := ends.exists_query
    obtain rfl : a.precheck = code := Option.some.inj hrefused
    exact ⟨called, m, a, hlast, rfl, hroot⟩
  · obtain ⟨k, p, node, m, a, r, ends, hrefused, hroot⟩ :=
      refused_of_execute h hcode submitOperation_result_eq_error
    obtain ⟨called, hlast, -⟩ := ends.lastAnswer_of_execute
    obtain ⟨m, a, rfl, rfl, hm⟩ := ends.exists_transaction
    rw [submitOperation_refusal hm] at hrefused hroot
    obtain rfl : a.precheck = code := Option.some.inj hrefused
    exact ⟨called, m, a, hlast, rfl, hroot⟩

/-- The node takes the id that is put in the place of the first. If it takes that one for too old as
well, the error is about it, though the request has a third id by then. -/
theorem origin_after_replacement :
    let taken := Stage.submit 2 [.transactionExpired, .ok]
    let refused := Stage.submit 2 [.transactionExpired]
    (taken.1 = .ok ⟨Stage.id 1, (Stage.node 3).1⟩ ∧
      taken.2.request.transactionId? = some (Stage.id 1)) ∧
    ∃ e node m a, refused.1 = .error e ∧ e.root = .transactionRefused .transactionExpired m.id ∧
      LastAnswer refused.2.journal node (.transaction m) a ∧ m.id = Stage.id 1 ∧
      refused.2.request.transactionId? = some (Stage.id 2) := by
  intro taken refused
  let client := { Client.default with
    configuredOperator := some Stage.operator
    maxAttempts := some 2 }
  have hsubmit : ∀ codes, Stage.submit 2 codes = client.execute Stage.world submitOperation
      (.transaction (.ofBody default)) (Stage.situation [.answering codes]) := fun _ => rfl
  have origin := fun codes => origin_of_results client Stage.world (.ofBody default)
    (.ofBody default) (Stage.situation [.answering codes])
  simp only [← hsubmit] at origin
  obtain ⟨-, -, -, hresults, -⟩ := origin [.transactionExpired, .ok]
  obtain ⟨-, -, -, -, -, herrors⟩ := origin [.transactionExpired]
  have hok : taken.1 = .ok ⟨Stage.id 1, (Stage.node 3).1⟩ := rfl
  have herror : refused.1 = .error (.afterAttempts 2 2
    (.transactionRefused .transactionExpired (Stage.id 1))) := rfl
  obtain ⟨_, m, _, -, -, hx, hid⟩ := hresults _ hok
  obtain ⟨node, m', a, hlast, -, hroot⟩ := herrors _ _ herror rfl
  have hm : m.id = Stage.id 1 := (congrArg Submission.id hx).symm
  rw [hm] at hid
  have hm' : Stage.id 1 = m'.id := (DispatchError.transactionRefused.inj hroot).2
  exact ⟨⟨hok, hid⟩, _, node, m', _, herror, hroot, hlast, hm'.symm, rfl⟩

end LedgerClient
