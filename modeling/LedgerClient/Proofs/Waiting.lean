import LedgerClient.Proofs.Clock
import LedgerClient.Proofs.Pacing
import LedgerClient.Rehearsal.Nodes

namespace LedgerClient

variable {σ α : Type} {c : Client} {w : World σ} {op : Operation α} {r : Request}
  {situation s : Situation σ} {p q : Progress σ} {e : Ending α} {k t now later limit : Nat}
  {selected woken : Nat} {node : Node} {state : NodeState} {a b pause : List Entry} {x : Entry}

theorem Client.Makes.moves (h : c.Makes w op r situation k p e q) :
    Moves w situation p.journal p.situation := by
  cases h with
  | intro hp reach =>
    have hleft : Moves w situation [] (leftAfter (c.prepare w r situation)) := moves_of_prepare
    rw [hp] at hleft
    obtain ⟨steps, hj, moves⟩ := reach.proceeds
    rw [hj]
    exact hleft.trans moves

theorem delay_of_run (h : t ∈ delays (c.run w op r situation).2.journal) :
    ∃ n, t = ((c.policy r.limits).backoff.delay n).nanos := by
  obtain ⟨x, hx, hd⟩ := List.mem_filterMap.mp h
  obtain ⟨before, after, hj⟩ := List.append_of_mem hx
  rcases takes_of_step hj with ⟨k, text, rfl⟩ | ⟨makes, hq, -, -⟩
  · cases hd
  · unfold Entry.delay? at hd
    split at hd
    next n delay =>
      cases hd
      obtain ⟨-, rfl, -⟩ := retried_of_backoff makes.attempt_eq (mem_of_split hq)
      exact ⟨_, rfl⟩
    next => cases hd

/-- What an attempt has on record of a node: its selection, perhaps a sleep, and what was done to it
from the time on at which the client was awake. -/
theorem Client.Makes.visited (h : c.Makes w op r situation k p e q) :
    (∀ x ∈ q.journal, x.isConclusion = true) ∨
      ∃ found pause woken rest, p.situation.network.find? found.id = some found ∧
        let node := found.use p.situation.now
        node.Pause w p.situation.now pause woken ∧
        q.journal = .event (.nodeSelected k found.id found.address) ::
          (pause ++ .acquired woken node :: rest) ∧
        ∀ x ∈ rest, node.Trail woken x ∨ x.isConclusion = true := by
  obtain ⟨o, s, conclusions, hk, hj, -, hc, -⟩ := attempt_split h.attempt_eq
  have hcontact := contacted_of_contact hk
  cases hd : o.isDispatched with
  | false =>
    left
    rw [hj, hcontact.eq_of_not_dispatched hd]
    exact hc
  | true =>
    obtain ⟨m, found, -, hf, hv⟩ := hcontact.visited hd
    obtain ⟨-, hid⟩ := Network.find?_eq_some hf
    cases hv with
    | @intro pause rest woken _ hpause _ hs ht =>
      refine .inr ⟨found, pause, woken, rest ++ conclusions, hid ▸ hf, hpause, ?_, fun x hx => ?_⟩
      · rw [hj, hs]
        simp [Progress.afresh, Node.use]
      · exact (List.mem_append.mp hx).imp (ht x) (hc x)

/-- Whatever stands in the record of a run and is no conclusion is part of such an attempt. -/
theorem visited_of_step (hj : (c.run w op r situation).2.journal = a ++ x :: b)
    (hx : x.isConclusion = false) :
    ∃ k p e q found pause woken rest earlier later more, c.Makes w op r situation k p e q ∧
      a = p.journal ++ earlier ∧ b = later ++ more ∧
      p.situation.network.find? found.id = some found ∧
      let node := found.use p.situation.now
      node.Pause w p.situation.now pause woken ∧
      .event (.nodeSelected k found.id found.address) ::
        (pause ++ .acquired woken node :: rest) = earlier ++ x :: later ∧
      ∀ y ∈ rest, node.Trail woken y ∨ y.isConclusion = true := by
  rcases takes_of_step hj with ⟨_, _, rfl⟩ | @⟨k, p, q, e, earlier, later, more, makes, hq, ha, hb⟩
  · cases hx
  · rcases makes.visited with hc | ⟨found, pause, woken, rest, hf, hpause, hvisit, hrest⟩
    · exact absurd (hc x (mem_of_split hq)) (by simp [hx])
    · exact ⟨k, p, e, q, found, pause, woken, rest, earlier, later, more, makes, ha, hb, hf, hpause,
        hvisit.symm.trans hq, hrest⟩

/-- When the channel of a node was asked for or used, and the node as it was then. -/
def Entry.visit? : Entry → Option (Nat × Node)
  | .acquired now node | .called now node _ _ _ => some (now, node)
  | _ => none

theorem Entry.not_isConclusion_of_visit? (h : x.visit? = some (t, node)) :
    x.isConclusion = false := by
  unfold Entry.visit? at h
  split at h
  case h_3 => cases h
  all_goals rfl

theorem Node.Pause.visit? (h : node.Pause w selected pause woken) (hx : x ∈ pause) :
    x.visit? = none := by
  cases h with
  | awake => cases hx
  | slept =>
    obtain rfl | rfl := by simpa using hx
    all_goals rfl

theorem Node.Trail.visit? (h : node.Trail woken x) {other : Node}
    (hx : x.visit? = some (t, other)) : woken ≤ t ∧ ∃ channel, other = node.holding channel := by
  cases h with
  | called hle =>
    cases hx
    exact ⟨hle, _, rfl⟩
  | passed | connected | channelFailed | callFailed | penalized => cases hx

/-- Whenever the channel of a node is asked for or used, the client has waited since the node was
selected, if it had to. -/
theorem visit_of_run (hb : situation.Bounded) (hx : x ∈ (c.run w op r situation).2.journal)
    (hv : x.visit? = some (t, node)) :
    ∃ selected pause woken, node.state.lastUsed = some selected ∧
      node.Pause w selected pause woken ∧ woken ≤ t ∧
      node.state.waitRemaining selected ≤ situation.network.bounds.max.nanos := by
  obtain ⟨before, after, hj⟩ := List.append_of_mem hx
  obtain ⟨k, p, e, q, found, pause, woken, rest, earlier, later, _, makes, -, -, hf, hpause, hsteps,
    hrest⟩ := visited_of_step hj (Entry.not_isConclusion_of_visit? hv)
  have hwait : found.state.waitRemaining p.situation.now ≤ situation.network.bounds.max.nanos :=
    makes.moves.bounds_eq ▸ makes.moves.bounded hb found (Network.find?_eq_some hf).1
  have hmem := mem_of_split hsteps
  rcases List.mem_cons.mp hmem with rfl | hmem
  · cases hv
  rcases List.mem_append.mp hmem with hslept | hmem
  · rw [hpause.visit? hslept] at hv
    cases hv
  rcases List.mem_cons.mp hmem with rfl | hmem
  · cases hv
    exact ⟨_, pause, t, rfl, hpause, Nat.le_refl _, hwait⟩
  rcases hrest x hmem with htrail | hc
  · obtain ⟨hle, channel, rfl⟩ := htrail.visit? hv
    -- the node has got a channel since, which has no part in its penalty
    have hpause' : ((found.use p.situation.now).holding channel).Pause w p.situation.now pause
        woken := by
      cases hpause with
      | awake healthy => exact .awake healthy
      | slept ill hwait hs => exact .slept ill hwait hs
    exact ⟨_, pause, woken, rfl, hpause', hle, hwait⟩
  · simp [Entry.not_isConclusion_of_visit? hv] at hc

theorem NodeState.waitRemaining_of_le (h : now ≤ later) :
    state.waitRemaining later = state.waitRemaining now - (later - now) := by
  rw [← NodeState.waitRemaining_add, Nat.add_sub_cancel' h]

/-- A sleep that is not too short outlasts the penalty. -/
theorem Node.Pause.waitRemaining_eq (h : node.Pause w selected pause woken)
    (hw : w.NeverWakesEarly limit) (hle : node.state.waitRemaining selected ≤ limit) :
    node.state.waitRemaining woken = 0 := by
  cases h with
  | awake healthy => exact NodeState.isHealthy_iff.mp healthy
  | @slept _ took world _ _ hwait hs =>
    have htook : node.state.waitRemaining selected ≤ took := by
      have hearly := hw selected _ world hle
      rw [hwait, hs] at hearly
      exact hwait ▸ hearly
    rw [NodeState.waitRemaining_add, Nat.sub_eq_zero_of_le htook]

/-- What stands after a selection. -/
theorem pause_of_selected {id : AccountId} {address : NodeAddress}
    (hj : (c.run w op r situation).2.journal = a ++ .event (.nodeSelected k id address) :: b) :
    ∃ p e q found pause woken rest, c.Makes w op r situation k p e q ∧ a = p.journal ∧
      p.situation.network.find? id = some found ∧
      let node := found.use p.situation.now
      node.Pause w p.situation.now pause woken ∧ b = pause ++ .acquired woken node :: rest := by
  obtain ⟨k', p, e, q, found, pause, woken, rest, earlier, later, more, makes, rfl, rfl, hf, hpause,
    hsteps, hrest⟩ := visited_of_step hj rfl
  cases earlier with
  | nil =>
    simp only [List.nil_append, List.cons.injEq, Entry.event.injEq, Event.nodeSelected.injEq]
      at hsteps
    obtain ⟨⟨rfl, rfl, rfl⟩, rfl⟩ := hsteps
    refine ⟨p, e, q, found, pause, woken, rest ++ more, makes, List.append_nil _, hf, hpause, ?_⟩
    simp
  | cons y earlier =>
    -- There is no other selection in the same attempt.
    obtain ⟨-, htail⟩ := List.cons.inj hsteps
    rcases List.mem_append.mp (mem_of_split htail) with hslept | hmem
    · cases (hpause.undecided hslept).2.1
    rcases List.mem_cons.mp hmem with hx | hmem
    · cases hx
    rcases hrest _ hmem with htrail | hc
    · cases htrail
    · cases hc

/-- A warning follows right after the selection. -/
theorem selected_of_warning {id : AccountId} {wait : Nat}
    (hj : (c.run w op r situation).2.journal = a ++ .event (.nodeUnhealthy id wait) :: b) :
    ∃ earlier k address, a = earlier ++ [.event (.nodeSelected k id address)] := by
  obtain ⟨k, p, e, q, found, pause, woken, rest, earlier, later, more, makes, rfl, rfl, hf, hpause,
    hsteps, hrest⟩ := visited_of_step hj rfl
  cases earlier with
  | nil => cases hsteps
  | cons y earlier =>
    obtain ⟨rfl, htail⟩ := List.cons.inj hsteps
    rcases split_append htail with ⟨rest', hslept⟩ | ⟨rest', htrail, -⟩
    · cases hpause with
      | awake => simp at hslept
      | slept =>
        cases earlier with
        | nil =>
          cases hslept
          exact ⟨p.journal, k, found.address, rfl⟩
        | cons y' earlier => cases earlier <;> simp at hslept
    · rcases List.mem_cons.mp (mem_of_split htrail) with hx | hmem
      · cases hx
      · rcases hrest _ hmem with htrail | hc
        · cases htrail
        · cases hc

/-- What a client has been through: executions one after the other, and between them any time, and
penalties for any node. -/
inductive Client.Session (c : Client) (w : World σ) : Situation σ → Prop
  | start (bounds : Backoff) (entries : List (AccountId × NodeAddress)) (now : Nat) (world : σ) :
      Session c w ⟨.ofEntries bounds entries, now, world⟩
  | execute {s : Situation σ} {α : Type} (op : Operation α) (r : Request) :
      Session c w s → Session c w (c.execute w op r s).2.situation
  | elapse {s : Situation σ} (nanos : Nat) : Session c w s → Session c w (s.elapse nanos)
  | penalize {s : Situation σ} (node : Node) :
      Session c w s → Session c w (s.penalizeNode node).1

theorem Client.Session.bounded (h : c.Session w s) : s.Bounded := by
  induction h with
  | start => exact bounded_of_ofEntries
  | execute op r _ ih => exact (moves_of_execute c w op r _).bounded ih
  | elapse _ _ ih => exact ih.elapse
  | penalize _ _ ih => exact ih.penalizeNode

/-- All the time that an execution takes is on record, and the client sleeps as it announces, until
the penalty of a node is over that it has selected, or before it tries again. How long a sleep lasts
is up to the timer. If that is never too short, nothing is done to a node within its penalty; if it
is as long as it should be, and nothing else takes time, an execution takes as long as its waits and
delays. -/
theorem time_of_execution (h : c.Session w s) (op : Operation α) (r : Request) :
    let run := c.execute w op r s
    let journal := run.2.journal
    let penalty := s.network.bounds.max.nanos
    let bounds := (c.policy r.limits).backoff
    let longest := max penalty bounds.max.nanos
    run.2.situation.now = s.now + elapsed journal ∧
    (naps journal).map Prod.fst = announced journal ∧
    (∀ nap ∈ naps journal, ∃ now world, (w.sleep now nap.1 world).1 = nap.2) ∧
    (∀ t ∈ waits journal, t ≤ penalty) ∧ (∀ t ∈ delays journal, t ≤ bounds.max.nanos) ∧
    (w.NeverWakesEarly longest → (waits journal).sum + (delays journal).sum ≤ elapsed journal) ∧
    (∀ tick, w.Prompt → w.Punctual tick longest → s.Aligned tick → bounds.Aligned tick →
      run.2.situation.now = s.now + (waits journal).sum + (delays journal).sum ∧
        run.2.situation.Aligned tick) ∧
    (∀ before k id address after,
      journal = before ++ .event (.nodeSelected k id address) :: after →
      ∃ p e q found pause woken rest, c.Makes w op r s k p e q ∧ before = p.journal ∧
        p.situation.network.find? id = some found ∧
        let now := p.situation.now
        let node := found.use now
        now = s.now + elapsed before ∧ node.Pause w now pause woken ∧
        after = pause ++ .acquired woken node :: rest) ∧
    (∀ before id wait after, journal = before ++ .event (.nodeUnhealthy id wait) :: after →
      ∃ earlier k address, before = earlier ++ [.event (.nodeSelected k id address)]) ∧
    ∀ x ∈ journal, ∀ t node, x.visit? = some (t, node) →
      ∃ selected, node.state.lastUsed = some selected ∧ selected ≤ t ∧
        let wait := node.state.waitRemaining selected
        wait ≤ penalty ∧ node.state.waitRemaining t = wait - (t - selected) ∧
        (w.NeverWakesEarly penalty →
          node.state.isHealthy t = true ∧ node.state.waitRemaining t = 0) := by
  intro run journal penalty bounds longest
  have hb := h.bounded
  have moves : Moves w s journal run.2.situation := moves_of_execute c w op r s
  have hjournal : journal = (c.run w op r s).2.journal := (execute_eq_run c w op r s).2.2.1
  have hwaits : ∀ t ∈ waits journal, t ≤ penalty := moves.waits_le hb
  have hdelay : ∀ t ∈ delays journal, ∃ n, t = (bounds.delay n).nanos := by
    rw [hjournal]
    exact fun _ => delay_of_run
  have hdelays : ∀ t ∈ delays journal, t ≤ bounds.max.nanos := by
    intro t ht
    obtain ⟨n, rfl⟩ := hdelay t ht
    exact Backoff.delay_le
  refine ⟨moves.now_eq, moves.naps_eq, moves.slept, hwaits, hdelays, fun hw => ?_,
    fun tick hprompt hpunctual hs haligned => ?_, fun before k id address after hj => ?_,
    fun _ _ _ _ hj => selected_of_warning (hjournal.symm.trans hj), fun x hx t node hv => ?_⟩
  · rw [← sum_announced]
    refine moves.sum_announced_le hw fun t ht => ?_
    rcases mem_waits_or_delays ht with hwait | hdelay
    · exact Nat.le_trans (hwaits t hwait) (Nat.le_max_left ..)
    · exact Nat.le_trans (hdelays t hdelay) (Nat.le_max_right ..)
  · have hd : ∀ delay ∈ delays journal, tick ∣ delay ∧ delay ≤ longest := by
      intro t ht
      obtain ⟨n, rfl⟩ := hdelay t ht
      exact ⟨haligned.delay, Nat.le_trans (hdelays _ ht) (Nat.le_max_right ..)⟩
    obtain ⟨hlast, helapsed⟩ :=
      moves.aligned hprompt hpunctual hs hb (Nat.le_max_left ..) hd
    refine ⟨?_, hlast⟩
    rw [moves.now_eq, helapsed, sum_announced, Nat.add_assoc]
  · obtain ⟨p, e, q, found, pause, woken, rest, makes, rfl, hf, hpause, hafter⟩ :=
      pause_of_selected (hjournal.symm.trans hj)
    exact ⟨p, e, q, found, pause, woken, rest, makes, rfl, hf, makes.moves.now_eq, hpause, hafter⟩
  · obtain ⟨selected, pause, woken, hused, hpause, hle, hwait⟩ := visit_of_run hb (hjournal ▸ hx) hv
    have hselected : selected ≤ t := Nat.le_trans hpause.le hle
    refine ⟨selected, hused, hselected, hwait, NodeState.waitRemaining_of_le hselected,
      fun hw => ?_⟩
    have hover : node.state.waitRemaining t = 0 := by
      rw [NodeState.waitRemaining_of_le hle, hpause.waitRemaining_eq hw hwait, Nat.zero_sub]
    exact ⟨NodeState.isHealthy_iff.mpr hover, hover⟩

theorem Stage.prompt : Stage.world.Prompt :=
  ⟨fun _ _ => rfl, fun _ _ _ => rfl, fun _ _ _ => rfl⟩

theorem Stage.neverWakesEarly : Stage.world.NeverWakesEarly longestSleep := by
  intro now nanos _ hle
  refine Nat.le_min.mpr ⟨?_, hle⟩
  omega

theorem Stage.punctual : Stage.world.Punctual 1000000 longestSleep := by
  rintro _ _ _ ⟨now, rfl⟩ ⟨nanos, rfl⟩ hle
  refine Nat.min_eq_left ?_ |>.trans ?_
  all_goals omega

/-- A node that breaks off once is called again when its penalty of eight seconds is over. -/
theorem time_of_penalty :
    let s : Situation Stage := Stage.situation
      [⟨[], [.error ⟨.unavailable, "refused"⟩, .ok ⟨.ok, 0, default⟩]⟩]
    let c := { Client.default with maxAttempts := some 2 }
    let run := c.execute Stage.world queryOperation (.query (.ofBody default)) s
    c.Session Stage.world s ∧ waits run.2.journal = [8000 * 1000000] ∧
      run.2.situation.now = 8000 * 1000000 ∧
      ∀ x ∈ run.2.journal, ∀ t node, x.visit? = some (t, node) → node.state.isHealthy t = true := by
  intro s c run
  have session : c.Session Stage.world s := .start _ _ _ _
  obtain ⟨-, -, -, -, -, -, htime, -, -, hvisit⟩ :=
    time_of_execution session queryOperation (.query (.ofBody default))
  have hwaits : waits run.2.journal = [8000 * 1000000] := by decide
  have hdelays : delays run.2.journal = [] := by decide
  have haligned : s.Aligned 1000000 :=
    aligned_of_ofEntries ⟨by decide, by decide⟩ (Nat.dvd_zero _)
  refine ⟨session, hwaits, ?_, fun x hx t node hv => ?_⟩
  · have hnow := (htime 1000000 Stage.prompt (Stage.punctual.mono (by decide)) haligned
      ⟨by decide, by decide⟩).1
    have hbegin : s.now = 0 := rfl
    rw [hwaits, hdelays, hbegin] at hnow
    simpa using hnow
  · obtain ⟨_, -, -, -, -, healthy⟩ := hvisit x hx t node hv
    exact (healthy (Stage.neverWakesEarly.mono (by decide))).1

/-- A timer may take longer than it should, or may not be able to sleep as long as a penalty lasts:
here a wait of one nanosecond takes a millisecond, and a node is called one millisecond before its
penalty of a little more than thirty years is over. -/
theorem called_within_penalty :
    let s (penalty : Backoff) : Situation Stage := { Stage.situation
      [⟨[], [.error ⟨.unavailable, "refused"⟩, .ok ⟨.ok, 0, default⟩]⟩] with
      network := .ofEntries penalty [Stage.node 3] }
    let c := { Client.default with maxAttempts := some 2 }
    let run penalty :=
      (c.execute Stage.world queryOperation (.query (.ofBody default)) (s penalty)).2
    let least : Backoff := ⟨⟨1, by decide⟩, ⟨1, by decide⟩⟩
    let longest : Backoff := ⟨.ofMillis 946080000001, .ofMillis 946080000001⟩
    Stage.world.Prompt ∧ (∀ penalty, c.Session Stage.world (s penalty)) ∧
      waits (run least).journal = [1] ∧ delays (run least).journal = [] ∧
      (run least).situation.now = (s least).now + 1000000 ∧
      ∃ x ∈ (run longest).journal, ∃ t node, x.visit? = some (t, node) ∧ x.call?.isSome = true ∧
        node.state.isHealthy t = false ∧ node.state.waitRemaining t = 1000000 := by
  intro s c run least longest
  have called : ∃ x ∈ (run longest).journal, x.call?.isSome = true ∧
      x.visit?.any (fun (t, node) =>
        !node.state.isHealthy t && node.state.waitRemaining t == 1000000) = true := by decide
  obtain ⟨x, hx, hcall, hvisit⟩ := called
  obtain ⟨⟨t, node⟩, hv, hleft⟩ := (Option.any_eq_true ..).mp hvisit
  simp only [Bool.and_eq_true, Bool.not_eq_true', beq_iff_eq] at hleft
  exact ⟨Stage.prompt, fun _ => .start _ _ _ _, by decide, by decide, by decide, x, hx, t, node, hv,
    hcall, hleft⟩

end LedgerClient
