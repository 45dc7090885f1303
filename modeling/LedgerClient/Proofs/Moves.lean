import LedgerClient.Proofs.Course
import LedgerClient.Proofs.NodeSet

namespace LedgerClient

variable {σ α : Type} {c : Client} {w : World σ} {op : Operation α} {policy : Policy}
  {request prepared chosen : Request} {situation s s' t : Situation σ} {start p q r : Progress σ}
  {e : Ending α} {k made : Nat} {last : DispatchError} {o : Outcome} {node found : Node}
  {m : Message} {channel : Channel} {id : AccountId} {a b journal : List Entry}

/-- The channel that is open to a node. -/
def Situation.held (s : Situation σ) (id : AccountId) : Option Channel :=
  (s.network.find? id).bind fun node => node.state.channel

/-- Whether a decision is to sleep. -/
def Event.announcesSleep : Event → Bool
  | .nodeUnhealthy _ _ | .backoff _ _ => true
  | _ => false

/-- The ways from one situation to another, with what is on record of them. A sleep is announced,
and lasts as long as the world lets it. A channel is asked for of a node as it is then, and a message
goes over the channel that its node holds. -/
inductive Moves (w : World σ) : Situation σ → List Entry → Situation σ → Prop
  | refl {s : Situation σ} : Moves w s [] s
  | trans {s t u : Situation σ} {a b : List Entry} :
      Moves w s a t → Moves w t b u → Moves w s (a ++ b) u
  | note {s : Situation σ} {event : Event} : event.announcesSleep = false →
      Moves w s [.event event] s
  | use {s : Situation σ} {id : AccountId} : Moves w s [] (s.useNode id)
  | reward {s : Situation σ} {id : AccountId} : Moves w s [] (s.rewardNode id)
  | penalize {s : Situation σ} {node : Node} :
      Moves w s [.penalized node.id (s.penalizeNode node).2] (s.penalizeNode node).1
  | wait {s t : Situation σ} {node : Node} {wait took : Nat} :
      s.network.find? node.id = some node → node.state.waitRemaining s.now = wait →
      s.sleep w wait = (took, t) →
      Moves w s [.event (.nodeUnhealthy node.id wait), .waited node.id wait took] t
  | delay {s t : Situation σ} {attempt took : Nat} {delay : Duration} :
      s.sleep w delay.nanos = (took, t) →
      Moves w s [.event (.backoff attempt delay), .delayed delay took] t
  | select {s : Situation σ} {max : UInt64} : Moves w s [] (s.select w max).2
  | generate {s : Situation σ} {account : AccountId} : Moves w s [] (s.generate w account).2
  | held {s : Situation σ} {node : Node} {channel : Channel} :
      s.network.find? node.id = some node → node.state.channel = some channel →
      Moves w s [.acquired s.now node] s
  | opened {s : Situation σ} {node : Node} {channel : Channel} {took : Nat} {world : σ} :
      s.network.find? node.id = some node → node.state.channel = none →
      w.connect node.address s.world = (.ok channel, took, world) →
      Moves w s
        [.acquired s.now node, .passed took, .connected node.id node.address (.ok channel)]
        (({ s with world := world }.elapse took).update node.id fun state =>
          { state with channel := some channel })
  | closed {s : Situation σ} {node : Node} {f : Fault} {took : Nat} {world : σ} :
      s.network.find? node.id = some node → node.state.channel = none →
      w.connect node.address s.world = (.error f, took, world) →
      Moves w s [.acquired s.now node, .passed took, .connected node.id node.address (.error f)]
        ({ s with world := world }.elapse took)
  | call {s t : Situation σ} {node : Node} {channel : Channel} {m : Message}
      {x : Except Fault Answer} {took : Nat} :
      s.held node.id = some channel → s.call w channel m = (x, took, t) →
      Moves w s [.passed took, .called s.now (node.holding channel) channel m x] t

theorem moves_of_acquire {y : Except Fault Channel} (h : s.acquire w node = (y, t, journal))
    (hf : s.network.find? node.id = some node) : Moves w s journal t := by
  unfold Situation.acquire at h
  cases hheld : node.state.channel with
  | some channel =>
    simp only [hheld] at h
    cases h
    exact .held hf hheld
  | none =>
    rcases hc : w.connect node.address s.world with ⟨outcome, took, world⟩
    simp only [hheld, hc] at h
    cases outcome with
    | ok channel =>
      cases h
      exact .opened hf hheld hc
    | error f =>
      cases h
      exact .closed hf hheld hc

/-- From `p` on the client has moved to `q`. -/
def Progress.Proceeds (w : World σ) (p q : Progress σ) : Prop :=
  ∃ steps, q.journal = p.journal ++ steps ∧ Moves w p.situation steps q.situation

theorem Progress.Proceeds.trans (h : p.Proceeds w q) (h' : q.Proceeds w r) : p.Proceeds w r := by
  obtain ⟨a, ha, hmoves⟩ := h
  obtain ⟨b, hb, hmoves'⟩ := h'
  exact ⟨a ++ b, by rw [hb, ha, List.append_assoc], hmoves.trans hmoves'⟩

theorem Progress.Proceeds.andThen (h : start.Proceeds w p) (hq : p.afresh.Proceeds w q) :
    start.Proceeds w (p.andThen q) := by
  obtain ⟨steps, hj, moves⟩ := hq
  exact h.trans ⟨steps, congrArg (p.journal ++ ·) hj, moves⟩

theorem proceeds_of_eq (hs : q.situation = p.situation) (hj : q.journal = p.journal) :
    p.Proceeds w q :=
  ⟨[], by rw [hj, List.append_nil], hs ▸ .refl⟩

theorem proceeds_note {event : Event} (h : event.announcesSleep = false) :
    p.Proceeds w (p.note event) :=
  ⟨_, rfl, .note h⟩

theorem proceeds_reward : p.Proceeds w (p.reward node) :=
  ⟨[], (List.append_nil _).symm, .reward⟩

theorem proceeds_penalize : p.Proceeds w (p.penalize node) :=
  ⟨_, rfl, .penalize⟩

theorem proceeds_delay {delay : Duration} :
    p.Proceeds w ((p.note (.backoff k delay)).sleep w delay.nanos (.delayed delay)) :=
  ⟨_, List.append_assoc .., .delay rfl⟩

theorem find?_of_useNode (hf : p.situation.network.find? m.node = some found)
    (hu : found.use p.situation.now = node) :
    (p.situation.useNode node.id).network.find? node.id = some node := by
  have hid : found.id = m.node := (Network.find?_eq_some hf).2
  subst hu
  have hfound : p.situation.network.find? found.id = some found := hid ▸ hf
  exact Network.find?_update_self hfound

theorem proceeds_approach (hf : p.situation.network.find? m.node = some found)
    (hu : found.use p.situation.now = node) : p.Proceeds w (p.approach w k node).advance := by
  have hselected : p.Proceeds w (Progress.note { p with
      situation := p.situation.useNode node.id } (.nodeSelected k node.id node.address)) :=
    ⟨_, rfl, Moves.use.trans (.note rfl)⟩
  have happroach : p.Proceeds w (p.approach w k node) := by
    simp only [Progress.approach]
    split
    · exact hselected
    · exact hselected.trans
        ⟨_, List.append_assoc .., .wait (find?_of_useNode hf hu) rfl rfl⟩
  exact happroach.trans (proceeds_of_eq rfl rfl)

/-- The node that is selected is in the network as it was selected. -/
theorem find?_of_approach (w : World σ) (k : Nat)
    (hf : p.situation.network.find? m.node = some found)
    (hu : found.use p.situation.now = node) :
    (p.approach w k node).advance.situation.network.find? node.id = some node := by
  have hnet : (p.approach w k node).advance.situation.network =
      (p.situation.useNode node.id).network :=
    (approached_of_approach w k node p).network_eq
  rw [hnet]
  exact find?_of_useNode hf hu

theorem held_of_find? (h : s.network.find? id = some node) : s.held id = node.state.channel := by
  rw [Situation.held, h, Option.bind_some]

/-- A channel that was asked for and is there is the one that the node holds from then on. -/
theorem held_of_acquire (h : p.acquire w node = (.ok channel, q))
    (hf : p.situation.network.find? node.id = some node) :
    q.situation.held node.id = some channel := by
  cases acquired_of_acquire h with
  | held hheld => exact (held_of_find? hf).trans hheld
  | opened =>
    simp [Situation.held, Situation.update, Situation.elapse, Network.find?_update, hf]

theorem proceeds_acquire {y : Except Fault Channel} (h : p.acquire w node = (y, q))
    (hf : p.situation.network.find? node.id = some node) : p.Proceeds w q := by
  cases h
  exact ⟨_, rfl, moves_of_acquire rfl hf⟩

theorem proceeds_call {x : Except Fault Answer} (h : p.call w node channel m = (x, q))
    (hheld : p.situation.held node.id = some channel) : p.Proceeds w q := by
  cases h
  exact ⟨_, rfl, .call hheld rfl⟩

theorem proceeds_of_acquire {y : Except Fault Channel}
    (hf : p.situation.network.find? m.node = some found)
    (hu : found.use p.situation.now = node)
    (ho : (p.approach w k node).advance.acquire w node = (y, q)) : p.Proceeds w q :=
  (proceeds_approach hf hu).trans (proceeds_acquire ho (find?_of_approach w k hf hu))

theorem proceeds_of_call {x : Except Fault Answer}
    (hf : p.situation.network.find? m.node = some found)
    (hu : found.use p.situation.now = node)
    (ho : (p.approach w k node).advance.acquire w node = (.ok channel, q))
    (hc : q.call w node channel m = (x, r)) : p.Proceeds w r := by
  have hheld := held_of_acquire ho (find?_of_approach w k hf hu)
  exact (proceeds_of_acquire hf hu ho).trans (proceeds_call hc hheld)

theorem proceeds_of_contact (h : p.contact w k = (o, q)) : p.Proceeds w q := by
  cases contacted_of_contact h with
  | unsendable | unknownNode => exact proceeds_of_eq rfl rfl
  | unopened _ hf hu ho =>
    exact (proceeds_of_acquire hf hu ho).trans (proceeds_penalize.trans (proceeds_note rfl))
  | dropped _ hf hu ho hc =>
    exact (proceeds_of_call hf hu ho hc).trans ((proceeds_note rfl).trans proceeds_penalize)
  | broken _ hf hu ho hc => exact (proceeds_of_call hf hu ho hc).trans (proceeds_note rfl)
  | answered _ hf hu ho hc => exact (proceeds_of_call hf hu ho hc).trans proceeds_reward

theorem proceeds_of_replacement {previous next : TransactionId}
    (h : c.replaceExpired? w p = some (previous, next, q)) : p.Proceeds w q := by
  obtain ⟨operator, _, _, _, _, _, _, rfl⟩ := replaceExpired?_eq_some h
  have hgenerated : Moves w p.situation [] (p.situation.generate w operator).2 := .generate
  exact ⟨[], (List.append_nil _).symm, hgenerated⟩

theorem proceeds_of_attempt (h : c.attempt w op policy k p = (e, q)) : p.Proceeds w q := by
  cases attempted_of_attempt h with
  | unsendable hk | unknownNode hk | broken hk | spent hk =>
    exact (proceeds_of_contact hk).trans (proceeds_note rfl)
  | unopened hk | dropped hk => exact proceeds_of_contact hk
  | stale hk | refused hk | finished hk =>
    exact (proceeds_of_contact hk).trans ((proceeds_note rfl).trans (proceeds_note rfl))
  | retried hk _ _ hr =>
    subst hr
    exact (proceeds_of_contact hk).trans ((proceeds_note rfl).trans proceeds_delay)
  | replaced hk _ hr =>
    have hreplaced := proceeds_of_replacement hr
    exact (proceeds_of_contact hk).trans
      ((proceeds_note rfl).trans (hreplaced.trans (proceeds_note rfl)))

theorem Client.Reaches.proceeds (reach : c.Reaches w op policy start made last p) :
    start.Proceeds w p := by
  induction reach with
  | start => exact proceeds_of_eq rfl rfl
  | next _ ha ih => exact ih.andThen (proceeds_of_attempt ha)

/-- What is around the request after a step of its preparation, also if the step failed. -/
def leftAfter : Except (Unprepared σ) (Request × Situation σ) → Situation σ
  | .error (_, _, s) | .ok (_, s) => s

theorem moves_of_chooseNodes : Moves w s [] (leftAfter (c.chooseNodes w request s)) := by
  have hselect : Moves w s [] (s.select w c.maxNodes).2 := .select
  unfold Client.chooseNodes
  split
  next =>
    split
    next hs => simpa only [hs, leftAfter] using hselect
    next hs => simpa only [hs, leftAfter] using hselect
  next => exact .refl

theorem moves_of_chooseId : Moves w s [] (leftAfter (c.chooseId w request s)) := by
  unfold Client.chooseId
  split
  next => exact .refl
  next t =>
    split
    next => exact .refl
    next =>
      split
      next => exact .refl
      next operator _ =>
        have hgenerate : Moves w s [] (s.generate w operator).2 := .generate
        cases hp : t.ids.push (s.generate w operator).1 <;>
          simpa only [hp, leftAfter] using hgenerate

theorem moves_of_prepare : Moves w s [] (leftAfter (c.prepare w request s)) := by
  have hnodes : Moves w s [] (leftAfter (c.chooseNodes w request s)) := moves_of_chooseNodes
  unfold Client.prepare
  cases hn : c.chooseNodes w request s with
  | error x =>
    rw [hn] at hnodes
    exact hnodes
  | ok x =>
    obtain ⟨chosen, s'⟩ := x
    rw [hn] at hnodes
    exact hnodes.trans moves_of_chooseId

theorem moves_of_run (c : Client) (w : World σ) (op : Operation α) (request : Request)
    (situation : Situation σ) : Moves w situation (c.run w op request situation).2.journal
      (c.run w op request situation).2.situation := by
  generalize hrun : c.run w op request situation = run
  obtain ⟨result, q⟩ := run
  have hleft : Moves w situation [] (leftAfter (c.prepare w request situation)) := moves_of_prepare
  rcases run_cases hrun with ⟨e, r', s', hp, -, rfl⟩ | ⟨prepared, s, hp, hend⟩
  · rw [hp] at hleft
    exact hleft.trans (.note rfl)
  · rw [hp] at hleft
    suffices hproceeds : Progress.Proceeds w ⟨prepared, s, []⟩ q by
      obtain ⟨steps, hj, moves⟩ := hproceeds
      rw [hj]
      exact hleft.trans moves
    cases hend with
    | settled reach _ ha => exact reach.proceeds.andThen (proceeds_of_attempt ha)
    | exhausted reach => exact reach.proceeds.trans (proceeds_note rfl)

theorem moves_of_execute (c : Client) (w : World σ) (op : Operation α) (request : Request)
    (situation : Situation σ) : Moves w situation (c.execute w op request situation).2.journal
      (c.execute w op request situation).2.situation := by
  obtain ⟨-, hsituation, hjournal, -⟩ := execute_eq_run c w op request situation
  rw [hsituation, hjournal]
  exact moves_of_run c w op request situation

end LedgerClient
