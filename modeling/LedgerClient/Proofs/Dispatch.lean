import LedgerClient.Execution
import LedgerClient.Proofs.Journal
import LedgerClient.Proofs.Windows

namespace LedgerClient

variable {σ : Type} {w : World σ} {k now selected woken took : Nat} {p q r : Progress σ}
  {node : Node} {channel : Channel} {m : Message} {x : Except Fault Answer}
  {y : Except Fault Channel} {made more : List Call} {later pause : List Entry}

/-- While the client sleeps, all stays as it is but the clock and the world. -/
theorem sleep_eq (w : World σ) (p : Progress σ) (nanos : Nat) (step : Nat → Entry) :
    ∃ took world, w.sleep p.situation.now nanos p.situation.world = (took, world) ∧
      p.sleep w nanos step = { p with
        situation := { p.situation with world := world }.elapse took
        journal := p.journal ++ [step took] } :=
  ⟨_, _, rfl, rfl⟩

/-- What is on record between the selection of a node and the time at which the client is done
waiting for it. If the penalty is over, that is nothing. -/
inductive Node.Pause (w : World σ) (node : Node) (selected : Nat) : List Entry → Nat → Prop
  | awake : node.state.isHealthy selected = true → Pause w node selected [] selected
  | slept {wait took : Nat} {world world' : σ} : node.state.isHealthy selected = false →
      node.state.waitRemaining selected = wait → w.sleep selected wait world = (took, world') →
      Pause w node selected
        [.event (.nodeUnhealthy node.id wait), .waited node.id wait took] (selected + took)

theorem Node.Pause.le (h : node.Pause w selected pause woken) : selected ≤ woken := by
  cases h with
  | awake => exact Nat.le_refl _
  | slept => exact Nat.le_add_right ..

theorem Node.Pause.undecided (h : node.Pause w selected pause woken) {e : Entry} (he : e ∈ pause) :
    e.isConclusion = false ∧ e.selection? = none ∧ e.call? = none := by
  cases h with
  | awake => cases he
  | slept =>
    obtain rfl | rfl := by simpa using he
    all_goals exact ⟨rfl, rfl, rfl⟩

/-- What may follow when the channel of a node was asked for at this time. -/
inductive Node.Trail (node : Node) (woken : Nat) : Entry → Prop
  | passed {took : Nat} : Trail node woken (.passed took)
  | connected {id : AccountId} {address : NodeAddress} {y : Except Fault Channel} :
      Trail node woken (.connected id address y)
  | called {now : Nat} {channel : Channel} {m : Message} {x : Except Fault Answer} :
      woken ≤ now → Trail node woken (.called now (node.holding channel) channel m x)
  | channelFailed {id : AccountId} {f : Fault} : Trail node woken (.event (.channelFailed id f))
  | callFailed {id : AccountId} {f : Fault} {transient : Bool} :
      Trail node woken (.event (.callFailed id f transient))
  | penalized {id : AccountId} {delay : Duration} : Trail node woken (.penalized id delay)

/-- The two ways to come to a node. -/
inductive Approached (w : World σ) (k : Nat) (node : Node) (p : Progress σ) : Progress σ → Prop
  | awake : node.state.isHealthy p.situation.now = true → Approached w k node p
      { p with
        situation := p.situation.useNode node.id
        journal := p.journal ++ [.event (.nodeSelected k node.id node.address)] }
  | slept {wait took : Nat} {world : σ} : node.state.isHealthy p.situation.now = false →
      node.state.waitRemaining p.situation.now = wait →
      w.sleep p.situation.now wait p.situation.world = (took, world) → Approached w k node p
      { p with
        situation := { p.situation.useNode node.id with world := world }.elapse took
        journal := p.journal ++ [.event (.nodeSelected k node.id node.address),
          .event (.nodeUnhealthy node.id wait), .waited node.id wait took] }

theorem approached_of_approach (w : World σ) (k : Nat) (node : Node) (p : Progress σ) :
    Approached w k node p (p.approach w k node) := by
  have hnow : (p.situation.useNode node.id).now = p.situation.now := rfl
  simp only [Progress.approach, Progress.note, hnow]
  split
  next h => exact .awake h
  next h =>
    rcases hs : w.sleep p.situation.now (node.state.waitRemaining p.situation.now)
      p.situation.world with ⟨took, world⟩
    have hslept := Approached.slept (k := k) (Bool.eq_false_iff.mpr h) rfl hs
    simpa [Progress.sleep, Situation.sleep, Situation.useNode, Situation.update, hs] using hslept

theorem Approached.network_eq (h : Approached w k node p q) :
    q.situation.network = p.situation.network.update node.id (NodeState.use · p.situation.now) := by
  cases h <;> rfl

/-- The ways to come by the channel of a node. -/
inductive Acquired (w : World σ) (node : Node) (p : Progress σ) :
    Except Fault Channel → Progress σ → Prop
  | held {channel : Channel} : node.state.channel = some channel →
      Acquired w node p (.ok channel)
        { p with journal := p.journal ++ [.acquired p.situation.now node] }
  | opened {channel : Channel} {took : Nat} {world : σ} :
      w.connect node.address p.situation.world = (.ok channel, took, world) →
      Acquired w node p (.ok channel)
        { p with
          situation := ({ p.situation with world := world }.elapse took).update node.id fun state =>
            { state with channel := some channel }
          journal := p.journal ++ [.acquired p.situation.now node, .passed took,
            .connected node.id node.address (.ok channel)] }
  | closed {f : Fault} {took : Nat} {world : σ} :
      w.connect node.address p.situation.world = (.error f, took, world) →
      Acquired w node p (.error f)
        { p with
          situation := { p.situation with world := world }.elapse took
          journal := p.journal ++ [.acquired p.situation.now node, .passed took,
            .connected node.id node.address (.error f)] }

theorem acquired_of_acquire (h : p.acquire w node = (y, q)) : Acquired w node p y q := by
  unfold Progress.acquire Situation.acquire at h
  cases hch : node.state.channel with
  | some channel =>
    simp only [hch] at h
    cases h
    exact .held hch
  | none =>
    rcases hc : w.connect node.address p.situation.world with ⟨y', took, world⟩
    simp only [hch, hc] at h
    cases y' with
    | ok channel =>
      cases h
      exact .opened hc
    | error f =>
      cases h
      exact .closed hc

/-- A call leaves all but the world as it is, and the clock goes on. -/
theorem call_eq (h : p.call w node channel m = (x, q)) :
    ∃ took world, q.request = p.request ∧
      q.situation = { p.situation with world := world }.elapse took ∧
      q.journal = p.journal ++
        [.passed took, .called p.situation.now (node.holding channel) channel m x] := by
  cases h
  cases m <;> exact ⟨_, _, rfl, rfl, rfl⟩

/-- A node was selected at `p` and has been dealt with up to `q`, where these calls were made. -/
inductive Visited (w : World σ) (k : Nat) (node : Node) (made : List Call) (p q : Progress σ) : Prop
  | intro {pause rest : List Entry} {woken : Nat} : q.request = p.request.advance →
      node.Pause w p.situation.now pause woken → woken ≤ q.situation.now →
      q.journal = p.journal ++ .event (.nodeSelected k node.id node.address) ::
        (pause ++ .acquired woken node :: rest) →
      (∀ x ∈ rest, node.Trail woken x) → calls rest = made → Visited w k node made p q

theorem Visited.append (h : Visited w k node made p q) (hr : r.request = q.request)
    (hnow : q.situation.now ≤ r.situation.now) (hj : r.journal = q.journal ++ later)
    (ht : ∀ woken, woken ≤ q.situation.now → ∀ x ∈ later, node.Trail woken x)
    (hc : calls later = more) : Visited w k node (made ++ more) p r := by
  cases h with
  | @intro pause rest woken hrequest hpause hwoken hrest trail hmade =>
    have hjournal : r.journal = p.journal ++ .event (.nodeSelected k node.id node.address) ::
        (pause ++ .acquired woken node :: (rest ++ later)) := by
      rw [hj, hrest]
      simp
    have hcalls : calls (rest ++ later) = made ++ more := by rw [calls_append, hmade, hc]
    refine .intro (hr.trans hrequest) hpause (Nat.le_trans hwoken hnow) hjournal (fun x hx => ?_)
      hcalls
    rcases List.mem_append.mp hx with hx | hx
    · exact trail x hx
    · exact ht woken hwoken x hx

/-- All there is to see of a node that was selected, before its channel is asked for. -/
theorem Approached.pauses (h : Approached w k node p q) :
    q.request = p.request ∧ ∃ pause, node.Pause w p.situation.now pause q.situation.now ∧
      q.journal = p.journal ++ .event (.nodeSelected k node.id node.address) :: pause := by
  cases h with
  | awake healthy => exact ⟨rfl, [], .awake healthy, rfl⟩
  | slept ill hwait hs => exact ⟨rfl, _, .slept ill hwait hs, rfl⟩

theorem visited_of_acquire (h : (p.approach w k node).advance.acquire w node = (y, q)) :
    Visited w k node [] p q := by
  obtain ⟨hrequest, pause, hpause, hj⟩ := (approached_of_approach w k node p).pauses
  have hadvance : (p.approach w k node).advance.request = p.request.advance :=
    congrArg Request.advance hrequest
  have hjournal : ∀ rest, (p.approach w k node).journal ++
      .acquired (p.approach w k node).situation.now node :: rest =
      p.journal ++ .event (.nodeSelected k node.id node.address) ::
        (pause ++ .acquired (p.approach w k node).situation.now node :: rest) := by
    intro rest
    rw [hj]
    simp
  cases acquired_of_acquire h with
  | held => exact .intro hadvance hpause (Nat.le_refl _) (hjournal []) (by simp) rfl
  | opened | closed =>
    refine .intro hadvance hpause (Nat.le_add_right ..) (hjournal [_, _]) (fun x hx => ?_) rfl
    obtain rfl | rfl := by simpa using hx
    · exact .passed
    · exact .connected

theorem visited_of_call (h : Visited w k node made p q) (hc : q.call w node channel m = (x, r)) :
    Visited w k node (made ++ [⟨m, x⟩]) p r := by
  obtain ⟨took, world, hr, hs, hj⟩ := call_eq hc
  refine h.append hr ?_ hj (fun woken hwoken y hy => ?_) rfl
  · rw [hs]
    exact Nat.le_add_right ..
  · obtain rfl | rfl := by simpa using hy
    · exact .passed
    · exact .called hwoken

/-- What a contact has on record: one selection and one call at most, and no conclusion. -/
structure ContactSteps (selected : List Nat) (made : List Call) (steps : List Entry) : Prop where
  undecided : ∀ e ∈ steps, e.isConclusion = false
  selections : selections steps = selected
  calls : calls steps = made

theorem ContactSteps.append {s t : List Nat} {x y : List Call} {a b : List Entry}
    (ha : ContactSteps s x a) (hb : ContactSteps t y b) :
    ContactSteps (s ++ t) (x ++ y) (a ++ b) where
  undecided e he := (List.mem_append.mp he).elim (ha.undecided e) (hb.undecided e)
  selections := by rw [selections_append, ha.selections, hb.selections]
  calls := by rw [calls_append, ha.calls, hb.calls]

theorem Node.Trail.undecided {e : Entry} (h : node.Trail woken e) :
    e.isConclusion = false ∧ e.selection? = none := by
  cases h <;> exact ⟨rfl, rfl⟩

theorem Visited.steps (h : Visited w k node made p q) :
    ∃ steps, q.journal = p.journal ++ steps ∧ ContactSteps [k] made steps := by
  cases h with
  | @intro pause rest woken _ hp _ hj ht hmade =>
    have hpause : ContactSteps [] [] pause :=
      ⟨fun e he => (hp.undecided he).1,
        List.filterMap_eq_nil_iff.mpr fun e he => (hp.undecided he).2.1,
        List.filterMap_eq_nil_iff.mpr fun e he => (hp.undecided he).2.2⟩
    have hrest : ContactSteps [] made rest :=
      ⟨fun e he => (ht e he).undecided.1,
        List.filterMap_eq_nil_iff.mpr fun e he => (ht e he).undecided.2, hmade⟩
    have hselected : ContactSteps [k] [] [.event (.nodeSelected k node.id node.address)] :=
      ⟨by simp [Entry.isConclusion], rfl, rfl⟩
    have hacquired : ContactSteps [] [] [.acquired woken node] :=
      ⟨by simp [Entry.isConclusion], rfl, rfl⟩
    exact ⟨_, hj, hselected.append (hpause.append (hacquired.append hrest))⟩

end LedgerClient
