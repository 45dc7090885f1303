import LedgerClient.Proofs.LastAttempt
import Mathlib.Data.List.Chain

namespace LedgerClient

variable {σ α : Type} {c : Client} {w : World σ} {op : Operation α} {policy : Policy}
  {r : Request} {situation : Situation σ} {start p q : Progress σ} {e : Ending α}
  {k made limit : Nat} {last : DispatchError} {o : Outcome} {node : Node} {m : Message}
  {channel : Channel} {id : AccountId} {es before after : List Event} {x : Event}

/-- How the round of a node begins. Perhaps there is something left of a penalty. -/
def announcement (k : Nat) (id : AccountId) (address : NodeAddress) (wait : Option Nat) :
    List Event :=
  .nodeSelected k id address :: (wait.map (Event.nodeUnhealthy id)).toList

/-- How round `k` of at most `limit` goes on if it settles nothing. -/
inductive LeavesOpen (limit k : Nat) (id : AccountId) : List Event → Prop
  | channelFailed {f : Fault} : LeavesOpen limit k id [.channelFailed id f]
  | callFailed {f : Fault} : LeavesOpen limit k id [.callFailed id f true]
  | retried {precheck : Precheck} {delay : Duration} : k < limit →
      LeavesOpen limit k id [.classified id precheck .retry, .backoff k delay]
  | spent {precheck : Precheck} : limit ≤ k →
      LeavesOpen limit k id [.classified id precheck .retry]
  | replaced {precheck : Precheck} {previous next : TransactionId} :
      LeavesOpen limit k id [.classified id precheck .expired, .regenerated previous next]

/-- How round `k` goes on if it is the last. -/
inductive Closes (k : Nat) (id : AccountId) : List Event → Prop
  | broken {f : Fault} {text : String} : Closes k id [.callFailed id f false, .failed k text]
  | refused {precheck : Precheck} {text : String} :
      Closes k id [.classified id precheck .error, .failed k text]
  | stale {precheck : Precheck} {text : String} :
      Closes k id [.classified id precheck .expired, .failed k text]
  | finished {precheck : Precheck} :
      Closes k id [.classified id precheck .finished, .finished id k]

/-- Rounds that settle nothing, and how many. -/
inductive Rounds (limit : Nat) : Nat → List Event → Prop
  | none : Rounds limit 0 []
  | next {made : Nat} {heard rest : List Event} {id : AccountId} {address : NodeAddress}
      {wait : Option Nat} : Rounds limit made heard → LeavesOpen limit (made + 1) id rest →
      Rounds limit (made + 1) (heard ++ (announcement (made + 1) id address wait ++ rest))

/-- All that can be heard of an execution of at most `limit` attempts. It can end without a round
only where the node of an attempt is not known. -/
inductive Word (limit : Nat) (unknown : Nat → Prop) : List Event → Prop
  | unknownNode {made : Nat} {heard : List Event} {text : String} : Rounds limit made heard →
      made < limit → unknown (made + 1) → Word limit unknown (heard ++ [.failed (made + 1) text])
  | closed {made : Nat} {heard rest : List Event} {id : AccountId} {address : NodeAddress}
      {wait : Option Nat} : Rounds limit made heard → made < limit → Closes (made + 1) id rest →
      Word limit unknown (heard ++ (announcement (made + 1) id address wait ++ rest))
  | exhausted {heard : List Event} {text : String} : Rounds limit limit heard →
      Word limit unknown (heard ++ [.failed limit text])

@[simp]
theorem events_note {event : Event} : events (p.note event).journal = events p.journal ++ [event] :=
  events_append

theorem events_note_note {event : Event} :
    events ((p.note event).note x).journal = events p.journal ++ [event, x] := by
  simp

theorem events_of_approach (w : World σ) (p : Progress σ) (k : Nat) (node : Node) :
    ∃ wait, events (p.approach w k node).advance.journal =
      events p.journal ++ announcement k node.id node.address wait := by
  obtain ⟨-, pause, hpause, hj⟩ := (approached_of_approach w k node p).pauses
  rw [Progress.advance, hj, events_append]
  generalize (p.approach w k node).situation.now = woken at hpause
  cases hpause with
  | awake => exact ⟨none, rfl⟩
  | @slept wait => exact ⟨some wait, rfl⟩

theorem events_of_acquire {y : Except Fault Channel} (h : p.acquire w node = (y, q)) :
    events q.journal = events p.journal := by
  cases acquired_of_acquire h with
  | held | opened | closed => simp [events]

theorem events_of_call {x : Except Fault Answer} (h : p.call w node channel m = (x, q)) :
    events q.journal = events p.journal := by
  obtain ⟨_, _, -, -, hj⟩ := call_eq h
  rw [hj]
  simp [events]

theorem events_sleep {nanos : Nat} {step : Nat → Entry} (h : ∀ took, events [step took] = []) :
    events (p.sleep w nanos step).journal = events p.journal := by
  obtain ⟨took, _, -, hp⟩ := sleep_eq w p nanos step
  rw [hp, events_append, h, List.append_nil]

theorem events_penalize : events (p.penalize node).journal = events p.journal := by
  simp [Progress.penalize, events]

/-- What is heard of the contact of attempt `k`. -/
def Outcome.heard (k : Nat) (wait : Option Nat) : Outcome → List Event
  | .unsendable _ | .unknownNode _ => []
  | .unopened node f => announcement k node.id node.address wait ++ [.channelFailed node.id f]
  | .unanswered node _ f =>
    announcement k node.id node.address wait ++ [.callFailed node.id f f.isTransient]
  | .answered node _ _ => announcement k node.id node.address wait

theorem heard_of_contact (h : p.afresh.contact w k = (o, q)) :
    ∃ wait, events q.journal = o.heard k wait := by
  have opened : ∀ {node y q}, (p.afresh.approach w k node).advance.acquire w node = (y, q) →
      ∃ wait, events q.journal = announcement k node.id node.address wait := by
    intro node y q ho
    obtain ⟨wait, hwait⟩ := events_of_approach w p.afresh k node
    exact ⟨wait, (events_of_acquire ho).trans hwait⟩
  cases contacted_of_contact h with
  | unsendable | unknownNode => exact ⟨none, rfl⟩
  | unopened _ _ _ ho =>
    obtain ⟨wait, hwait⟩ := opened ho
    exact ⟨wait, by rw [events_note, events_penalize, hwait, Outcome.heard]⟩
  | dropped _ _ _ ho hc =>
    obtain ⟨wait, hwait⟩ := opened ho
    exact ⟨wait, by rw [events_penalize, events_note, events_of_call hc, hwait, Outcome.heard]⟩
  | broken _ _ _ ho hc =>
    obtain ⟨wait, hwait⟩ := opened ho
    exact ⟨wait, by rw [events_note, events_of_call hc, hwait, Outcome.heard]⟩
  | answered _ _ _ ho hc =>
    obtain ⟨wait, hwait⟩ := opened ho
    exact ⟨wait, (events_of_call hc).trans hwait⟩

theorem leavesOpen_of_attempt {error : DispatchError}
    (h : c.attempt w op policy k p.afresh = (.unsettled error, q)) :
    ∃ id address wait rest, events q.journal = announcement k id address wait ++ rest ∧
      LeavesOpen policy.attempts k id rest := by
  cases attempted_of_attempt h with
  | unopened hk =>
    obtain ⟨wait, hwait⟩ := heard_of_contact hk
    exact ⟨_, _, wait, _, hwait, .channelFailed⟩
  | dropped hk ht =>
    obtain ⟨wait, hwait⟩ := heard_of_contact hk
    rw [Outcome.heard, ht] at hwait
    exact ⟨_, _, wait, _, hwait, .callFailed⟩
  | retried hk _ hlt hr =>
    obtain ⟨wait, hwait⟩ := heard_of_contact hk
    subst hr
    rw [events_sleep fun _ => rfl, events_note_note, hwait]
    exact ⟨_, _, wait, _, rfl, .retried hlt⟩
  | spent hk _ hle =>
    obtain ⟨wait, hwait⟩ := heard_of_contact hk
    exact ⟨_, _, wait, _, by rw [events_note, hwait, Outcome.heard], .spent hle⟩
  | @replaced _ _ _ previous next q _ hk _ hr =>
    obtain ⟨wait, hwait⟩ := heard_of_contact hk
    obtain ⟨_, _, _, _, _, _, _, rfl⟩ := replaceExpired?_eq_some hr
    rw [events_note]
    dsimp only
    rw [events_note, hwait, List.append_assoc]
    exact ⟨_, _, wait, _, rfl, .replaced⟩

/-- The node of attempt `k` is not known. -/
def Client.FindsNoNode (c : Client) (w : World σ) (op : Operation α) (r : Request)
    (situation : Situation σ) (k : Nat) : Prop :=
  ∃ p e q m, c.Makes w op r situation k p e q ∧ p.request.message = .ok m ∧
    p.situation.network.find? m.node = none

theorem Client.Makes.closes {result : Except DispatchError α}
    (h : c.Makes w op r situation k p (.settled result) q) :
    (c.FindsNoNode w op r situation k ∧ ∃ text, events q.journal = [.failed k text]) ∨
      ∃ id address wait rest, events q.journal = announcement k id address wait ++ rest ∧
        Closes k id rest := by
  cases attempted_of_attempt h.attempt_eq with
  | unsendable hk => exact absurd hk h.not_unsendable
  | unknownNode hk =>
    left
    cases contacted_of_contact hk with
    | unknownNode hm hf => exact ⟨⟨_, _, _, _, h, hm, hf⟩, _, rfl⟩
  | broken hk hf =>
    obtain ⟨wait, hwait⟩ := heard_of_contact hk
    rw [Outcome.heard, hf] at hwait
    rw [events_note, hwait, List.append_assoc]
    exact .inr ⟨_, _, wait, _, rfl, .broken⟩
  | stale hk =>
    obtain ⟨wait, hwait⟩ := heard_of_contact hk
    rw [events_note_note, hwait]
    exact .inr ⟨_, _, wait, _, rfl, .stale⟩
  | refused hk =>
    obtain ⟨wait, hwait⟩ := heard_of_contact hk
    rw [events_note_note, hwait]
    exact .inr ⟨_, _, wait, _, rfl, .refused⟩
  | finished hk =>
    obtain ⟨wait, hwait⟩ := heard_of_contact hk
    rw [events_note_note, hwait]
    exact .inr ⟨_, _, wait, _, rfl, .finished⟩

theorem Client.Reaches.rounds (reach : c.Reaches w op policy start made last p)
    (hs : start.journal = []) : Rounds policy.attempts made (events p.journal) := by
  induction reach with
  | start =>
    rw [hs]
    exact .none
  | next _ ha ih =>
    obtain ⟨id, address, wait, rest, hq, hopen⟩ := leavesOpen_of_attempt ha
    rw [Progress.andThen, events_append, hq]
    exact .next ih hopen

/-- An execution that could be prepared is heard as such a word, of as many attempts as the policy
allows at most. -/
theorem word_of_run {prepared : Request} {s : Situation σ}
    (hp : c.prepare w r situation = .ok (prepared, s)) :
    Word (c.policy r.limits).attempts (c.FindsNoNode w op r situation)
      (events (c.run w op r situation).2.journal) := by
  generalize hrun : c.run w op r situation = run
  obtain ⟨result, q⟩ := run
  rcases run_cases hrun with ⟨_, _, _, herror, -⟩ | ⟨prepared', s', hp', hend⟩
  · rw [hp] at herror
    cases herror
  cases hend with
  | settled reach hm ha =>
    have rounds := reach.rounds rfl
    have makes : c.Makes w op r situation _ _ _ _ := .intro hp' reach hm ha
    simp only [Progress.andThen, events_append]
    rcases makes.closes with ⟨hunknown, text, hq⟩ | ⟨id, address, wait, rest, hq, hcloses⟩
    · rw [hq]
      exact .unknownNode rounds hm hunknown
    · rw [hq]
      exact .closed rounds hm hcloses
  | exhausted reach =>
    rw [events_note]
    exact .exhausted (reach.rounds rfl)

/-- Whether nothing is heard of an execution any more. -/
def Event.isTerminal : Event → Bool
  | .finished _ _ | .failed _ _ => true
  | _ => false

/-- The attempt that begins with this event, or ends with it before its node is announced. -/
def Event.attempt? : Event → Option Nat
  | .nodeSelected k _ _ | .failed k _ => some k
  | _ => none

theorem not_isTerminal_of_announcement {address : NodeAddress} {wait : Option Nat}
    (h : x ∈ announcement k id address wait) : x.isTerminal = false := by
  cases wait with
  | none =>
    obtain rfl := List.mem_singleton.mp h
    rfl
  | some wait =>
    simp only [announcement, Option.map_some, Option.toList_some, List.mem_cons, List.not_mem_nil,
      or_false] at h
    rcases h with rfl | rfl <;> rfl

theorem LeavesOpen.not_isTerminal (h : LeavesOpen limit k id es) (hx : x ∈ es) :
    x.isTerminal = false := by
  cases h with
  | channelFailed | callFailed | spent =>
    obtain rfl := List.mem_singleton.mp hx
    rfl
  | retried | replaced =>
    simp only [List.mem_cons, List.not_mem_nil, or_false] at hx
    rcases hx with rfl | rfl <;> rfl

theorem Closes.eq_concat (h : Closes k id es) :
    ∃ first last, es = [first, last] ∧ first.isTerminal = false ∧ last.isTerminal = true := by
  cases h <;> exact ⟨_, _, rfl, rfl, rfl⟩

theorem Rounds.not_isTerminal (h : Rounds limit made es) (hx : x ∈ es) :
    x.isTerminal = false := by
  induction h with
  | none => cases hx
  | next _ hopen ih =>
    rcases List.mem_append.mp hx with hx | hx
    · exact ih hx
    · exact (List.mem_append.mp hx).elim not_isTerminal_of_announcement hopen.not_isTerminal

theorem Word.eq_concat {unknown : Nat → Prop} (h : Word limit unknown es) :
    ∃ earlier last, es = earlier ++ [last] ∧ last.isTerminal = true ∧
      ∀ x ∈ earlier, x.isTerminal = false := by
  cases h with
  | unknownNode rounds | exhausted rounds =>
    exact ⟨_, _, rfl, rfl, fun x => rounds.not_isTerminal⟩
  | @closed made heard rest id address wait rounds _ hcloses =>
    obtain ⟨first, last, rfl, hfirst, hlast⟩ := hcloses.eq_concat
    refine ⟨heard ++ (announcement (made + 1) id address wait ++ [first]), last, by simp, hlast,
      fun x hx => ?_⟩
    rcases List.mem_append.mp hx with hx | hx
    · exact rounds.not_isTerminal hx
    rcases List.mem_append.mp hx with hx | hx
    · exact not_isTerminal_of_announcement hx
    · obtain rfl := List.mem_singleton.mp hx
      exact hfirst

/-- A delay is followed by the next attempt at once. -/
def Event.Precedes (limit : Nat) (x next : Event) : Prop :=
  ∀ k delay, x = .backoff k delay → k < limit ∧ next.attempt? = some (k + 1)

theorem LeavesOpen.isChain (h : LeavesOpen limit k id es) (address : NodeAddress)
    (wait : Option Nat) :
    (announcement k id address wait ++ es).IsChain (Event.Precedes limit) := by
  cases h <;> cases wait <;> simp [announcement, Event.Precedes]

theorem LeavesOpen.of_getLast? {j : Nat} {delay : Duration} (h : LeavesOpen limit k id es)
    (hlast : es.getLast? = some (.backoff j delay)) : j = k ∧ k < limit := by
  cases h with
  | retried hlt =>
    simp only [List.getLast?_cons_cons, List.getLast?_singleton, Option.some.injEq,
      Event.backoff.injEq] at hlast
    exact ⟨hlast.1.symm, hlt⟩
  | channelFailed | callFailed | spent | replaced => simp at hlast

theorem LeavesOpen.ne_nil (h : LeavesOpen limit k id es) : es ≠ [] := by
  cases h <;> simp

theorem Closes.isChain (h : Closes k id es) (address : NodeAddress) (wait : Option Nat) :
    (announcement k id address wait ++ es).IsChain (Event.Precedes limit) := by
  cases h <;> cases wait <;> simp [announcement, Event.Precedes]

/-- Where a delay is the last of `made` rounds, another attempt is yet to come. -/
theorem isChain_append_of_getLast? {tail : List Event} (h : es.IsChain (Event.Precedes limit))
    (hlast : ∀ j delay, es.getLast? = some (.backoff j delay) → j = made ∧ made < limit)
    (htail : tail.IsChain (Event.Precedes limit))
    (hhead : made < limit → ∀ x ∈ tail.head?, x.attempt? = some (made + 1)) :
    (es ++ tail).IsChain (Event.Precedes limit) := by
  refine h.append htail fun x hx next hnext k delay hdelay => ?_
  subst hdelay
  obtain ⟨rfl, hlt⟩ := hlast k delay hx
  exact ⟨hlt, hhead hlt next hnext⟩

theorem Rounds.isChain (h : Rounds limit made es) :
    es.IsChain (Event.Precedes limit) ∧
      ∀ j delay, es.getLast? = some (.backoff j delay) → j = made ∧ made < limit := by
  induction h with
  | none => simp
  | @next made heard rest id address wait _ hopen ih =>
    refine ⟨isChain_append_of_getLast? ih.1 ih.2 (hopen.isChain address wait) ?_,
      fun j delay hlast => ?_⟩
    · intro _ x hx
      obtain rfl : Event.nodeSelected (made + 1) id address = x := Option.some.inj hx
      rfl
    · rw [← List.append_assoc, List.getLast?_append_of_ne_nil _ hopen.ne_nil] at hlast
      exact hopen.of_getLast? hlast

theorem Word.isChain {unknown : Nat → Prop} (h : Word limit unknown es) :
    es.IsChain (Event.Precedes limit) := by
  cases h with
  | unknownNode rounds =>
    refine isChain_append_of_getLast? rounds.isChain.1 rounds.isChain.2 (.singleton _) ?_
    intro _ x hx
    obtain rfl := Option.some.inj hx
    rfl
  | @closed made heard rest id address wait rounds _ hcloses =>
    refine isChain_append_of_getLast? rounds.isChain.1 rounds.isChain.2
      (hcloses.isChain address wait) ?_
    intro _ x hx
    obtain rfl : Event.nodeSelected (made + 1) id address = x := Option.some.inj hx
    rfl
  | exhausted rounds =>
    -- After the last round there is no delay to be followed by anything.
    exact isChain_append_of_getLast? rounds.isChain.1 rounds.isChain.2 (.singleton _) (by omega)

/-- Observers hear one failure if a request could not be prepared. Else they hear rounds numbered
from one, each of them about one node, and then one terminal event. No delay is announced that is
not followed by another attempt. -/
theorem events_of_execution (c : Client) (w : World σ) (op : Operation α) (r : Request)
    (situation : Situation σ) :
    let limit := max 1 ((c.maxAttempts.or r.limits.attempts).getD 10).toNat
    let heard := events (c.execute w op r situation).2.journal
    (match c.prepare w r situation with
      | .error (e, _, _) => heard = [.failed 0 e.message]
      | .ok _ => Word limit (c.FindsNoNode w op r situation) heard) ∧
    (∃ earlier last, heard = earlier ++ [last] ∧ last.isTerminal = true ∧
      ∀ x ∈ earlier, x.isTerminal = false) ∧
    heard.IsChain (Event.Precedes limit) := by
  intro limit heard
  have hheard : heard = events (c.run w op r situation).2.journal :=
    congrArg events (execute_eq_run c w op r situation).2.2.1
  cases hp : c.prepare w r situation with
  | error x =>
    obtain ⟨e, r', s'⟩ := x
    have hfailed : heard = [.failed 0 e.message] := by
      rw [hheard, run_of_unprepared op hp]
      rfl
    dsimp only
    rw [hfailed]
    exact ⟨rfl, ⟨[], _, rfl, rfl, by simp⟩, .singleton _⟩
  | ok x =>
    have hword : Word limit (c.FindsNoNode w op r situation) heard := hheard ▸ word_of_run hp
    exact ⟨hword, hword.eq_concat, hword.isChain⟩

/-- Between two attempts at a busy node there is a delay, after the last one there is none. -/
example :
    let (id, address) := Stage.node 3
    let heard := events (Stage.submit 2 [.busy]).2.journal
    heard.length = 6 ∧ heard.take 5 =
      [.nodeSelected 1 id address, .classified id .busy .retry, .backoff 1 (.ofMillis 250),
        .nodeSelected 2 id address, .classified id .busy .retry] := by
  decide

end LedgerClient
