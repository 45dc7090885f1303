import LedgerClient.Proofs.Moves
import LedgerClient.Proofs.Windows

namespace LedgerClient

variable {σ : Type} {w : World σ} {s t : Situation σ} {node : Node} {id : AccountId}
  {f : NodeState → NodeState} {bounds : Backoff} {tick limit n nanos took : Nat}
  {a b journal : List Entry} {x : Entry}

def Entry.wait? : Entry → Option Nat
  | .event (.nodeUnhealthy _ wait) => some wait
  | _ => none

/-- The penalties that were left when their nodes were selected. -/
def waits (journal : List Entry) : List Nat :=
  journal.filterMap Entry.wait?

def Entry.delay? : Entry → Option Nat
  | .event (.backoff _ delay) => some delay.nanos
  | _ => none

def delays (journal : List Entry) : List Nat :=
  journal.filterMap Entry.delay?

/-- All that was announced, waits and delays as they come. -/
def announced (journal : List Entry) : List Nat :=
  journal.filterMap fun x => x.wait?.or x.delay?

/-- How long the client meant to sleep, and how long it slept. -/
def Entry.nap? : Entry → Option (Nat × Nat)
  | .waited _ wait took => some (wait, took)
  | .delayed delay took => some (delay.nanos, took)
  | _ => none

def naps (journal : List Entry) : List (Nat × Nat) :=
  journal.filterMap Entry.nap?

@[simp]
theorem waits_append : waits (a ++ b) = waits a ++ waits b :=
  List.filterMap_append

@[simp]
theorem delays_append : delays (a ++ b) = delays a ++ delays b :=
  List.filterMap_append

@[simp]
theorem announced_append : announced (a ++ b) = announced a ++ announced b :=
  List.filterMap_append

@[simp]
theorem naps_append : naps (a ++ b) = naps a ++ naps b :=
  List.filterMap_append

theorem sum_announced : (announced journal).sum = (waits journal).sum + (delays journal).sum := by
  induction journal with
  | nil => rfl
  | cons x rest ih =>
    have hcons : x :: rest = [x] ++ rest := rfl
    have hone : (announced [x]).sum = (waits [x]).sum + (delays [x]).sum := by
      rcases x with ⟨event⟩ | _ | _ | _ | _ | _ | _ | _
      · cases event <;> first | rfl | exact (Nat.zero_add _).symm
      all_goals rfl
    rw [hcons, announced_append, waits_append, delays_append, List.sum_append, List.sum_append,
      List.sum_append, ih, hone]
    omega

theorem mem_waits_or_delays (h : n ∈ announced journal) :
    n ∈ waits journal ∨ n ∈ delays journal := by
  obtain ⟨x, hx, hn⟩ := List.mem_filterMap.mp h
  rcases Option.or_eq_some_iff.mp hn with hwait | ⟨-, hdelay⟩
  · exact .inl (List.mem_filterMap.mpr ⟨x, hx, hwait⟩)
  · exact .inr (List.mem_filterMap.mpr ⟨x, hx, hdelay⟩)

theorem Moves.now_eq (h : Moves w s journal t) : t.now = s.now + elapsed journal := by
  induction h with
  | trans _ _ ih ih' => rw [ih', ih, elapsed_append, Nat.add_assoc]
  | wait _ _ hs | delay hs =>
    cases hs
    simp [Situation.elapse, elapsed, Entry.time]
  | opened | closed => simp [Situation.update, Situation.elapse, elapsed, Entry.time]
  | @call _ _ _ _ m _ _ _ hc =>
    cases m <;> (cases hc; simp [Situation.elapse, elapsed, Entry.time])
  | refl | note | use | reward | penalize | select | generate | held => rfl

theorem Moves.bounds_eq (h : Moves w s journal t) : t.network.bounds = s.network.bounds := by
  induction h with
  | trans _ _ ih ih' => exact ih'.trans ih
  | wait _ _ hs | delay hs =>
    cases hs
    rfl
  | @call _ _ _ _ m _ _ _ hc => cases m <;> (cases hc; rfl)
  | refl | note | use | reward | penalize | select | generate | held | opened | closed => rfl

/-- The client begins no sleep but those that it announces, and each for just so long. -/
theorem Moves.naps_eq (h : Moves w s journal t) :
    (naps journal).map Prod.fst = announced journal := by
  induction h with
  | trans _ _ ih ih' => rw [naps_append, List.map_append, ih, ih', announced_append]
  | @note _ event he => cases event <;> first | rfl | cases he
  | refl | use | reward | penalize | wait | delay | select | generate | held | opened | closed
  | call => rfl

/-- Each sleep lasts as long as the world lets it. -/
theorem Moves.slept (h : Moves w s journal t) :
    ∀ nap ∈ naps journal, ∃ now world, (w.sleep now nap.1 world).1 = nap.2 := by
  induction h with
  | trans _ _ ih ih' =>
    intro nap hn
    rw [naps_append, List.mem_append] at hn
    exact hn.elim (ih nap) (ih' nap)
  | wait _ _ hs | delay hs =>
    intro nap hn
    obtain rfl := List.mem_singleton.mp hn
    exact ⟨_, _, congrArg Prod.fst hs⟩
  | refl | note | use | reward | penalize | select | generate | held | opened | closed | call =>
    simp [naps, Entry.nap?]

theorem Moves.bounded (h : Moves w s journal t) (hs : s.Bounded) : t.Bounded := by
  induction h with
  | trans _ _ ih ih' => exact ih' (ih hs)
  | use | reward => exact hs.update fun _ => Nat.le_max_left ..
  | penalize => exact hs.penalizeNode
  | wait _ _ h | delay h =>
    cases h
    exact hs.world.elapse
  | opened => exact hs.world.elapse.update fun _ => Nat.le_max_left ..
  | closed => exact hs.world.elapse
  | @call _ _ _ _ m _ _ _ hc => cases m <;> (cases hc; exact hs.world.elapse)
  | refl | note | select | generate | held => exact hs

theorem Moves.waits_le (h : Moves w s journal t) (hs : s.Bounded) :
    ∀ wait ∈ waits journal, wait ≤ s.network.bounds.max.nanos := by
  induction h with
  | trans h _ ih ih' =>
    intro wait hw
    rw [waits_append, List.mem_append] at hw
    have hlater := ih' (h.bounded hs)
    rw [h.bounds_eq] at hlater
    exact hw.elim (ih hs wait) (hlater wait)
  | @wait s _ node wait _ hf hwait =>
    intro wait' hw
    obtain rfl := List.mem_singleton.mp hw
    exact hwait ▸ hs node (Network.find?_eq_some hf).1
  | @note _ event he =>
    intro wait hw
    cases event with
    | nodeUnhealthy => cases he
    | _ => cases hw
  | refl | use | reward | penalize | delay | select | generate | held | opened | closed | call =>
    intro wait hw
    cases hw

/-- No sleep of up to `limit` ends before its time. -/
def World.NeverWakesEarly (w : World σ) (limit : Nat) : Prop :=
  ∀ now nanos world, nanos ≤ limit → nanos ≤ (w.sleep now nanos world).1

theorem World.NeverWakesEarly.mono (hw : w.NeverWakesEarly limit) (hle : n ≤ limit) :
    w.NeverWakesEarly n :=
  fun now nanos world hn => hw now nanos world (Nat.le_trans hn hle)

theorem World.NeverWakesEarly.sleep (hw : w.NeverWakesEarly limit) (hle : nanos ≤ limit)
    (hs : s.sleep w nanos = (took, t)) : nanos ≤ took := by
  have hearly := hw s.now nanos s.world hle
  rwa [show (w.sleep s.now nanos s.world).1 = took from congrArg Prod.fst hs] at hearly

/-- Nothing that was announced is cut short. -/
theorem Moves.sum_announced_le (h : Moves w s journal t) (hw : w.NeverWakesEarly limit)
    (hle : ∀ nanos ∈ announced journal, nanos ≤ limit) :
    (announced journal).sum ≤ elapsed journal := by
  induction h with
  | trans _ _ ih ih' =>
    rw [announced_append, List.forall_mem_append] at hle
    rw [announced_append, elapsed_append, List.sum_append]
    exact Nat.add_le_add (ih hle.1) (ih' hle.2)
  | wait _ _ hs | delay hs =>
    have hearly := hw.sleep (hle _ (List.mem_singleton.mpr rfl)) hs
    simpa [announced, elapsed, Entry.time, Entry.wait?, Entry.delay?] using hearly
  | @note _ event he => cases event <;> first | exact Nat.le_refl 0 | cases he
  | refl | use | reward | penalize | select | generate | held | opened | closed | call =>
    exact Nat.zero_le _

/-- A sleep of up to `limit` that begins and ends with a tick of the timer lasts no longer than it
should, and no shorter. -/
def World.Punctual (w : World σ) (tick limit : Nat) : Prop :=
  ∀ now nanos world, tick ∣ now → tick ∣ nanos → nanos ≤ limit →
    (w.sleep now nanos world).1 = nanos

theorem World.Punctual.mono (hw : w.Punctual tick limit) (hle : n ≤ limit) : w.Punctual tick n :=
  fun now nanos world hnow hnanos hn => hw now nanos world hnow hnanos (Nat.le_trans hn hle)

/-- The clock moves only while the client sleeps. -/
structure World.Prompt (w : World σ) : Prop where
  connect : ∀ address world, (w.connect address world).2.1 = 0
  query : ∀ channel m world, (w.query channel m world).2.1 = 0
  submit : ∀ channel m world, (w.submit channel m world).2.1 = 0

theorem call_of_prompt {channel : Channel} {m : Message} {x : Except Fault Answer} (hw : w.Prompt)
    (h : s.call w channel m = (x, took, t)) :
    took = 0 ∧ ∃ world, t = { s with world := world } := by
  cases m with
  | query m =>
    cases h
    exact ⟨hw.query .., _, by rw [hw.query]; rfl⟩
  | transaction m =>
    cases h
    exact ⟨hw.submit .., _, by rw [hw.submit]; rfl⟩

structure Backoff.Aligned (bounds : Backoff) (tick : Nat) : Prop where
  min : tick ∣ bounds.min.nanos
  max : tick ∣ bounds.max.nanos

theorem Backoff.Aligned.delay (h : bounds.Aligned tick) : tick ∣ (bounds.delay n).nanos := by
  rw [Backoff.delay_nanos]
  split
  · exact h.min.mul_right _
  · exact h.max

/-- The clock and all penalties keep to the ticks of a timer. -/
structure Situation.Aligned (s : Situation σ) (tick : Nat) : Prop where
  now : tick ∣ s.now
  bounds : s.network.bounds.Aligned tick
  ends : ∀ node ∈ s.network.nodes, tick ∣ node.state.badUntil.getD 0

/-- A client begins with the ticks if its bounds and its clock do. -/
theorem aligned_of_ofEntries {entries : List (AccountId × NodeAddress)} {now : Nat} {world : σ}
    (hb : bounds.Aligned tick) (hn : tick ∣ now) :
    Situation.Aligned ⟨.ofEntries bounds entries, now, world⟩ tick where
  now := hn
  bounds := hb
  ends node hnode := by
    rw [state_of_ofEntries hnode]
    exact Nat.dvd_zero tick

theorem Situation.Aligned.world {world : σ} (h : s.Aligned tick) :
    Situation.Aligned { s with world := world } tick :=
  ⟨h.now, h.bounds, h.ends⟩

theorem Situation.Aligned.elapse (h : s.Aligned tick) (hn : tick ∣ n) : (s.elapse n).Aligned tick :=
  ⟨Nat.dvd_add h.now hn, h.bounds, h.ends⟩

theorem Situation.Aligned.update (h : s.Aligned tick)
    (hf : ∀ state : NodeState, tick ∣ state.badUntil.getD 0 → tick ∣ (f state).badUntil.getD 0) :
    (s.update id f).Aligned tick where
  now := h.now
  bounds := h.bounds
  ends node hn := by
    obtain ⟨old, hold, rfl⟩ := List.mem_map.mp hn
    split
    · exact hf old.state (h.ends old hold)
    · exact h.ends old hold

theorem Situation.Aligned.penalizeNode (h : s.Aligned tick) :
    (s.penalizeNode node).1.Aligned tick := by
  refine h.update fun state hstate => ?_
  rcases Nat.lt_or_ge lastInstant (s.now + (state.currentDelay s.network.bounds).nanos) with
    hlt | hle
  · rwa [NodeState.penalize_of_lt hlt]
  · rw [NodeState.penalize_of_le hle]
    exact Nat.dvd_add h.now h.bounds.delay

theorem Situation.Aligned.dvd_wait (h : s.Aligned tick) (hf : s.network.find? id = some node) :
    tick ∣ node.state.waitRemaining s.now :=
  Nat.dvd_sub (h.ends node (Network.find?_eq_some hf).1) h.now

theorem Situation.Aligned.sleep (h : s.Aligned tick) (hp : w.Punctual tick limit)
    (hn : tick ∣ nanos) (hle : nanos ≤ limit) (hs : s.sleep w nanos = (took, t)) :
    t.Aligned tick ∧ took = nanos := by
  cases hs
  have htook : (w.sleep s.now nanos s.world).1 = nanos := hp _ _ _ h.now hn hle
  exact ⟨h.world.elapse (htook.symm ▸ hn), htook⟩

/-- While the clock moves only by punctual sleeps, it keeps to the ticks, and each sleep lasts as
long as it is meant to. -/
theorem Moves.aligned (h : Moves w s journal t) (hw : w.Prompt) (hp : w.Punctual tick limit)
    (hs : s.Aligned tick) (hb : s.Bounded) (hmax : s.network.bounds.max.nanos ≤ limit)
    (hd : ∀ delay ∈ delays journal, tick ∣ delay ∧ delay ≤ limit) :
    t.Aligned tick ∧ elapsed journal = (announced journal).sum := by
  induction h with
  | @trans s t u a b h _ ih ih' =>
    have hd' : (∀ delay ∈ delays a, tick ∣ delay ∧ delay ≤ limit) ∧
        ∀ delay ∈ delays b, tick ∣ delay ∧ delay ≤ limit := by
      rw [delays_append, List.forall_mem_append] at hd
      exact hd
    obtain ⟨ht, helapsed⟩ := ih hs hb hmax hd'.1
    obtain ⟨hu, helapsed'⟩ := ih' ht (h.bounded hb) (h.bounds_eq ▸ hmax) hd'.2
    refine ⟨hu, ?_⟩
    rw [elapsed_append, announced_append, List.sum_append, helapsed, helapsed']
  | @wait s t node wait took hf hwait h =>
    have hle : wait ≤ limit :=
      Nat.le_trans (hwait ▸ hb node (Network.find?_eq_some hf).1) hmax
    obtain ⟨ht, rfl⟩ := hs.sleep hp (hwait ▸ hs.dvd_wait hf) hle h
    exact ⟨ht, Nat.zero_add _⟩
  | @delay s t attempt took delay h =>
    obtain ⟨hdvd, hle⟩ := hd delay.nanos (by simp [delays, Entry.delay?])
    obtain ⟨ht, rfl⟩ := hs.sleep hp hdvd hle h
    exact ⟨ht, Nat.zero_add _⟩
  | use | reward => exact ⟨hs.update fun _ => id, rfl⟩
  | penalize => exact ⟨hs.penalizeNode, rfl⟩
  | @opened s node channel took world _ _ hc =>
    obtain rfl : 0 = took := (hw.connect node.address s.world).symm.trans (by rw [hc])
    exact ⟨(hs.world.elapse (Nat.dvd_zero _)).update fun _ => id, rfl⟩
  | @closed s node f took world _ _ hc =>
    obtain rfl : 0 = took := (hw.connect node.address s.world).symm.trans (by rw [hc])
    exact ⟨hs.world.elapse (Nat.dvd_zero _), rfl⟩
  | @call s t node channel m x took _ hc =>
    obtain ⟨rfl, world, rfl⟩ := call_of_prompt hw hc
    exact ⟨hs.world, rfl⟩
  | refl | held => exact ⟨hs, rfl⟩
  | select | generate => exact ⟨hs.world, rfl⟩
  | @note _ event he =>
    refine ⟨hs, ?_⟩
    cases event <;> first | rfl | cases he

end LedgerClient
