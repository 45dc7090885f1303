import LedgerClient.Proofs.Growth
import LedgerClient.Proofs.NodeSet

namespace LedgerClient

variable {bounds : Backoff} {s : NodeState} {event : NodeEvent}
  {events later before since : List NodeEvent} {now started n : Nat}

/-- The state of a node after all that happened to it. -/
def NodeState.through (bounds : Backoff) (s : NodeState) (events : List NodeEvent) : NodeState :=
  events.foldl (fun s event => event.effect bounds s) s

theorem NodeState.through_append :
    s.through bounds (events ++ later) = (s.through bounds events).through bounds later :=
  List.foldl_append ..

theorem NodeState.through_concat :
    s.through bounds (events ++ [event]) = event.effect bounds (s.through bounds events) :=
  NodeState.through_append

def NodeEvent.isFailure : NodeEvent → Bool
  | .penalized _ => true
  | _ => false

def NodeEvent.isSuccess : NodeEvent → Bool
  | .rewarded => true
  | _ => false

def NodeEvent.time? : NodeEvent → Option Nat
  | .used now | .penalized now => some now
  | _ => none

/-- The times at which something happened, as far as they matter. -/
def times (events : List NodeEvent) : List Nat :=
  events.filterMap NodeEvent.time?

/-- Whether something counts against a node. A failure does not if the clock cannot show the end of
its penalty. -/
def NodeEvent.isCounted (bounds : Backoff) (s : NodeState) : NodeEvent → Bool
  | .penalized now => (s.penalize? bounds now).isSome
  | _ => false

theorem isCounted_penalized : (NodeEvent.penalized now).isCounted bounds s = true ↔
    now + (s.currentDelay bounds).nanos ≤ lastInstant := by
  simp [NodeEvent.isCounted, NodeState.penalize?]

/-- Nothing that happens to a node counts against it. -/
def NodeState.Quiet (bounds : Backoff) (s : NodeState) : List NodeEvent → Prop
  | [] => True
  | event :: rest => event.isCounted bounds s = false ∧ (event.effect bounds s).Quiet bounds rest

theorem quiet_of_no_failure (h : ∀ event ∈ later, event.isFailure = false) :
    s.Quiet bounds later := by
  induction later generalizing s with
  | nil => trivial
  | cons event rest ih =>
    obtain ⟨hevent, hrest⟩ := List.forall_mem_cons.mp h
    refine ⟨?_, ih hrest⟩
    cases event with
    | penalized _ => cases hevent
    | used _ | rewarded | opened _ => rfl

/-- What came last to count against a node, and what has happened since. -/
structure LastFailure (bounds : Backoff) (s : NodeState) (events before : List NodeEvent)
    (started : Nat) (since : List NodeEvent) : Prop where
  split : events = before ++ .penalized started :: since
  counted : started + ((s.through bounds before).currentDelay bounds).nanos ≤ lastInstant
  quiet : ((s.through bounds before).penalize bounds started).Quiet bounds since

theorem quiet_or_last (bounds : Backoff) (s : NodeState) (events : List NodeEvent) :
    s.Quiet bounds events ∨
      ∃ before started since, LastFailure bounds s events before started since := by
  induction events generalizing s with
  | nil => exact .inl trivial
  | cons event rest ih =>
    rcases ih (event.effect bounds s) with hquiet | ⟨before, started, since, hlast⟩
    · cases hc : event.isCounted bounds s with
      | false => exact .inl ⟨hc, hquiet⟩
      | true =>
        cases event with
        | penalized now => exact .inr ⟨[], now, rest, rfl, isCounted_penalized.mp hc, hquiet⟩
        | used _ | rewarded | opened _ => cases hc
    · exact .inr ⟨event :: before, started, since, congrArg (event :: ·) hlast.split, hlast.counted,
        hlast.quiet⟩

/-- As long as nothing counts against a node, its penalty stays as it is, and every success takes
one off the level. -/
theorem NodeState.Quiet.through (h : s.Quiet bounds later) :
    (s.through bounds later).badUntil = s.badUntil ∧
      (s.through bounds later).level = s.level - later.countP NodeEvent.isSuccess := by
  induction later generalizing s with
  | nil => exact ⟨rfl, rfl⟩
  | cons event rest ih =>
    obtain ⟨hevent, hrest⟩ := h
    have hthrough : s.through bounds (event :: rest) =
      (event.effect bounds s).through bounds rest := rfl
    obtain ⟨huntil, hlevel⟩ := ih hrest
    rw [hthrough, huntil, hlevel]
    cases event with
    | penalized now =>
      have hlt : lastInstant < now + (s.currentDelay bounds).nanos := by
        rw [← Nat.not_le, ← isCounted_penalized, hevent]
        exact Bool.false_ne_true
      rw [List.countP_cons_of_neg (by simp [NodeEvent.isSuccess]), NodeEvent.effect,
        NodeState.penalize_of_lt hlt]
      exact ⟨rfl, rfl⟩
    | rewarded =>
      have hcount : (NodeEvent.rewarded :: rest).countP NodeEvent.isSuccess =
        rest.countP NodeEvent.isSuccess + 1 := List.countP_cons_of_pos rfl
      have hreward : (NodeEvent.rewarded.effect bounds s).level = s.level - 1 := rfl
      refine ⟨rfl, ?_⟩
      rw [hcount, hreward]
      omega
    | used _ | opened _ =>
      rw [List.countP_cons_of_neg (by simp [NodeEvent.isSuccess])]
      exact ⟨rfl, rfl⟩

theorem LastFailure.through (h : LastFailure bounds s events before started since) :
    s.through bounds events =
      ((s.through bounds before).penalize bounds started).through bounds since := by
  rw [h.split, NodeState.through_append]
  rfl

theorem LastFailure.badUntil (h : LastFailure bounds s events before started since) :
    (s.through bounds events).badUntil =
      some (started + ((s.through bounds before).currentDelay bounds).nanos) := by
  rw [h.through, h.quiet.through.1, NodeState.penalize_of_le h.counted]

theorem LastFailure.started_le (h : LastFailure bounds s events before started since)
    (hnow : ∀ t ∈ times events, t ≤ now) : started ≤ now :=
  hnow started (by
    rw [h.split, times, List.filterMap_append]
    exact List.mem_append_right _ List.mem_cons_self)

/-- Below the level that a node has come to, no penalty is the greatest. -/
def NodeState.IsWithin (bounds : Backoff) (s : NodeState) : Prop :=
  ∀ n < s.level, (bounds.delay n).nanos < bounds.max.nanos

theorem NodeState.level_penalize : (s.penalize bounds now).level =
    if now + (s.currentDelay bounds).nanos ≤ lastInstant ∧
      (s.currentDelay bounds).nanos < bounds.max.nanos then s.level + 1 else s.level := by
  rcases Nat.lt_or_ge lastInstant (now + (s.currentDelay bounds).nanos) with hlt | hle
  · rw [NodeState.penalize_of_lt hlt, if_neg fun h => Nat.not_le.mpr hlt h.1]
  · simp only [NodeState.penalize_of_le hle, hle, true_and]

theorem NodeState.IsWithin.penalize (h : s.IsWithin bounds) :
    (s.penalize bounds now).IsWithin bounds := by
  intro n hn
  rw [NodeState.level_penalize] at hn
  split at hn
  next hcounted =>
    rcases Nat.lt_succ_iff_lt_or_eq.mp hn with hn | rfl
    · exact h n hn
    · exact hcounted.2
  next => exact h n hn

theorem NodeState.IsWithin.reward (h : s.IsWithin bounds) : s.reward.IsWithin bounds :=
  fun n hn => h n (Nat.lt_of_lt_of_le hn (Nat.sub_le ..))

theorem NodeState.IsWithin.effect (h : s.IsWithin bounds) :
    (event.effect bounds s).IsWithin bounds := by
  cases event with
  | penalized _ => exact h.penalize
  | rewarded => exact h.reward
  | used _ | opened _ => exact h

theorem NodeState.IsWithin.through (h : s.IsWithin bounds) :
    (s.through bounds events).IsWithin bounds := by
  induction events generalizing s with
  | nil => exact h
  | cons event rest ih => exact ih h.effect

theorem isWithin_through (bounds : Backoff) (events : List NodeEvent) :
    (NodeState.fresh.through bounds events).IsWithin bounds :=
  NodeState.IsWithin.through fun _ hn => absurd hn (Nat.not_lt_zero _)

theorem NodeState.IsWithin.level_le (h : s.IsWithin bounds) (hn : bounds.delay n = bounds.max) :
    s.level ≤ n := by
  refine Nat.le_of_not_lt fun hlt => ?_
  have hbelow := h n hlt
  rw [hn] at hbelow
  exact Nat.lt_irrefl _ hbelow

theorem Backoff.delay_zero : (bounds.delay 0).nanos = Min.min bounds.min.nanos bounds.max.nanos :=
  isUnused_fresh.delay

theorem Backoff.min_le_delay :
    Min.min bounds.min.nanos bounds.max.nanos ≤ (bounds.delay n).nanos := by
  rw [← Backoff.delay_zero]
  exact Backoff.delay_mono (Nat.le_refl _) (Nat.le_refl _) (Nat.zero_le n)

/-- One success is enough: the level before the one that a node has come to is not the last. -/
theorem NodeState.IsWithin.delay_reward (h : s.IsWithin bounds)
    (hb : bounds.min.nanos < bounds.max.nanos) :
    (s.reward.currentDelay bounds).nanos < bounds.max.nanos := by
  have hcurrent : s.reward.currentDelay bounds = bounds.delay (s.level - 1) := rfl
  rw [hcurrent]
  rcases Nat.eq_zero_or_pos s.level with hz | hpos
  · rw [hz, Nat.zero_sub, Backoff.delay_zero]
    exact Nat.lt_of_le_of_lt (Nat.min_le_left ..) hb
  · exact h _ (by omega)

theorem waitRemaining_through_le (h : ∀ t ∈ times events, t ≤ now) :
    (NodeState.fresh.through bounds events).waitRemaining now ≤ bounds.max.nanos := by
  rcases quiet_or_last bounds .fresh events with hquiet | ⟨before, started, since, hlast⟩
  · rw [NodeState.waitRemaining, hquiet.through.1]
    exact Nat.le_trans (Nat.le_of_eq (Nat.zero_sub now)) (Nat.zero_le _)
  · have hstarted := hlast.started_le h
    have hpenalty : ((NodeState.fresh.through bounds before).currentDelay bounds).nanos ≤
      bounds.max.nanos := Backoff.delay_le
    rw [NodeState.waitRemaining, hlast.badUntil, Option.getD_some]
    omega

/-- Whatever happens to a node: its level never exceeds the first at which the penalty is the
greatest, which is 32 at most, so one more failure is always counted in a word of 32 bits. Its next
penalty and what is left of the last stay within the bounds, one success makes the next penalty less
than the greatest, and 32 successes without a failure make it the least. -/
theorem recovery_of_node (bounds : Backoff) (events : List NodeEvent) :
    let s := NodeState.fresh.through bounds events
    let least := min bounds.min.nanos bounds.max.nanos
    let greatest := bounds.max.nanos
    (∀ n, bounds.delay n = bounds.max → s.level ≤ n) ∧ bounds.delay 32 = bounds.max ∧
    s.level ≤ 32 ∧ (∀ now, (s.penalize bounds now).level < UInt32.size) ∧
    least ≤ (s.currentDelay bounds).nanos ∧ (s.currentDelay bounds).nanos ≤ greatest ∧
    (∀ now, (∀ t ∈ times events, t ≤ now) → s.waitRemaining now ≤ greatest) ∧
    (bounds.min.nanos < greatest → (s.reward.currentDelay bounds).nanos < greatest) ∧
    ∀ later, (∀ event ∈ later, event.isFailure = false) →
      32 ≤ later.countP NodeEvent.isSuccess →
      ((s.through bounds later).currentDelay bounds).nanos = least := by
  intro s least greatest
  have hwithin : s.IsWithin bounds := isWithin_through bounds events
  have hlast : bounds.delay 32 = bounds.max := Backoff.delay_of_le (Nat.le_refl 32)
  have hlevel : s.level ≤ 32 := hwithin.level_le hlast
  refine ⟨fun n => hwithin.level_le, hlast, hlevel, fun now => ?_, Backoff.min_le_delay,
    Backoff.delay_le, fun now => waitRemaining_through_le, hwithin.delay_reward,
    fun later hquiet hcount => ?_⟩
  · have hnext : (s.penalize bounds now).level ≤ 32 := hwithin.penalize.level_le hlast
    exact Nat.lt_of_le_of_lt hnext (by decide)
  have hzero : (s.through bounds later).level = 0 := by
    have hquiet' : s.Quiet bounds later := quiet_of_no_failure hquiet
    rw [hquiet'.through.2]
    omega
  rw [NodeState.currentDelay, hzero, Backoff.delay_zero]

end LedgerClient
