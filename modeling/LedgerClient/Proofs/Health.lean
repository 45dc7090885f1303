import LedgerClient.Proofs.Recovery
import Mathlib.Data.Nat.Find

namespace LedgerClient

variable {bounds : Backoff} {s : NodeState} {event : NodeEvent} {events : List NodeEvent}
  {now n : Nat}

/-- The health of a node as it is meant, where the next penalty itself is doubled and halved. -/
structure Health where
  delay : Nat
  badUntil : Option Nat

/-- A failure counts if the clock can show the end of its penalty. -/
def NodeEvent.intended (bounds : Backoff) : NodeEvent → Health → Health
  | .penalized now, h =>
    if now + h.delay ≤ lastInstant then
      ⟨min (2 * h.delay) bounds.max.nanos, some (now + h.delay)⟩
    else h
  | .rewarded, h => { h with delay := max (h.delay / 2) bounds.min.nanos }
  | .used _, h | .opened _, h => h

def Health.through (bounds : Backoff) (h : Health) (events : List NodeEvent) : Health :=
  events.foldl (fun h event => event.intended bounds h) h

theorem Health.through_concat {h : Health} : h.through bounds (events ++ [event]) =
    event.intended bounds (h.through bounds events) :=
  List.foldl_append ..

def NodeState.health (bounds : Backoff) (s : NodeState) : Health :=
  ⟨(s.currentDelay bounds).nanos, s.badUntil⟩

/-- One level higher the penalty is twice as long, or the greatest. Only the step to level 32 may
make it longer, since a factor of `2 ^ 32` does not fit. -/
theorem Backoff.delay_succ_iff :
    (bounds.delay (n + 1)).nanos = Min.min (2 * (bounds.delay n).nanos) bounds.max.nanos ↔
      n ≠ 31 ∨ bounds.max.nanos ≤ 2 * (bounds.delay n).nanos := by
  rcases Nat.lt_trichotomy n 31 with hlt | rfl | hgt
  · rw [Backoff.delay_nanos_of_lt (by omega), Backoff.delay_nanos_of_lt (by omega),
      Backoff.exactDelay, Backoff.exactDelay, Nat.pow_succ, ← Nat.mul_assoc]
    omega
  · rw [Backoff.delay_of_le (Nat.le_refl 32)]
    omega
  · rw [Backoff.delay_of_le (by omega), Backoff.delay_of_le (by omega)]
    omega

theorem Backoff.delay_of_lt_max (h : (bounds.delay n).nanos < bounds.max.nanos) :
    n < 32 ∧ (bounds.delay n).nanos = bounds.min.nanos * 2 ^ n := by
  rw [Backoff.delay_nanos] at h ⊢
  split at h
  next hfit => exact ⟨hfit.1, if_pos hfit⟩
  next => exact absurd h (Nat.lt_irrefl _)

/-- One level lower the penalty is half as long. Only half of the greatest may be another one than
what the level stands for. -/
theorem Backoff.delay_eq_half_iff (h : (bounds.delay n).nanos < bounds.max.nanos) :
    (bounds.delay n).nanos = Max.max ((bounds.delay (n + 1)).nanos / 2) bounds.min.nanos ↔
      (bounds.delay (n + 1)).nanos < bounds.max.nanos ∨ n = 0 ∨
        bounds.max.nanos / 2 = bounds.min.nanos * 2 ^ n := by
  obtain ⟨hn, hdelay⟩ := Backoff.delay_of_lt_max h
  have hdoubled : n = 0 ∧ bounds.min.nanos * 2 ^ n = bounds.min.nanos ∨
      n ≠ 0 ∧ bounds.min.nanos * 2 ≤ bounds.min.nanos * 2 ^ n := by
    rcases Nat.eq_zero_or_pos n with rfl | hpos
    · exact .inl ⟨rfl, Nat.mul_one _⟩
    · have hne : n ≠ 0 := by omega
      exact .inr ⟨hne, Nat.mul_le_mul_left _ (Nat.le_self_pow hne 2)⟩
  rw [hdelay] at h ⊢
  rw [Backoff.delay_nanos, Nat.pow_succ, ← Nat.mul_assoc]
  generalize bounds.min.nanos * 2 ^ n = x at *
  split <;> omega

theorem currentDelay_penalize_iff
    (hshown : now + (s.currentDelay bounds).nanos ≤ lastInstant) :
    ((s.penalize bounds now).currentDelay bounds).nanos =
        min (2 * (s.currentDelay bounds).nanos) bounds.max.nanos ↔
      s.level ≠ 31 ∨ bounds.max.nanos ≤ 2 * (s.currentDelay bounds).nanos := by
  by_cases hlt : (s.currentDelay bounds).nanos < bounds.max.nanos
  · have hnext : (s.penalize bounds now).currentDelay bounds = bounds.delay (s.level + 1) := by
      rw [NodeState.currentDelay, NodeState.level_penalize, if_pos ⟨hshown, hlt⟩]
    rw [hnext]
    exact Backoff.delay_succ_iff
  · have hnext : (s.penalize bounds now).currentDelay bounds = s.currentDelay bounds := by
      rw [NodeState.currentDelay, NodeState.level_penalize, if_neg fun h => hlt h.2,
        NodeState.currentDelay]
    have hle : (s.currentDelay bounds).nanos ≤ bounds.max.nanos := Backoff.delay_le
    rw [hnext]
    omega

theorem currentDelay_reward_iff (h : s.IsWithin bounds)
    (hb : bounds.min.nanos ≤ bounds.max.nanos) :
    (s.reward.currentDelay bounds).nanos =
        max ((s.currentDelay bounds).nanos / 2) bounds.min.nanos ↔
      (s.currentDelay bounds).nanos < bounds.max.nanos ∨ s.level ≤ 1 ∨
        bounds.max.nanos / 2 = bounds.min.nanos * 2 ^ (s.level - 1) := by
  have hreward : s.reward.currentDelay bounds = bounds.delay (s.level - 1) := rfl
  have hcurrent : s.currentDelay bounds = bounds.delay s.level := rfl
  rw [hreward, hcurrent]
  cases hlevel : s.level with
  | zero =>
    have hzero : (bounds.delay 0).nanos = bounds.min.nanos := by
      rw [Backoff.delay_zero, Nat.min_eq_left hb]
    rw [Nat.zero_sub, hzero]
    omega
  | succ n =>
    rw [Nat.add_sub_cancel, Backoff.delay_eq_half_iff (h n (by omega))]
    omega

theorem intended_of_shown (hshown : now + (s.currentDelay bounds).nanos ≤ lastInstant) :
    (NodeEvent.penalized now).intended bounds (s.health bounds) =
      ⟨min (2 * (s.currentDelay bounds).nanos) bounds.max.nanos,
        some (now + (s.currentDelay bounds).nanos)⟩ :=
  if_pos hshown

theorem health_penalize_iff :
    ((NodeEvent.penalized now).effect bounds s).health bounds =
        (NodeEvent.penalized now).intended bounds (s.health bounds) ↔
      now + (s.currentDelay bounds).nanos ≤ lastInstant →
        s.level ≠ 31 ∨ bounds.max.nanos ≤ 2 * (s.currentDelay bounds).nanos := by
  rcases Nat.lt_or_ge lastInstant (now + (s.currentDelay bounds).nanos) with hlt | hshown
  · refine iff_of_true ?_ fun hle => absurd hlt (Nat.not_lt.mpr hle)
    rw [NodeEvent.effect, NodeState.penalize_of_lt hlt]
    exact (if_neg (Nat.not_le.mpr hlt)).symm
  · rw [intended_of_shown hshown, forall_prop_of_true hshown, ← currentDelay_penalize_iff hshown]
    refine ⟨congrArg Health.delay, fun h => ?_⟩
    rw [NodeEvent.effect, NodeState.health, h, NodeState.penalize_of_le hshown]

theorem health_reward_iff (h : s.IsWithin bounds) (hb : bounds.min.nanos ≤ bounds.max.nanos) :
    (NodeEvent.rewarded.effect bounds s).health bounds =
        NodeEvent.rewarded.intended bounds (s.health bounds) ↔
      (s.currentDelay bounds).nanos < bounds.max.nanos ∨ s.level ≤ 1 ∨
        bounds.max.nanos / 2 = bounds.min.nanos * 2 ^ (s.level - 1) := by
  rw [← currentDelay_reward_iff h hb]
  exact ⟨congrArg Health.delay, congrArg (Health.mk · _)⟩

/-- The greatest penalty is at most twice the least, or the least one doubled so often that a level
stands for it. -/
def Backoff.IsDoubled (bounds : Backoff) : Prop :=
  bounds.max.nanos ≤ 2 * bounds.min.nanos ∨
    ∃ n ≤ 32, bounds.max.nanos = bounds.min.nanos * 2 ^ n

theorem Backoff.IsDoubled.max_le (h : bounds.IsDoubled) :
    bounds.max.nanos ≤ 2 * (bounds.delay 31).nanos := by
  rcases Nat.lt_or_ge (bounds.delay 31).nanos bounds.max.nanos with hlt | hge
  · rw [(Backoff.delay_of_lt_max hlt).2]
    rcases h with hmax | ⟨n, hn, hmax⟩
    · omega
    · have hpow : bounds.min.nanos * 2 ^ n ≤ bounds.min.nanos * 2 ^ 32 :=
        Nat.mul_le_mul_left _ (Nat.pow_le_pow_right (by omega) hn)
      omega
  · omega

theorem Backoff.IsDoubled.half_max (h : bounds.IsDoubled)
    (hone : (bounds.delay 1).nanos < bounds.max.nanos)
    (hlt : (bounds.delay n).nanos < bounds.max.nanos)
    (hmax : bounds.max.nanos ≤ (bounds.delay (n + 1)).nanos) :
    bounds.max.nanos / 2 = bounds.min.nanos * 2 ^ n := by
  rcases h with hle | ⟨m, hm, heq⟩
  · have hdelay := (Backoff.delay_of_lt_max hone).2
    omega
  · rw [(Backoff.delay_of_lt_max hlt).2, heq] at hlt
    have hpos : 0 < bounds.min.nanos := Nat.pos_of_ne_zero fun hz => by simp [hz] at hlt
    have hnm : n < m := (Nat.pow_lt_pow_iff_right (by omega)).mp (Nat.lt_of_mul_lt_mul_left hlt)
    have hmn : m ≤ n + 1 := by
      rcases Nat.lt_or_ge (n + 1) 32 with hfit | hover
      · rw [Backoff.delay_nanos_of_lt hfit, Backoff.exactDelay, heq] at hmax
        have hle : bounds.min.nanos * 2 ^ m ≤ bounds.min.nanos * 2 ^ (n + 1) :=
          (Nat.le_min.mp hmax).1
        exact (Nat.pow_le_pow_iff_right (by omega)).mp (Nat.le_of_mul_le_mul_left hle hpos)
      · omega
    obtain rfl : m = n + 1 := by omega
    rw [heq, Nat.pow_succ, ← Nat.mul_assoc, Nat.mul_div_cancel _ (by omega)]

/-- Every step of a node changes its health as it is meant to. -/
def Backoff.IsFaithful (bounds : Backoff) : Prop :=
  ∀ (events : List NodeEvent) (event : NodeEvent),
    let s := NodeState.fresh.through bounds events
    (event.effect bounds s).health bounds = event.intended bounds (s.health bounds)

theorem isFaithful_iff_through : bounds.IsFaithful ↔
    ∀ events : List NodeEvent, (NodeState.fresh.through bounds events).health bounds =
      (NodeState.fresh.health bounds).through bounds events := by
  constructor
  · intro h events
    induction events using List.reverseRecOn with
    | nil => rfl
    | append_singleton events event ih =>
      rw [NodeState.through_concat, Health.through_concat, ← ih]
      exact h events event
  · intro h events event
    have hnext := h (events ++ [event])
    rw [NodeState.through_concat, Health.through_concat, ← h] at hnext
    exact hnext

theorem isFaithful_of_isDoubled (hd : bounds.IsDoubled)
    (hb : bounds.min.nanos ≤ bounds.max.nanos) : bounds.IsFaithful := by
  intro events event s
  have h : s.IsWithin bounds := isWithin_through bounds events
  cases event with
  | penalized now =>
    refine health_penalize_iff.mpr fun _ => ?_
    by_cases hlevel : s.level = 31
    · right
      rw [NodeState.currentDelay, hlevel]
      exact hd.max_le
    · exact .inl hlevel
  | rewarded =>
    refine (health_reward_iff h hb).mpr ?_
    rcases Nat.lt_or_ge (s.currentDelay bounds).nanos bounds.max.nanos with hlt | hge
    · exact .inl hlt
    · refine .inr ?_
      rcases Nat.lt_or_ge 1 s.level with hmore | hone
      · obtain ⟨n, hn⟩ := Nat.exists_eq_succ_of_ne_zero (Nat.ne_of_gt (Nat.lt_of_succ_lt hmore))
        rw [NodeState.currentDelay, hn] at hge
        rw [hn, Nat.succ_sub_one]
        exact .inr (hd.half_max (h 1 hmore) (h n (by omega)) hge)
      · exact .inl hone
  | used _ | opened _ => rfl

/-- A penalty below the greatest is so long that the clock can never show its end, and so the
greatest is never reached. -/
def Backoff.IsUnattained (bounds : Backoff) : Prop :=
  ∃ n, lastInstant < (bounds.delay n).nanos ∧ (bounds.delay n).nanos < bounds.max.nanos

theorem level_effect_le (hn : lastInstant < (bounds.delay n).nanos) (h : s.level ≤ n) :
    (event.effect bounds s).level ≤ n := by
  cases event with
  | penalized now =>
    rw [NodeEvent.effect, NodeState.level_penalize]
    split
    next hcounted =>
      have hne : s.level ≠ n := fun heq => by
        have hshown := hcounted.1
        rw [NodeState.currentDelay, heq] at hshown
        omega
      omega
    next => exact h
  | rewarded => exact Nat.le_trans (Nat.sub_le ..) h
  | used _ | opened _ => exact h

theorem level_through_le (hn : lastInstant < (bounds.delay n).nanos) (h : s.level ≤ n) :
    (s.through bounds events).level ≤ n := by
  induction events generalizing s with
  | nil => exact h
  | cons event rest ih => exact ih (level_effect_le hn h)

theorem isFaithful_of_isUnattained (hu : bounds.IsUnattained)
    (hb : bounds.min.nanos ≤ bounds.max.nanos) : bounds.IsFaithful := by
  intro events event s
  obtain ⟨n, hlong, hbelow⟩ := hu
  have hlevel : s.level ≤ n := level_through_le hlong (Nat.zero_le n)
  cases event with
  | penalized now =>
    refine health_penalize_iff.mpr fun hshown => .inl fun hlast => ?_
    have hn : n = 31 := by
      have hfit := (Backoff.delay_of_lt_max hbelow).1
      omega
    rw [NodeState.currentDelay, hlast, ← hn] at hshown
    omega
  | rewarded =>
    have hlt : (s.currentDelay bounds).nanos < bounds.max.nanos :=
      Nat.lt_of_le_of_lt (Backoff.delay_mono (Nat.le_refl _) (Nat.le_refl _) hlevel) hbelow
    exact (health_reward_iff (isWithin_through bounds events) hb).mpr (.inl hlt)
  | used _ | opened _ => rfl

theorem level_of_failures (h : ∀ k < n, (bounds.delay k).nanos ≤ lastInstant ∧
    (bounds.delay k).nanos < bounds.max.nanos) :
    (NodeState.fresh.through bounds (List.replicate n (.penalized 0))).level = n := by
  induction n with
  | zero => rfl
  | succ n ih =>
    have hlevel := ih fun k hk => h k (by omega)
    rw [List.replicate_succ', NodeState.through_concat, NodeEvent.effect,
      NodeState.level_penalize, NodeState.currentDelay, hlevel, Nat.zero_add,
      if_pos (h n (Nat.lt_succ_self n))]

theorem Backoff.exists_first_greatest : ∃ n, bounds.delay n = bounds.max ∧
    ∀ k < n, (bounds.delay k).nanos < bounds.max.nanos := by
  have hlast : ∃ n, bounds.delay n = bounds.max := ⟨32, Backoff.delay_of_le (Nat.le_refl 32)⟩
  refine ⟨Nat.find hlast, Nat.find_spec hlast, fun k hk => ?_⟩
  refine Nat.lt_of_le_of_ne Backoff.delay_le fun heq => Nat.find_min hlast hk ?_
  exact Duration.ext heq

/-- On the way to the greatest penalty and one level back all steps are as they are meant only if
the greatest is the least one doubled, or is never reached. -/
theorem Backoff.IsFaithful.isDoubled_or (h : bounds.IsFaithful)
    (hb : bounds.min.nanos ≤ bounds.max.nanos) : bounds.IsDoubled ∨ bounds.IsUnattained := by
  obtain ⟨n, hmax, hbelow⟩ := bounds.exists_first_greatest
  cases n with
  | zero =>
    have hzero : (bounds.delay 0).nanos = bounds.max.nanos := congrArg Duration.nanos hmax
    rw [Backoff.delay_zero] at hzero
    left
    left
    omega
  | succ k =>
    have hlast := hbelow k (Nat.lt_succ_self k)
    rcases Nat.lt_or_ge lastInstant (bounds.delay k).nanos with hlong | hshown
    · exact .inr ⟨k, hlong, hlast⟩
    left
    have hcounted : ∀ i < k + 1, (bounds.delay i).nanos ≤ lastInstant ∧
        (bounds.delay i).nanos < bounds.max.nanos := fun i hi =>
      ⟨Nat.le_trans (Backoff.delay_mono (Nat.le_refl _) (Nat.le_refl _) (by omega)) hshown,
        hbelow i hi⟩
    obtain ⟨hk, hdelay⟩ := Backoff.delay_of_lt_max hlast
    have hdoubled : bounds.max.nanos ≤ 2 * (bounds.min.nanos * 2 ^ k) := by
      have hlevel := level_of_failures fun i hi => hcounted i (Nat.lt_succ_of_lt hi)
      have hstep := health_penalize_iff.mp (h (List.replicate k (.penalized 0)) (.penalized 0))
      rw [NodeState.currentDelay, hlevel, Nat.zero_add] at hstep
      have hsucc := Backoff.delay_succ_iff.mpr (hstep hshown)
      rw [hmax, hdelay] at hsucc
      omega
    have hhalved : k = 0 ∨ bounds.max.nanos / 2 = bounds.min.nanos * 2 ^ k := by
      have hlevel := level_of_failures hcounted
      have hstep := (health_reward_iff (isWithin_through bounds _) hb).mp
        (h (List.replicate (k + 1) (.penalized 0)) .rewarded)
      rw [NodeState.currentDelay, hlevel, hmax, Nat.add_sub_cancel] at hstep
      omega
    rcases hhalved with rfl | hhalf
    · left
      omega
    · right
      refine ⟨k + 1, hk, ?_⟩
      rw [Nat.pow_succ, ← Nat.mul_assoc]
      omega

/-- A failure begins a penalty of the current length, unless that would end when the clock cannot
show it, and a success leaves the penalty as it is. The next penalty is doubled, except that level
32 also stands for what is more than twice the one before, and it is halved, except from the
greatest to a level that does not stand for half of it. So a node always behaves as it is meant if
and only if the greatest penalty is at most twice the least, or the least one doubled up to 32
times, or longer than one that the clock can never show the end of. -/
theorem health_of_node (bounds : Backoff) (hb : bounds.min.nanos ≤ bounds.max.nanos) :
    let least := bounds.min.nanos
    let greatest := bounds.max.nanos
    (∀ (events : List NodeEvent) (now : Nat),
      let s := NodeState.fresh.through bounds events
      let current := (s.currentDelay bounds).nanos
      (now + current ≤ lastInstant →
        (s.penalize bounds now).badUntil = some (now + current) ∧
        (((s.penalize bounds now).currentDelay bounds).nanos = min (2 * current) greatest ↔
          s.level ≠ 31 ∨ greatest ≤ 2 * current)) ∧
      (lastInstant < now + current →
        s.penalize? bounds now = none ∧ s.penalize bounds now = s) ∧
      s.reward.badUntil = s.badUntil ∧
      ((s.reward.currentDelay bounds).nanos = max (current / 2) least ↔
        current < greatest ∨ s.level ≤ 1 ∨ greatest / 2 = least * 2 ^ (s.level - 1))) ∧
    ((∀ events : List NodeEvent, (NodeState.fresh.through bounds events).health bounds =
        Health.through bounds ⟨least, none⟩ events) ↔
      greatest ≤ 2 * least ∨ (∃ n ≤ 32, greatest = least * 2 ^ n) ∨
        ∃ n, lastInstant < (bounds.delay n).nanos ∧ (bounds.delay n).nanos < greatest) := by
  intro least greatest
  have hstart : NodeState.fresh.health bounds = ⟨least, none⟩ := by
    have hdelay : (bounds.delay 0).nanos = least := by
      rw [Backoff.delay_zero, Nat.min_eq_left hb]
    exact congrArg (Health.mk · none) hdelay
  refine ⟨fun events now => ⟨fun hshown => ⟨?_, currentDelay_penalize_iff hshown⟩, fun hlt => ?_,
    rfl, currentDelay_reward_iff (isWithin_through bounds events) hb⟩, ?_⟩
  · rw [NodeState.penalize_of_le hshown]
  · exact ⟨if_neg (Nat.not_le.mpr hlt), NodeState.penalize_of_lt hlt⟩
  · rw [← hstart, ← isFaithful_iff_through, ← or_assoc]
    refine ⟨fun h => h.isDoubled_or hb, ?_⟩
    rintro (hd | hu)
    · exact isFaithful_of_isDoubled hd hb
    · exact isFaithful_of_isUnattained hu hb

/-- Three doublings apart. -/
theorem health_of_eightfold :
    let bounds : Backoff := ⟨.ofMillis 100, .ofMillis 800⟩
    bounds.min.nanos ≤ bounds.max.nanos ∧ ∀ events : List NodeEvent,
      (NodeState.fresh.through bounds events).health bounds =
        Health.through bounds ⟨100 * 1000000, none⟩ events := by
  intro bounds
  have hb : bounds.min.nanos ≤ bounds.max.nanos := by decide
  exact ⟨hb, (health_of_node bounds hb).2.mpr (.inr (.inl ⟨3, by decide, by decide⟩))⟩

/-- Between eight seconds and an hour the greatest penalty is followed by one of 2048 seconds, and
not by half an hour. -/
theorem health_of_default :
    let events : List NodeEvent := List.replicate 9 (.penalized 0) ++ [.rewarded]
    let s := NodeState.fresh.through defaultPenalty (List.replicate 9 (.penalized 0))
    let least := defaultPenalty.min.nanos
    let greatest := defaultPenalty.max.nanos
    least ≤ greatest ∧ s.currentDelay defaultPenalty = .ofMillis 3600000 ∧
      s.reward.currentDelay defaultPenalty = .ofMillis 2048000 ∧
      max ((s.currentDelay defaultPenalty).nanos / 2) least = (Duration.ofMillis 1800000).nanos ∧
      (NodeState.fresh.through defaultPenalty events).health defaultPenalty ≠
        Health.through defaultPenalty ⟨least, none⟩ events := by
  refine ⟨by decide, by decide +kernel, by decide +kernel, by decide +kernel, fun h => ?_⟩
  exact absurd (congrArg Health.delay h) (by decide +kernel)

end LedgerClient
