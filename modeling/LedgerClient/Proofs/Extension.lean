import LedgerClient.Proofs.Recovery

namespace LedgerClient

variable {bounds : Backoff} {s : NodeState} {events before since : List NodeEvent}
  {now started : Nat}

/-- The time from which on a node is healthy. -/
def NodeState.healthyFrom (s : NodeState) : Nat :=
  s.badUntil.getD 0

theorem NodeState.isHealthy_iff_le : s.isHealthy now = true ↔ s.healthyFrom ≤ now := by
  unfold NodeState.isHealthy NodeState.healthyFrom
  cases s.badUntil with
  | none => simp
  | some _ => simp

theorem healthyFrom_le_iff {t : NodeState} :
    s.healthyFrom ≤ t.healthyFrom ↔ ∀ now, t.isHealthy now = true → s.isHealthy now = true := by
  simp only [NodeState.isHealthy_iff_le]
  exact ⟨fun h now ht => Nat.le_trans h ht, fun h => h _ (Nat.le_refl _)⟩

theorem LastFailure.healthyFrom (h : LastFailure bounds s events before started since) :
    (s.through bounds events).healthyFrom =
      started + ((s.through bounds before).currentDelay bounds).nanos := by
  rw [NodeState.healthyFrom, h.badUntil, Option.getD_some]

theorem LastFailure.level (h : LastFailure bounds s events before started since) :
    (s.through bounds events).level =
      ((s.through bounds before).penalize bounds started).level -
        since.countP NodeEvent.isSuccess := by
  rw [h.through, h.quiet.through.2]

theorem LastFailure.healthyFrom_le (h : LastFailure bounds s events before started since) :
    (s.through bounds events).healthyFrom ≤ lastInstant :=
  h.healthyFrom ▸ h.counted

/-- One success takes a node back to the level it had before the failure, unless that was counted
at the greatest penalty. -/
theorem LastFailure.delay_le (h : LastFailure bounds s events before started since)
    (hs : since.countP NodeEvent.isSuccess = 0 ∨ since.countP NodeEvent.isSuccess = 1 ∧
      ((s.through bounds before).currentDelay bounds).nanos < bounds.max.nanos) :
    ((s.through bounds before).currentDelay bounds).nanos ≤
      ((s.through bounds events).currentDelay bounds).nanos := by
  refine Backoff.delay_mono (Nat.le_refl _) (Nat.le_refl _) ?_
  rw [h.level, NodeState.level_penalize]
  rcases hs with hnone | ⟨hone, hlt⟩
  · split <;> omega
  · rw [if_pos ⟨h.counted, hlt⟩]
    omega

/-- A failure whose penalty the clock cannot show the end of changes nothing. -/
theorem healthyFrom_penalize : (s.penalize bounds now).healthyFrom =
    if now + (s.currentDelay bounds).nanos ≤ lastInstant then now + (s.currentDelay bounds).nanos
    else s.healthyFrom := by
  split
  next hle => rw [NodeState.penalize_of_le hle, NodeState.healthyFrom, Option.getD_some]
  next hlt => rw [NodeState.penalize_of_lt (Nat.not_le.mp hlt)]

/-- A failure makes a node healthy no sooner if and only if the penalty it begins, together with the
time since the last one began, is as long as that. Of what has happened since, only the successes
count, each of which has taken one off the level. So a failure makes a node healthy no sooner if
nothing has failed before, if the last penalty is over, if no success has come since, or if only one
has and the last penalty was not the greatest. A penalty that would end when the clock cannot show
it is not begun. -/
theorem extension_of_failure (bounds : Backoff) (events : List NodeEvent) (now : Nat)
    (hnow : ∀ t ∈ times events, t ≤ now) :
    let s := NodeState.fresh.through bounds events
    let next := s.penalize bounds now
    let current := (s.currentDelay bounds).nanos
    (now + current ≤ lastInstant → next.healthyFrom = now + current) ∧
    (lastInstant < now + current → next = s) ∧
    (s.healthyFrom ≤ next.healthyFrom ↔
      ∀ t, next.isHealthy t = true → s.isHealthy t = true) ∧
    (s.healthyFrom ≤ next.healthyFrom ↔
      ∀ before started since, LastFailure bounds .fresh events before started since →
        ((NodeState.fresh.through bounds before).currentDelay bounds).nanos ≤
          now - started + current) ∧
    (s.isHealthy now = true → s.healthyFrom ≤ next.healthyFrom) ∧
    ∀ before started since, LastFailure bounds .fresh events before started since →
      let old := NodeState.fresh.through bounds before
      let last := (old.currentDelay bounds).nanos
      let successes := since.countP NodeEvent.isSuccess
      s.healthyFrom = started + last ∧
      s.level = (old.penalize bounds started).level - successes ∧
      (successes = 0 ∨ successes = 1 ∧ last < bounds.max.nanos →
        s.healthyFrom ≤ next.healthyFrom) := by
  intro s next current
  have hnext : next.healthyFrom =
      if now + current ≤ lastInstant then now + current else s.healthyFrom := healthyFrom_penalize
  refine ⟨fun hle => hnext.trans (if_pos hle), NodeState.penalize_of_lt, healthyFrom_le_iff, ?_,
    fun hhealthy => ?_, fun before started since hlast => ?_⟩
  · constructor
    · intro hle before started since hlast
      have hstarted := hlast.started_le hnow
      have hlatest : s.healthyFrom ≤ lastInstant := hlast.healthyFrom_le
      have hs : s.healthyFrom = _ := hlast.healthyFrom
      split at hnext <;> omega
    · intro h
      rcases quiet_or_last bounds .fresh events with hquiet | ⟨before, started, since, hlast⟩
      · have hs : s.badUntil = none := hquiet.through.1
        rw [NodeState.healthyFrom, hs]
        exact Nat.zero_le _
      · have hlong := h before started since hlast
        have hstarted := hlast.started_le hnow
        have hs : s.healthyFrom = _ := hlast.healthyFrom
        split at hnext <;> omega
  · have hle := NodeState.isHealthy_iff_le.mp hhealthy
    split at hnext <;> omega
  · intro old last successes
    have hs : s.healthyFrom = started + last := hlast.healthyFrom
    refine ⟨hs, hlast.level, fun hfew => ?_⟩
    have hstarted := hlast.started_le hnow
    have hle : last ≤ current := hlast.delay_le hfew
    split at hnext <;> omega

/-- One success in the second of two penalties. -/
theorem extension_after_success :
    let bounds : Backoff := ⟨.ofMillis 100, .ofMillis 800⟩
    let events : List NodeEvent := [.penalized 0, .used 10, .penalized 20, .rewarded]
    let s := NodeState.fresh.through bounds events
    (∀ t ∈ times events, t ≤ 30) ∧ s.isHealthy 30 = false ∧
      s.healthyFrom ≤ (s.penalize bounds 30).healthyFrom := by
  intro bounds events s
  have hnow : ∀ t ∈ times events, t ≤ 30 := by decide
  have hlast : LastFailure bounds .fresh events [.penalized 0, .used 10] 20 [.rewarded] :=
    ⟨rfl, by decide +kernel, rfl, trivial⟩
  obtain ⟨-, -, -, -, -, hextended⟩ := extension_of_failure bounds events 30 hnow
  obtain ⟨-, -, hfew⟩ := hextended _ _ _ hlast
  exact ⟨hnow, by decide +kernel, hfew (.inr ⟨by decide, by decide +kernel⟩)⟩

/-- Two failures, two successes, and a third failure: the penalty of 200 milliseconds ends after
100. -/
theorem penalty_cut_by_failure :
    let bounds : Backoff := ⟨.ofMillis 100, .ofMillis 800⟩
    let events : List NodeEvent := [.penalized 0, .penalized 0, .rewarded, .rewarded]
    let s := NodeState.fresh.through bounds events
    let next := s.penalize bounds 0
    (∀ t ∈ times events, t ≤ 0) ∧ s.healthyFrom = 200 * 1000000 ∧
      next.healthyFrom = 100 * 1000000 ∧ ¬ s.healthyFrom ≤ next.healthyFrom ∧
      s.isHealthy (100 * 1000000) = false ∧ next.isHealthy (100 * 1000000) = true := by
  intro bounds events s next
  have hs : s.healthyFrom = 200 * 1000000 := by decide +kernel
  have hnext : next.healthyFrom = 100 * 1000000 := by decide +kernel
  refine ⟨by decide, hs, hnext, ?_, by decide +kernel, by decide +kernel⟩
  rw [hs, hnext]
  decide

end LedgerClient
