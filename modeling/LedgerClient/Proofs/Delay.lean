import LedgerClient.Backoff
import Mathlib.Algebra.Group.Nat.Defs

namespace LedgerClient

theorem powerOfTwo?_eq (n : Nat) : powerOfTwo? n = if n < 32 then some (2 ^ n) else none := by
  rw [powerOfTwo?, Nat.one_shiftLeft]

/-- A product that does not fit is beyond all bounds, so a delay is the lesser of two times. -/
theorem Backoff.delay_nanos (b : Backoff) (attempt : Nat) :
    (b.delay attempt).nanos =
      if attempt < 32 ∧ b.min.nanos * 2 ^ attempt ≤ b.max.nanos then b.min.nanos * 2 ^ attempt
      else b.max.nanos := by
  have hmax := b.max.bounded
  unfold Backoff.delay Duration.smaller Duration.times?
  rw [powerOfTwo?_eq]
  by_cases ha : attempt < 32
  · by_cases hfit : b.min.nanos * 2 ^ attempt < UInt64.size * nanosPerSecond
    · simp only [ha, hfit, if_true, dif_pos, Option.bind_some, Option.getD_some, true_and]
      split <;> rfl
    · have hno : ¬ b.min.nanos * 2 ^ attempt ≤ b.max.nanos := by omega
      simp only [ha, hfit, hno, if_true, if_false, dif_neg, not_false_eq_true, Option.bind_some,
        Option.getD_none, and_false, ite_self]
  · simp only [ha, if_false, Option.bind_none, Option.getD_none, false_and, ite_self]

/-- The multiple of the least delay that is meant, computed exactly, but at most the greatest. -/
def Backoff.exactDelay (b : Backoff) (attempt : Nat) : Nat :=
  Min.min (b.min.nanos * 2 ^ attempt) b.max.nanos

theorem Backoff.delay_nanos_of_lt {b : Backoff} {attempt : Nat} (h : attempt < 32) :
    (b.delay attempt).nanos = b.exactDelay attempt := by
  rw [Backoff.delay_nanos, Backoff.exactDelay]
  split <;> omega

theorem Backoff.delay_of_le {b : Backoff} {attempt : Nat} (h : 32 ≤ attempt) :
    b.delay attempt = b.max := by
  rw [Duration.ext_iff, Backoff.delay_nanos, if_neg (by omega)]

theorem Backoff.exactDelay_eq_max_iff {b : Backoff} {attempt : Nat} :
    b.exactDelay attempt = b.max.nanos ↔ b.max.nanos ≤ b.min.nanos * 2 ^ attempt := by
  unfold Backoff.exactDelay
  omega

theorem Backoff.exactDelay_mono {b : Backoff} {i j : Nat} (h : i ≤ j) :
    b.exactDelay i ≤ b.exactDelay j := by
  have hpow : b.min.nanos * 2 ^ i ≤ b.min.nanos * 2 ^ j :=
    Nat.mul_le_mul_left _ (Nat.pow_le_pow_right (by omega) h)
  unfold Backoff.exactDelay
  omega

/-- A delay is the exact one as long as the power of two fits a word of 32 bits, and from then on
exactly where the exact one is the greatest. It is never too short, and where it is not exact it is
the greatest. So the delays of all attempts are exact just between bounds that are no further apart
than a factor of `2 ^ 32`. -/
theorem delay_eq_exactDelay_iff (b : Backoff) :
    (∀ attempt, (b.delay attempt).nanos = b.exactDelay attempt ↔
      attempt < 32 ∨ b.max.nanos ≤ b.min.nanos * 2 ^ attempt) ∧
    (∀ attempt, b.exactDelay attempt ≤ (b.delay attempt).nanos ∧
      ((b.delay attempt).nanos ≠ b.exactDelay attempt → b.delay attempt = b.max)) ∧
    ((∀ attempt : UInt32, (b.delay attempt.toNat).nanos = b.exactDelay attempt.toNat) ↔
      b.max.nanos ≤ b.min.nanos * 2 ^ 32) := by
  have hiff : ∀ attempt, (b.delay attempt).nanos = b.exactDelay attempt ↔
      attempt < 32 ∨ b.max.nanos ≤ b.min.nanos * 2 ^ attempt := by
    intro attempt
    rcases Nat.lt_or_ge attempt 32 with hlt | hge
    · simp [Backoff.delay_nanos_of_lt hlt, hlt]
    · rw [Backoff.delay_of_le hge, eq_comm, Backoff.exactDelay_eq_max_iff]
      exact ⟨.inr, fun h => h.resolve_left (by omega)⟩
  refine ⟨hiff, fun attempt => ?_, fun h => ?_, fun h attempt => ?_⟩
  · rcases Nat.lt_or_ge attempt 32 with hlt | hge
    · simp [Backoff.delay_nanos_of_lt hlt]
    · rw [Backoff.delay_of_le hge]
      exact ⟨Nat.min_le_right .., fun _ => rfl⟩
  · exact ((hiff 32).mp (h 32)).resolve_left (by omega)
  · rw [hiff]
    rcases Nat.lt_or_ge attempt.toNat 32 with hlt | hge
    · exact .inl hlt
    -- what is the greatest at 32 is the greatest from then on
    · have hmono : b.exactDelay 32 ≤ b.exactDelay attempt.toNat := Backoff.exactDelay_mono hge
      rw [Backoff.exactDelay_eq_max_iff.mpr h] at hmono
      exact .inr (Nat.le_min.mp hmono).1

/-- Twice nothing is nothing, but after 32 times it counts as too great. -/
theorem delay_of_doubled_zero :
    let b : Backoff := ⟨.ofMillis 0, .ofMillis 8000⟩
    (∀ attempt, b.exactDelay attempt = 0) ∧ (b.delay 31).nanos = 0 ∧
      b.delay 32 = .ofMillis 8000 ∧ (b.delay 32).nanos ≠ b.exactDelay 32 := by
  refine ⟨fun attempt => ?_, by decide +kernel, by decide +kernel, by decide +kernel⟩
  simp [Backoff.exactDelay, Duration.ofMillis]

/-- A later delay is longer, unless the earlier one is the greatest, or both are zero. -/
theorem Backoff.delay_eq_delay_iff {b : Backoff} {i j : Nat} (h : i < j) :
    b.delay j = b.delay i ↔ b.delay i = b.max ∨ (b.min.nanos = 0 ∧ j < 32) := by
  simp only [Duration.ext_iff, Backoff.delay_nanos]
  by_cases hj : j < 32
  · have hi : i < 32 := by omega
    simp only [hi, hj, true_and, and_true]
    rcases Nat.eq_zero_or_pos b.min.nanos with hb | hb
    · simp [hb]
    · have hlt : b.min.nanos * 2 ^ i < b.min.nanos * 2 ^ j :=
        Nat.mul_lt_mul_of_pos_left (Nat.pow_lt_pow_right (by omega) h) hb
      generalize b.min.nanos * 2 ^ i = x at hlt
      generalize b.min.nanos * 2 ^ j = y at hlt
      split <;> split <;> omega
  · simp only [hj, false_and, and_false, if_false, or_false]
    exact eq_comm

end LedgerClient
