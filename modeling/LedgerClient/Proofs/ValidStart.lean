import LedgerClient.Backoff
import LedgerClient.TransactionId
import Mathlib.Algebra.Group.Nat.Defs

namespace LedgerClient

variable {t u : TransactionId} {start clock : WallTime} {n : Int} {account : AccountId}
  {d e : IdDraw}

/-- An instant as whole seconds and the nanoseconds beyond them. -/
structure Timestamp where
  seconds : Int
  nanos : Nat
deriving DecidableEq

/-- A number of seconds, if it fits a signed word of 64 bits. -/
def signedWord? (n : Int) : Option Int :=
  if -0x8000000000000000 ≤ n ∧ n < 0x8000000000000000 then some n else none

/-- Nanoseconds beyond a second, or short of one, go to the seconds. -/
def Timestamp.carry? (seconds nanos : Int) : Option Timestamp :=
  if nanos < 0 then
    (signedWord? (seconds - 1)).map fun seconds => ⟨seconds, (nanos + nanosPerSecond).toNat⟩
  else if nanos < nanosPerSecond then some ⟨seconds, nanos.toNat⟩
  else (signedWord? (seconds + 1)).map fun seconds => ⟨seconds, (nanos - nanosPerSecond).toNat⟩

/-- The seconds are added first, and then the nanoseconds. -/
def Timestamp.plus? (t : Timestamp) (d : Duration) : Option Timestamp :=
  (signedWord? (t.seconds + (d.nanos / nanosPerSecond : Nat))).bind fun seconds =>
    Timestamp.carry? seconds (t.nanos + (d.nanos % nanosPerSecond : Nat))

def Timestamp.minus? (t : Timestamp) (d : Duration) : Option Timestamp :=
  (signedWord? (t.seconds - (d.nanos / nanosPerSecond : Nat))).bind fun seconds =>
    Timestamp.carry? seconds (t.nanos - (d.nanos % nanosPerSecond : Nat))

def WallTime.timestamp (t : WallTime) : Timestamp :=
  ⟨t.nanos / nanosPerSecond, (t.nanos % nanosPerSecond).toNat⟩

theorem ofNanos?_eq_some_iff : WallTime.ofNanos? n = some start ↔ start.nanos = n := by
  unfold WallTime.ofNanos?
  constructor
  · intro h
    split at h
    next => cases h; rfl
    next => cases h
  · rintro rfl
    rw [dif_pos ⟨start.lower, start.upper⟩]

theorem ofNanos?_eq_none_iff : WallTime.ofNanos? n = none ↔
    n < -(0x8000000000000000 * nanosPerSecond) ∨ 0x8000000000000000 * nanosPerSecond ≤ n := by
  unfold WallTime.ofNanos?
  split
  next h =>
    simp only [reduceCtorEq, false_iff]
    omega
  next h =>
    simp only [true_iff]
    omega

theorem signedWord?_of_mem (h : -0x8000000000000000 ≤ n ∧ n < 0x8000000000000000) :
    signedWord? n = some n :=
  if_pos h

/-- An instant can be shown if its seconds fit their word. -/
theorem map_timestamp_ofNanos? {seconds nanos : Int} (h0 : 0 ≤ nanos) (h : nanos < nanosPerSecond)
    (hn : n = seconds * nanosPerSecond + nanos) :
    (WallTime.ofNanos? n).map WallTime.timestamp =
      (signedWord? seconds).map fun seconds => ⟨seconds, nanos.toNat⟩ := by
  simp only [nanosPerSecond] at h hn
  by_cases hs : -0x8000000000000000 ≤ seconds ∧ seconds < 0x8000000000000000
  · obtain ⟨start, hstart⟩ : ∃ start, WallTime.ofNanos? n = some start := by
      refine Option.ne_none_iff_exists'.mp fun hnone => ?_
      simp only [ofNanos?_eq_none_iff, nanosPerSecond] at hnone
      omega
    have hnanos := ofNanos?_eq_some_iff.mp hstart
    rw [signedWord?_of_mem hs, hstart, Option.map_some, Option.map_some, WallTime.timestamp, hnanos]
    simp only [Option.some.injEq, Timestamp.mk.injEq, nanosPerSecond]
    omega
  · have hnone : WallTime.ofNanos? n = none := by
      simp only [ofNanos?_eq_none_iff, nanosPerSecond]
      omega
    rw [signedWord?, if_neg hs, hnone, Option.map_none, Option.map_none]

/-- Where the seconds alone do not fit, the whole does not fit: the nanoseconds go further in the
same direction, or less than a second back. -/
theorem bind_carry? {seconds nanos : Int} (hlower : -nanosPerSecond < nanos)
    (hupper : nanos < 2 * nanosPerSecond)
    (h : -0x8000000000000000 ≤ seconds ∧ 0 ≤ nanos ∨
      seconds < 0x8000000000000000 ∧ nanos < nanosPerSecond)
    (hn : n = seconds * nanosPerSecond + nanos) :
    ((signedWord? seconds).bind fun seconds => Timestamp.carry? seconds nanos) =
      (WallTime.ofNanos? n).map WallTime.timestamp := by
  by_cases hs : -0x8000000000000000 ≤ seconds ∧ seconds < 0x8000000000000000
  · rw [signedWord?_of_mem hs, Option.bind_some]
    unfold Timestamp.carry?
    simp only [nanosPerSecond] at hn
    split
    next hneg =>
      refine (map_timestamp_ofNanos? (by omega) (by omega) ?_).symm
      simp only [nanosPerSecond]
      omega
    next hnonneg =>
      split
      next hlt =>
        rw [map_timestamp_ofNanos? (by omega) hlt hn, signedWord?_of_mem hs, Option.map_some]
      next hge =>
        refine (map_timestamp_ofNanos? (by omega) (by omega) ?_).symm
        simp only [nanosPerSecond]
        omega
  · have hnone : WallTime.ofNanos? n = none := by
      simp only [ofNanos?_eq_none_iff, nanosPerSecond] at hn h ⊢
      omega
    rw [signedWord?, if_neg hs, hnone, Option.bind_none, Option.map_none]

theorem plus?_timestamp (t : WallTime) (d : Duration) :
    t.timestamp.plus? d = (WallTime.ofNanos? (t.nanos + d.nanos)).map WallTime.timestamp := by
  have hlower := t.lower
  simp only [nanosPerSecond] at hlower
  refine bind_carry? ?_ ?_ ?_ ?_
  all_goals
    simp only [WallTime.timestamp, nanosPerSecond]
    omega

theorem minus?_timestamp (t : WallTime) (d : Duration) :
    t.timestamp.minus? d = (t.minus? d.nanos).map WallTime.timestamp := by
  have hupper := t.upper
  simp only [nanosPerSecond] at hupper
  refine bind_carry? ?_ ?_ ?_ ?_
  all_goals
    simp only [WallTime.timestamp, nanosPerSecond]
    omega

/-- The nanoseconds from the epoch to the instant that an id is valid from. -/
def TransactionId.instant (t : TransactionId) : Nat :=
  t.seconds.toNat * nanosPerSecond + t.nanos.toNat

/-- The nanoseconds are below one second. -/
def TransactionId.IsNormal (t : TransactionId) : Prop :=
  t.nanos.toNat < nanosPerSecond

instance : Decidable t.IsNormal :=
  inferInstanceAs (Decidable (t.nanos.toNat < nanosPerSecond))

/-- The id of the same account and start as a clock shows it. -/
def TransactionId.normalized? (t : TransactionId) : Option TransactionId :=
  t.validStart?.map (TransactionId.starting t.account)

theorem validStart?_eq_some_iff : t.validStart? = some start ↔ start.nanos = t.instant :=
  ofNanos?_eq_some_iff

theorem validStart?_eq_none_iff :
    t.validStart? = none ↔ 2 ^ 63 - 1 < t.seconds.toNat + t.nanos.toNat / nanosPerSecond := by
  rw [TransactionId.validStart?, ofNanos?_eq_none_iff]
  simp only [nanosPerSecond]
  omega

theorem starting_toNat (account : AccountId) (start : WallTime) :
    (TransactionId.starting account start).seconds.toNat = start.nanos.toNat / nanosPerSecond ∧
      (TransactionId.starting account start).nanos.toNat = start.nanos.toNat % nanosPerSecond := by
  have hupper := start.upper
  constructor
  · refine UInt64.toNat_ofNat_of_lt' ?_
    simp only [nanosPerSecond, UInt64.size] at hupper ⊢
    omega
  · refine UInt32.toNat_ofNat_of_lt' ?_
    simp only [nanosPerSecond, UInt32.size]
    omega

theorem instant_starting (account : AccountId) (start : WallTime) :
    (TransactionId.starting account start).instant = start.nanos.toNat := by
  obtain ⟨hseconds, hnanos⟩ := starting_toNat account start
  rw [TransactionId.instant, hseconds, hnanos, Nat.div_add_mod']

theorem isNormal_starting (account : AccountId) (start : WallTime) :
    (TransactionId.starting account start).IsNormal := by
  rw [TransactionId.IsNormal, (starting_toNat account start).2]
  exact Nat.mod_lt _ (by decide)

/-- The parts of a normal id are quotient and remainder. -/
theorem TransactionId.IsNormal.eq_of_instant_eq (ht : t.IsNormal) (hu : u.IsNormal)
    (haccount : t.account = u.account) (h : t.instant = u.instant) : t = u := by
  obtain ⟨account, seconds, nanos⟩ := t
  obtain ⟨account', seconds', nanos'⟩ := u
  simp only [TransactionId.IsNormal, TransactionId.instant, nanosPerSecond] at ht hu haccount h
  have hseconds : seconds = seconds' := UInt64.toNat_inj.mp (by omega)
  have hnanos : nanos = nanos' := UInt32.toNat_inj.mp (by omega)
  rw [haccount, hseconds, hnanos]

theorem starting_of_neg (h : start.nanos < 0) :
    TransactionId.starting account start = ⟨account, 0, 0⟩ := by
  have hzero : start.nanos.toNat = 0 := Int.toNat_of_nonpos (by omega)
  rw [TransactionId.starting, hzero]
  rfl

def Duration.ofSeconds (seconds : UInt64) : Duration :=
  ⟨seconds.toNat * nanosPerSecond, Nat.mul_lt_mul_of_pos_right seconds.toNat_lt (by decide)⟩

def Duration.ofNanos (nanos : UInt64) : Duration :=
  ⟨nanos.toNat, Nat.lt_of_lt_of_le nanos.toNat_lt (by decide)⟩

/-- The seconds are added to the epoch, and then the nanoseconds. -/
theorem timestamp_validStart? (t : TransactionId) :
    t.validStart?.map WallTime.timestamp =
      (WallTime.epoch.timestamp.plus? (.ofSeconds t.seconds)).bind
        (·.plus? (.ofNanos t.nanos.toUInt64)) := by
  rw [plus?_timestamp]
  cases hfirst : WallTime.ofNanos?
      (WallTime.epoch.nanos + (Duration.ofSeconds t.seconds).nanos) with
  | none =>
    -- seconds that do not fit are too many also with nanoseconds added to them
    have hnone : t.validStart? = none := by
      rw [validStart?_eq_none_iff]
      simp only [ofNanos?_eq_none_iff, WallTime.epoch, Duration.ofSeconds, nanosPerSecond]
        at hfirst ⊢
      omega
    rw [hnone]
    rfl
  | some start =>
    have hstart := ofNanos?_eq_some_iff.mp hfirst
    have hsum : start.nanos + (Duration.ofNanos t.nanos.toUInt64).nanos = t.instant := by
      rw [hstart]
      simp [WallTime.epoch, Duration.ofSeconds, Duration.ofNanos, TransactionId.instant]
    rw [Option.map_some, Option.bind_some, plus?_timestamp, hsum]
    rfl

/-- The start of an id is what a clock shows that adds its seconds and nanoseconds to the epoch. It
cannot be shown if and only if the seconds, with those that the nanoseconds make, are more than a
signed word holds. Else the id made from it is of the same account and instant, and it is normal: it
is the same id just if that was normal, and it is the id made from its own start. From an instant
before the epoch zero is made. -/
theorem normal_form_of_id (t : TransactionId) :
    t.validStart?.map WallTime.timestamp =
      (WallTime.epoch.timestamp.plus? (.ofSeconds t.seconds)).bind
        (·.plus? (.ofNanos t.nanos.toUInt64)) ∧
    (t.validStart? = none ↔ 2 ^ 63 - 1 < t.seconds.toNat + t.nanos.toNat / nanosPerSecond) ∧
    (t.seconds.toNat + t.nanos.toNat / nanosPerSecond ≤ 2 ^ 63 - 1 →
      ∃ start, t.validStart? = some start ∧ start.nanos = t.instant ∧
        let normal := TransactionId.starting t.account start
        t.normalized? = some normal ∧ normal.account = t.account ∧ normal.instant = t.instant ∧
        normal.IsNormal ∧ (normal = t ↔ t.IsNormal) ∧ normal.normalized? = some normal) ∧
    ∀ (account : AccountId) (start : WallTime), start.nanos < 0 →
      TransactionId.starting account start = ⟨account, 0, 0⟩ := by
  refine ⟨timestamp_validStart? t, validStart?_eq_none_iff, fun hfit => ?_,
    fun _ _ => starting_of_neg⟩
  obtain ⟨start, hstart⟩ : ∃ start, t.validStart? = some start :=
    Option.ne_none_iff_exists'.mp fun hnone => by
      have := validStart?_eq_none_iff.mp hnone
      omega
  have hnanos := validStart?_eq_some_iff.mp hstart
  have hnormal := isNormal_starting t.account start
  have hinstant : (TransactionId.starting t.account start).instant = t.instant := by
    rw [instant_starting, hnanos, Int.toNat_natCast]
  have hagain : (TransactionId.starting t.account start).validStart? = some start :=
    validStart?_eq_some_iff.mpr (by rw [hinstant, hnanos])
  refine ⟨start, hstart, hnanos, ?_, rfl, hinstant, hnormal,
    ⟨fun h => h ▸ hnormal, fun ht => ?_⟩, ?_⟩
  · rw [TransactionId.normalized?, hstart, Option.map_some]
  · exact hnormal.eq_of_instant_eq ht rfl hinstant
  · rw [TransactionId.normalized?, hagain, Option.map_some]
    rfl

theorem normal_form_of_surplus :
    let t : TransactionId := ⟨⟨0, 0, 2⟩, 9223372036854775803, 4294967295⟩
    let justBefore : WallTime := ⟨-1, by decide, by decide⟩
    t.seconds.toNat + t.nanos.toNat / nanosPerSecond ≤ 2 ^ 63 - 1 ∧
      t.normalized? = some ⟨⟨0, 0, 2⟩, 9223372036854775807, 294967295⟩ ∧
      justBefore.nanos < 0 ∧ TransactionId.starting ⟨0, 0, 2⟩ justBefore = ⟨⟨0, 0, 2⟩, 0, 0⟩ := by
  intro t justBefore
  obtain ⟨-, -, hfits, hearlier⟩ := normal_form_of_id t
  have hfit : t.seconds.toNat + t.nanos.toNat / nanosPerSecond ≤ 2 ^ 63 - 1 := by decide
  have hneg : justBefore.nanos < 0 := by decide
  obtain ⟨start, -, -, hnormalized, haccount, hinstant, hnormal, -, -⟩ := hfits hfit
  have heq : TransactionId.starting t.account start =
      ⟨⟨0, 0, 2⟩, 9223372036854775807, 294967295⟩ :=
    hnormal.eq_of_instant_eq (by decide) haccount (hinstant.trans (by decide))
  exact ⟨hfit, heq ▸ hnormalized, hneg, hearlier _ _ hneg⟩

theorem IdDraw.backdate_mem (d : IdDraw) :
    5 * nanosPerSecond ≤ d.backdate ∧ d.backdate < 8 * nanosPerSecond := by
  have hge := d.millis_ge
  have hlt := d.millis_lt
  have hnanos := d.nanos_lt
  simp only [IdDraw.backdate, nanosPerSecond]
  omega

/-- The nanoseconds stay below a millisecond, so no two draws go back equally far. -/
theorem IdDraw.backdate_eq_iff :
    d.backdate = e.backdate ↔ d.millis = e.millis ∧ d.nanos = e.nanos := by
  have hd := d.nanos_lt
  have he := e.nanos_lt
  unfold IdDraw.backdate
  omega

theorem IdDraw.exists_backdate_eq (reading : WallTime) {n : Nat} (hge : 5 * nanosPerSecond ≤ n)
    (hlt : n < 8 * nanosPerSecond) : ∃ d : IdDraw, d.reading = reading ∧ d.backdate = n := by
  simp only [nanosPerSecond] at hge hlt
  exact ⟨⟨reading, n / 1000000, n % 1000000, by omega, by omega, by omega⟩, rfl,
    Nat.div_add_mod' n 1000000⟩

/-- How far a draw goes back. -/
def IdDraw.lag (d : IdDraw) : Duration :=
  ⟨d.backdate, Nat.lt_trans d.backdate_mem.2 (by decide)⟩

/-- Before the epoch nothing starts, however far back a clock can show instants. -/
theorem instant_generate (account : AccountId) (d : IdDraw) :
    (TransactionId.generate account d).instant = (d.reading.nanos - d.backdate).toNat := by
  rw [TransactionId.generate, instant_starting, WallTime.minus?]
  cases hstart : WallTime.ofNanos? (d.reading.nanos - d.backdate) with
  | none =>
    have hupper := d.reading.upper
    simp only [ofNanos?_eq_none_iff, nanosPerSecond] at hstart hupper
    simp only [Option.getD_none, WallTime.epoch]
    omega
  | some start => rw [Option.getD_some, ofNanos?_eq_some_iff.mp hstart]

theorem account_generate (account : AccountId) (d : IdDraw) :
    (TransactionId.generate account d).account = account :=
  rfl

theorem isNormal_generate (account : AccountId) (d : IdDraw) :
    (TransactionId.generate account d).IsNormal :=
  isNormal_starting account _

theorem exists_minus?_backdate (h : 0 ≤ d.reading.nanos) :
    ∃ start, d.reading.minus? d.backdate = some start := by
  refine Option.ne_none_iff_exists'.mp fun hnone => ?_
  have hupper := d.reading.upper
  have hlt := d.backdate_mem.2
  simp only [WallTime.minus?, ofNanos?_eq_none_iff, nanosPerSecond] at hnone hupper hlt
  omega

theorem generate_eq_generate_iff (h : d.reading = e.reading) :
    TransactionId.generate account d = TransactionId.generate account e ↔
      d.millis = e.millis ∧ d.nanos = e.nanos ∨
        d.reading.nanos ≤ d.backdate ∧ d.reading.nanos ≤ e.backdate := by
  have hinstants : TransactionId.generate account d = TransactionId.generate account e ↔
      (TransactionId.generate account d).instant = (TransactionId.generate account e).instant :=
    ⟨congrArg _, (isNormal_generate account d).eq_of_instant_eq (isNormal_generate account e)
      ((account_generate account d).trans (account_generate account e).symm)⟩
  rw [hinstants, instant_generate, instant_generate, ← h, ← IdDraw.backdate_eq_iff]
  omega

/-- A clock at the epoch or later goes back as far as a draw says, also one that keeps seconds and
nanoseconds apart. The id is of the account and normal. It starts there, or at the epoch if that is
later: from eight seconds after the epoch on, at least five seconds and less than eight before the
reading. At one instant two draws make one id if and only if they are the same, or neither stops
after the epoch. Of the nanoseconds between the bounds none is left out. -/
theorem start_of_generated (account : AccountId) :
    (∀ d : IdDraw, 0 ≤ d.reading.nanos →
      ∃ start, d.reading.minus? d.backdate = some start ∧
        d.reading.timestamp.minus? d.lag = some start.timestamp ∧
        start.nanos = d.reading.nanos - d.backdate ∧
        let id := TransactionId.generate account d
        id.account = account ∧ id.IsNormal ∧
        id.validStart? = some (if 0 ≤ start.nanos then start else .epoch) ∧
        (8 * nanosPerSecond ≤ d.reading.nanos →
          id.validStart? = some start ∧ 5 * nanosPerSecond ≤ d.reading.nanos - start.nanos ∧
          d.reading.nanos - start.nanos < 8 * nanosPerSecond)) ∧
    (∀ d e : IdDraw, d.reading = e.reading →
      (TransactionId.generate account d = TransactionId.generate account e ↔
        d.millis = e.millis ∧ d.nanos = e.nanos ∨
          d.reading.nanos ≤ d.backdate ∧ d.reading.nanos ≤ e.backdate)) ∧
    (∀ d e : IdDraw, d.reading = e.reading → d.backdate ≤ d.reading.nanos →
      e.backdate ≤ e.reading.nanos →
      TransactionId.generate account d = TransactionId.generate account e →
        d.millis = e.millis ∧ d.nanos = e.nanos) ∧
    ∀ (reading : WallTime) (n : Nat), 5 * nanosPerSecond ≤ n → n < 8 * nanosPerSecond →
      ∃ d : IdDraw, d.reading = reading ∧ d.backdate = n := by
  refine ⟨fun d hreading => ?_, fun d e => generate_eq_generate_iff, fun d e h hd he hsame => ?_,
    fun reading n => IdDraw.exists_backdate_eq reading⟩
  · obtain ⟨start, hstart⟩ := exists_minus?_backdate hreading
    have hnanos : start.nanos = d.reading.nanos - d.backdate := ofNanos?_eq_some_iff.mp hstart
    have hvalid : (TransactionId.generate account d).validStart? =
        some (if 0 ≤ start.nanos then start else .epoch) := by
      rw [validStart?_eq_some_iff, instant_generate, ← hnanos]
      split
      next h => exact (Int.toNat_of_nonneg h).symm
      next h =>
        rw [Int.toNat_of_nonpos (by omega)]
        rfl
    refine ⟨start, hstart, ?_, hnanos, rfl, isNormal_generate account d, hvalid, fun hlate => ?_⟩
    · rw [minus?_timestamp]
      exact congrArg (Option.map WallTime.timestamp) hstart
    · obtain ⟨hge, hlt⟩ := d.backdate_mem
      rw [if_pos (by omega)] at hvalid
      exact ⟨hvalid, by omega, by omega⟩
  · rcases (generate_eq_generate_iff h).mp hsame with hdraws | ⟨hd', he'⟩
    · exact hdraws
    -- both draws go back to the epoch itself
    · exact IdDraw.backdate_eq_iff.mp (by rw [← h] at he; omega)

/-- The longest way back from eight seconds after the epoch, and one that is a millisecond
shorter. -/
theorem start_of_longest_lag :
    let eight : WallTime := ⟨8 * nanosPerSecond, by decide, by decide⟩
    let d : IdDraw := { reading := eight, millis := 7999, nanos := 999999 }
    let e : IdDraw := { reading := eight, millis := 7998, nanos := 999999 }
    0 ≤ d.reading.nanos ∧ 8 * nanosPerSecond ≤ d.reading.nanos ∧
      (∃ start, (TransactionId.generate ⟨0, 0, 2⟩ d).validStart? = some start ∧
        start.nanos = 1 ∧ d.reading.nanos - start.nanos < 8 * nanosPerSecond) ∧
      d.reading = e.reading ∧ d.backdate ≤ d.reading.nanos ∧ e.backdate ≤ e.reading.nanos ∧
      TransactionId.generate ⟨0, 0, 2⟩ d ≠ TransactionId.generate ⟨0, 0, 2⟩ e ∧
      ∃ f : IdDraw, f.reading = eight ∧ f.backdate = 5 * nanosPerSecond := by
  intro eight d e
  obtain ⟨hstarts, -, hinjective, honto⟩ := start_of_generated ⟨0, 0, 2⟩
  have hd : d.backdate ≤ d.reading.nanos := by decide
  have he : e.backdate ≤ e.reading.nanos := by decide
  obtain ⟨start, -, -, hnanos, -, -, -, hlate⟩ := hstarts d (by decide)
  obtain ⟨hvalid, -, hlt⟩ := hlate (by decide)
  have hdiffer : TransactionId.generate ⟨0, 0, 2⟩ d ≠ TransactionId.generate ⟨0, 0, 2⟩ e := by
    intro hsame
    have hmillis : 7999 = 7998 := (hinjective d e rfl hd he hsame).1
    omega
  have hfirst : start.nanos = 1 := hnanos.trans (by decide)
  exact ⟨by decide, by decide, ⟨start, hvalid, hfirst, hlt⟩, rfl, hd, he, hdiffer,
    honto eight (5 * nanosPerSecond) (Nat.le_refl _) (by omega)⟩

end LedgerClient
