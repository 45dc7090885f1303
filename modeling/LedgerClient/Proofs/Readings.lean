import LedgerClient.Telemetry
import Mathlib.Algebra.GroupWithZero.Nat
import Mathlib.Data.List.Induction
import Mathlib.Data.List.Nodup

namespace LedgerClient

inductive Kind
  | counter
  | gauge
  | histogram
deriving DecidableEq

def Measurement.kind : Measurement → Kind
  | .counted _ _ => .counter
  | .measured _ _ _ => .gauge
  | .sampled _ _ _ => .histogram

def Reading.kind : Reading → Kind
  | .total _ => .counter
  | .last _ => .gauge
  | .samples _ => .histogram

def Measurement.metric : Measurement → String
  | .counted name _ | .measured name _ _ | .sampled name _ _ => name

/-- What a measurement adds to the sum of its metric. -/
def Measurement.amount : Measurement → Nat
  | .counted _ _ => 1
  | .measured _ _ _ => 0
  | .sampled _ _ value => value

def Reading.sum : Reading → Nat
  | .total n => n
  | .last _ => 0
  | .samples values => values.sum

/-- The metric that a key belongs to is named before the labels. -/
def metricOf (key : String) : String :=
  .ofList (key.toList.takeWhile (· ≠ '\x7b'))

/-- The sum of a metric over all its labels, as it can be read off. -/
def readingSum (metric : String) (table : List (String × Reading)) : Nat :=
  ((table.filter fun row => metricOf row.1 = metric).map fun row => row.2.sum).sum

/-- The sum of all that was measured of a metric. -/
def amountSum (metric : String) (ms : List Measurement) : Nat :=
  ((ms.filter fun m => m.metric = metric).map Measurement.amount).sum

variable {metric key : String} {kind : Kind} {m : Measurement} {ms ms' : List Measurement}
  {table table' : List (String × Reading)} {before : Option Reading} {old new : Reading}

@[simp]
theorem readingSum_append :
    readingSum metric (table ++ table') = readingSum metric table + readingSum metric table' := by
  simp [readingSum]

@[simp]
theorem readingSum_cons :
    readingSum metric ((key, old) :: table) =
      (if metricOf key = metric then old.sum else 0) + readingSum metric table := by
  by_cases h : metricOf key = metric <;> simp [readingSum, h]

@[simp]
theorem readingSum_nil : readingSum metric [] = 0 :=
  rfl

@[simp]
theorem amountSum_append :
    amountSum metric (ms ++ ms') = amountSum metric ms + amountSum metric ms' := by
  simp [amountSum]

theorem amountSum_singleton :
    amountSum metric [m] = if m.metric = metric then m.amount else 0 := by
  by_cases h : m.metric = metric <;> simp [amountSum, h]

theorem Measurement.toList_key : ∃ labels, m.key.toList = m.metric.toList ++ '\x7b' :: labels := by
  cases m <;>
  · simp only [Measurement.key, String.toList_append, List.append_assoc]
    exact ⟨_, rfl⟩

theorem metricOf_key (h : '\x7b' ∉ m.metric.toList) : metricOf m.key = m.metric := by
  obtain ⟨labels, hkey⟩ := m.toList_key
  have hplain : ∀ x ∈ m.metric.toList, decide (x ≠ '\x7b') = true := fun x hx => by
    simpa using ne_of_mem_of_not_mem hx h
  rw [metricOf, hkey, List.takeWhile_append_of_pos hplain]
  simp

theorem Measurement.kind_reading : (m.reading before).kind = m.kind := by
  cases m <;> unfold Measurement.reading <;> dsimp only <;> first | rfl | (split <;> rfl)

/-- A reading of the right kind takes the measurement in. -/
theorem Measurement.sum_reading (h : ∀ reading ∈ before, reading.kind = m.kind) :
    (m.reading before).sum = (before.map Reading.sum).getD 0 + m.amount := by
  cases before with
  | none => cases m <;> simp [Measurement.reading, Reading.sum, Measurement.amount]
  | some reading =>
    have hkind := h reading rfl
    cases m with
    | counted =>
      cases reading with
      | total => rfl
      | last | samples => cases hkind
    | measured =>
      cases reading with
      | last => rfl
      | total | samples => cases hkind
    | sampled =>
      cases reading with
      | samples => simp [Measurement.reading, Reading.sum, Measurement.amount]
      | total | last => cases hkind

theorem readings_concat :
    readings (ms ++ [m]) =
      let reading := m.reading ((readings ms).lookup m.key)
      if ((readings ms).lookup m.key).isSome then
        (readings ms).map fun row => if row.1 = m.key then (m.key, reading) else row
      else readings ms ++ [(m.key, reading)] := by
  unfold readings
  rw [List.foldl_append]
  rfl

/-- What holds of the readings `table` of the measurements `ms`. -/
structure Tallied (metric : String) (kind : Kind) (ms : List Measurement)
    (table : List (String × Reading)) : Prop where
  nodup : (table.map Prod.fst).Nodup
  kind : ∀ row ∈ table, metricOf row.1 = metric → row.2.kind = kind
  sum : readingSum metric table = amountSum metric ms

theorem Tallied.add (h : Tallied metric kind ms table) (hnew : ∀ row ∈ table, row.1 ≠ m.key)
    (hkey : metricOf m.key = m.metric) (hkind : m.metric = metric → m.kind = kind) :
    Tallied metric kind (ms ++ [m]) (table ++ [(m.key, m.reading none)]) where
  nodup := by
    rw [List.map_append, List.nodup_append]
    refine ⟨h.nodup, List.nodup_singleton _, fun key hk key' hk' => ?_⟩
    obtain ⟨row, hrow, rfl⟩ := List.mem_map.mp hk
    obtain rfl : key' = m.key := List.mem_singleton.mp hk'
    exact hnew row hrow
  kind row hrow hmetric := by
    rcases List.mem_append.mp hrow with hrow | hrow
    · exact h.kind row hrow hmetric
    · obtain rfl := List.mem_singleton.mp hrow
      rw [Measurement.kind_reading]
      exact hkind (hkey.symm.trans hmetric)
  sum := by
    have hreading : (m.reading none).sum = m.amount := by
      rw [Measurement.sum_reading (by simp)]
      exact Nat.zero_add _
    rw [readingSum_append, readingSum_cons, readingSum_nil, amountSum_append, amountSum_singleton,
      h.sum, hkey, hreading, Nat.add_zero]

theorem Tallied.replace {rows rows' : List (String × Reading)}
    (h : Tallied metric kind ms (rows ++ (m.key, old) :: rows'))
    (hkey : metricOf m.key = m.metric) (hkind : m.metric = metric → m.kind = kind) :
    Tallied metric kind (ms ++ [m]) (rows ++ (m.key, m.reading (some old)) :: rows') where
  nodup := by simpa using h.nodup
  kind row hrow hmetric := by
    rcases List.mem_append.mp hrow with hrow | hrow
    · exact h.kind row (List.mem_append_left _ hrow) hmetric
    rcases List.mem_cons.mp hrow with rfl | hrow
    · rw [Measurement.kind_reading]
      exact hkind (hkey.symm.trans hmetric)
    · exact h.kind row (List.mem_append_right _ (List.mem_cons_of_mem _ hrow)) hmetric
  sum := by
    have hsum := h.sum
    rw [readingSum_append, readingSum_cons, hkey] at hsum ⊢
    rw [amountSum_append, amountSum_singleton, ← hsum]
    split
    next hm =>
      have hold : old.kind = kind :=
        h.kind (m.key, old) (by simp) (hkey.trans hm)
      have hreading : (m.reading (some old)).sum = old.sum + m.amount := by
        refine Measurement.sum_reading fun reading hr => ?_
        obtain rfl := Option.some.inj hr
        exact hold.trans (hkind hm).symm
      omega
    next => omega

theorem map_replace {rows rows' : List (String × Reading)}
    (h : ((rows ++ (key, old) :: rows').map Prod.fst).Nodup) :
    (rows ++ (key, old) :: rows').map (fun row => if row.1 = key then (key, new) else row) =
      rows ++ (key, new) :: rows' := by
  rw [List.map_append, List.map_cons, List.nodup_middle, List.nodup_cons, ← List.map_append] at h
  have hother : ∀ rest : List (String × Reading), rest ⊆ rows ++ rows' →
      rest.map (fun row => if row.1 = key then (key, new) else row) = rest := by
    intro rest hrest
    refine (List.map_congr_left fun row hrow => if_neg fun heq => h.1 ?_).trans (List.map_id rest)
    exact heq ▸ List.mem_map.mpr ⟨row, hrest hrow, rfl⟩
  rw [List.map_append, List.map_cons, hother rows (List.subset_append_left ..),
    hother rows' (List.subset_append_right ..), if_pos rfl]

/-- A measurement replaces one row, for there is but one of its key, or adds one. -/
theorem Tallied.record (h : Tallied metric kind ms (readings ms))
    (hkey : metricOf m.key = m.metric) (hkind : m.metric = metric → m.kind = kind) :
    Tallied metric kind (ms ++ [m]) (readings (ms ++ [m])) := by
  rw [readings_concat]
  cases hl : (readings ms).lookup m.key with
  | none =>
    refine h.add (fun row hrow => ?_) hkey hkind
    have hne := List.lookup_eq_none_iff.mp hl row hrow
    exact Ne.symm (by simpa using hne)
  | some old =>
    obtain ⟨rows, rows', htable, -⟩ := List.lookup_eq_some_iff.mp hl
    rw [htable] at h ⊢
    rw [Option.isSome_some, if_pos rfl, map_replace h.nodup]
    exact h.replace hkey hkind

/-- The rows of a metric add up to what was measured of it. -/
theorem readingSum_readings (hplain : ∀ m ∈ ms, '\x7b' ∉ m.metric.toList)
    (hkind : ∀ m ∈ ms, m.metric = metric → m.kind = kind) :
    readingSum metric (readings ms) = amountSum metric ms := by
  suffices h : Tallied metric kind ms (readings ms) from h.sum
  induction ms using List.reverseRecOn with
  | nil => exact ⟨List.nodup_nil, by simp [readings], rfl⟩
  | append_singleton ms m ih =>
    have hm : m ∈ ms ++ [m] := by simp
    have hms : ∀ m' ∈ ms, m' ∈ ms ++ [m] := fun m' h => List.mem_append_left _ h
    have htallied := ih (fun m' h => hplain m' (hms m' h)) fun m' h => hkind m' (hms m' h)
    exact htallied.record (metricOf_key (hplain m hm)) (hkind m hm)

end LedgerClient
