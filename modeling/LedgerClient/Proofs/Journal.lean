import LedgerClient.Event

namespace LedgerClient

def Entry.selection? : Entry → Option Nat
  | .event (.nodeSelected attempt _ _) => some attempt
  | _ => none

/-- The attempts that were dispatched to a node, by their numbers. -/
def selections (journal : List Entry) : List Nat :=
  journal.filterMap Entry.selection?

structure Call where
  message : Message
  outcome : Except Fault Answer

def Entry.call? : Entry → Option Call
  | .called _ _ _ message outcome => some ⟨message, outcome⟩
  | _ => none

def calls (journal : List Entry) : List Call :=
  journal.filterMap Entry.call?

/-- The last call and what is on record after it. -/
def lastCall? : List Entry → Option (Call × List Entry)
  | [] => none
  | e :: rest => (lastCall? rest).or (e.call?.map (·, rest))

/-- Whether a node is touched: a channel to it is opened or used. -/
def Entry.isExchange : Entry → Bool
  | .connected _ _ _ | .called _ _ _ _ _ => true
  | _ => false

def exchanges (journal : List Entry) : List Entry :=
  journal.filter Entry.isExchange

/-- Whether a step follows from an answer, delays the next attempt or ends the execution. -/
def Entry.isConclusion : Entry → Bool
  | .event (.classified _ _ _) | .event (.backoff _ _) | .event (.regenerated _ _)
  | .event (.finished _ _) | .event (.failed _ _) | .delayed _ _ => true
  | _ => false

def Entry.replacement? : Entry → Option (TransactionId × TransactionId)
  | .event (.regenerated previous next) => some (previous, next)
  | _ => none

def replacements (journal : List Entry) : List (TransactionId × TransactionId) :=
  journal.filterMap Entry.replacement?

variable {a b : List Entry}

@[simp]
theorem events_append : events (a ++ b) = events a ++ events b :=
  List.filterMap_append

@[simp]
theorem selections_append : selections (a ++ b) = selections a ++ selections b :=
  List.filterMap_append

@[simp]
theorem calls_append : calls (a ++ b) = calls a ++ calls b :=
  List.filterMap_append

@[simp]
theorem exchanges_append : exchanges (a ++ b) = exchanges a ++ exchanges b :=
  List.filter_append ..

@[simp]
theorem replacements_append : replacements (a ++ b) = replacements a ++ replacements b :=
  List.filterMap_append

@[simp]
theorem elapsed_append : elapsed (a ++ b) = elapsed a + elapsed b := by
  induction a with
  | nil => exact (Nat.zero_add _).symm
  | cons x rest ih => rw [List.cons_append, elapsed, ih, elapsed, Nat.add_assoc]

theorem getLast?_events_concat {e : Event} : (events (a ++ [.event e])).getLast? = some e := by
  simp [events]

theorem getLast?_events_append {e : Event} (h : (events b).getLast? = some e) :
    (events (a ++ b)).getLast? = some e := by
  rw [events_append, List.getLast?_append, h, Option.some_or]

/-- A step on record is in the earlier part of a record or in the later part. -/
theorem split_append {before after : List Entry} {e : Entry} (h : a ++ b = before ++ e :: after) :
    (∃ rest, a = before ++ e :: rest) ∨ ∃ rest, b = rest ++ e :: after ∧ before = a ++ rest := by
  rcases List.append_eq_append_iff.mp h with ⟨rest, hb, hr⟩ | ⟨rest, ha, hr⟩
  · exact .inr ⟨rest, hr, hb⟩
  · rcases List.cons_eq_append_iff.mp hr with ⟨rfl, hb⟩ | ⟨rest', hr', -⟩
    · exact .inr ⟨[], hb, by simpa using ha.symm⟩
    · exact .inl ⟨rest', by rw [ha, hr']⟩

theorem lastCall?_map_fst : (lastCall? a).map Prod.fst = (calls a).getLast? := by
  induction a with
  | nil => rfl
  | cons e rest ih =>
    cases hr : lastCall? rest with
    | none =>
      rw [hr] at ih
      have hn : calls rest = [] := List.getLast?_eq_none_iff.mp ih.symm
      simp only [calls] at hn
      cases he : e.call? <;> simp [lastCall?, hr, calls, he, hn]
    | some x =>
      rw [hr] at ih
      simp only [calls] at ih
      cases he : e.call? <;>
        simp [lastCall?, hr, calls, he, List.getLast?_cons, ← ih]

theorem lastCall?_eq_none_iff : lastCall? a = none ↔ calls a = [] := by
  rw [← List.getLast?_eq_none_iff, ← lastCall?_map_fst, Option.map_eq_none_iff]

theorem lastCall?_eq_some {call : Call} {after : List Entry}
    (h : lastCall? a = some (call, after)) :
    ∃ before e, a = before ++ e :: after ∧ e.call? = some call ∧ calls after = [] := by
  induction a with
  | nil => cases h
  | cons e rest ih =>
    cases hr : lastCall? rest with
    | none =>
      simp only [lastCall?, hr, Option.none_or, Option.map_eq_some_iff, Prod.mk.injEq] at h
      obtain ⟨call', he, rfl, rfl⟩ := h
      exact ⟨[], e, rfl, he, lastCall?_eq_none_iff.mp hr⟩
    | some x =>
      simp only [lastCall?, hr, Option.some_or] at h
      obtain ⟨before, e', rfl, he, hn⟩ := ih (hr.trans h)
      exact ⟨e :: before, e', rfl, he, hn⟩

theorem lastCall?_append_of_calls_eq_nil (h : calls b = []) :
    lastCall? (a ++ b) = (lastCall? a).map fun x => (x.1, x.2 ++ b) := by
  induction a with
  | nil => simpa [lastCall?] using lastCall?_eq_none_iff.mpr h
  | cons e rest ih =>
    simp only [List.cons_append, lastCall?, ih]
    cases lastCall? rest <;> cases e.call? <;> rfl

theorem lastCall?_append_of_some {x : Call × List Entry} (h : lastCall? b = some x) :
    lastCall? (a ++ b) = some x := by
  induction a with
  | nil => exact h
  | cons e rest ih => simp [lastCall?, ih]

/-- Steps of a contact conclude nothing, so they replace no id. -/
theorem replacements_eq_nil (h : ∀ e ∈ a, e.isConclusion = false) : replacements a = [] := by
  refine List.filterMap_eq_nil_iff.mpr fun e he => ?_
  have hc := h e he
  unfold Entry.isConclusion at hc
  unfold Entry.replacement?
  split
  next => simp at hc
  next => rfl

theorem Entry.of_isConclusion {e : Entry} (h : e.isConclusion = true) :
    e.selection? = none ∧ e.call? = none ∧ e.isExchange = false := by
  unfold Entry.isConclusion at h
  split at h
  case h_7 => cases h
  all_goals exact ⟨rfl, rfl, rfl⟩

theorem projections_eq_nil (h : ∀ e ∈ a, e.isConclusion = true) :
    selections a = [] ∧ calls a = [] ∧ exchanges a = [] := by
  refine ⟨List.filterMap_eq_nil_iff.mpr fun e he => ?_,
    List.filterMap_eq_nil_iff.mpr fun e he => ?_, List.filter_eq_nil_iff.mpr fun e he => ?_⟩
  · exact (Entry.of_isConclusion (h e he)).1
  · exact (Entry.of_isConclusion (h e he)).2.1
  · simpa using (Entry.of_isConclusion (h e he)).2.2

end LedgerClient
