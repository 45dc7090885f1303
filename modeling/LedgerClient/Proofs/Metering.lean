import LedgerClient.Proofs.Readings
import LedgerClient.Proofs.Repetition
import LedgerClient.Proofs.Visits

namespace LedgerClient

variable {σ α : Type} {c : Client} {w : World σ} {op : Operation α} {r : Request}
  {situation : Situation σ} {p q : Progress σ} {e : Ending α} {k made limit : Nat} {m : Measurement}
  {a b : List Entry} {x : Entry} {es : List Event} {id : AccountId}

/-- All that is measured of the steps on record. -/
def measured (journal : List Entry) : List Measurement :=
  journal.flatMap Entry.measurements

@[simp]
theorem measured_append : measured (a ++ b) = measured a ++ measured b :=
  List.flatMap_append

theorem amountSum_calls_of_entry :
    amountSum callsMetric x.measurements = (dispatches [x]).length := by
  rcases x with ⟨event⟩ | _ | _ | _ | _
  · cases event <;> rfl
  all_goals rfl

theorem amountSum_attempts_of_entry :
    amountSum attemptsMetric x.measurements = (totals (events [x])).sum := by
  rcases x with ⟨event⟩ | _ | _ | _ | _
  · cases event <;> rfl
  all_goals rfl

/-- The metrics that steps are measured by. -/
def metrics : List (String × Kind) :=
  [(callsMetric, .counter), (faultsMetric, .counter), (executionsMetric, .counter),
    (attemptsMetric, .histogram), (penaltyMetric, .gauge)]

theorem metric_of_entry (h : m ∈ x.measurements) : (m.metric, m.kind) ∈ metrics := by
  rcases x with ⟨event⟩ | _ | _ | _ | _
  · cases event <;>
      simp only [Entry.measurements, Event.measurements, executionMeasurements, faultMeasurement,
        List.mem_cons, List.not_mem_nil, or_false] at h
    case finished | failed =>
      rcases h with rfl | rfl <;> simp [metrics, Measurement.metric, Measurement.kind]
    all_goals
      subst h
      simp [metrics, Measurement.metric, Measurement.kind]
  all_goals simp [Entry.measurements] at h
  subst h
  simp [metrics, Measurement.metric, Measurement.kind]

/-- Metrics have plain names, and one kind each. -/
theorem plain_of_metrics : ∀ entry ∈ metrics, '\x7b' ∉ entry.1.toList := by
  decide

theorem kind_of_metrics : ∀ entry ∈ metrics, ∀ other ∈ metrics, entry.1 = other.1 →
    entry.2 = other.2 := by
  decide

theorem readingSum_measured {kind : Kind} {metric : String} (h : (metric, kind) ∈ metrics) :
    readingSum metric (readings (measured a)) = amountSum metric (measured a) := by
  have hmetric : ∀ m ∈ measured a, (m.metric, m.kind) ∈ metrics := fun m hm => by
    obtain ⟨x, -, hx⟩ := List.mem_flatMap.mp hm
    exact metric_of_entry hx
  exact readingSum_readings (fun m hm => plain_of_metrics _ (hmetric m hm))
    fun m hm heq => kind_of_metrics _ (hmetric m hm) _ h heq

theorem amountSum_calls : amountSum callsMetric (measured a) = (dispatches a).length := by
  induction a with
  | nil => rfl
  | cons x rest ih =>
    have hcons : x :: rest = [x] ++ rest := rfl
    have hx : measured [x] = x.measurements := List.append_nil _
    rw [hcons, measured_append, amountSum_append, ih, hx, amountSum_calls_of_entry,
      dispatches_append, List.length_append]

theorem amountSum_attempts : amountSum attemptsMetric (measured a) = (totals (events a)).sum := by
  induction a with
  | nil => rfl
  | cons x rest ih =>
    have hcons : x :: rest = [x] ++ rest := rfl
    have hx : measured [x] = x.measurements := List.append_nil _
    rw [hcons, measured_append, amountSum_append, ih, hx, amountSum_attempts_of_entry,
      events_append, totals_append, List.sum_append]

/-- Whether an execution ended because the node of an attempt was not known. -/
def Occasion.missesNode (o : Occasion σ) (r : Request) : Bool :=
  match (o.run r).1, (events (o.run r).2.journal).getLast? with
  | .error (.unknownNode _), some (.failed _ _) => true
  | _, _ => false

/-- Where the node of attempt `k` is not known, the attempts before it were all dispatched. -/
theorem Client.FindsNoNode.run_eq (h : c.FindsNoNode w op r situation k) :
    let run := c.run w op r situation
    (∃ id, run.1 = .error (.unknownNode id)) ∧
      (∃ before text, events run.2.journal = before ++ [.failed k text] ∧ totals before = []) ∧
      (dispatches run.2.journal).length + 1 = k := by
  obtain ⟨p, e, q, m, makes, hm, hf⟩ := h
  have hattempt := makes.attempt_eq
  simp only [Client.attempt, contact_of_unknownNode hm hf, Progress.fail] at hattempt
  cases hattempt
  rw [makes.run_of_settled]
  cases makes with
  | intro hp reach =>
    refine ⟨⟨_, rfl⟩, ⟨events p.journal, _, events_append, (reach.rounds rfl).totals_eq⟩, ?_⟩
    rw [Progress.andThen, dispatches_append, List.length_append, reach.length_dispatches rfl]
    rfl

theorem findsNoNode_of_unknownNode {text : String}
    (h : (c.run w op r situation).1 = .error (.unknownNode id))
    (hlast : (events (c.run w op r situation).2.journal).getLast? = some (.failed k text)) :
    ∃ k, c.FindsNoNode w op r situation k := by
  generalize hrun : c.run w op r situation = run at h hlast
  obtain ⟨result, q⟩ := run
  rcases run_cases hrun with ⟨e, _, _, hp, rfl, -⟩ | ⟨prepared, s, hp, hend⟩
  · cases h
    rcases prepare_eq_error ⟨_, _, hp⟩ with
      ⟨-, -, hcause⟩ | ⟨_, -, -, ⟨-, hcause⟩ | ⟨-, hcause⟩⟩ <;> cases hcause
  cases hend with
  | exhausted => cases h
  | settled reach hm ha =>
    have makes : c.Makes w op r situation _ _ _ _ := .intro hp reach hm ha
    cases attempted_of_attempt ha with
    | unsendable hk => exact absurd hk makes.not_unsendable
    | unknownNode hk =>
      cases contacted_of_contact hk with
      | unknownNode hmessage hf => exact ⟨_, _, _, _, _, makes, hmessage, hf⟩
    | broken | stale | refused => cases h
    | finished =>
      -- The operation may give any error, but then the execution counts as finished.
      cases (getLast?_events_append getLast?_events_concat).symm.trans hlast

theorem missesNode_iff (o : Occasion σ) :
    o.missesNode r = true ↔
      ∃ k, o.client.FindsNoNode o.world o.operation r o.situation k := by
  obtain ⟨hresult, -, hjournal, -⟩ := execute_eq_run o.client o.world o.operation r o.situation
  have hrun : (o.run r).1 = (o.client.run o.world o.operation r o.situation).1 := hresult
  have hrecord : (o.run r).2.journal =
    (o.client.run o.world o.operation r o.situation).2.journal := hjournal
  unfold Occasion.missesNode
  constructor
  · intro h
    split at h
    next id k text hid hlast => exact findsNoNode_of_unknownNode (hrun ▸ hid) (hrecord ▸ hlast)
    next => cases h
  · rintro ⟨k, hk⟩
    obtain ⟨⟨id, hid⟩, ⟨before, text, hheard, -⟩, -⟩ := hk.run_eq
    rw [hrun, hrecord, hid, hheard, List.getLast?_concat]

theorem totals_of_run (o : Occasion σ) :
    let journal := (o.run r).2.journal
    totals (events journal) = [(dispatches journal).length + (o.missesNode r).toNat] := by
  intro journal
  have hjournal : journal = (o.client.run o.world o.operation r o.situation).2.journal :=
    (execute_eq_run o.client o.world o.operation r o.situation).2.2.1
  cases hmisses : o.missesNode r with
  | true =>
    obtain ⟨k, hk⟩ := (missesNode_iff o).mp hmisses
    obtain ⟨-, ⟨before, text, hheard, hbefore⟩, hlength⟩ := hk.run_eq
    rw [hjournal, hheard, totals_append, hbefore, ← hlength]
    rfl
  | false =>
    obtain ⟨-, attempts, htotals, rfl | ⟨-, hunknown⟩⟩ :=
      visits_of_run o.client o.world o.operation r o.situation
    · rw [hjournal, htotals]
      rfl
    · rw [(missesNode_iff o).mpr ⟨_, hunknown⟩] at hmisses
      cases hmisses

/-- In all executions together, the attempts that the executions took are the calls that were
dispatched, and one more for every execution that ended because the node of an attempt was not
known: no call comes of such an attempt. -/
theorem attempts_and_calls (executions : List (Occasion σ × Request)) :
    let table := readings (measured (executions.flatMap fun x => (x.1.run x.2).2.journal))
    readingSum attemptsMetric table =
        readingSum callsMetric table + executions.countP (fun x => x.1.missesNode x.2) ∧
      ∀ (o : Occasion σ) (r : Request),
        let journal := (o.run r).2.journal
        totals (events journal) = [(dispatches journal).length + (o.missesNode r).toNat] ∧
          (o.missesNode r = true ↔
            ∃ k, o.client.FindsNoNode o.world o.operation r o.situation k) := by
  refine ⟨?_, fun o r => ⟨totals_of_run o, missesNode_iff o⟩⟩
  rw [readingSum_measured (by decide : (attemptsMetric, .histogram) ∈ metrics),
    readingSum_measured (by decide : (callsMetric, .counter) ∈ metrics), amountSum_attempts,
    amountSum_calls]
  induction executions with
  | nil => rfl
  | cons x rest ih =>
    obtain ⟨o, r⟩ := x
    rw [List.flatMap_cons, events_append, totals_append, List.sum_append, ih, totals_of_run,
      dispatches_append, List.length_append, List.countP_cons]
    cases o.missesNode r with
    | true =>
      simp only [Bool.toNat_true, List.sum_singleton, if_true]
      omega
    | false =>
      simp only [Bool.toNat_false, List.sum_singleton, Bool.false_eq_true, if_false]
      omega

/-- The node that a query names is not known. The attempt counts, but no call was dispatched. -/
theorem attempt_without_call :
    let o : Occasion Stage := ⟨Client.default, Stage.world, QueryOutcome, queryOperation,
      Stage.situation [.answering []]⟩
    let r := (Request.query (.ofBody default)).withNodes (.ofList [(Stage.node 9).1])
    let table := readings (measured (o.run r).2.journal)
    readingSum attemptsMetric table = 1 ∧ readingSum callsMetric table = 0 ∧
      totals (events (o.run r).2.journal) = [1] ∧ dispatches (o.run r).2.journal = [] := by
  decide

end LedgerClient
