import LedgerClient.Proofs.Dispatch
import LedgerClient.Proofs.FirstTerminal
import LedgerClient.Proofs.Origin
import LedgerClient.Proofs.Repetition
import Mathlib.Data.Int.CardIntervalMod

namespace LedgerClient

variable {σ α : Type} {c : Client} {w : World σ} {op : Operation α} {policy : Policy}
  {r prepared : Request} {situation s : Situation σ} {start p q : Progress σ} {e : Ending α}
  {k made n : Nat} {last : DispatchError} {o : Outcome} {node : Node} {m : Message}
  {a b : List Entry} {x : Entry} {ids more : List AccountId} {l l' l'' : Rotation}

def Entry.dispatch? : Entry → Option AccountId
  | .event (.nodeSelected _ id _) => some id
  | _ => none

/-- The nodes that were dispatched to. -/
def dispatches (journal : List Entry) : List AccountId :=
  journal.filterMap Entry.dispatch?

@[simp]
theorem dispatches_append : dispatches (a ++ b) = dispatches a ++ dispatches b :=
  List.filterMap_append

theorem length_dispatches : (dispatches a).length = (selections a).length := by
  have hboth : ∀ x : Entry, x.dispatch?.isSome = x.selection?.isSome := by
    intro x
    rcases x with ⟨event⟩ | _ | _ | _ | _
    · cases event <;> rfl
    all_goals rfl
  simp only [dispatches, selections, List.length_filterMap_eq_countP, hboth]

theorem dispatches_of_conclusions (h : ∀ x ∈ a, x.isConclusion = true) : dispatches a = [] := by
  have hnone := (projections_eq_nil h).1
  rw [← List.length_eq_zero_iff, length_dispatches, hnone, List.length_nil]

theorem Request.nodes_withNodes : (r.withNodes l).nodes = l := by
  cases r <;> rfl

theorem dispatches_of_visited {made : List Call} (h : Visited w k node made p q) :
    dispatches q.journal = dispatches p.journal ++ [node.id] := by
  cases h with
  | @intro pause rest woken _ hp _ hj ht =>
    have hrest : dispatches rest = [] := by
      refine List.filterMap_eq_nil_iff.mpr fun x hx => ?_
      cases ht x hx <;> rfl
    have hpause : dispatches pause = [] := by cases hp <;> rfl
    have htail : dispatches (pause ++ .acquired woken node :: rest) = [] := by
      rw [dispatches_append, hpause]
      exact hrest
    rw [hj, dispatches_append]
    exact congrArg (dispatches p.journal ++ node.id :: ·) htail

/-- Whoever is dispatched to in turn beginning at `l`, after which `l'` is left. -/
inductive Rotation.Serves : Rotation → List AccountId → Rotation → Prop
  | nil {l : Rotation} : Serves l [] l
  | cons {l l' : Rotation} {id : AccountId} {ids : List AccountId} : l.current? = some id →
      Serves l.advance ids l' → Serves l (id :: ids) l'

/-- The candidates after `n` of them have had their turn. -/
def Rotation.turn (l : Rotation) : Nat → Rotation
  | 0 => l
  | n + 1 => (l.turn n).advance

theorem Rotation.Serves.append (h : l.Serves ids l') (h' : l'.Serves more l'') :
    l.Serves (ids ++ more) l'' := by
  induction h with
  | nil => exact h'
  | cons hid _ ih => exact .cons hid (ih h')

theorem Rotation.turn_advance : l.advance.turn n = l.turn (n + 1) := by
  induction n with
  | zero => rfl
  | succ n ih => exact congrArg Rotation.advance ih

theorem Rotation.turn_turn {i : Nat} : (l.turn n).turn i = l.turn (n + i) := by
  induction i with
  | zero => rfl
  | succ i ih => exact congrArg Rotation.advance ih

theorem Rotation.turn_ids : (l.turn n).ids = l.ids := by
  induction n with
  | zero => rfl
  | succ n ih => exact (Rotation.advance_ids _).trans ih

theorem Rotation.index_advance (h : l.ids ≠ []) :
    l.advance.index = (l.index + 1) % l.ids.length := by
  simp [Rotation.advance, h]

theorem Rotation.index_turn (h : l.ids ≠ []) :
    (l.turn n).index = (l.index + n) % l.ids.length := by
  have hpos := List.length_pos_iff.mpr h
  induction n with
  | zero =>
    have hin := l.inside
    have hlt : l.index < l.ids.length := by omega
    exact (Nat.mod_eq_of_lt hlt).symm
  | succ n ih =>
    have hne : (l.turn n).ids ≠ [] := by rwa [Rotation.turn_ids]
    rw [Rotation.turn, Rotation.index_advance hne, ih, Rotation.turn_ids, Nat.mod_add_mod,
      Nat.add_assoc]

theorem Rotation.Serves.ids_eq (h : l.Serves ids l') : l'.ids = l.ids := by
  induction h with
  | nil => rfl
  | cons _ _ ih => exact ih.trans (Rotation.advance_ids _)

theorem Rotation.Serves.eq_turn (h : l.Serves ids l') :
    l' = l.turn ids.length ∧
      ids.map some = (List.range ids.length).map fun i => (l.turn i).current? := by
  induction h with
  | nil => exact ⟨rfl, rfl⟩
  | @cons l l' id ids hid _ ih =>
    obtain ⟨hl, hids⟩ := ih
    refine ⟨hl.trans Rotation.turn_advance, ?_⟩
    rw [List.length_cons, List.range_succ_eq_map, List.map_cons, List.map_cons, List.map_map, hids]
    simp only [Rotation.turn, hid, Rotation.turn_advance]
    rfl

/-- An attempt serves the candidate that is next, or nobody. -/
theorem serves_of_attempt (h : c.attempt w op policy k p.afresh = (e, q)) :
    p.request.nodes.Serves (dispatches q.journal) q.request.nodes := by
  obtain ⟨o, r, conclusions, hk, hj, -, hc, hf⟩ := attempt_split h
  have hnodes : q.request.nodes = r.request.nodes := by
    generalize q.request = s at hf
    cases hf with
    | kept => rfl
    | replaced ht =>
      rw [ht]
      rfl
  rw [hnodes, hj, dispatches_append, dispatches_of_conclusions hc, List.append_nil]
  have hcontact := contacted_of_contact hk
  cases hd : o.isDispatched with
  | false =>
    rw [hcontact.eq_of_not_dispatched hd]
    exact .nil
  | true =>
    obtain ⟨m, found, hm, hfound, hv⟩ := hcontact.visited hd
    have hrequest : r.request = p.request.advance := by rw [hcontact.request_eq, hd]; rfl
    have hcurrent : p.request.nodes.current? = some found.id :=
      (Network.find?_eq_some hfound).2 ▸ (Request.message_eq_ok hm).1
    rw [hrequest, dispatches_of_visited hv, Request.advance, Request.nodes_withNodes]
    exact .cons hcurrent .nil

theorem course_of_reaches (reach : c.Reaches w op policy start made last p) :
    c.course w op policy start made = p := by
  induction reach with
  | start => rfl
  | next _ ha ih => simp only [Client.course, ih, ha]

theorem Client.Reaches.length_dispatches (reach : c.Reaches w op policy start made last p)
    (hs : start.journal = []) : (dispatches p.journal).length = made := by
  rw [LedgerClient.length_dispatches, reach.selections_eq hs, List.length_range']

theorem Client.Reaches.serves (reach : c.Reaches w op policy start made last p)
    (hs : start.journal = []) :
    start.request.nodes.Serves (dispatches p.journal) p.request.nodes := by
  induction reach with
  | start =>
    rw [hs]
    exact .nil
  | next _ ha ih =>
    rw [Progress.andThen, dispatches_append]
    exact ih.append (serves_of_attempt ha)

/-- As long as attempts settle nothing, each finds the request at the next candidate. -/
theorem Client.Reaches.turns (reach : c.Reaches w op policy start made last p)
    (hs : start.journal = []) {i : Nat} (hi : i ≤ made) :
    (c.course w op policy start i).request.nodes = start.request.nodes.turn i := by
  induction reach with
  | start =>
    obtain rfl : i = 0 := by omega
    rfl
  | @next made last error p q prior ha ih =>
    rcases Nat.lt_or_ge made i with hlt | hle
    · obtain rfl : i = made + 1 := by omega
      have reach' := Client.Reaches.next prior ha
      have hturn := (reach'.serves hs).eq_turn.1
      rwa [reach'.length_dispatches hs, ← course_of_reaches reach'] at hturn
    · exact ih hle

theorem nodes_of_prepare (h : c.prepare w r situation = .ok (prepared, s))
    (hne : r.nodes.ids ≠ []) : prepared.nodes = r.nodes := by
  unfold Client.prepare at h
  cases hn : c.chooseNodes w r situation with
  | error e =>
    rw [hn] at h
    cases h
  | ok x =>
    obtain ⟨chosen, s₁⟩ := x
    rw [hn] at h
    obtain ⟨-, -, -, hsame⟩ := chooseNodes_eq_ok hn
    obtain rfl := hsame hne
    rcases chooseId_eq_ok h with ⟨rfl, -⟩ | ⟨t, _, ht, -, -, -, rfl⟩
    · rfl
    · rw [ht]
      rfl

/-- Nothing is forgotten of a request that names its nodes. -/
theorem execute_of_nodes (hne : r.nodes.ids ≠ []) :
    c.execute w op r situation = c.run w op r situation := by
  simp [Client.execute, hne]

theorem Client.Ends.serves {result : Except DispatchError α}
    (h : c.Ends w op policy start result q) (hs : start.journal = []) :
    start.request.nodes.Serves (dispatches q.journal) q.request.nodes ∧
      ∀ i < (dispatches q.journal).length,
        (c.course w op policy start i).request.nodes = start.request.nodes.turn i := by
  cases h with
  | @settled made last _ p q reach _ ha =>
    have hone : (dispatches q.journal).length ≤ 1 :=
      length_dispatches.trans_le (length_selections_le ha)
    rw [Progress.andThen, dispatches_append]
    refine ⟨(reach.serves hs).append (serves_of_attempt ha), fun i hi => reach.turns hs ?_⟩
    rw [List.length_append, reach.length_dispatches hs] at hi
    omega
  | exhausted reach =>
    rw [Progress.note, dispatches_append]
    have hserves := reach.serves hs
    refine ⟨hserves.append .nil, fun i hi => reach.turns hs ?_⟩
    rw [List.length_append, reach.length_dispatches hs] at hi
    exact Nat.le_of_lt hi

/-- The places of the candidates that an execution dispatches to. -/
def Occasion.places (o : Occasion σ) (r : Request) : List Nat :=
  match o.client.prepare o.world r o.situation with
  | .error _ => []
  | .ok (prepared, s) =>
    let course := o.client.course o.world o.operation (o.client.policy r.limits) ⟨prepared, s, []⟩
    (List.range (dispatches (o.run r).2.journal).length).map fun made =>
      (course made).request.nodes.index

def Request.places (r : Request) : List (Occasion σ) → List Nat
  | [] => []
  | o :: later => o.places r ++ (o.run r).2.request.places later

/-- An execution goes on where the last one stopped. -/
theorem turns_of_run (o : Occasion σ) (hne : r.nodes.ids ≠ []) :
    r.nodes.Serves (dispatches (o.run r).2.journal) (o.run r).2.request.nodes ∧
      o.places r = (List.range (dispatches (o.run r).2.journal).length).map fun i =>
        (r.nodes.turn i).index := by
  have hrun : o.run r = o.client.run o.world o.operation r o.situation := execute_of_nodes hne
  generalize hq : o.client.run o.world o.operation r o.situation = x at hrun
  obtain ⟨result, q⟩ := x
  simp only [Occasion.places, hrun]
  rcases run_cases hq with ⟨error, _, _, hp, -, rfl⟩ | ⟨prepared, s, hp, hend⟩
  · obtain ⟨⟨nodes, -, hsame⟩, -⟩ := unprepared_of_prepare hp
    obtain rfl := hsame hne
    simp only [hp]
    exact ⟨.nil, rfl⟩
  · obtain ⟨hserves, hcourse⟩ := hend.serves rfl
    simp only [nodes_of_prepare hp hne] at hserves hcourse
    simp only [hp]
    exact ⟨hserves, List.map_congr_left fun i hi =>
      congrArg Rotation.index (hcourse i (List.mem_range.mp hi))⟩

/-- So it is over any number of executions. -/
theorem turns_of_record (occasions : List (Occasion σ)) (hne : r.nodes.ids ≠ []) :
    r.nodes.Serves (dispatches (r.record occasions)) (r.after occasions).nodes ∧
      r.places occasions = (List.range (dispatches (r.record occasions)).length).map fun i =>
        (r.nodes.turn i).index := by
  induction occasions generalizing r with
  | nil => exact ⟨.nil, rfl⟩
  | cons o later ih =>
    obtain ⟨hone, hplaces⟩ := turns_of_run o hne
    obtain ⟨hrest, hplaces'⟩ := ih (r := (o.run r).2.request) (by rwa [hone.ids_eq])
    simp only [Request.record, Request.places, dispatches_append]
    refine ⟨hone.append hrest, ?_⟩
    rw [List.length_append, List.range_add, List.map_append, hplaces, hplaces', List.map_map,
      hone.eq_turn.1]
    simp only [Rotation.turn_turn, Function.comp_def]

/-- In so many turns all places have theirs equally often, or some of them once more. -/
theorem count_turns {place length : Nat} (hp : place < length) :
    let times := ((List.range n).map (· % length)).count place
    times = n / length ∨ times = (n + length - 1) / length := by
  intro times
  have hpos : 0 < length := by omega
  have htimes : times = n.count (· ≡ place [MOD length]) := by
    simp only [times]
    induction n with
    | zero => rfl
    | succ n ih =>
      rw [List.range_succ, List.map_append, List.count_append, ih, Nat.count_succ]
      simp [Nat.ModEq, Nat.mod_eq_of_lt hp, List.count_singleton]
  rw [htimes, Nat.count_modEq_card _ hpos, Nat.mod_eq_of_lt hp]
  split
  next hlt =>
    right
    have hn : n + length - 1 = length * (n / length + 1) + (n % length - 1) := by
      have hdiv := Nat.div_add_mod n length
      rw [Nat.mul_add]
      omega
    have hmod := Nat.mod_lt n hpos
    rw [hn, Nat.mul_add_div hpos, Nat.div_eq_of_lt (show n % length - 1 < length by omega)]
  next => exact .inl rfl

theorem Rotation.Serves.head? (h : l.Serves ids l') {id : AccountId} (hid : l.current? = some id) :
    (ids = [] ∧ l'.current? = some id) ∨ ids.head? = some id := by
  cases h with
  | nil => exact .inl ⟨rfl, hid⟩
  | cons hid' => exact .inr (hid'.symm.trans hid)

theorem contact_of_unknownNode (hm : p.request.message = .ok m)
    (hf : p.situation.network.find? m.node = none) :
    p.afresh.contact w k = (.unknownNode m.node, p.afresh) := by
  have hm' : p.afresh.request.message = .ok m := hm
  have hf' : p.afresh.situation.network.find? m.node = none := hf
  simp only [Progress.contact, hm', hf']

/-- An attempt at a node that is not known dispatches nothing and ends the execution. -/
theorem Client.Makes.of_unknownNode (h : c.Makes w op r situation k p e q)
    (hm : p.request.message = .ok m) (hf : p.situation.network.find? m.node = none) :
    dispatches q.journal = [] ∧
      c.run w op r situation = (.error (.unknownNode m.node), p.andThen q) ∧
      q.request = p.request := by
  have hattempt := h.attempt_eq
  simp only [Client.attempt, contact_of_unknownNode hm hf, Progress.fail] at hattempt
  cases hattempt
  exact ⟨rfl, h.run_of_settled, rfl⟩

/-- Over all its executions, the nodes of a request are dispatched to in turn, so that all places
have their turn equally often, or some of them once more. A node that is not known stays the next
one until it is dispatched to. -/
theorem turns_of_executions (r : Request) (hne : ids ≠ []) (occasions : List (Occasion σ)) :
    let start := r.withNodes (.ofList ids)
    let s := start.after occasions
    let dispatched := dispatches (start.record occasions)
    let places := start.places occasions
    dispatched.map some = places.map (ids[·]?) ∧
    places = (List.range dispatched.length).map (· % ids.length) ∧
    s.nodes.ids = ids ∧ s.nodes.index = dispatched.length % ids.length ∧
    (∀ t ≤ dispatched.length, ∀ place < ids.length,
      (places.take t).count place = t / ids.length ∨
        (places.take t).count place = (t + ids.length - 1) / ids.length) ∧
    ∀ (o : Occasion σ) k p e q m,
      o.client.Makes o.world o.operation s o.situation k p e q → p.request.message = .ok m →
      p.situation.network.find? m.node = none →
      let run := o.run s
      dispatches q.journal = [] ∧ run.1 = .error (.unknownNode m.node) ∧
      run.2.request = p.request ∧ p.request.nodes.current? = some m.node ∧
      ∀ later : List (Occasion σ),
        let next := dispatches (run.2.request.record later)
        (next = [] ∧ (run.2.request.after later).nodes.current? = some m.node) ∨
          next.head? = some m.node := by
  intro start s dispatched places
  have hnodes : start.nodes = .ofList ids := Request.nodes_withNodes
  have hids : start.nodes.ids = ids := congrArg Rotation.ids hnodes
  have hne' : start.nodes.ids ≠ [] := hids ▸ hne
  obtain ⟨hserves, hplaces⟩ := turns_of_record occasions hne'
  obtain ⟨hturn, hdispatched⟩ := hserves.eq_turn
  have hindex : ∀ i, (start.nodes.turn i).index = i % ids.length := by
    intro i
    rw [Rotation.index_turn hne', hids, hnodes]
    simp [Rotation.ofList]
  have hsids : s.nodes.ids = ids := hserves.ids_eq.trans hids
  have hplaces' : places = (List.range dispatched.length).map (· % ids.length) := by
    simp only [places, hplaces, hindex]
    rfl
  refine ⟨?_, hplaces', hsids, ?_, fun t ht place hp => ?_, fun o k p e q m makes hm hf => ?_⟩
  · simp only [dispatched, hdispatched, places, hplaces, List.map_map]
    refine List.map_congr_left fun i _ => ?_
    simp only [Function.comp, Rotation.current?, Rotation.turn_ids, hids]
  · exact (congrArg Rotation.index hturn).trans (hindex _)
  · rw [hplaces', ← List.map_take, List.take_range, Nat.min_eq_left ht]
    exact count_turns hp
  · obtain ⟨hnone, hrun, hrequest⟩ := makes.of_unknownNode hm hf
    have hsne : s.nodes.ids ≠ [] := hsids ▸ hne
    have hcurrent : p.request.nodes.current? = some m.node := (Request.message_eq_ok hm).1
    have hrun' : o.run s = (.error (.unknownNode m.node), p.andThen q) :=
      (execute_of_nodes hsne).trans hrun
    have hafter : (o.run s).2.request = p.request := by rw [hrun']; exact hrequest
    refine ⟨hnone, by rw [hrun'], hafter, hcurrent, fun later => ?_⟩
    rw [hafter]
    have hpne : p.request.nodes.ids ≠ [] :=
      Rotation.current?_isSome_iff.mp (by rw [hcurrent]; rfl)
    exact (turns_of_record later hpne).1.head? hcurrent

/-- Of two nodes the second is not known. It is dispatched to the first, and then no execution comes
past the second. -/
theorem turns_before_unknown_node :
    let ids := [(Stage.node 3).1, (Stage.node 9).1]
    let o : Occasion Stage := ⟨Client.default, Stage.world, QueryOutcome, queryOperation,
      Stage.situation [.answering [.busy]]⟩
    let start := (Request.query (.ofBody default)).withNodes (.ofList ids)
    ids ≠ [] ∧ dispatches (start.record [o, o]) = [(Stage.node 3).1] ∧
      start.places [o, o] = [0] ∧ (start.after [o, o]).nodes.index = 1 ∧
      ∃ p e q m, o.client.Makes o.world o.operation (start.after [o]) o.situation 1 p e q ∧
        p.request.message = .ok m ∧ p.situation.network.find? m.node = none ∧
        ∀ later : List (Occasion Stage),
          let next := dispatches ((start.after [o, o]).record later)
          next = [] ∨ next.head? = some (Stage.node 9).1 := by
  intro ids o start
  have hne : ids ≠ [] := by decide
  have hone : dispatches (start.record [o, o]) = [(Stage.node 3).1] := rfl
  obtain ⟨-, hplaces, -, hindex, -⟩ :=
    turns_of_executions (.query (.ofBody default)) hne [o, o]
  rw [hone] at hplaces hindex
  obtain ⟨-, -, -, -, -, hunknown⟩ := turns_of_executions (.query (.ofBody default)) hne [o]
  have hp : o.client.prepare o.world (start.after [o]) o.situation =
    .ok (start.after [o], o.situation) := rfl
  have first := Client.Makes.first o.operation hp
  refine ⟨hne, hone, hplaces, hindex, _, _, _, _, first, rfl, rfl, fun later => ?_⟩
  obtain ⟨-, -, -, -, hlater⟩ := hunknown o _ _ _ _ _ first rfl rfl
  exact (hlater later).imp_left And.left

end LedgerClient
