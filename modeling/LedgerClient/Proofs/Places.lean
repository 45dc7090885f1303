import LedgerClient.Proofs.Turns

namespace LedgerClient

variable {s : IdSequence} {p : Slots} {steps : List IdStep} {id : TransactionId} {l : Rotation}
  {nodes : List AccountId} {node : AccountId} {n : Nat} {q : QueryRequest} {t : TransactionRequest}

/-- Ids, a place and a lock. Nothing keeps the place inside. -/
structure Slots where
  ids : List TransactionId
  place : Nat
  locked : Bool
deriving DecidableEq

/-- What can be done to ids. -/
inductive IdStep
  | push (id : TransactionId)
  | replace (id : TransactionId)
  | advance
  | lock
deriving DecidableEq

def Slots.empty : Slots :=
  ⟨[], 0, false⟩

/-- What a step shows or why it fails, and what it leaves. -/
def Slots.step (p : Slots) : IdStep → Except DispatchError (Option TransactionId) × Slots
  | .push id =>
    if p.locked then (.error .transactionIdsLocked, p)
    else (.ok none, { p with ids := p.ids ++ [id] })
  | .replace id =>
    if p.locked then (.error .transactionIdsLocked, p)
    else
      match p.ids[p.place]? with
      | some old => (.ok (some old), { p with ids := p.ids.set p.place id })
      | none =>
        let ids := p.ids ++ [id]
        (.ok none, { p with ids := ids, place := ids.length - 1 })
  | .advance =>
    if p.ids.length ≤ p.place + 1 then (.ok none, p)
    else (.ok p.ids[p.place + 1]?, { p with place := p.place + 1 })
  | .lock => (.ok none, { p with locked := true })

def Slots.run (p : Slots) (steps : List IdStep) : Slots :=
  steps.foldl (fun p x => (p.step x).2) p

/-- The place is one of the ids, or there are none and it is the first. -/
def Slots.Sound (p : Slots) : Prop :=
  p.place < p.ids.length ∨ p.place = 0 ∧ p.ids.length = 0

theorem Slots.Sound.step (h : p.Sound) (x : IdStep) : (p.step x).2.Sound := by
  unfold Slots.Sound at h ⊢
  cases x with
  | push id =>
    rw [Slots.step]
    split
    · exact h
    · simp only [List.length_append, List.length_singleton]
      omega
  | replace id =>
    rw [Slots.step]
    split
    · exact h
    · split
      · simpa using h
      · simp only [List.length_append, List.length_singleton]
        omega
  | advance =>
    rw [Slots.step]
    split
    · exact h
    · simp only
      omega
  | lock => exact h

theorem Slots.sound_run (steps : List IdStep) : (Slots.empty.run steps).Sound :=
  List.foldlRecOn steps _ (.inr ⟨rfl, rfl⟩) fun _ h x _ => h.step x

theorem Slots.run_append {more : List IdStep} : p.run (steps ++ more) = (p.run steps).run more :=
  List.foldl_append

theorem Slots.run_pushes {ids : List TransactionId} (h : p.locked = false) :
    p.run (ids.map .push) = { p with ids := p.ids ++ ids } := by
  induction ids generalizing p with
  | nil => simp [Slots.run]
  | cons id ids ih =>
    have hpush : (p.step (.push id)).2 = { p with ids := p.ids ++ [id] } := by
      simp [Slots.step, h]
    have hrest := ih (p := (p.step (.push id)).2) (by rw [hpush]; exact h)
    rw [List.map_cons, Slots.run, List.foldl_cons, ← Slots.run, hrest, hpush, List.append_assoc]
    rfl

theorem Slots.run_advances (h : n = 0 ∨ p.place + n < p.ids.length) :
    p.run (List.replicate n .advance) = { p with place := p.place + n } := by
  induction n with
  | zero => rfl
  | succ n ih =>
    have hlast : ¬ p.ids.length ≤ p.place + (n + 1) := by omega
    rw [List.replicate_succ', Slots.run_append, ih (by omega)]
    simp [Slots.run, Slots.step, hlast, Nat.add_assoc]

/-- There is nothing more that could be said of all that steps lead to. -/
theorem exists_run_eq_iff : (∃ steps, Slots.empty.run steps = p) ↔ p.Sound := by
  constructor
  · rintro ⟨steps, rfl⟩
    exact Slots.sound_run steps
  · intro h
    obtain ⟨ids, place, locked⟩ := p
    have hplace : place = 0 ∨ 0 + place < ids.length := by
      simp only [Slots.Sound] at h
      omega
    have hopen : Slots.empty.run (ids.map .push ++ List.replicate place .advance) =
        ⟨ids, place, false⟩ := by
      rw [Slots.run_append, Slots.run_pushes rfl]
      exact (Slots.run_advances (p := ⟨ids, 0, false⟩) hplace).trans (by simp)
    cases locked with
    | false => exact ⟨_, hopen⟩
    | true =>
      refine ⟨(ids.map .push ++ List.replicate place .advance) ++ [.lock], ?_⟩
      rw [Slots.run_append, hopen]
      rfl

def IdSequence.slots (s : IdSequence) : Slots :=
  ⟨s.ids, s.index, s.locked⟩

/-- What a step shows or why it fails, and what it leaves. -/
def IdSequence.step (s : IdSequence) :
    IdStep → Except DispatchError (Option TransactionId) × IdSequence
  | .push id =>
    match s.push id with
    | .ok s' => (.ok none, s')
    | .error e => (.error e, s)
  | .replace id =>
    match s.replaceCurrent id with
    | .ok (old, s') => (.ok old, s')
    | .error e => (.error e, s)
  | .advance => (.ok s.advance.1, s.advance.2)
  | .lock => (.ok none, s.lock)

def IdSequence.run (s : IdSequence) (steps : List IdStep) : IdSequence :=
  steps.foldl (fun s x => (s.step x).2) s

theorem IdSequence.push_of_locked (h : s.locked = true) :
    s.push id = .error .transactionIdsLocked := by
  simp [IdSequence.push, h]

theorem IdSequence.push_of_open (h : s.locked = false) : s.push id = .ok (s.append id) := by
  simp [IdSequence.push, h]

theorem IdSequence.replaceCurrent_of_locked (h : s.locked = true) :
    s.replaceCurrent id = .error .transactionIdsLocked := by
  simp [IdSequence.replaceCurrent, h]

/-- The steps need not look whether the place is inside. -/
theorem slots_step (s : IdSequence) (x : IdStep) :
    s.slots.step x = ((s.step x).1, (s.step x).2.slots) := by
  cases x with
  | push id =>
    cases hl : s.locked with
    | true => simp [Slots.step, IdSequence.step, IdSequence.push_of_locked hl, IdSequence.slots, hl]
    | false =>
      simp [Slots.step, IdSequence.step, IdSequence.push_of_open hl, IdSequence.slots, hl,
        IdSequence.append]
  | replace id =>
    cases hl : s.locked with
    | true =>
      simp [Slots.step, IdSequence.step, IdSequence.replaceCurrent_of_locked hl, IdSequence.slots,
        hl]
    | false =>
      cases hc : s.ids[s.index]? with
      | some old =>
        simp [Slots.step, IdSequence.step, IdSequence.replaceCurrent, IdSequence.slots,
          IdSequence.current?, hl, hc, IdSequence.overwrite]
      | none =>
        simp [Slots.step, IdSequence.step, IdSequence.replaceCurrent, IdSequence.slots,
          IdSequence.current?, hl, hc, IdSequence.append]
  | advance =>
    by_cases h : s.ids.length ≤ s.index + 1
    · simp [Slots.step, IdSequence.step, IdSequence.advance, IdSequence.slots, h]
    · simp [Slots.step, IdSequence.step, IdSequence.advance, IdSequence.slots, h,
        IdSequence.current?]
  | lock => rfl

theorem slots_run (s : IdSequence) (steps : List IdStep) :
    (s.run steps).slots = s.slots.run steps := by
  induction steps generalizing s with
  | nil => rfl
  | cons x steps ih =>
    rw [IdSequence.run, Slots.run, List.foldl_cons, List.foldl_cons, ← IdSequence.run, ← Slots.run,
      ih, slots_step]

theorem slots_inj {s' : IdSequence} (h : s.slots = s'.slots) : s = s' := by
  cases s
  cases s'
  simpa [IdSequence.slots] using h

/-- Steps lead to all ids there can be. -/
theorem IdSequence.exists_run_eq (s : IdSequence) : ∃ steps, IdSequence.empty.run steps = s := by
  have hsound : s.slots.Sound := by
    have hin := s.inside
    simp only [Slots.Sound, IdSequence.slots]
    omega
  obtain ⟨steps, h⟩ := exists_run_eq_iff.mpr hsound
  exact ⟨steps, slots_inj ((slots_run _ steps).trans h)⟩

theorem IdSequence.run_append {more : List IdStep} :
    s.run (steps ++ more) = (s.run steps).run more :=
  List.foldl_append

/-- What is seen of ids, and what each step does to them, at any point. -/
structure IdSequence.Orderly (s : IdSequence) : Prop where
  current?_eq_none : s.current? = none ↔ s.ids = []
  push_locked : s.locked = true → ∀ id, s.push id = .error .transactionIdsLocked
  push_open : s.locked = false → ∀ id, ∃ s', s.push id = .ok s' ∧ s'.ids = s.ids ++ [id] ∧
    s'.index = s.index ∧ s'.locked = false ∧
    s'.current? = if s.ids = [] then some id else s.current?
  advance_inside : s.index + 1 < s.ids.length → ∃ s', s.advance = (s.ids[s.index + 1]?, s') ∧
    s'.current? = s.ids[s.index + 1]? ∧ s'.current?.isSome ∧ s'.ids = s.ids ∧
    s'.index = s.index + 1 ∧ s'.locked = s.locked
  advance_last : ¬ s.index + 1 < s.ids.length → s.advance = (none, s)
  replace_locked : s.locked = true → ∀ id, s.replaceCurrent id = .error .transactionIdsLocked
  replace_open : s.locked = false → ∀ id, ∃ s', s.replaceCurrent id = .ok (s.current?, s') ∧
    s'.ids = (if s.ids = [] then [id] else s.ids.set s.index id) ∧ s'.index = s.index ∧
    s'.locked = false ∧ s'.current? = some id

theorem IdSequence.index_lt (h : s.ids ≠ []) : s.index < s.ids.length := by
  have hin := s.inside
  have hpos := List.length_pos_iff.mpr h
  omega

theorem IdSequence.index_eq_zero (h : s.ids = []) : s.index = 0 := by
  have hin := s.inside
  simp only [h, List.length_nil] at hin
  omega

theorem IdSequence.current?_eq_none_iff : s.current? = none ↔ s.ids = [] := by
  have h := IdSequence.current?_isSome_iff (s := s)
  rw [← Option.not_isSome_iff_eq_none, h, not_not]

theorem IdSequence.current?_append :
    (s.append id).current? = if s.ids = [] then some id else s.current? := by
  split
  next h => simp [IdSequence.current?, IdSequence.append, h, IdSequence.index_eq_zero h]
  next h => exact List.getElem?_append_left (IdSequence.index_lt h)

theorem IdSequence.replaceCurrent_of_open (h : s.locked = false) :
    ∃ s', s.replaceCurrent id = .ok (s.current?, s') ∧
      s'.ids = (if s.ids = [] then [id] else s.ids.set s.index id) ∧ s'.index = s.index ∧
      s'.locked = false ∧ s'.current? = some id := by
  cases hc : s.current? with
  | some old =>
    have hne : s.ids ≠ [] := IdSequence.current?_isSome_iff.mp (by rw [hc]; rfl)
    refine ⟨s.overwrite id, by simp [IdSequence.replaceCurrent, h, hc], ?_, rfl, h,
      IdSequence.current?_overwrite (by rw [hc]; rfl)⟩
    simp [IdSequence.overwrite, hne]
  | none =>
    have hids : s.ids = [] := IdSequence.current?_eq_none_iff.mp hc
    have hindex : s.index = 0 := IdSequence.index_eq_zero hids
    refine ⟨⟨[id], 0, false, .inl rfl⟩, ?_, by simp [hids], hindex.symm, rfl, rfl⟩
    simp [IdSequence.replaceCurrent, IdSequence.append, h, hc, hids]

theorem IdSequence.orderly (s : IdSequence) : s.Orderly where
  current?_eq_none := IdSequence.current?_eq_none_iff
  push_locked h _ := IdSequence.push_of_locked h
  push_open h id :=
    ⟨s.append id, IdSequence.push_of_open h, rfl, rfl, h, IdSequence.current?_append⟩
  advance_inside h := by
    have hlast : ¬ s.ids.length ≤ s.index + 1 := by omega
    simp [IdSequence.advance, hlast, IdSequence.current?, h]
  advance_last h := by
    have hlast : s.ids.length ≤ s.index + 1 := by omega
    simp [IdSequence.advance, hlast]
  replace_locked h _ := IdSequence.replaceCurrent_of_locked h
  replace_open h _ := IdSequence.replaceCurrent_of_open h

/-- Ids that are locked stay so, as they are. -/
theorem IdSequence.ids_step_of_locked (h : s.locked = true) (x : IdStep) :
    (s.step x).2.ids = s.ids ∧ (s.step x).2.locked = true := by
  cases x with
  | push id =>
    rw [IdSequence.step, IdSequence.push_of_locked h]
    exact ⟨rfl, h⟩
  | replace id =>
    rw [IdSequence.step, IdSequence.replaceCurrent_of_locked h]
    exact ⟨rfl, h⟩
  | advance =>
    rw [IdSequence.step, IdSequence.advance]
    split
    · exact ⟨rfl, h⟩
    · exact ⟨rfl, h⟩
  | lock => exact ⟨rfl, rfl⟩

theorem IdSequence.ids_run_of_locked (h : s.locked = true) (steps : List IdStep) :
    (s.run steps).ids = s.ids := by
  induction steps generalizing s with
  | nil => rfl
  | cons x steps ih =>
    obtain ⟨hids, hlocked⟩ := IdSequence.ids_step_of_locked h x
    exact (ih hlocked).trans hids

theorem IdSequence.ids_run_lock (before after : List IdStep) :
    (s.run (before ++ .lock :: after)).ids = (s.run before).ids := by
  rw [IdSequence.run_append]
  exact IdSequence.ids_run_of_locked (s := (s.run before).lock) rfl after

theorem Rotation.current?_eq_none_iff : l.current? = none ↔ l.ids = [] := by
  have h := Rotation.current?_isSome_iff (r := l)
  rw [← Option.not_isSome_iff_eq_none, h, not_not]

theorem index_turn_ofList (h : nodes ≠ []) :
    ((Rotation.ofList nodes).turn n).index = n % nodes.length := by
  rw [Rotation.index_turn h]
  simp [Rotation.ofList]

theorem turn_ofList_nil : (Rotation.ofList []).turn n = .ofList [] := by
  induction n with
  | zero => rfl
  | succ n ih => exact congrArg Rotation.advance ih

theorem eq_turn_ofList (l : Rotation) : l = (Rotation.ofList l.ids).turn l.index := by
  have hids : ((Rotation.ofList l.ids).turn l.index).ids = l.ids := Rotation.turn_ids
  have hindex : ((Rotation.ofList l.ids).turn l.index).index = l.index := by
    by_cases h : l.ids = []
    · have hin := l.inside
      simp only [h, turn_ofList_nil]
      simp only [h, List.length_nil] at hin
      exact (by omega : l.index = 0).symm
    · have hin := l.inside
      have hpos := List.length_pos_iff.mpr h
      rw [index_turn_ofList h]
      exact Nat.mod_eq_of_lt (by omega)
  generalize (Rotation.ofList l.ids).turn l.index = l' at hids hindex
  cases l
  cases l'
  simp only at hids hindex
  subst hids hindex
  rfl

theorem message_of_no_node {r : Request} (h : r.nodes.current? = none) :
    r.message = .error .noNodes := by
  simp [Request.message, h]

theorem message_of_query (h : q.nodes.current? = some node) :
    (Request.query q).message = .ok (.query ⟨node, q.payment, q.body⟩) := by
  simp [Request.message, Request.nodes, h]

theorem message_of_no_id (h : t.nodes.current? = some node) (hid : t.ids.current? = none) :
    (Request.transaction t).message = .error .missingTransactionId := by
  simp [Request.message, Request.nodes, h, hid]

theorem message_of_transaction (h : t.nodes.current? = some node)
    (hid : t.ids.current? = some id) :
    (Request.transaction t).message = .ok (.transaction ⟨id, node, t.body⟩) := by
  simp [Request.message, Request.nodes, h, hid]

theorem results_of_query (q : QueryRequest) :
    let r := Request.query q
    (r.message = .error .noNodes ↔ q.nodes.ids = []) ∧
    (q.nodes.ids ≠ [] → ∃ node, q.nodes.ids[q.nodes.index]? = some node ∧
      r.message = .ok (.query ⟨node, q.payment, q.body⟩)) := by
  intro r
  cases hn : q.nodes.current? with
  | none =>
    have hnodes : q.nodes.ids = [] := Rotation.current?_eq_none_iff.mp hn
    have hm : r.message = .error .noNodes := message_of_no_node hn
    exact ⟨by simp [hm, hnodes], fun h => absurd hnodes h⟩
  | some node =>
    have hnodes : q.nodes.ids ≠ [] := Rotation.current?_isSome_iff.mp (by rw [hn]; rfl)
    have hm : r.message = .ok (.query ⟨node, q.payment, q.body⟩) := message_of_query hn
    exact ⟨by simp [hm, hnodes], fun _ => ⟨node, hn, hm⟩⟩

/-- Where both lists are empty, it is the nodes that are missed. -/
theorem results_of_transaction (t : TransactionRequest) :
    let r := Request.transaction t
    (r.message = .error .noNodes ↔ t.nodes.ids = []) ∧
    (r.message = .error .missingTransactionId ↔ t.nodes.ids ≠ [] ∧ t.ids.ids = []) ∧
    (t.nodes.ids ≠ [] → t.ids.ids ≠ [] → ∃ node id, t.nodes.ids[t.nodes.index]? = some node ∧
      t.ids.ids[t.ids.index]? = some id ∧ r.message = .ok (.transaction ⟨id, node, t.body⟩)) := by
  intro r
  cases hn : t.nodes.current? with
  | none =>
    have hnodes : t.nodes.ids = [] := Rotation.current?_eq_none_iff.mp hn
    have hm : r.message = .error .noNodes := message_of_no_node hn
    exact ⟨by simp [hm, hnodes], by simp [hm, hnodes], fun h => absurd hnodes h⟩
  | some node =>
    have hnodes : t.nodes.ids ≠ [] := Rotation.current?_isSome_iff.mp (by rw [hn]; rfl)
    cases hi : t.ids.current? with
    | none =>
      have hids : t.ids.ids = [] := IdSequence.current?_eq_none_iff.mp hi
      have hm : r.message = .error .missingTransactionId := message_of_no_id hn hi
      exact ⟨by simp [hm, hnodes], by simp [hm, hnodes, hids], fun _ h => absurd hids h⟩
    | some id =>
      have hids : t.ids.ids ≠ [] := IdSequence.current?_isSome_iff.mp (by rw [hi]; rfl)
      have hm : r.message = .ok (.transaction ⟨id, node, t.body⟩) := message_of_transaction hn hi
      exact ⟨by simp [hm, hnodes], by simp [hm, hids], fun _ _ => ⟨node, id, hn, hi, hm⟩⟩

/-- Whatever has been done to the ids of a request and however many of its candidates have had
their turn, both places are inside, and its message is made of what stands there. -/
theorem places_of_steps (steps : List IdStep) (nodes : List AccountId) (n : Nat) :
    let s := IdSequence.empty.run steps
    let p := Slots.empty.run steps
    let l := (Rotation.ofList nodes).turn n
    (s.slots = p ∧ p.Sound ∧ (∀ x, p.step x = ((s.step x).1, (s.step x).2.slots)) ∧ s.Orderly ∧
      ∀ before after, steps = before ++ .lock :: after →
        s.ids = (IdSequence.empty.run before).ids) ∧
    (l.ids = nodes ∧ (nodes ≠ [] → l.index < nodes.length ∧ l.index = n % nodes.length) ∧
      (nodes = [] → l.index = 0) ∧ (l.current? = none ↔ nodes = [])) ∧
    (∀ q : QueryRequest,
      let r := Request.query { q with nodes := l }
      (r.message = .error .noNodes ↔ nodes = []) ∧
      (nodes ≠ [] → ∃ node, nodes[l.index]? = some node ∧
        r.message = .ok (.query ⟨node, q.payment, q.body⟩))) ∧
    (∀ t : TransactionRequest,
      let r := Request.transaction { t with nodes := l, ids := s }
      (r.message = .error .noNodes ↔ nodes = []) ∧
      (r.message = .error .missingTransactionId ↔ nodes ≠ [] ∧ p.ids = []) ∧
      (nodes ≠ [] → p.ids ≠ [] → ∃ node id, nodes[l.index]? = some node ∧
        p.ids[p.place]? = some id ∧ r.message = .ok (.transaction ⟨id, node, t.body⟩))) ∧
    (∀ s : IdSequence, ∃ steps, IdSequence.empty.run steps = s) ∧
    ∀ l : Rotation, ∃ nodes n, (Rotation.ofList nodes).turn n = l := by
  intro s p l
  have hslots : s.slots = p := slots_run .empty steps
  have hids : s.ids = p.ids := congrArg Slots.ids hslots
  have hindex : s.index = p.place := congrArg Slots.place hslots
  have hnodes : l.ids = nodes := Rotation.turn_ids
  refine ⟨⟨hslots, Slots.sound_run steps, fun x => hslots ▸ slots_step s x, s.orderly, ?_⟩,
    ⟨hnodes, fun h => ?_, ?_, ?_⟩, fun q => ?_, fun t => ?_, IdSequence.exists_run_eq,
    fun l => ⟨_, _, (eq_turn_ofList l).symm⟩⟩
  · rintro before after rfl
    exact IdSequence.ids_run_lock before after
  · have hmod : l.index = n % nodes.length := index_turn_ofList h
    exact ⟨hmod.trans_lt (Nat.mod_lt _ (List.length_pos_iff.mpr h)), hmod⟩
  · rintro rfl
    exact congrArg Rotation.index turn_ofList_nil
  · rw [Rotation.current?_eq_none_iff, hnodes]
  · simpa only [hnodes] using results_of_query { q with nodes := l }
  · simpa only [hnodes, hids, hindex] using
      results_of_transaction { t with nodes := l, ids := s }

/-- The second of two ids is replaced, and no longer once they are locked. Of two nodes the second
has the fourth turn. -/
theorem places_of_replaced_part :
    let id (n : UInt64) : TransactionId := ⟨⟨0, 0, 2⟩, n, 0⟩
    let before : List IdStep := [.push (id 1), .push (id 2), .advance, .replace (id 3)]
    let after : List IdStep := [.push (id 4), .replace (id 4), .advance]
    let steps := before ++ .lock :: after
    let nodes := [(Stage.node 3).1, (Stage.node 4).1]
    let s := IdSequence.empty.run steps
    let l := (Rotation.ofList nodes).turn 3
    nodes ≠ [] ∧ (Slots.empty.run steps).ids ≠ [] ∧ s.locked = true ∧
      ¬ s.index + 1 < s.ids.length ∧ s.ids = [id 1, id 3] ∧ s.advance = (none, s) ∧
      l.index = 1 ∧
      ∀ t : TransactionRequest,
        (Request.transaction { t with nodes := l, ids := s }).message =
          .ok (.transaction ⟨id 3, (Stage.node 4).1, t.body⟩) := by
  intro id before after steps nodes s l
  have hne : nodes ≠ [] := by decide
  have hids : (Slots.empty.run steps).ids ≠ [] := by decide
  have hlast : ¬ s.index + 1 < s.ids.length := by decide
  obtain ⟨⟨-, -, -, horderly, hlock⟩, ⟨-, hindex, -⟩, -, hmessage, -⟩ :=
    places_of_steps steps nodes 3
  refine ⟨hne, hids, by decide, hlast, hlock before after rfl, horderly.advance_last hlast,
    (hindex hne).2.trans (by decide), fun t => ?_⟩
  obtain ⟨node, sent, hnode, hsent, hm⟩ := (hmessage t).2.2 hne hids
  have hfourth : nodes[l.index]? = some (Stage.node 4).1 := by decide
  obtain rfl : (Stage.node 4).1 = node := Option.some.inj (hfourth.symm.trans hnode)
  obtain rfl : id 3 = sent := Option.some.inj hsent
  exact hm

end LedgerClient
