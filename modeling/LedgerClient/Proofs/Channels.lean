import LedgerClient.Proofs.Moves
import LedgerClient.Proofs.Provenance
import LedgerClient.Rehearsal.Nodes

namespace LedgerClient

variable {σ α : Type} {c : Client} {w : World σ} {op : Operation α} {request : Request}
  {s t : Situation σ} {p q : Progress σ} {k now : Nat} {node found : Node} {channel : Channel}
  {id : AccountId} {address : NodeAddress} {f : Fault} {journal a b : List Entry}
  {held held' middle : Option Channel} {uses more : List ChannelUse}

/-- What a step has to do with the channel of a node. -/
inductive ChannelUse
  | asked (held : Option Channel)
  | connected (outcome : Except Fault Channel)
  | sent (channel : Channel)
deriving DecidableEq

def Entry.channelUse? (id : AccountId) : Entry → Option ChannelUse
  | .acquired _ node => if node.id = id then some (.asked node.state.channel) else none
  | .connected node _ outcome => if node = id then some (.connected outcome) else none
  | .called _ node channel _ _ => if node.id = id then some (.sent channel) else none
  | _ => none

/-- All that is on record about the channel of node `id`. -/
def channelUses (id : AccountId) (journal : List Entry) : List ChannelUse :=
  journal.filterMap (Entry.channelUse? id)

theorem channelUses_append : channelUses id (a ++ b) = channelUses id a ++ channelUses id b :=
  List.filterMap_append

/-- What may happen to a node that has the channel `held` at first, and the channel it has in the
end. -/
inductive Channels : Option Channel → List ChannelUse → Option Channel → Prop
  | done {held : Option Channel} : Channels held [] held
  | failed {f : Fault} {rest : List ChannelUse} {last : Option Channel} :
      Channels none rest last → Channels none (.asked none :: .connected (.error f) :: rest) last
  | opened {channel : Channel} {rest : List ChannelUse} {last : Option Channel} :
      Channels (some channel) rest last →
      Channels none (.asked none :: .connected (.ok channel) :: rest) last
  | asked {channel : Channel} {rest : List ChannelUse} {last : Option Channel} :
      Channels (some channel) rest last →
      Channels (some channel) (.asked (some channel) :: rest) last
  | sent {channel : Channel} {rest : List ChannelUse} {last : Option Channel} :
      Channels (some channel) rest last → Channels (some channel) (.sent channel :: rest) last

theorem Channels.append (h : Channels held uses middle) (h' : Channels middle more held') :
    Channels held (uses ++ more) held' := by
  induction h with
  | done => exact h'
  | failed _ ih => exact .failed (ih h')
  | opened _ ih => exact .opened (ih h')
  | asked _ ih => exact .asked (ih h')
  | sent _ ih => exact .sent (ih h')

/-- The use of a node through this channel, without opening another. -/
inductive ChannelUse.Through (channel : Channel) : ChannelUse → Prop
  | asked : Through channel (.asked (some channel))
  | sent : Through channel (.sent channel)

/-- Attempts to open a channel that failed. Between them the node has none. -/
def failures (faults : List Fault) : List ChannelUse :=
  faults.flatMap fun f => [.asked none, .connected (.error f)]

/-- The uses of a node from the first on, and the channel that it has in the end. -/
inductive Lifetime : List ChannelUse → Option Channel → Prop
  | unopened (faults : List Fault) : Lifetime (failures faults) none
  | opened (faults : List Fault) (channel : Channel) (rest : List ChannelUse) :
      (∀ use ∈ rest, use.Through channel) →
      Lifetime (failures faults ++ .asked none :: .connected (.ok channel) :: rest) (some channel)

theorem Channels.through (h : Channels (some channel) uses held) :
    held = some channel ∧ ∀ use ∈ uses, use.Through channel := by
  generalize hfirst : some channel = first at h
  induction h with
  | done =>
    subst hfirst
    exact ⟨rfl, by simp⟩
  | failed | opened => cases hfirst
  | asked _ ih =>
    cases hfirst
    exact ⟨(ih rfl).1, List.forall_mem_cons.mpr ⟨.asked, (ih rfl).2⟩⟩
  | sent _ ih =>
    cases hfirst
    exact ⟨(ih rfl).1, List.forall_mem_cons.mpr ⟨.sent, (ih rfl).2⟩⟩

theorem Channels.lifetime (h : Channels none uses held) : Lifetime uses held := by
  generalize hfirst : none = first at h
  induction h with
  | done =>
    subst hfirst
    exact .unopened []
  | @failed f _ _ _ ih =>
    cases ih rfl with
    | unopened faults => exact .unopened (f :: faults)
    | opened faults channel rest hrest => exact .opened (f :: faults) channel rest hrest
  | @opened channel rest _ h =>
    obtain ⟨rfl, hrest⟩ := h.through
    exact .opened [] channel rest hrest
  | asked | sent => cases hfirst

def ChannelUse.isConnect : ChannelUse → Bool
  | .connected _ => true
  | _ => false

def ChannelUse.isFailure : ChannelUse → Bool
  | .connected (.error _) => true
  | _ => false

/-- At most one channel is opened, however often that fails before. -/
theorem Lifetime.connects (h : Lifetime uses held) :
    uses.countP ChannelUse.isConnect =
      uses.countP ChannelUse.isFailure + if held.isSome then 1 else 0 := by
  have hfailures : ∀ faults, (failures faults).countP ChannelUse.isConnect =
      (failures faults).countP ChannelUse.isFailure := by
    intro faults
    induction faults with
    | nil => rfl
    | cons f faults ih =>
      have hcons : failures (f :: faults) =
          [.asked none, .connected (.error f)] ++ failures faults := rfl
      rw [hcons, List.countP_append, List.countP_append, ih]
      rfl
  cases h with
  | unopened faults => exact hfailures faults
  | opened faults channel rest hrest =>
    have hnone : ∀ use ∈ rest, ¬ use.isConnect = true ∧ ¬ use.isFailure = true := by
      intro use hu
      cases hrest use hu <;> exact ⟨Bool.false_ne_true, Bool.false_ne_true⟩
    have hconnects := List.countP_eq_zero.mpr fun use hu => (hnone use hu).1
    have hfails := List.countP_eq_zero.mpr fun use hu => (hnone use hu).2
    simp [List.countP_cons, hfailures, hconnects, hfails, ChannelUse.isConnect,
      ChannelUse.isFailure]

/-- All that the world was asked to open, with what came of it. -/
def connections (journal : List Entry) : List (NodeAddress × Except Fault Channel) :=
  journal.filterMap fun
    | .connected _ address outcome => some (address, outcome)
    | _ => none

/-- The world keeps a book in which every channel that it is asked to open is entered, and nothing
else. -/
structure World.Books (w : World σ) (book : σ → List (NodeAddress × Except Fault Channel)) :
    Prop where
  connect : ∀ address s,
    book (w.connect address s).2.2 = book s ++ [(address, (w.connect address s).1)]
  query : ∀ channel m s, book (w.query channel m s).2.2 = book s
  submit : ∀ channel m s, book (w.submit channel m s).2.2 = book s
  sleep : ∀ now nanos s, book (w.sleep now nanos s).2 = book s
  shuffle : ∀ ids s, book (w.shuffle ids s).2 = book s
  draw : ∀ s, book (w.draw s).2 = book s

/-- Any world can keep such a book. -/
def World.booked (w : World σ) : World (σ × List (NodeAddress × Except Fault Channel)) where
  connect address s :=
    let (y, took, world) := w.connect address s.1
    (y, took, world, s.2 ++ [(address, y)])
  query channel m s :=
    let (x, took, world) := w.query channel m s.1
    (x, took, world, s.2)
  submit channel m s :=
    let (x, took, world) := w.submit channel m s.1
    (x, took, world, s.2)
  sleep now nanos s :=
    let (took, world) := w.sleep now nanos s.1
    (took, world, s.2)
  shuffle ids s :=
    let (ids, world) := w.shuffle ids s.1
    (ids, world, s.2)
  draw s :=
    let (draw, world) := w.draw s.1
    (draw, world, s.2)
  perm_shuffle ids s := w.perm_shuffle ids s.1

theorem books_booked (w : World σ) : w.booked.Books Prod.snd :=
  ⟨fun _ _ => rfl, fun _ _ _ => rfl, fun _ _ _ => rfl, fun _ _ _ => rfl, fun _ _ => rfl,
    fun _ => rfl⟩

/-- Every channel on record was opened for a node that had none when it was asked for it. -/
def OpensWhenNone (journal : List Entry) : Prop :=
  ∀ before id address outcome after, journal = before ++ .connected id address outcome :: after →
    ∃ earlier now node took, before = earlier ++ [.acquired now node, .passed took] ∧
      node.id = id ∧ node.address = address ∧ node.state.channel = none

theorem OpensWhenNone.append (ha : OpensWhenNone a) (hb : OpensWhenNone b) :
    OpensWhenNone (a ++ b) := by
  intro before id address outcome after hj
  rcases split_append hj with ⟨rest, hr⟩ | ⟨rest, hr, hbefore⟩
  · exact ha _ _ _ _ _ hr
  · obtain ⟨earlier, now, node, took, rfl, hnode⟩ := hb _ _ _ _ _ hr
    exact ⟨a ++ earlier, now, node, took, by rw [hbefore, List.append_assoc], hnode⟩

theorem opensWhenNone_of_not_connected
    (h : ∀ id address outcome, .connected id address outcome ∉ a) :
    OpensWhenNone a := by
  intro before id address outcome after hj
  exact absurd (mem_of_split hj) (h id address outcome)

theorem held_update {other : AccountId} {g : NodeState → NodeState}
    (h : ∀ state, (g state).channel = state.channel) : (s.update other g).held id = s.held id := by
  rw [Situation.held, Situation.held, Situation.update, Network.find?_update]
  cases s.network.find? id with
  | none => rfl
  | some node =>
    by_cases hid : id = other
    · simp [hid, h]
    · simp [hid]

theorem held_update_of_ne {other : AccountId} {g : NodeState → NodeState} (h : id ≠ other) :
    (s.update other g).held id = s.held id := by
  simp [Situation.held, Situation.update, Network.find?_update, h]

theorem network_of_send {m : Message} {x : Except Fault Answer} {took : Nat}
    (h : s.call w channel m = (x, took, t)) : t.network = s.network := by
  cases m <;> (cases h; rfl)

/-- Whatever the client does, a node goes from the channel that it has to the one it has then. -/
theorem Moves.channels (h : Moves w s journal t) (id : AccountId) :
    Channels (s.held id) (channelUses id journal) (t.held id) := by
  induction h with
  | refl | note | select | generate => exact .done
  | trans _ _ ih ih' =>
    rw [channelUses_append]
    exact ih.append ih'
  | use | reward =>
    refine (held_update ?_).symm ▸ Channels.done
    exact fun _ => rfl
  | penalize =>
    refine (held_update ?_).symm ▸ Channels.done
    exact fun _ => NodeState.channel_penalize ..
  | wait _ _ hs | delay hs =>
    cases hs
    exact .done
  | @held s node channel hf hheld =>
    by_cases hid : node.id = id
    · rw [← hid, held_of_find? hf, hheld]
      have huses : channelUses node.id [.acquired s.now node] = [.asked (some channel)] := by
        simp [channelUses, Entry.channelUse?, hheld]
      rw [huses]
      exact .asked .done
    · have hnone : channelUses id [.acquired s.now node] = [] := by
        simp [channelUses, Entry.channelUse?, hid]
      rw [hnone]
      exact .done
  | @opened s node channel took world hf hheld hc =>
    by_cases hid : node.id = id
    · have huses : channelUses id [.acquired s.now node, .passed took,
          .connected node.id node.address (.ok channel)] =
            [.asked none, .connected (.ok channel)] := by
        simp [channelUses, Entry.channelUse?, List.filterMap_cons, hid, hheld]
      have hlast : (({ s with world := world }.elapse took).update node.id fun state =>
          { state with channel := some channel }).held id = some channel := by
        simp [Situation.held, Situation.update, Situation.elapse, Network.find?_update, ← hid, hf]
      rw [huses, hlast, ← hid, held_of_find? hf, hheld]
      exact .opened .done
    · have hnone : channelUses id [.acquired s.now node, .passed took,
          .connected node.id node.address (.ok channel)] = [] := by
        simp [channelUses, Entry.channelUse?, hid]
      rw [hnone, held_update_of_ne (Ne.symm hid)]
      exact .done
  | @closed s node f took world hf hheld hc =>
    by_cases hid : node.id = id
    · have huses : channelUses id [.acquired s.now node, .passed took,
          .connected node.id node.address (.error f)] =
            [.asked none, .connected (.error f)] := by
        simp [channelUses, Entry.channelUse?, List.filterMap_cons, hid, hheld]
      have hnone : s.held id = none := by rw [← hid, held_of_find? hf, hheld]
      have hlast : ({ s with world := world }.elapse took).held id = none := hnone
      rw [huses, hlast, hnone]
      exact .failed .done
    · have hnone : channelUses id [.acquired s.now node, .passed took,
          .connected node.id node.address (.error f)] = [] := by
        simp [channelUses, Entry.channelUse?, hid]
      rw [hnone]
      exact .done
  | @call s t node channel m x took hheld hc =>
    have hnet := network_of_send hc
    have hlast : t.held id = s.held id := by rw [Situation.held, hnet, Situation.held]
    rw [hlast]
    by_cases hid : node.id = id
    · have huses : channelUses id
          [.passed took, .called s.now (node.holding channel) channel m x] =
          [.sent channel] := by
        simp [channelUses, Entry.channelUse?, List.filterMap_cons, Node.holding, hid]
      rw [huses, ← hid, hheld]
      exact .sent .done
    · have hnone : channelUses id
          [.passed took, .called s.now (node.holding channel) channel m x] = [] := by
        simp [channelUses, Entry.channelUse?, Node.holding, hid]
      rw [hnone]
      exact .done

theorem find?_update_address {other : AccountId} {g : NodeState → NodeState} :
    ((s.update other g).network.find? id).map Node.address =
      (s.network.find? id).map Node.address := by
  rw [Situation.update, Network.find?_update, Option.map_map]
  refine Option.map_congr fun node _ => ?_
  by_cases hid : id = other <;> simp [hid]

theorem Moves.address_eq (h : Moves w s journal t) (id : AccountId) :
    (t.network.find? id).map Node.address = (s.network.find? id).map Node.address := by
  induction h with
  | refl | note | select | generate | held | closed => rfl
  | trans _ _ ih ih' => exact ih'.trans ih
  | use | reward | penalize | opened => exact find?_update_address
  | wait _ _ hs | delay hs =>
    cases hs
    rfl
  | call _ hc => rw [network_of_send hc]

theorem Moves.opensWhenNone (h : Moves w s journal t) : OpensWhenNone journal := by
  have single : ∀ {now node took id address outcome}, node.id = id → node.address = address →
      node.state.channel = none →
      OpensWhenNone [.acquired now node, .passed took, .connected id address outcome] := by
    intro now node took id address outcome hid ha hn before id' address' outcome' after hj
    match before with
    | [] | [_] => cases hj
    | [first, second] =>
      cases hj
      exact ⟨[], now, node, took, rfl, hid, ha, hn⟩
    | _ :: _ :: _ :: rest => simp at hj
  induction h with
  | refl | note | use | reward | penalize | wait | delay | select | generate | held | call =>
    exact opensWhenNone_of_not_connected (by simp)
  | trans _ _ ih ih' => exact ih.append ih'
  | opened _ hheld | closed _ hheld => exact single rfl rfl hheld

theorem connections_append : connections (a ++ b) = connections a ++ connections b :=
  List.filterMap_append

/-- What is on record of opened channels is what is in the book. -/
theorem Moves.book_eq {book : σ → List (NodeAddress × Except Fault Channel)}
    (h : Moves w s journal t) (hw : w.Books book) :
    book t.world = book s.world ++ connections journal := by
  induction h with
  | refl | note | use | reward | penalize | held => exact (List.append_nil _).symm
  | trans _ _ ih ih' => rw [ih', ih, connections_append, List.append_assoc]
  | wait _ _ hs | delay hs =>
    cases hs
    exact (hw.sleep _ _ _).trans (List.append_nil _).symm
  | select => exact (hw.shuffle _ _).trans (List.append_nil _).symm
  | generate => exact (hw.draw _).trans (List.append_nil _).symm
  | @opened s node _ _ _ _ _ hc | @closed s node _ _ _ _ _ hc =>
    have hconnect := hw.connect node.address s.world
    rw [hc] at hconnect
    exact hconnect
  | @call s t node channel m _ _ _ hc =>
    cases m with
    | query m =>
      cases hc
      exact (hw.query _ _ _).trans (List.append_nil _).symm
    | transaction m =>
      cases hc
      exact (hw.submit _ _ _).trans (List.append_nil _).symm

/-- What a program does with a client and its network. -/
inductive Deed
  | execute {α : Type} (c : Client) (op : Operation α) (request : Request)
  /-- The channel of a node is asked for, outside of executions. -/
  | ask (id : AccountId)
  | set (entries : List (AccountId × NodeAddress))
  | elapse (nanos : Nat)

/-- The situation after a deed, with the steps that it leaves on record. -/
def Deed.perform (w : World σ) (s : Situation σ) : Deed → Situation σ × List Entry
  | .execute c op request =>
    let p := (c.execute w op request s).2
    (p.situation, p.journal)
  | .ask id =>
    match s.network.find? id with
    | some node => (s.acquire w node).2
    | none => (s, [])
  | .set entries => ({ s with network := s.network.set entries }, [])
  | .elapse nanos => (s.elapse nanos, [])

/-- Whether a deed leaves the node with this id at this address. -/
def Deed.Keeps (id : AccountId) (address : NodeAddress) : Deed → Prop
  | .set entries => lastAddress? entries id = some address
  | _ => True

def Situation.after (w : World σ) (s : Situation σ) : List Deed → Situation σ
  | [] => s
  | deed :: rest => (deed.perform w s).1.after w rest

/-- What is on record of a session. -/
def Situation.record (w : World σ) (s : Situation σ) : List Deed → List Entry
  | [] => []
  | deed :: rest => (deed.perform w s).2 ++ (deed.perform w s).1.record w rest

/-- A deed is something that the client does, or else time passes or nodes are set. -/
theorem Deed.moves_or_not (w : World σ) (s : Situation σ) (deed : Deed) :
    Moves w s (deed.perform w s).2 (deed.perform w s).1 ∨
      (∃ nanos, deed = .elapse nanos) ∨ ∃ entries, deed = .set entries := by
  cases deed with
  | execute c op request => exact .inl (moves_of_execute c w op request s)
  | ask id =>
    left
    cases hf : s.network.find? id with
    | none =>
      simp only [Deed.perform, hf]
      exact .refl
    | some node =>
      simp only [Deed.perform, hf]
      refine moves_of_acquire rfl ?_
      rw [(Network.find?_eq_some hf).2, hf]
  | set entries => exact .inr (.inr ⟨entries, rfl⟩)
  | elapse nanos => exact .inr (.inl ⟨nanos, rfl⟩)

theorem find?_of_set {deed : Deed} {entries : List (AccountId × NodeAddress)}
    (hd : deed = .set entries) (hf : s.network.find? id = some node)
    (hk : deed.Keeps id node.address) : (deed.perform w s).1.network.find? id = some node := by
  subst hd
  have hlast : lastAddress? entries id = some node.address := hk
  simp only [Deed.perform]
  rw [Network.find?_set, hlast, Option.map_some, carryOver_of_held hf rfl]

/-- As long as a node keeps its id and address, all goes from the channel it has to the one it has
then. -/
theorem channels_of_deed {deed : Deed} (hf : s.network.find? id = some node)
    (hk : deed.Keeps id node.address) :
    Channels (s.held id) (channelUses id (deed.perform w s).2) ((deed.perform w s).1.held id) ∧
      ∃ next, (deed.perform w s).1.network.find? id = some next ∧ next.address = node.address := by
  rcases Deed.moves_or_not w s deed with moves | ⟨nanos, rfl⟩ | ⟨entries, hd⟩
  · refine ⟨moves.channels id, ?_⟩
    have haddress := moves.address_eq id
    rw [hf, Option.map_some] at haddress
    exact Option.map_eq_some_iff.mp haddress
  · exact ⟨.done, node, hf, rfl⟩
  · have hnext := find?_of_set (w := w) hd hf hk
    refine ⟨?_, node, hnext, rfl⟩
    have hnone : (deed.perform w s).2 = [] := by rw [hd, Deed.perform]
    rw [hnone, held_of_find? hnext, held_of_find? hf]
    exact .done

theorem channels_of_deeds {deeds : List Deed} (hf : s.network.find? id = some node)
    (hk : ∀ deed ∈ deeds, deed.Keeps id node.address) :
    Channels (s.held id) (channelUses id (s.record w deeds)) ((s.after w deeds).held id) := by
  induction deeds generalizing s node with
  | nil => exact .done
  | cons deed rest ih =>
    obtain ⟨first, next, hnext, ha⟩ := channels_of_deed (w := w) hf (hk deed (by simp))
    rw [Situation.record, channelUses_append]
    exact first.append (ih hnext fun later hl => ha ▸ hk later (by simp [hl]))

theorem record_of_deeds (w : World σ) (s : Situation σ) (deeds : List Deed) :
    OpensWhenNone (s.record w deeds) ∧
    ∀ book, w.Books book →
      book (s.after w deeds).world = book s.world ++ connections (s.record w deeds) := by
  induction deeds generalizing s with
  | nil => exact ⟨opensWhenNone_of_not_connected (by simp [Situation.record]),
      fun book _ => (List.append_nil _).symm⟩
  | cons deed rest ih =>
    have hdeed : OpensWhenNone (deed.perform w s).2 ∧ ∀ book, w.Books book →
        book (deed.perform w s).1.world = book s.world ++ connections (deed.perform w s).2 := by
      rcases Deed.moves_or_not w s deed with moves | ⟨nanos, rfl⟩ | ⟨entries, rfl⟩
      · exact ⟨moves.opensWhenNone, fun book hw => moves.book_eq hw⟩
      all_goals exact ⟨opensWhenNone_of_not_connected (by simp [Deed.perform]),
          fun book _ => (List.append_nil _).symm⟩
    obtain ⟨hopens, hbook⟩ := ih (s := (deed.perform w s).1)
    refine ⟨hdeed.1.append hopens, fun book hw => ?_⟩
    rw [Situation.after, hbook book hw, hdeed.2 book hw, Situation.record, connections_append,
      List.append_assoc]

theorem Node.Opening.not_mem {asked : Nat} {opening : List Entry}
    (h : node.Opening channel asked opening now) :
    .connected id address (.error f) ∉ opening := by
  cases h <;> simp

theorem Node.Pause.not_mem {pause : List Entry} {woken : Nat} {outcome : Except Fault Channel}
    (h : node.Pause w now pause woken) : .connected id address outcome ∉ pause := by
  cases h <;> simp

/-- A channel that could not be opened ends the contact. -/
theorem not_mem_of_acquired {x : Except Fault Answer} {m : Message} {r : Progress σ}
    (ho : (p.afresh.approach w k node).advance.acquire w node = (.ok channel, q))
    (hc : q.call w node channel m = (x, r)) : .connected id address (.error f) ∉ r.journal := by
  obtain ⟨-, pause, hpause, hp⟩ := (approached_of_approach w k node p.afresh).pauses
  obtain ⟨opening, hopening, hq⟩ := opening_of_acquire ho
  obtain ⟨_, _, -, -, hr⟩ := call_eq hc
  have hp' : (p.afresh.approach w k node).advance.journal =
    .event (.nodeSelected k node.id node.address) :: pause := hp
  rw [hr, hq, hp']
  simp [hpause.not_mem, hopening.not_mem]

/-- The way to a node whose channel cannot be opened, and what follows. -/
structure Unopened (w : World σ) (k : Nat) (p q : Progress σ) (node : Node) (f : Fault)
    (before after : List Entry) : Prop where
  found : ∃ old, p.situation.network.find? node.id = some old ∧ node = old.use p.situation.now
  closed : node.state.channel = none
  before_eq : ∃ pause woken took, node.Pause w p.situation.now pause woken ∧
    q.situation.now = woken + took ∧
    before = .event (.nodeSelected k node.id node.address) ::
      (pause ++ [.acquired woken node, .passed took])
  after_eq : after = [.penalized node.id (node.state.currentDelay q.situation.network.bounds),
    .event (.channelFailed node.id f)]
  penalized : q.situation.network.find? node.id = some { node with
    state := node.state.penalize q.situation.network.bounds q.situation.now }

theorem unopened_of_acquire {m : Message} {r : Progress σ}
    (hf : p.situation.network.find? m.node = some found)
    (hu : found.use p.situation.now = node)
    (ho : (p.afresh.approach w k node).advance.acquire w node = (.error f, r)) :
    ∃ before after, ((r.penalize node).note (.channelFailed node.id f)).journal =
      before ++ .connected node.id node.address (.error f) :: after ∧
      Unopened w k p ((r.penalize node).note (.channelFailed node.id f)) node f before after := by
  have hfind := find?_of_approach (p := p.afresh) w k hf hu
  have hid : node.id = m.node := by
    subst hu
    exact (Network.find?_eq_some hf).2
  have hchannel : node.state.channel = none := by
    cases hheld : node.state.channel with
    | none => rfl
    | some channel =>
      simp only [Progress.acquire, Situation.acquire, hheld] at ho
      cases ho
  obtain ⟨-, pause, hpause, hp⟩ := (approached_of_approach w k node p.afresh).pauses
  cases acquired_of_acquire ho with
  | @closed f took world hc =>
    have hp' : (p.afresh.approach w k node).advance.journal =
      .event (.nodeSelected k node.id node.address) :: pause := hp
    refine ⟨_, _, ?_, ⟨found, hid ▸ hf, hu.symm⟩, hchannel, ⟨pause, _, took, hpause, rfl, rfl⟩,
      rfl, ?_⟩
    · simp only [Progress.note, Progress.penalize, hp']
      simp [Progress.advance]
      rfl
    · exact Network.find?_update_self hfind

theorem unopened_of_contact {o : Outcome} {before after : List Entry}
    (hk : p.afresh.contact w k = (o, q))
    (hj : q.journal = before ++ .connected id address (.error f) :: after) :
    ∃ node, o = .unopened node f ∧ node.id = id ∧ node.address = address ∧
      Unopened w k p q node f before after := by
  have hmem : .connected id address (.error f) ∈ q.journal := mem_of_split hj
  cases contacted_of_contact hk with
  | unsendable | unknownNode => cases hmem
  | @unopened m found node f' r _ hf hu ho =>
    obtain ⟨earlier, later, hsteps, unopened⟩ := unopened_of_acquire (p := p) hf hu ho
    have hearlier : .connected id address (.error f) ∉ earlier := by
      obtain ⟨pause, _, _, hpause, -, hbefore⟩ := unopened.before_eq
      rw [hbefore]
      simp [hpause.not_mem]
    have hlater : .connected id address (.error f) ∉ later := by
      rw [unopened.after_eq]
      simp
    obtain ⟨rfl, hx, rfl⟩ := eq_of_split (hsteps.symm.trans hj) hearlier hlater
    cases hx
    exact ⟨node, rfl, rfl, rfl, unopened⟩
  | dropped _ _ _ ho hc =>
    have hnot : Entry.connected id address (.error f) ∉ _ := not_mem_of_acquired ho hc
    simp [Progress.penalize, Progress.note, hnot] at hmem
  | broken _ _ _ ho hc =>
    have hnot : Entry.connected id address (.error f) ∉ _ := not_mem_of_acquired ho hc
    simp [Progress.note, hnot] at hmem
  | answered _ _ _ ho hc =>
    have hnot : Entry.connected id address (.error f) ∉ _ := not_mem_of_acquired ho hc
    exact absurd hmem hnot

/-- In an execution a channel that cannot be opened costs an attempt, in which nothing is sent, and
the node a penalty. -/
theorem unopened_of_execute {before after : List Entry}
    (hj : (c.execute w op request s).2.journal =
      before ++ .connected id address (.error f) :: after) :
    ∃ k p q node earlier later rest, c.Makes w op request s k p (.unsettled (.fault f)) q ∧
      node.id = id ∧ node.address = address ∧ Unopened w k p q node f earlier later ∧
      q.journal = earlier ++ .connected id address (.error f) :: later ∧
      before = p.journal ++ earlier ∧ after = later ++ rest := by
  rw [(execute_eq_run c w op request s).2.2.1] at hj
  rcases takes_of_step hj with ⟨_, _, hx⟩ | @⟨k, p, q, e, earlier, later, rest, makes, hq, hb, ha⟩
  · cases hx
  -- the step is one of the contact, since no conclusion opens a channel
  obtain ⟨o, r, conclusions, hk, hr, -, hconcluded, -⟩ := attempt_split makes.attempt_eq
  have hcontact : ∃ later', r.journal = earlier ++ .connected id address (.error f) :: later' := by
    rw [hr] at hq
    rcases split_append hq with hcontact | ⟨rest', hconclusions, -⟩
    · exact hcontact
    · cases hconcluded _ (mem_of_split hconclusions)
  obtain ⟨later', hlater⟩ := hcontact
  obtain ⟨node, rfl, hid, haddress, unopened⟩ := unopened_of_contact hk hlater
  cases attempted_of_attempt makes.attempt_eq with
  | unsendable hk' | unknownNode hk' | dropped hk' | broken hk' | retried hk' | spent hk'
  | replaced hk' | stale hk' | refused hk' | finished hk' => cases hk.symm.trans hk'
  | unopened hk' =>
    cases hk.symm.trans hk'
    obtain rfl : later' = later := by simpa [hlater] using hq
    exact ⟨k, p, q, node, earlier, later', rest, makes, hid, haddress, unopened, hq, hb, ha⟩

/-- Whatever a program does with a client: the world is asked to open a channel only where the
channel of a node is asked for that has none. A node that keeps its id and address goes through
failures to open a channel to one success at most, and once it has a channel there is no other use
of it than through this one. An execution that cannot open a channel has one attempt less, in which
nothing is sent, and the node one penalty more. -/
theorem channels_of_session (w : World σ) (s : Situation σ) (deeds : List Deed) :
    let record := s.record w deeds
    let last := s.after w deeds
    (∀ book, w.Books book → book last.world = book s.world ++ connections record) ∧
    OpensWhenNone record ∧
    (∀ id node, s.network.find? id = some node → (∀ deed ∈ deeds, deed.Keeps id node.address) →
      (∀ channel, node.state.channel = some channel →
        last.held id = some channel ∧ ∀ use ∈ channelUses id record, use.Through channel) ∧
      (node.state.channel = none → Lifetime (channelUses id record) (last.held id) ∧
        (channelUses id record).countP ChannelUse.isConnect =
          (channelUses id record).countP ChannelUse.isFailure +
            if (last.held id).isSome then 1 else 0)) ∧
    (∀ (α : Type) earlier later c (op : Operation α) request before id address f after,
      deeds = earlier ++ .execute c op request :: later →
      (c.execute w op request (s.after w earlier)).2.journal =
        before ++ .connected id address (.error f) :: after →
      ∃ k p q node steps steps' rest,
        c.Makes w op request (s.after w earlier) k p (.unsettled (.fault f)) q ∧
        node.id = id ∧ node.address = address ∧ Unopened w k p q node f steps steps' ∧
        q.journal = steps ++ .connected id address (.error f) :: steps' ∧
        before = p.journal ++ steps ∧ after = steps' ++ rest) := by
  intro record last
  obtain ⟨hopens, hbook⟩ := record_of_deeds w s deeds
  refine ⟨hbook, hopens, fun id node hf hk => ?_, fun _ _ _ _ _ _ _ _ _ _ _ _ hj =>
    unopened_of_execute hj⟩
  have hchannels := channels_of_deeds (w := w) hf hk
  rw [held_of_find? hf] at hchannels
  refine ⟨fun channel hheld => ?_, fun hnone => ?_⟩
  · rw [hheld] at hchannels
    exact hchannels.through
  · rw [hnone] at hchannels
    have hlifetime := hchannels.lifetime
    exact ⟨hlifetime, hlifetime.connects⟩

/-- The first channel to a node cannot be opened, the second can, and serves for all that follows,
also when the nodes are set once more. -/
theorem channels_of_reopened :
    let f : Fault := ⟨.unavailable, "refused"⟩
    let stage := Stage.situation [⟨[some f, none], []⟩]
    let s : Situation (Stage × List (NodeAddress × Except Fault Channel)) :=
      ⟨stage.network, stage.now, stage.world, []⟩
    let w := Stage.world.booked
    let node := Node.fresh (Stage.node 3).1 (Stage.node 3).2
    let client := { Client.default with maxAttempts := some 1 }
    let query := { QueryRequest.ofBody default with nodes := .ofList [node.id] }
    let execute : Deed := .execute client queryOperation (.query query)
    let deeds : List Deed := [execute, .set [Stage.node 3], .ask node.id, execute,
      .set [Stage.node 4, Stage.node 3], execute]
    let channel : Channel := ⟨node.address, 0⟩
    s.network.find? node.id = some node ∧ (∀ deed ∈ deeds, deed.Keeps node.id node.address) ∧
    (s.after w deeds).world.2 = [(node.address, .error f), (node.address, .ok channel)] ∧
    channelUses node.id (s.record w deeds) = [.asked none, .connected (.error f), .asked none,
      .connected (.ok channel), .asked (some channel), .sent channel, .asked (some channel),
      .sent channel] ∧
    connections (s.record w deeds) = (s.after w deeds).world.2 ∧
    Lifetime (channelUses node.id (s.record w deeds)) (some channel) := by
  intro f stage s w node client query execute deeds channel
  have hfind : s.network.find? node.id = some node := rfl
  have hkeeps : ∀ deed ∈ deeds, deed.Keeps node.id node.address := by
    simp only [deeds, List.forall_mem_cons]
    exact ⟨trivial, rfl, trivial, trivial, rfl, trivial, by simp⟩
  have hheld : (s.after w deeds).held node.id = some channel := by decide +kernel
  have hbooked : (s.after w deeds).world.2 =
      [(node.address, .error f), (node.address, .ok channel)] := by
    decide +kernel
  have huses : channelUses node.id (s.record w deeds) = [.asked none, .connected (.error f),
      .asked none, .connected (.ok channel), .asked (some channel), .sent channel,
      .asked (some channel), .sent channel] := by
    decide +kernel
  obtain ⟨hbook, -, hlife, -⟩ := channels_of_session w s deeds
  have hlifetime := ((hlife node.id node hfind hkeeps).2 rfl).1
  rw [hheld] at hlifetime
  exact ⟨hfind, hkeeps, hbooked, huses, (hbook Prod.snd (books_booked _)).symm, hlifetime⟩

end LedgerClient
