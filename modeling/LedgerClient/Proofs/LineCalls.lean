import LedgerClient.Proofs.Frames
import Mathlib.Data.List.TakeWhile

namespace LedgerClient

variable {σ : Type} {p : Peer σ} {s s' s₁ : σ} {ch ch' : LineChannel} {c c' : Connection} {n : Nat}
  {line text frame : String} {bytes : List UInt8} {arrival : Arrival} {f : Fault} {m : Message}

/-- What has passed over a connection, as the node has it. -/
structure Traffic where
  /-- The lines that were sent to the node, without their ends. -/
  asked : List String
  /-- The lines of them that it has read as frames. -/
  frames : List String
  /-- Its answers, the first of them to the first frame, without the ends of their lines. -/
  lines : List (List UInt8)
  /-- The bytes of the answers that have arrived. -/
  sent : List UInt8

def Traffic.none : Traffic :=
  ⟨[], [], [], []⟩

/-- Answers as they are sent, each with the end of its line. -/
def delivery (lines : List (List UInt8)) : List UInt8 :=
  lines.flatMap fun line => line ++ [lineFeed]

/-- The frames are read in order, there is one answer to each at most, every answer is a single
line, and they are sent in order. -/
structure Traffic.Orderly (t : Traffic) : Prop where
  frames : t.frames <+: t.asked
  answers : t.lines.length ≤ t.frames.length
  single : ∀ line ∈ t.lines, lineFeed ∉ line
  sent : t.sent <+: delivery t.lines

/-- The lines in a text that have an end. -/
def completeLines (text : String) : List String :=
  (text.toList.splitOn '\n').dropLast.map String.ofList

/-- What may become of the traffic when a text is sent to the node: it reads more frames or none,
and answers more of them or none. -/
structure Traffic.Continues (t : Traffic) (text : String) (arrival : Arrival) (t' : Traffic) :
    Prop where
  asked : t'.asked = t.asked ++ completeLines text
  frames : t.frames <+: t'.frames
  lines : t.lines <+: t'.lines
  sent : t'.sent = t.sent ++ arrival.bytes
  orderly : t'.Orderly

/-- A node that answers the frames it reads on a connection in order, each with one line. When it
reads and answers, if ever, and when it closes a connection, is left to it. -/
structure Peer.AnswersInOrder (p : Peer σ) (traffic : σ → Nat → Traffic) : Prop where
  connect : ∀ {s n s'}, p.connect s = (.ok n, s') → traffic s' n = .none
  respond : ∀ {n text s arrival s'}, p.respond n text s = (arrival, s') →
    (traffic s n).Orderly → (traffic s n).Continues text arrival (traffic s' n)

/-- All lines were read and answered, and the answers have arrived. -/
structure Traffic.Settled (t : Traffic) : Prop where
  orderly : t.Orderly
  read : t.frames = t.asked
  answered : t.lines.length = t.frames.length
  arrived : t.sent = delivery t.lines

/-- On the connection that is kept nothing is left to be read and nothing is still to come. -/
def LineChannel.Settled (traffic : σ → Nat → Traffic) (s : σ) (ch : LineChannel) : Prop :=
  ∀ c, ch.connection = some c →
    c.unread = [] ∧ (c.closed = true ∨ (traffic s c.number).Settled)

/-- From `t` to `t'` the node has read a frame and answered it, as it had answered all before; and
the bytes are the line of this answer, or its beginning if the node has closed the connection. -/
def OwnAnswer (t t' : Traffic) (frame : String) (bytes : List UInt8) (closed : Bool) : Prop :=
  ∃ line, t.lines.length = t.frames.length ∧ t'.frames = t.frames ++ [frame] ∧
    t'.lines = t.lines ++ [line] ∧
    (bytes = line ++ [lineFeed] ∨ closed = true ∧ bytes ≠ [] ∧ bytes <+: line)

theorem Traffic.settled_none : Traffic.none.Settled :=
  ⟨⟨List.prefix_refl _, Nat.le_refl _, by simp [Traffic.none], List.nil_prefix⟩, rfl, rfl, rfl⟩

theorem completeLines_eq (h : '\n' ∉ text.toList) : completeLines (text ++ "\n") = [text] := by
  have hparts : (text ++ "\n").toList = ['\n'].intercalate [text.toList, []] := by
    simp [List.intercalate, List.intersperse]
  have hsplit : (text ++ "\n").toList.splitOn '\n' = [text.toList, []] := by
    rw [hparts]
    exact List.splitOn_intercalate '\n' (by simp [h]) (by simp)
  rw [completeLines, hsplit]
  simp

/-- What arrives on a settled connection is the answer to the frame that was sent, or a part of
it. -/
theorem arrival_of_settled {t t' : Traffic} (ht : t.Settled) (hf : '\n' ∉ frame.toList)
    (h : t.Continues (frame ++ "\n") arrival t') (hne : arrival.bytes ≠ []) :
    ∃ line, lineFeed ∉ line ∧ t'.frames = t.frames ++ [frame] ∧ t'.lines = t.lines ++ [line] ∧
      arrival.bytes <+: line ++ [lineFeed] := by
  obtain ⟨read, hframes⟩ := h.frames
  obtain ⟨more, hlines⟩ := h.lines
  have hread : read <+: [frame] := by
    have hasked := h.orderly.frames
    rw [h.asked, completeLines_eq hf, ← hframes, ← ht.read] at hasked
    exact (List.prefix_append_right_inj _).mp hasked
  have hbytes : arrival.bytes <+: delivery more := by
    have hsent := h.orderly.sent
    rw [h.sent, ht.arrived, ← hlines, delivery, delivery, List.flatMap_append] at hsent
    exact (List.prefix_append_right_inj _).mp hsent
  have hmore : more.length ≤ read.length := by
    have hanswers := h.orderly.answers
    rw [← hlines, ← hframes, List.length_append, List.length_append, ht.answered] at hanswers
    omega
  -- no more than one frame is new, so no more than one answer is
  have hone : read.length ≤ 1 := hread.length_le
  match more, hmore with
  | [], _ =>
    have hnil : arrival.bytes = [] := List.prefix_nil.mp hbytes
    exact absurd hnil hne
  | _ :: _ :: _, hmore =>
    simp only [List.length_cons] at hmore
    omega
  | [line], hmore =>
    obtain rfl : read = [frame] := by
      refine hread.eq_of_length ?_
      simp only [List.length_cons, List.length_nil] at hmore ⊢
      omega
    have hsingle : lineFeed ∉ line := h.orderly.single line (by simp [← hlines])
    exact ⟨line, hsingle, hframes.symm, hlines.symm, by simpa [delivery] using hbytes⟩

theorem number_of_takeLine? (h : c.takeLine? = some (bytes, c')) :
    c'.number = c.number ∧ c'.closed = c.closed ∧ c.unread ≠ [] := by
  unfold Connection.takeLine? at h
  simp only at h
  split at h
  next hlt =>
    cases h
    refine ⟨rfl, rfl, fun hnil => ?_⟩
    simp [hnil] at hlt
  next =>
    split at h
    next hclosed =>
      cases h
      exact ⟨rfl, rfl, by simpa using (Bool.and_eq_true_iff.mp hclosed).2⟩
    next => cases h

theorem takeLine?_of_not_mem (hn : lineFeed ∉ c.unread) (h : c.takeLine? = some (bytes, c')) :
    c.closed = true ∧ bytes = c.unread ∧ c'.unread = [] := by
  have hwhole : c.unread.takeWhile (· != lineFeed) = c.unread :=
    List.takeWhile_eq_self_iff.mpr (bne_lineFeed hn)
  simp only [Connection.takeLine?, hwhole, Nat.lt_irrefl, if_false] at h
  split at h
  next hclosed =>
    cases h
    exact ⟨(Bool.and_eq_true_iff.mp hclosed).1, rfl, rfl⟩
  next => cases h

/-- The line that is read after a frame was sent over a settled connection answers this frame, and
the connection is settled again. -/
theorem ownAnswer_of_takeLine? {t t' : Traffic} (ht : t.Settled) (hf : '\n' ∉ frame.toList)
    (h : t.Continues (frame ++ "\n") arrival t') (hu : c.unread = arrival.bytes)
    (hl : c.takeLine? = some (bytes, c')) :
    OwnAnswer t t' frame bytes c.closed ∧ c'.unread = [] ∧ (c.closed = true ∨ t'.Settled) := by
  obtain ⟨-, -, hne⟩ := number_of_takeLine? hl
  obtain ⟨line, hsingle, hframes, hlines, hprefix⟩ := arrival_of_settled ht hf h (hu ▸ hne)
  rw [← hu] at hprefix
  -- the whole answer has come, or the node has closed the connection within it
  rcases List.prefix_concat_iff.mp hprefix with hwhole | hpart
  · have htake : c.takeLine? = some (line ++ [lineFeed], { c with unread := [] }) :=
      takeLine?_eq hsingle hwhole
    obtain ⟨rfl, rfl⟩ := Prod.mk.inj (Option.some.inj (htake.symm.trans hl))
    refine ⟨⟨line, ht.answered, hframes, hlines, .inl rfl⟩, rfl, .inr ⟨h.orderly, ?_, ?_, ?_⟩⟩
    · rw [hframes, h.asked, completeLines_eq hf, ht.read]
    · rw [hframes, hlines, List.length_append, List.length_append, ht.answered]
      rfl
    · rw [h.sent, ht.arrived, ← hu, hwhole, hlines, delivery, delivery, List.flatMap_append]
      simp
  · have hnot : lineFeed ∉ c.unread := fun hmem => hsingle (hpart.subset hmem)
    obtain ⟨hclosed, rfl, hunread⟩ := takeLine?_of_not_mem hnot hl
    exact ⟨⟨line, ht.answered, hframes, hlines, .inr ⟨hclosed, hne, hpart⟩⟩, hunread, .inl hclosed⟩

/-- The ways an exchange of lines can go: either a line is read and the connection kept, or none is
and no connection is kept. -/
inductive Exchanged (p : Peer σ) (line : String) (ch : LineChannel) (s : σ) :
    Except Fault String → LineChannel → σ → Prop
  | failed {f : Fault} {s' : σ} : Exchanged p line ch s (.error f) { ch with connection := none } s'
  | read {c sent rest : Connection} {s₁ s' : σ} {bytes : List UInt8} {text : String} :
      ch.reopen p s = (.ok c, s₁) → c.send p line s₁ = (sent, s') →
      sent.takeLine? = some (bytes, rest) → String.fromUTF8? ⟨bytes.toArray⟩ = some text →
      Exchanged p line ch s (.ok text) { ch with connection := some rest } s'

theorem exchanged_of_exchange {x : Except Fault String} (h : ch.exchange p line s = (x, ch', s')) :
    Exchanged p line ch s x ch' s' := by
  unfold LineChannel.exchange at h
  cases hc : ch.reopen p s with
  | mk opened s₁ =>
    cases opened with
    | error f =>
      simp only [hc] at h
      cases h
      exact .failed
    | ok c =>
      cases hs : c.send p line s₁ with
      | mk sent s₂ =>
        simp only [hc, hs] at h
        split at h
        next bytes rest hl =>
          split at h
          next text ht =>
            cases h
            exact .read hc hs hl ht
          next =>
            cases h
            exact .failed
        next =>
          split at h
          · cases h
            exact .failed
          · cases h
            exact .failed

section honest

variable {traffic : σ → Nat → Traffic} (honest : p.AnswersInOrder traffic)

include honest

theorem settled_of_openConnection {address : NodeAddress}
    (h : LineChannel.openConnection p address s = (.ok c, s')) :
    c.unread = [] ∧ (c.closed = true ∨ (traffic s' c.number).Settled) := by
  unfold LineChannel.openConnection at h
  split at h
  next number s₁ hc =>
    cases h
    refine ⟨rfl, .inr ?_⟩
    rw [honest.connect hc]
    exact Traffic.settled_none
  next => cases h

theorem settled_of_connect {address : NodeAddress}
    (h : LineChannel.connect p address s = (.ok ch, s')) : ch.Settled traffic s' := by
  unfold LineChannel.connect at h
  cases ho : LineChannel.openConnection p address s with
  | mk opened s₁ =>
    cases opened with
    | error f =>
      simp only [ho] at h
      cases h
    | ok c =>
      simp only [ho] at h
      cases h
      intro c' hc'
      cases hc'
      exact settled_of_openConnection honest ho

theorem settled_of_reopen (hs : ch.Settled traffic s) (h : ch.reopen p s = (.ok c, s')) :
    c.unread = [] ∧ (c.closed = true ∨ (traffic s' c.number).Settled) := by
  unfold LineChannel.reopen at h
  split at h
  next kept hkept =>
    cases h
    exact hs c hkept
  next => exact settled_of_openConnection honest h

theorem ownAnswer_of_read {sent rest : Connection} (hs : ch.Settled traffic s)
    (hf : '\n' ∉ frame.toList) (hc : ch.reopen p s = (.ok c, s₁))
    (hsend : c.send p (frame ++ "\n") s₁ = (sent, s')) (hl : sent.takeLine? = some (bytes, rest)) :
    OwnAnswer (traffic s₁ c.number) (traffic s' c.number) frame bytes rest.closed ∧
      rest.number = c.number ∧ rest.unread = [] ∧
      (rest.closed = true ∨ (traffic s' c.number).Settled) := by
  obtain ⟨hunread, hstate⟩ := settled_of_reopen honest hs hc
  obtain ⟨hnumber, hclosed, hne⟩ := number_of_takeLine? hl
  unfold Connection.send at hsend
  split at hsend
  next =>
    cases hsend
    exact absurd hunread hne
  next hopen =>
    obtain ht := hstate.resolve_left hopen
    cases hr : p.respond c.number (frame ++ "\n") s₁ with
    | mk arrival s₂ =>
      simp only [hr] at hsend
      cases hsend
      have hcontinues := honest.respond hr ht.orderly
      have harrived : c.unread ++ arrival.bytes = arrival.bytes := by rw [hunread, List.nil_append]
      obtain ⟨own, hrest, hsettled⟩ := ownAnswer_of_takeLine? ht hf hcontinues harrived hl
      rw [← hclosed] at own hsettled
      exact ⟨own, hnumber, hrest, hsettled⟩

theorem settled_of_exchange {x : Except Fault String} (hs : ch.Settled traffic s)
    (hf : '\n' ∉ frame.toList) (h : ch.exchange p (frame ++ "\n") s = (x, ch', s')) :
    ch'.Settled traffic s' := by
  cases exchanged_of_exchange h with
  | failed =>
    intro c hc
    cases hc
  | read hc hsend hl _ =>
    obtain ⟨-, hnumber, hrest, hsettled⟩ := ownAnswer_of_read honest hs hf hc hsend hl
    intro kept hkept
    cases hkept
    rw [hnumber]
    exact ⟨hrest, hsettled⟩

end honest

/-- What a call with a message of this kind makes of the line that it gets. -/
def Peer.readReply (p : Peer σ) (m : Message) (text : String) : Except Fault Answer :=
  let malformed := p.malformed m text
  match m with
  | .query _ => ((QueryAnswer.decode? text).getD (.error malformed)).map Answer.query
  | .transaction _ => ((SubmitAnswer.decode? text).getD (.error malformed)).map Answer.submit

/-- Calls the node with a message of either kind. -/
def LineChannel.ask (p : Peer σ) (m : Message) (ch : LineChannel) (s : σ) :
    Except Fault Answer × LineChannel × σ :=
  match m with
  | .query q =>
    let (reply, ch, s) := ch.query p q s
    (reply.map Answer.query, ch, s)
  | .transaction t =>
    let (reply, ch, s) := ch.submit p t s
    (reply.map Answer.submit, ch, s)

/-- The channel and the node after calls one by one. -/
def LineChannel.after (p : Peer σ) (ch : LineChannel) (s : σ) : List Message → LineChannel × σ
  | [] => (ch, s)
  | m :: rest =>
    let (_, ch, s) := ch.ask p m s
    ch.after p s rest

/-- A call is an exchange of lines, and what is read is all that its result depends on. -/
theorem ask_eq : ch.ask p m s =
    ((ch.exchange p (m.encode ++ "\n") s).1.bind (p.readReply m),
      (ch.exchange p (m.encode ++ "\n") s).2) := by
  cases m with
  | query q =>
    simp only [LineChannel.ask, LineChannel.query, LineChannel.call]
    cases hx : ch.exchange p ((Message.query q).encode ++ "\n") s with
    | mk x rest =>
      cases x with
      | error f => rfl
      | ok text =>
        cases hd : QueryAnswer.decode? text <;> simp [Except.bind, Peer.readReply, hd]
  | transaction t =>
    simp only [LineChannel.ask, LineChannel.submit, LineChannel.call]
    cases hx : ch.exchange p ((Message.transaction t).encode ++ "\n") s with
    | mk x rest =>
      cases x with
      | error f => rfl
      | ok text =>
        cases hd : SubmitAnswer.decode? text <;> simp [Except.bind, Peer.readReply, hd]

theorem newline_not_mem_encode (m : Message) : '\n' ∉ m.encode.toList :=
  newline_not_mem_print _

theorem settled_of_ask {traffic : σ → Nat → Traffic} (honest : p.AnswersInOrder traffic)
    (hs : ch.Settled traffic s) :
    (ch.ask p m s).2.1.Settled traffic (ch.ask p m s).2.2 := by
  rw [ask_eq]
  exact settled_of_exchange honest hs (newline_not_mem_encode m) rfl

theorem settled_of_after {traffic : σ → Nat → Traffic} (honest : p.AnswersInOrder traffic)
    {messages : List Message} (hs : ch.Settled traffic s) :
    (ch.after p s messages).1.Settled traffic (ch.after p s messages).2 := by
  induction messages generalizing ch s with
  | nil => exact hs
  | cons m rest ih => exact ih (settled_of_ask honest hs)

/-- Whatever calls were made over a line before: on the connection that is kept nothing is left to
be read and nothing is still to come, unless the node has closed it. A call that reads no line ends
with a fault and keeps no connection. The line that a call reads is the answer to its own frame, the
last one that the node has read on this connection, and the result is what this line says. -/
theorem replies_of_calls {traffic : σ → Nat → Traffic} (honest : p.AnswersInOrder traffic)
    {address : NodeAddress} {first : LineChannel}
    (h : LineChannel.connect p address s₁ = (.ok first, s)) (earlier : List Message) (m : Message) :
    let before := first.after p s earlier
    let read := before.1.exchange p (m.encode ++ "\n") before.2
    let call := before.1.ask p m before.2
    before.1.Settled traffic before.2 ∧ call.2.1.Settled traffic call.2.2 ∧
    (∀ f, read.1 = .error f → call.1 = .error f ∧ call.2.1.connection = none) ∧
    ∀ text, read.1 = .ok text → call.1 = p.readReply m text ∧
      ∃ c opened c' bytes, before.1.reopen p before.2 = (.ok c, opened) ∧
        call.2.1.connection = some c' ∧ c'.number = c.number ∧
        String.fromUTF8? ⟨bytes.toArray⟩ = some text ∧
        OwnAnswer (traffic opened c.number) (traffic call.2.2 c.number) m.encode bytes
          c'.closed := by
  intro before read call
  have hbefore : before.1.Settled traffic before.2 :=
    settled_of_after honest (settled_of_connect honest h)
  have hafter : call.2.1.Settled traffic call.2.2 := settled_of_ask honest hbefore
  have hcall : call = (read.1.bind (p.readReply m), read.2) := ask_eq
  have hread : before.1.exchange p (m.encode ++ "\n") before.2 = read := rfl
  clear_value call read
  obtain ⟨x, ch, next⟩ := read
  subst hcall
  refine ⟨hbefore, hafter, ?_, ?_⟩
  · rintro f rfl
    cases exchanged_of_exchange hread with
    | failed => exact ⟨rfl, rfl⟩
  · rintro text rfl
    cases exchanged_of_exchange hread with
    | read hc hsend hl hutf =>
      obtain ⟨own, hnumber, -, -⟩ :=
        ownAnswer_of_read honest hbefore (newline_not_mem_encode m) hc hsend hl
      exact ⟨rfl, _, _, _, _, hc, rfl, hnumber, hutf, own⟩

/-- A node that reads at once and answers with the lines it was given, of which only so many bytes
arrive in time. -/
structure LateNode where
  opened : Nat
  script : List (List UInt8 × Nat)
  traffic : Nat → Traffic

def LateNode.connect (s : LateNode) : Except ConnectFailure Nat × LateNode :=
  (.ok s.opened, ⟨s.opened + 1, s.script, Function.update s.traffic s.opened .none⟩)

/-- The answer to what is asked, if the line can be one. -/
def answerTo (asked : List String) (line : List UInt8) : List (List UInt8) :=
  if asked ≠ [] ∧ lineFeed ∉ line then [line] else []

def LateNode.respond (n : Nat) (text : String) (s : LateNode) : Arrival × LateNode :=
  let (line, timely) := s.script.head?.getD ([], 0)
  let t := s.traffic n
  let asked := t.asked ++ completeLines text
  let lines := t.lines ++ answerTo (completeLines text) line
  let bytes := ((delivery lines).drop t.sent.length).take timely
  (⟨bytes, s.script.isEmpty⟩, ⟨s.opened, s.script.tail,
    Function.update s.traffic n ⟨asked, asked, lines, t.sent ++ bytes⟩⟩)

def LateNode.peer : Peer LateNode :=
  ⟨LateNode.connect, LateNode.respond, fun _ _ => "unexpected"⟩

theorem length_answerTo (asked : List String) (answer : List UInt8) :
    (answerTo asked answer).length ≤ asked.length := by
  unfold answerTo
  split
  next h => exact List.length_pos_iff.mpr h.1
  next => exact Nat.zero_le _

theorem single_of_mem_answerTo {asked : List String} {answer : List UInt8}
    (h : bytes ∈ answerTo asked answer) : lineFeed ∉ bytes := by
  unfold answerTo at h
  split at h
  next hsingle =>
    obtain rfl := List.mem_singleton.mp h
    exact hsingle.2
  next => cases h

theorem append_take_drop_prefix {a b : List UInt8} (h : a <+: b) (n : Nat) :
    a ++ (b.drop a.length).take n <+: b := by
  obtain ⟨rest, rfl⟩ := h
  rw [List.drop_left]
  exact (List.prefix_append_right_inj _).mpr (List.take_prefix ..)

theorem LateNode.answersInOrder : LateNode.peer.AnswersInOrder LateNode.traffic where
  connect h := by
    cases h
    exact Function.update_self ..
  respond {n text s arrival s'} h ht := by
    cases h
    simp only [Function.update_self]
    refine ⟨rfl, ht.frames.trans (List.prefix_append ..), List.prefix_append .., rfl,
      List.prefix_refl _, ?_, ?_, append_take_drop_prefix ?_ _⟩
    · rw [List.length_append, List.length_append]
      exact Nat.add_le_add (Nat.le_trans ht.answers ht.frames.length_le) (length_answerTo ..)
    · intro line hline
      exact (List.mem_append.mp hline).elim (ht.single line) single_of_mem_answerTo
    · refine ht.sent.trans ?_
      rw [delivery, delivery, List.flatMap_append]
      exact List.prefix_append ..

theorem LateNode.exchange_eq {s : LateNode} {rest : List (List UInt8 × Nat)}
    (hc : ch.connection = none) (hf : '\n' ∉ frame.toList) (ht : '\n' ∉ text.toList)
    (hs : s.script = (utf8 text, (utf8 text).length + 1) :: rest) :
    (ch.exchange LateNode.peer (frame ++ "\n") s).1 = .ok (text ++ "\n") := by
  have hline : lineFeed ∉ utf8 text := lineFeed_not_mem_utf8 ht
  have hanswer : answerTo (completeLines (frame ++ "\n")) (utf8 text) = [utf8 text] :=
    if_pos ⟨by simp [completeLines_eq hf], hline⟩
  have hreopen : ch.reopen LateNode.peer s = (.ok ⟨s.opened, [], false⟩, s.connect.2) := by
    rw [LineChannel.reopen, hc]
    rfl
  have hbytes : ((⟨s.opened, [], false⟩ : Connection).send LateNode.peer (frame ++ "\n")
      s.connect.2).1.unread = utf8 text ++ lineFeed :: [] := by
    have htake : (utf8 text ++ [lineFeed]).take ((utf8 text).length + 1) =
        utf8 text ++ [lineFeed] :=
      List.take_of_length_le (by simp)
    simp [Connection.send, LateNode.peer, LateNode.respond, LateNode.connect, hs, hanswer,
      delivery, Traffic.none, htake]
  have hread := takeLine?_eq hline hbytes
  rw [LineChannel.exchange, hreopen]
  simp only [hread, ← utf8_line, fromUTF8?_utf8]

/-- The answer to the first call comes too late. The next call opens another connection and gets the
answer to its own frame. -/
theorem reply_after_late_answer :
    let busy := SubmitAnswer.encode (.ok ⟨.busy, 0⟩)
    let ok := SubmitAnswer.encode (.ok ⟨.ok, 0⟩)
    let start : LateNode :=
      ⟨0, [(utf8 busy, 0), (utf8 ok, (utf8 ok).length + 1)], fun _ => .none⟩
    let address : NodeAddress := ⟨.name "node", 3⟩
    let first : LineChannel := ⟨address, some ⟨0, [], false⟩⟩
    let opened : LateNode := ⟨1, start.script, Function.update start.traffic 0 .none⟩
    let m := Message.transaction ⟨⟨⟨0, 0, 2⟩, 7, 9⟩, ⟨0, 0, 3⟩, default⟩
    let late := first.ask LateNode.peer m opened
    LineChannel.connect LateNode.peer address start = (.ok first, opened) ∧
    late.1 = .error ⟨.deadlineExceeded, "call to " ++ address.text ++ " timed out"⟩ ∧
    (late.2.1.ask LateNode.peer m late.2.2).1 = .ok (.submit ⟨.ok, 0⟩) := by
  intro busy ok start address first opened m late
  have hconnect : LineChannel.connect LateNode.peer address start = (.ok first, opened) := rfl
  obtain ⟨-, -, -, hread⟩ := replies_of_calls LateNode.answersInOrder hconnect [m] m
  have hline : (late.2.1.exchange LateNode.peer (m.encode ++ "\n") late.2.2).1 = .ok (ok ++ "\n") :=
    LateNode.exchange_eq rfl (newline_not_mem_encode m) (newline_not_mem_print _) rfl
  obtain ⟨hreply, -⟩ := hread _ hline
  have hdecode : SubmitAnswer.decode? (ok ++ "\n") = some (.ok ⟨.ok, 0⟩) :=
    (SubmitAnswer.decode?_encode _).2
  refine ⟨hconnect, rfl, hreply.trans ?_⟩
  rw [Peer.readReply, hdecode]
  rfl

end LedgerClient
