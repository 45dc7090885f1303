import LedgerClient.Proofs.Attempt
import LedgerClient.Proofs.LineCalls
import LedgerClient.Rehearsal.Line

namespace LedgerClient

variable {σ : Type} {p : Peer σ} {s s' : σ} {ch : LineChannel} {c rest : Connection}
  {line text : String} {bytes more : List UInt8} {m : Message} {f : Fault}

/-- The connection of a call when all has arrived that arrives in time. -/
def LineChannel.awaited (p : Peer σ) (line : String) (ch : LineChannel) (s : σ) :
    Except Fault Connection × σ :=
  match ch.reopen p s with
  | (.error f, s) => (.error f, s)
  | (.ok c, s) =>
    let (c, s) := c.send p line s
    (.ok c, s)

/-- The valid replies to messages of a kind: records with one member, the answer or the failure of
the call. -/
inductive Message.IsReply (m : Message) (text : String) : Except Fault Answer → Prop
  | query {q : QueryMessage} {d : Document} {a : QueryAnswer} : m = .query q →
      Document.parse? text.toList = some (.record [(some "ok", d)]) →
      QueryAnswer.ofDocument? d = some a → m.IsReply text (.ok (.query a))
  | submit {t : TransactionMessage} {d : Document} {a : SubmitAnswer} : m = .transaction t →
      Document.parse? text.toList = some (.record [(some "ok", d)]) →
      SubmitAnswer.ofDocument? d = some a → m.IsReply text (.ok (.submit a))
  | failure {d : Document} {f : Fault} :
      Document.parse? text.toList = some (.record [(some "error", d)]) →
      Fault.ofDocument? d = some f → m.IsReply text (.error f)

/-- A result that bytes have by their content alone: the reply that they are, or the report that
they are none. -/
structure Message.Reads (m : Message) (bytes : List UInt8) (result : Except Fault Answer) :
    Prop where
  reply : ∀ text reply, bytes = utf8 text → m.IsReply text reply → result = reply
  malformed : (∀ text reply, bytes = utf8 text → ¬ m.IsReply text reply) →
    ∃ f, result = .error f ∧ f.code = .internal

/-- Executions in which a call fails in this way go on to the next attempt. -/
structure Fault.IsRetried (f : Fault) : Prop where
  transient : f.isTransient = true
  next : ∀ {τ α : Type} {c : Client} {w : World τ} {op : Operation α} {policy : Policy}
    {left made : Nat} {last : DispatchError} {p q : Progress τ} {node : Node} {m : Message},
    p.afresh.contact w (made + 1) = (.unanswered node m f, q) →
    c.attempts w op policy (left + 1) made last p =
      c.attempts w op policy left (made + 1) (.fault f) (p.andThen q)

/-- A call that gave its connection up as broken. -/
structure BrokenConnection (call : Except Fault Answer × LineChannel × σ) : Prop where
  fault : ∃ f, call.1 = .error f ∧ f.code = .unavailable ∧ f.IsRetried
  dropped : call.2.1.connection = none

theorem isRetried_of_unavailable (h : f.code = .unavailable) : f.IsRetried := by
  have ht : f.isTransient = true := by rw [Fault.isTransient, h]
  refine ⟨ht, fun hcontact => ?_⟩
  simp only [Client.attempts, Client.attempt, hcontact, ht, if_true]

theorem Document.parse?_newline {text : List Char} :
    Document.parse? (text ++ ['\n']) = Document.parse? text := by
  rw [Document.parse?, tokens?_newline, Document.parse?]

/-- The end of the line is no part of the content. -/
theorem isReply_newline {reply : Except Fault Answer} :
    m.IsReply (text ++ "\n") reply ↔ m.IsReply text reply := by
  have hparse : Document.parse? (text ++ "\n").toList = Document.parse? text.toList := by
    rw [String.toList_append]
    exact Document.parse?_newline
  constructor
  · intro h
    cases h with
    | query hm hd ha => exact .query hm (hparse ▸ hd) ha
    | submit hm hd ha => exact .submit hm (hparse ▸ hd) ha
    | failure hd hf => exact .failure (hparse ▸ hd) hf
  · intro h
    cases h with
    | query hm hd ha => exact .query hm (hparse.trans hd) ha
    | submit hm hd ha => exact .submit hm (hparse.trans hd) ha
    | failure hd hf => exact .failure (hparse.trans hd) hf

theorem reply_of_decode {α : Type} {answer : Document → Option α} {reply : Except Fault α}
    (h : (Document.parse? text.toList).bind (ofReplyFrame? answer) = some reply) :
    (∃ d a, Document.parse? text.toList = some (.record [(some "ok", d)]) ∧
      answer d = some a ∧ reply = .ok a) ∨
    ∃ d f, Document.parse? text.toList = some (.record [(some "error", d)]) ∧
      Fault.ofDocument? d = some f ∧ reply = .error f := by
  obtain ⟨frame, hparse, hframe⟩ := Option.bind_eq_some_iff.mp h
  rw [hparse]
  unfold ofReplyFrame? at hframe
  split at hframe
  next d =>
    obtain ⟨a, ha, rfl⟩ := Option.map_eq_some_iff.mp hframe
    exact .inl ⟨d, a, rfl, ha, rfl⟩
  next d =>
    obtain ⟨f, hf, rfl⟩ := Option.map_eq_some_iff.mp hframe
    exact .inr ⟨d, f, rfl, hf, rfl⟩
  next => cases hframe

theorem readReply_of_isReply {reply : Except Fault Answer} (h : m.IsReply text reply) :
    p.readReply m text = reply := by
  cases h with
  | query hm hd ha =>
    subst hm
    simp [Peer.readReply, QueryAnswer.decode?, hd, ofReplyFrame?, ha, Except.map]
  | submit hm hd ha =>
    subst hm
    simp [Peer.readReply, SubmitAnswer.decode?, hd, ofReplyFrame?, ha, Except.map]
  | failure hd hf =>
    cases m <;>
      simp [Peer.readReply, QueryAnswer.decode?, SubmitAnswer.decode?, hd, ofReplyFrame?, hf,
        Except.map]

theorem isReply_or_malformed :
    m.IsReply text (p.readReply m text) ∨
      ∃ f, p.readReply m text = .error f ∧ f.code = .internal := by
  cases m with
  | query q =>
    unfold Peer.readReply
    cases hx : QueryAnswer.decode? text with
    | none => exact .inr ⟨_, rfl, rfl⟩
    | some x =>
      rcases reply_of_decode hx with ⟨d, a, hd, ha, rfl⟩ | ⟨d, f, hd, hf, rfl⟩
      · exact .inl (.query rfl hd ha)
      · exact .inl (.failure hd hf)
  | transaction t =>
    unfold Peer.readReply
    cases hx : SubmitAnswer.decode? text with
    | none => exact .inr ⟨_, rfl, rfl⟩
    | some x =>
      rcases reply_of_decode hx with ⟨d, a, hd, ha, rfl⟩ | ⟨d, f, hd, hf, rfl⟩
      · exact .inl (.submit rfl hd ha)
      · exact .inl (.failure hd hf)

/-- Texts that are the same replies are read alike. -/
theorem reads_readReply {read : String} (h : ∀ reply, m.IsReply read reply ↔ m.IsReply text reply) :
    m.Reads (utf8 text) (p.readReply m read) where
  reply other reply hbytes hr := by
    obtain rfl := utf8_injective hbytes
    exact readReply_of_isReply ((h reply).mpr hr)
  malformed hno := isReply_or_malformed.resolve_left fun hr => hno text _ rfl ((h _).mp hr)

theorem takeLine?_cut_off (hclosed : c.closed = true) (hn : lineFeed ∉ c.unread)
    (hne : c.unread ≠ []) : c.takeLine? = some (c.unread, { c with unread := [] }) := by
  have hwhole : c.unread.takeWhile (· != lineFeed) = c.unread :=
    List.takeWhile_eq_self_iff.mpr (bne_lineFeed hn)
  simp [Connection.takeLine?, hwhole, hclosed, hne]

theorem takeLine?_nil (h : c.unread = []) : c.takeLine? = none := by
  simp [Connection.takeLine?, h]

section awaited

variable (h : ch.awaited p line s = (.ok c, s'))

include h

theorem sent_of_awaited :
    ∃ opened s₁, ch.reopen p s = (.ok opened, s₁) ∧ opened.send p line s₁ = (c, s') := by
  unfold LineChannel.awaited at h
  split at h
  next => cases h
  next opened s₁ hopened =>
    refine ⟨opened, s₁, hopened, ?_⟩
    obtain ⟨hc, hs⟩ := Prod.mk.inj h
    exact Prod.ext (Except.ok.inj hc) hs

theorem exchange_of_text (hl : c.takeLine? = some (utf8 text, rest)) :
    ch.exchange p line s = (.ok text, { ch with connection := some rest }, s') := by
  obtain ⟨opened, s₁, hopened, hsend⟩ := sent_of_awaited h
  simp only [LineChannel.exchange, hopened, hsend, hl, fromUTF8?_utf8]

theorem exchange_of_no_text (hl : c.takeLine? = some (bytes, rest))
    (hno : ∀ text, bytes ≠ utf8 text) : ch.exchange p line s =
      (.error ⟨.unavailable, "stream did not contain valid UTF-8"⟩,
        { ch with connection := none }, s') := by
  obtain ⟨opened, s₁, hopened, hsend⟩ := sent_of_awaited h
  simp only [LineChannel.exchange, hopened, hsend, hl, fromUTF8?_eq_none hno]

theorem exchange_of_nothing (hl : c.unread = []) (hclosed : c.closed = true) :
    ch.exchange p line s =
      (.error ⟨.unavailable, "connection closed by node"⟩, { ch with connection := none }, s') := by
  obtain ⟨opened, s₁, hopened, hsend⟩ := sent_of_awaited h
  simp only [LineChannel.exchange, hopened, hsend, takeLine?_nil hl, hclosed, if_true]

/-- What is read as a reply is a line with its end, or the last bytes before the node closed the
connection. -/
theorem bytes_of_exchange (hx : (ch.exchange p line s).1 = .ok text) :
    (∃ bytes more, lineFeed ∉ bytes ∧ c.unread = bytes ++ lineFeed :: more ∧
      utf8 text = bytes ++ [lineFeed]) ∨
    c.closed = true ∧ lineFeed ∉ c.unread ∧ c.unread ≠ [] ∧ utf8 text = c.unread := by
  obtain ⟨opened, s₁, hopened, hsend⟩ := sent_of_awaited h
  rcases hread : ch.exchange p line s with ⟨x, after, t⟩
  rw [hread] at hx
  obtain rfl : x = .ok text := hx
  cases exchanged_of_exchange hread with
  | read hreopen hsent hl hutf =>
    cases hopened.symm.trans hreopen
    cases hsend.symm.trans hsent
    have hbytes := fromUTF8?_eq_some hutf
    by_cases hmem : lineFeed ∈ c.unread
    · obtain ⟨line, more, hunread, hline⟩ := List.eq_append_cons_of_mem hmem
      cases (takeLine?_eq hline hunread).symm.trans hl
      exact .inl ⟨line, more, hline, hunread, hbytes.symm⟩
    · obtain ⟨hclosed, rfl, -⟩ := takeLine?_of_not_mem hmem hl
      exact .inr ⟨hclosed, hmem, (number_of_takeLine? hl).2.2, hbytes.symm⟩

end awaited

section ask

variable (h : ch.awaited p (m.encode ++ "\n") s = (.ok c, s'))

include h

theorem ask_of_text (hl : c.takeLine? = some (utf8 text, rest)) :
    ch.ask p m s = (p.readReply m text, { ch with connection := some rest }, s') := by
  rw [ask_eq, exchange_of_text h hl]
  rfl

theorem ask_of_no_text (hl : c.takeLine? = some (bytes, rest)) (hno : ∀ text, bytes ≠ utf8 text) :
    ch.ask p m s = (.error ⟨.unavailable, "stream did not contain valid UTF-8"⟩,
      { ch with connection := none }, s') := by
  rw [ask_eq, exchange_of_no_text h hl hno]
  rfl

theorem ask_of_nothing (hl : c.unread = []) (hclosed : c.closed = true) :
    ch.ask p m s = (.error ⟨.unavailable, "connection closed by node"⟩,
      { ch with connection := none }, s') := by
  rw [ask_eq, exchange_of_nothing h hl hclosed]
  rfl

end ask

theorem broken_of_unavailable {call : Except Fault Answer × LineChannel × σ} {reason : String}
    (h : call = (.error ⟨.unavailable, reason⟩, { ch with connection := none }, s')) :
    BrokenConnection call := by
  subst h
  exact ⟨⟨_, rfl, rfl, isRetried_of_unavailable rfl⟩, rfl⟩

/-- A channel with a connection of its own. -/
def rehearsedChannel : LineChannel :=
  ⟨⟨.name "node", 3⟩, some ⟨0, [], false⟩⟩

def rehearsedMessage : Message :=
  .transaction ⟨⟨⟨0, 0, 2⟩, 7, 9⟩, ⟨0, 0, 3⟩, default⟩

/-- A node that answers the first line with these bytes. -/
def rehearsedNode (arrival : Arrival) : LineScript :=
  ⟨true, [[arrival]], 1, []⟩

def rehearsedCall (arrival : Arrival) : Except Fault Answer × LineChannel × LineScript :=
  rehearsedChannel.ask LineScript.peer rehearsedMessage (rehearsedNode arrival)

theorem awaited_rehearsed (arrival : Arrival) :
    rehearsedChannel.awaited LineScript.peer line (rehearsedNode arrival) =
      (.ok ⟨0, arrival.bytes, arrival.closed⟩, ⟨true, [[]], 1, [(0, line)]⟩) :=
  rfl

theorem isReply_busy :
    rehearsedMessage.IsReply (SubmitAnswer.encode (.ok ⟨.busy, 0⟩)) (.ok (.submit ⟨.busy, 0⟩)) := by
  have hdecode := (SubmitAnswer.decode?_encode (.ok ⟨.busy, 0⟩)).1
  rcases reply_of_decode hdecode with ⟨d, a, hd, ha, heq⟩ | ⟨d, f, hd, hf, heq⟩
  · cases heq
    exact .submit rfl hd ha
  · cases heq

/-- A call on a connection that the node closes. Only a line with its end is read as a reply, or the
bytes without an end before the node closed the connection. Where no line has its end, the
connection counts as broken exactly if nothing is there or what is there is no text; any other rest
of a line is read like a line, and the connection is kept. -/
theorem call_of_cut_off (h : ch.awaited p (m.encode ++ "\n") s = (.ok c, s')) :
    let call := ch.ask p m s
    (∀ text, (ch.exchange p (m.encode ++ "\n") s).1 = .ok text →
      (∃ bytes more, lineFeed ∉ bytes ∧ c.unread = bytes ++ lineFeed :: more ∧
        utf8 text = bytes ++ [lineFeed]) ∨
      c.closed = true ∧ lineFeed ∉ c.unread ∧ c.unread ≠ [] ∧ utf8 text = c.unread) ∧
    (c.closed = true → lineFeed ∉ c.unread →
      (BrokenConnection call ↔ c.unread = [] ∨ ∀ text, c.unread ≠ utf8 text) ∧
      (¬ BrokenConnection call → m.Reads c.unread call.1 ∧
        ∀ t, call.2.1.reopen p t = (.ok { c with unread := [] }, t))) := by
  intro call
  refine ⟨fun text => bytes_of_exchange h, fun hclosed hn => ?_⟩
  by_cases hnil : c.unread = []
  · have hbroken : BrokenConnection call := broken_of_unavailable (ask_of_nothing h hnil hclosed)
    exact ⟨iff_of_true hbroken (.inl hnil), fun hnot => absurd hbroken hnot⟩
  have hl := takeLine?_cut_off hclosed hn hnil
  by_cases hno : ∀ text, c.unread ≠ utf8 text
  · have hbroken : BrokenConnection call := broken_of_unavailable (ask_of_no_text h hl hno)
    exact ⟨iff_of_true hbroken (.inr hno), fun hnot => absurd hbroken hnot⟩
  · obtain ⟨text, htext⟩ := Classical.not_forall_not.mp hno
    rw [htext] at hl
    have hcall : call = (p.readReply m text, { ch with connection := some _ }, s') :=
      ask_of_text h hl
    refine ⟨iff_of_false (fun hbroken => ?_) (not_or.mpr ⟨hnil, hno⟩), fun _ => ?_⟩
    · have hdropped := hbroken.dropped
      rw [hcall] at hdropped
      cases hdropped
    · rw [hcall, htext]
      exact ⟨reads_readReply fun _ => Iff.rfl, fun _ => rfl⟩

/-- An answer that is cut off just before the end of its line is taken, and the connection with
it. -/
theorem busy_of_cut_off :
    let arrival : Arrival := ⟨utf8 (SubmitAnswer.encode (.ok ⟨.busy, 0⟩)), true⟩
    lineFeed ∉ arrival.bytes ∧ (rehearsedCall arrival).1 = .ok (.submit ⟨.busy, 0⟩) ∧
      (rehearsedCall arrival).2.1.reopen LineScript.peer (rehearsedNode arrival) =
        (.ok ⟨0, [], true⟩, rehearsedNode arrival) := by
  intro arrival
  have hn : lineFeed ∉ arrival.bytes := lineFeed_not_mem_utf8 (newline_not_mem_print _)
  obtain ⟨-, hcut⟩ := call_of_cut_off (m := rehearsedMessage) (awaited_rehearsed arrival)
  obtain ⟨hbroken, hread⟩ := hcut rfl hn
  have hne : arrival.bytes ≠ [] := by decide +kernel
  have hnot : ¬ BrokenConnection (rehearsedCall arrival) := fun hb =>
    (hbroken.mp hb).elim hne fun hno => hno _ rfl
  obtain ⟨hreads, hkept⟩ := hread hnot
  exact ⟨hn, hreads.reply _ _ rfl isReply_busy, hkept _⟩

/-- An answer that is cut off in the middle is reported as malformed, and the connection kept. -/
theorem internal_of_cut_off :
    let arrival : Arrival := ⟨utf8 "\x7b\"ok\":\x7b\"precheck\":\"OK\"", true⟩
    lineFeed ∉ arrival.bytes ∧
      (∃ f, (rehearsedCall arrival).1 = .error f ∧ f.code = .internal) ∧
      (rehearsedCall arrival).2.1.connection = some ⟨0, [], true⟩ := by
  intro arrival
  have hn : lineFeed ∉ arrival.bytes := lineFeed_not_mem_utf8 (by decide)
  have hl := takeLine?_cut_off (c := ⟨0, arrival.bytes, true⟩) rfl hn (by decide +kernel)
  have hcall : rehearsedCall arrival = _ := ask_of_text (awaited_rehearsed arrival) hl
  rw [hcall]
  exact ⟨hn, ⟨_, rfl, rfl⟩, rfl⟩

/-- A call that is answered with a line. Whatever follows, the result is decided by the content of
the line alone and the next call uses the same connection, exactly if the line is a text. Otherwise
the call fails as on a broken connection, and the next call opens another. -/
theorem call_of_line (h : ch.awaited p (m.encode ++ "\n") s = (.ok c, s'))
    (hline : lineFeed ∉ bytes) (hunread : c.unread = bytes ++ lineFeed :: more) :
    let call := ch.ask p m s
    ((m.Reads bytes call.1 ∧ ∀ t, call.2.1.reopen p t = (.ok { c with unread := more }, t)) ↔
      ∃ text, bytes = utf8 text) ∧
    ((∀ text, bytes ≠ utf8 text) →
      call.1 = .error ⟨.unavailable, "stream did not contain valid UTF-8"⟩ ∧
      ∀ t, call.2.1.reopen p t = LineChannel.openConnection p ch.address t) := by
  intro call
  have hl := takeLine?_eq hline hunread
  by_cases htext : ∃ text, bytes = utf8 text
  · obtain ⟨text, rfl⟩ := htext
    rw [← utf8_line] at hl
    have hcall : call = (p.readReply m (text ++ "\n"), { ch with connection := some _ }, s') :=
      ask_of_text h hl
    refine ⟨iff_of_true ?_ ⟨text, rfl⟩, fun hno => absurd rfl (hno text)⟩
    rw [hcall]
    exact ⟨reads_readReply fun _ => isReply_newline, fun _ => rfl⟩
  · have hno : ∀ text, bytes ++ [lineFeed] ≠ utf8 text := by
      intro text heq
      obtain ⟨before, hbefore⟩ := utf8_of_line heq
      exact htext ⟨before, hbefore⟩
    have hcall : call = _ := ask_of_no_text h hl hno
    have hnone : ∀ text reply, bytes = utf8 text → ¬ m.IsReply text reply :=
      fun text _ heq => absurd ⟨text, heq⟩ htext
    rw [hcall]
    refine ⟨iff_of_false (fun hread => ?_) htext, fun _ => ⟨rfl, fun _ => rfl⟩⟩
    obtain ⟨f, hf, hcode⟩ := hread.1.malformed hnone
    cases hf
    cases hcode

/-- An answer in a line of its own is taken, and the connection stays open. -/
theorem busy_of_line :
    let arrival : Arrival := ⟨utf8 (SubmitAnswer.encode (.ok ⟨.busy, 0⟩)) ++ [lineFeed], false⟩
    (rehearsedCall arrival).1 = .ok (.submit ⟨.busy, 0⟩) ∧
      (rehearsedCall arrival).2.1.reopen LineScript.peer (rehearsedNode arrival) =
        (.ok ⟨0, [], false⟩, rehearsedNode arrival) := by
  intro arrival
  obtain ⟨hread, -⟩ := call_of_line (m := rehearsedMessage) (awaited_rehearsed arrival)
    (lineFeed_not_mem_utf8 (newline_not_mem_print _)) rfl
  obtain ⟨hreads, hkept⟩ := hread.mpr ⟨_, rfl⟩
  exact ⟨hreads.reply _ _ rfl isReply_busy, hkept _⟩

/-- A complete line of a byte that is no text costs the connection. -/
theorem unavailable_of_line :
    let arrival : Arrival := ⟨[0xFF, lineFeed], false⟩
    (∀ text, [0xFF] ≠ utf8 text) ∧
      (rehearsedCall arrival).1 =
        .error ⟨.unavailable, "stream did not contain valid UTF-8"⟩ ∧
      (rehearsedCall arrival).2.1.connection = none := by
  intro arrival
  have hno : ∀ text, [0xFF] ≠ utf8 text := by
    intro text heq
    have hnone : String.fromUTF8? ⟨[0xFF].toArray⟩ = none := by decide +kernel
    rw [heq, fromUTF8?_utf8] at hnone
    cases hnone
  have hline : ∀ text, [0xFF] ++ [lineFeed] ≠ utf8 text := by
    intro text heq
    obtain ⟨before, hbefore⟩ := utf8_of_line heq
    exact hno before hbefore
  have hcall : rehearsedCall arrival = _ := ask_of_no_text (awaited_rehearsed arrival) rfl hline
  rw [hcall]
  exact ⟨hno, rfl, rfl⟩

end LedgerClient
