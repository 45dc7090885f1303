import LedgerClient.Frame.Reply
import LedgerClient.Proofs.Documents
import LedgerClient.Proofs.Lines

namespace LedgerClient

variable {c : Char} {text : List Char} {members : List (String × Json)} {name : String}

theorem trim_of_not_blank (h : ∀ c ∈ text, isBlank c = false) : trim text = text := by
  have keep : ∀ {text : List Char}, (∀ c ∈ text, isBlank c = false) →
      text.dropWhile isBlank = text := by
    intro text h
    cases text with
    | nil => rfl
    | cons c text => simp [h c (by simp)]
  rw [trim, dropTail, keep h, keep (by simpa using h), List.reverse_reverse]

theorem isBlank_of_isDigit (h : c.isDigit = true) : isBlank c = false := by
  have hdigits : ['0', '1', '2', '3', '4', '5', '6', '7', '8', '9'].all (!isBlank ·) = true := by
    decide
  simpa using List.all_eq_true.mp hdigits c (mem_digits h)

theorem readPart?_decimal (n : UInt64) : AccountId.readPart? (decimal n.toNat) = some n := by
  have hread : readBelow? UInt64.size (decimal n.toNat) = some n.toNat := by
    unfold readBelow?
    split
    next rest hplus =>
      have hdigit : Char.isDigit '+' = true :=
        isDigit_of_mem_decimal (n := n.toNat) (by simp [hplus])
      cases hdigit
    next =>
      have hn : n.toNat < UInt64.size := n.toNat_lt
      simp only [readDecimal?_decimal, Option.filter_some, hn, decide_true, if_true]
  rw [AccountId.readPart?, hread, Option.map_some, UInt64.ofNat_toNat]

theorem AccountId.parse_text (a : AccountId) : AccountId.parse a.text = .ok a := by
  have hmem : ∀ {n : Nat} {c : Char}, c ∈ decimal n → isBlank c = false ∧ c ≠ '.' := by
    intro n c hc
    have hdigit := isDigit_of_mem_decimal hc
    refine ⟨isBlank_of_isDigit hdigit, fun hdot => ?_⟩
    rw [hdot] at hdigit
    cases hdigit
  have htrim : trim a.chars = a.chars := by
    refine trim_of_not_blank fun c hc => ?_
    simp only [AccountId.chars, List.mem_append, List.mem_cons] at hc
    rcases hc with hc | rfl | hc | rfl | hc
    · exact (hmem hc).1
    · rfl
    · exact (hmem hc).1
    · rfl
    · exact (hmem hc).1
  have hparts : a.chars = ['.'].intercalate
      [decimal a.shard.toNat, decimal a.realm.toNat, decimal a.num.toNat] := by
    simp [AccountId.chars, List.intercalate, List.intersperse]
  have hsplit : a.chars.splitOn '.' =
      [decimal a.shard.toNat, decimal a.realm.toNat, decimal a.num.toNat] := by
    rw [hparts]
    refine List.splitOn_intercalate '.' (fun part hpart hdot => ?_) (by simp)
    simp only [List.mem_cons, List.not_mem_nil, or_false] at hpart
    rcases hpart with rfl | rfl | rfl <;> exact (hmem hdot).2 rfl
  unfold AccountId.parse
  rw [AccountId.text, String.toList_ofList, htrim, hsplit]
  simp only [readPart?_decimal]
  rfl

theorem memberDocuments_eq_map :
    Json.memberDocuments members = members.map fun m => (some m.1, m.2.document) := by
  induction members with
  | nil => rw [Json.memberDocuments, List.map_nil]
  | cons m rest ih => rw [Json.memberDocuments, ih, List.map_cons]

/-- The members of one name, where no name is given twice. -/
theorem filter_memberDocuments (h : (members.map Prod.fst).Nodup) :
    (Json.memberDocuments members).filter (fun m => m.1 == some name) =
      ((members.lookup name).map fun j => (some name, j.document)).toList := by
  rw [memberDocuments_eq_map]
  induction members with
  | nil => rfl
  | cons m rest ih =>
    obtain ⟨k, j⟩ := m
    obtain ⟨hk, hrest⟩ := List.nodup_cons.mp h
    by_cases hname : k = name
    · subst hname
      have hnone : rest.lookup k = none := List.lookup_eq_none_iff.mpr fun m hm =>
        bne_iff_ne.mpr fun heq => hk (List.mem_map.mpr ⟨m, hm, heq.symm⟩)
      simp [ih hrest, hnone]
    · have hbeq : (name == k) = false := beq_false_of_ne (Ne.symm hname)
      simp [List.lookup_cons, ih hrest, hbeq, hname]

/-- A record that was written gives its fields, and nothing for other names. -/
theorem Json.fields?_document (names : List String) (h : (members.map Prod.fst).Nodup) :
    (Json.record members).document.fields? names false =
      some (names.map fun name => (members.lookup name).map Json.document) := by
  have hnamed : (Json.memberDocuments members).all (fun m => m.1.isSome) = true := by
    simp [memberDocuments_eq_map]
  rw [Json.document, Document.fields?, if_pos hnamed]
  induction names with
  | nil => rfl
  | cons name names ih =>
    rw [List.mapM_cons, ih, filter_memberDocuments h, List.map_cons]
    cases members.lookup name <;> rfl

theorem AccountId.ofDocument?_json (a : AccountId) :
    AccountId.ofDocument? a.json.document = some a := by
  rw [AccountId.json, Json.document, AccountId.ofDocument?, Document.text?, Option.bind_some,
    a.parse_text]
  rfl

theorem uint64?_natural (n : UInt64) : (Json.natural n).document.uint64? = some n := by
  rw [Json.natural, Json.document, Document.uint64?]

theorem uint32?_natural (n : UInt32) : (Json.natural n.toUInt64).document.uint32? = some n := by
  have hn : n.toUInt64.toNat < UInt32.size := n.toNat_lt
  rw [Document.uint32?, uint64?_natural, Option.bind_some, if_pos hn]
  simp

theorem TransactionId.ofDocument?_json (t : TransactionId) :
    TransactionId.ofDocument? t.json.document = some t := by
  rw [TransactionId.ofDocument?, TransactionId.json, Json.fields?_document _ (by simp)]
  simp [List.lookup_cons, AccountId.ofDocument?_json, uint64?_natural, uint32?_natural]

theorem Precheck.ofDocument?_json (p : Precheck) :
    Precheck.ofDocument? p.json.document = some p := by
  rw [Precheck.json, Json.document]
  cases p <;> rfl

theorem Fault.ofDocument?_json (f : Fault) : Fault.ofDocument? f.json.document = some f := by
  have hcode : FaultCode.ofName? f.code.name = some f.code := by
    cases f.code <;> rfl
  rw [Fault.ofDocument?, Fault.json, Json.fields?_document _ (by simp)]
  simp [List.lookup_cons, Json.document, Document.tag?, Document.text?, hcode]

theorem TransactionId.nullable?_document (t : TransactionId) :
    Document.nullable? TransactionId.ofDocument? t.json.document = some (some t) := by
  have ht := t.ofDocument?_json
  rw [TransactionId.json, Json.document] at ht ⊢
  rw [Document.nullable?, ht, Option.map_some]
  simp

theorem QueryMessage.ofDocument?_json (m : QueryMessage) (h : m.body.json.depth ≤ bodyRoom) :
    QueryMessage.ofDocument? m.json.document = some m := by
  obtain ⟨node, payment, body⟩ := m
  have hbody : Body.read? bodyRoom body.json.document = some body := Body.read?_document h
  rw [QueryMessage.ofDocument?, QueryMessage.json, Json.fields?_document _ (by simp)]
  cases payment with
  | none =>
    simp [List.lookup_cons, Json.fields?_document, AccountId.ofDocument?_json, fieldOr, hbody]
  | some id =>
    simp [List.lookup_cons, Json.fields?_document, AccountId.ofDocument?_json, fieldOr,
      id.nullable?_document, hbody]

theorem TransactionMessage.ofDocument?_json (m : TransactionMessage)
    (h : m.body.json.depth ≤ bodyRoom) :
    TransactionMessage.ofDocument? m.json.document = some m := by
  rw [TransactionMessage.ofDocument?, TransactionMessage.json, Json.fields?_document _ (by simp)]
  simp [List.lookup_cons, TransactionId.ofDocument?_json, AccountId.ofDocument?_json,
    Body.read?_document h]

/-- The opaque part of a message. -/
def Message.body : Message → Body
  | .query m => m.body
  | .transaction m => m.body

/-- The method comes first in a frame, so that nothing is asked of the payload before. -/
theorem Message.ofFrame?_record {method payload : Document} :
    Message.ofFrame? (.record [(some "method", method), (some "payload", payload)]) =
      method.tag?.bind fun name => Message.ofPayload? name payload :=
  rfl

theorem Message.ofFrame?_document (m : Message) (h : m.body.json.depth ≤ bodyRoom) :
    Message.ofFrame? m.frame.document = some m := by
  have hframe : m.frame.document =
      .record [(some "method", .text (some m.method)), (some "payload", m.payload.document)] := by
    simp [Message.frame, Json.document, Json.memberDocuments]
  rw [hframe, Message.ofFrame?_record]
  cases m with
  | query m =>
    have hm := m.ofDocument?_json h
    simp [Message.method, Message.payload, Document.tag?, Message.ofPayload?, hm]
  | transaction m =>
    have hm := m.ofDocument?_json h
    simp [Message.method, Message.payload, Document.tag?, Message.ofPayload?, hm]

theorem QueryAnswer.ofDocument?_json (a : QueryAnswer) (h : a.body.json.depth ≤ bodyRoom) :
    QueryAnswer.ofDocument? a.json.document = some a := by
  rw [QueryAnswer.ofDocument?, QueryAnswer.json, Json.fields?_document _ (by simp)]
  simp [List.lookup_cons, Precheck.ofDocument?_json, fieldOr, uint64?_natural,
    Body.read?_document h]

theorem SubmitAnswer.ofDocument?_json (a : SubmitAnswer) :
    SubmitAnswer.ofDocument? a.json.document = some a := by
  rw [SubmitAnswer.ofDocument?, SubmitAnswer.json, Json.fields?_document _ (by simp)]
  simp [List.lookup_cons, Precheck.ofDocument?_json, fieldOr, uint64?_natural]

theorem ofReplyFrame?_document {α : Type} {json : α → Json} {read : Document → Option α}
    (reply : Except Fault α) (h : ∀ a, reply = .ok a → read (json a).document = some a) :
    ofReplyFrame? read (replyFrame json reply).document = some reply := by
  cases reply with
  | ok a => simp [replyFrame, Json.document, Json.memberDocuments, ofReplyFrame?, h a rfl]
  | error f =>
    simp [replyFrame, Json.document, Json.memberDocuments, ofReplyFrame?, Fault.ofDocument?_json]

theorem AccountId.isExact_json (a : AccountId) : a.json.IsExact ∧ a.json.depth = 0 := by
  rw [AccountId.json, Json.IsExact, Json.depth]
  exact ⟨trivial, rfl⟩

theorem TransactionId.isExact_json (t : TransactionId) : t.json.IsExact ∧ t.json.depth = 1 := by
  simp [TransactionId.json, Json.IsExact, Json.MembersExact, Json.depth, Json.membersDepth,
    Json.natural, Number.isExact, AccountId.isExact_json]

theorem Message.isExact_frame (m : Message) (h : m.body.json.IsExact) : m.frame.IsExact := by
  cases m with
  | query m =>
    obtain ⟨node, payment, body⟩ := m
    have hbody : body.json.IsExact := h
    cases payment <;> simp [Message.frame, Message.payload, QueryMessage.json, Json.IsExact,
      Json.MembersExact, AccountId.isExact_json, TransactionId.isExact_json, hbody]
  | transaction m =>
    have hbody : m.body.json.IsExact := h
    simp [Message.frame, Message.payload, TransactionMessage.json, Json.IsExact, Json.MembersExact,
      AccountId.isExact_json, TransactionId.isExact_json, hbody]

/-- Two containers lie around the body of a message; around its ids there are three at most. -/
theorem Message.depth_frame_le_iff (m : Message) :
    m.frame.depth ≤ nestingLimit ↔ m.body.json.depth ≤ bodyRoom := by
  have hdepth : ∃ ids ≤ 2, m.frame.depth = max ids m.body.json.depth + 2 := by
    cases m with
    | query m =>
      obtain ⟨node, payment, body⟩ := m
      cases payment with
      | none => exact ⟨1, by omega, by simp [Message.frame, Message.payload, QueryMessage.json,
          Json.depth, Json.membersDepth, AccountId.isExact_json, Message.body]⟩
      | some id => exact ⟨2, by omega, by simp [Message.frame, Message.payload, QueryMessage.json,
          Json.depth, Json.membersDepth, AccountId.isExact_json, TransactionId.isExact_json,
          Message.body]⟩
    | transaction m => exact ⟨1, by omega, by simp [Message.frame, Message.payload,
        TransactionMessage.json, Json.depth, Json.membersDepth, AccountId.isExact_json,
        TransactionId.isExact_json, Message.body]⟩
  obtain ⟨ids, hids, heq⟩ := hdepth
  rw [heq]
  simp only [nestingLimit, bodyRoom]
  omega

theorem QueryAnswer.isExact_json (a : QueryAnswer) (h : a.body.json.IsExact) : a.json.IsExact := by
  simp [QueryAnswer.json, Precheck.json, Json.natural, Json.IsExact, Json.MembersExact,
    Number.isExact, h]

theorem SubmitAnswer.isExact_json (a : SubmitAnswer) : a.json.IsExact := by
  simp [SubmitAnswer.json, Precheck.json, Json.natural, Json.IsExact, Json.MembersExact,
    Number.isExact]

theorem isExact_replyFrame {α : Type} {json : α → Json} (reply : Except Fault α)
    (h : ∀ a, reply = .ok a → (json a).IsExact) : (replyFrame json reply).IsExact := by
  cases reply with
  | ok a => simp [replyFrame, Json.IsExact, Json.MembersExact, h a rfl]
  | error f => simp [replyFrame, Fault.json, Json.IsExact, Json.MembersExact]

theorem QueryAnswer.depth_replyFrame_le_iff (a : QueryAnswer) :
    (replyFrame QueryAnswer.json (.ok a)).depth ≤ nestingLimit ↔ a.body.json.depth ≤ bodyRoom := by
  have hdepth : (replyFrame QueryAnswer.json (.ok a)).depth = a.body.json.depth + 2 := by
    simp [replyFrame, QueryAnswer.json, Precheck.json, Json.natural, Json.depth, Json.membersDepth]
  rw [hdepth]
  simp only [nestingLimit, bodyRoom]
  omega

theorem parse?_print {j : Json} (h : j.IsExact) :
    Document.parse? j.print.toList = some j.document ∧
      Document.parse? (j.print ++ "\n").toList = some j.document := by
  have hline : (j.print ++ "\n").toList = j.chars ++ ['\n'] := by simp [Json.print]
  rw [hline, Json.print, String.toList_ofList]
  exact Document.parse?_chars h

theorem newline_not_mem_print (j : Json) : '\n' ∉ j.print.toList := by
  rw [Json.print, String.toList_ofList]
  exact j.newline_not_mem

theorem Message.decode?_encode (m : Message) (h : m.body.json.IsExact)
    (hd : m.body.json.depth ≤ bodyRoom) : Message.decode? m.encode = some m ∧
      Message.decode? (m.encode ++ "\n") = some m := by
  obtain ⟨htext, hline⟩ := parse?_print (m.isExact_frame h)
  have hframe := m.ofFrame?_document hd
  rw [Message.decode?, Message.decode?, Message.encode, htext, hline, Option.bind_some, hframe]
  exact ⟨rfl, rfl⟩

theorem QueryAnswer.decode?_encode (reply : Except Fault QueryAnswer)
    (h : ∀ a, reply = .ok a → a.body.json.IsExact ∧ a.body.json.depth ≤ bodyRoom) :
    QueryAnswer.decode? (QueryAnswer.encode reply) = some reply ∧
      QueryAnswer.decode? (QueryAnswer.encode reply ++ "\n") = some reply := by
  have hexact := isExact_replyFrame reply fun a ha => a.isExact_json (h a ha).1
  obtain ⟨htext, hline⟩ := parse?_print hexact
  have hframe := ofReplyFrame?_document reply fun a ha => a.ofDocument?_json (h a ha).2
  rw [QueryAnswer.decode?, QueryAnswer.decode?, QueryAnswer.encode, htext, hline,
    Option.bind_some, hframe]
  exact ⟨rfl, rfl⟩

theorem SubmitAnswer.decode?_encode (reply : Except Fault SubmitAnswer) :
    SubmitAnswer.decode? (SubmitAnswer.encode reply) = some reply ∧
      SubmitAnswer.decode? (SubmitAnswer.encode reply ++ "\n") = some reply := by
  have hexact := isExact_replyFrame reply fun a _ => a.isExact_json
  obtain ⟨htext, hline⟩ := parse?_print hexact
  have hframe := ofReplyFrame?_document reply fun a _ => a.ofDocument?_json
  rw [SubmitAnswer.decode?, SubmitAnswer.decode?, SubmitAnswer.encode, htext, hline,
    Option.bind_some, hframe]
  exact ⟨rfl, rfl⟩

theorem QueryMessage.depth_of_ofDocument? {d : Document} {m : QueryMessage}
    (h : QueryMessage.ofDocument? d = some m) : m.body.json.depth ≤ bodyRoom := by
  unfold QueryMessage.ofDocument? at h
  split at h
  next header body _ =>
    split at h
    next =>
      simp only [Option.bind_eq_bind, Option.bind_eq_some_iff] at h
      obtain ⟨node, -, payment, -, read, hread, h⟩ := h
      cases h
      exact Body.depth_of_read? hread
    next => cases h
  next => cases h

theorem TransactionMessage.depth_of_ofDocument? {d : Document} {m : TransactionMessage}
    (h : TransactionMessage.ofDocument? d = some m) : m.body.json.depth ≤ bodyRoom := by
  unfold TransactionMessage.ofDocument? at h
  split at h
  next =>
    simp only [Option.bind_eq_bind, Option.bind_eq_some_iff] at h
    obtain ⟨id, -, node, -, read, hread, h⟩ := h
    cases h
    exact Body.depth_of_read? hread
  next => cases h

theorem Message.depth_of_ofPayload? {method : String} {d : Document} {m : Message}
    (h : Message.ofPayload? method d = some m) : m.body.json.depth ≤ bodyRoom := by
  unfold Message.ofPayload? at h
  split at h
  · obtain ⟨q, hq, rfl⟩ := Option.map_eq_some_iff.mp h
    exact q.depth_of_ofDocument? hq
  split at h
  · obtain ⟨t, ht, rfl⟩ := Option.map_eq_some_iff.mp h
    exact t.depth_of_ofDocument? ht
  · cases h

/-- What was read can be written: it nests no deeper than what can be read. -/
theorem Message.depth_of_decode? {text : String} {m : Message}
    (h : Message.decode? text = some m) : m.body.json.depth ≤ bodyRoom := by
  obtain ⟨d, -, hd⟩ := Option.bind_eq_some_iff.mp h
  unfold Message.ofFrame? at hd
  split at hd
  · obtain ⟨_, -, hd⟩ := Option.bind_eq_some_iff.mp hd
    split at hd
    · obtain ⟨_, -, hd⟩ := Option.bind_eq_some_iff.mp hd
      exact Message.depth_of_ofPayload? hd
    · obtain ⟨_, -, hd⟩ := Option.bind_eq_some_iff.mp hd
      obtain ⟨_, -, hd⟩ := Option.bind_eq_some_iff.mp hd
      exact Message.depth_of_ofPayload? hd
    · cases hd
  · obtain ⟨_, -, hd⟩ := Option.bind_eq_some_iff.mp hd
    exact Message.depth_of_ofPayload? hd
  · cases hd

theorem QueryAnswer.depth_of_decode? {text : String} {a : QueryAnswer}
    (h : QueryAnswer.decode? text = some (.ok a)) : a.body.json.depth ≤ bodyRoom := by
  obtain ⟨d, -, hd⟩ := Option.bind_eq_some_iff.mp h
  unfold ofReplyFrame? at hd
  split at hd
  next d =>
    obtain ⟨read, hread, heq⟩ := Option.map_eq_some_iff.mp hd
    cases heq
    unfold QueryAnswer.ofDocument? at hread
    split at hread
    next precheck cost body _ =>
      simp only [Option.bind_eq_bind, Option.bind_eq_some_iff] at hread
      obtain ⟨_, -, _, -, body', hbody, hread⟩ := hread
      cases hread
      cases body with
      | none =>
        cases hbody
        exact Nat.zero_le _
      | some d => exact Body.depth_of_read? hbody
    next => cases hread
  next d =>
    obtain ⟨f, -, heq⟩ := Option.map_eq_some_iff.mp hd
    cases heq
  next => cases hd

/-- The texts that are sent on the line, without its end. -/
inductive IsFrame : String → Prop
  | message (m : Message) : IsFrame m.encode
  | query (reply : Except Fault QueryAnswer) : IsFrame (QueryAnswer.encode reply)
  | submit (reply : Except Fault SubmitAnswer) : IsFrame (SubmitAnswer.encode reply)

theorem IsFrame.newline_not_mem {text : String} (h : IsFrame text) : '\n' ∉ text.toList := by
  cases h with
  | message | query | submit => exact newline_not_mem_print _

/-- Messages and replies are read from their frames as they were, with or without the end of the
line, if there is no double in them and they do not nest too deep. No frame holds an end of a line,
so that a reader of lines gets the frames one by one. Whatever text a value was read from, its own
frame is read as this value again. -/
theorem frames_round_trip :
    (∀ m : Message, m.body.json.IsExact → m.frame.depth ≤ nestingLimit →
      Message.decode? m.encode = some m ∧ Message.decode? (m.encode ++ "\n") = some m) ∧
    (∀ reply : Except Fault QueryAnswer, (∀ a, reply = .ok a → a.body.json.IsExact) →
      (replyFrame QueryAnswer.json reply).depth ≤ nestingLimit →
      QueryAnswer.decode? (QueryAnswer.encode reply) = some reply ∧
        QueryAnswer.decode? (QueryAnswer.encode reply ++ "\n") = some reply) ∧
    (∀ reply : Except Fault SubmitAnswer,
      SubmitAnswer.decode? (SubmitAnswer.encode reply) = some reply ∧
        SubmitAnswer.decode? (SubmitAnswer.encode reply ++ "\n") = some reply) ∧
    (∀ texts : List String, (∀ text ∈ texts, IsFrame text) →
      (∀ text ∈ texts, lineFeed ∉ utf8 text ∧
        String.fromUTF8? ⟨(utf8 (text ++ "\n")).toArray⟩ = some (text ++ "\n")) ∧
      ∀ (conn : Connection) (rest : List UInt8),
        conn.unread = (texts.flatMap fun text => utf8 (text ++ "\n")) ++ rest →
        conn.takeLines? texts.length =
          some (texts.map fun text => utf8 (text ++ "\n"), { conn with unread := rest })) ∧
    (∀ text m, Message.decode? text = some m → m.body.json.IsExact →
      m.frame.depth ≤ nestingLimit ∧ Message.decode? m.encode = some m) ∧
    (∀ text reply, QueryAnswer.decode? text = some reply →
      (∀ a, reply = .ok a → a.body.json.IsExact) →
      QueryAnswer.decode? (QueryAnswer.encode reply) = some reply) ∧
    ∀ text reply, SubmitAnswer.decode? text = some reply →
      SubmitAnswer.decode? (SubmitAnswer.encode reply) = some reply := by
  refine ⟨fun m h hd => m.decode?_encode h (m.depth_frame_le_iff.mp hd), fun reply h hd => ?_,
    SubmitAnswer.decode?_encode, fun texts h => ?_, fun text m hm h => ?_,
    fun text reply hr h => ?_, fun _ reply _ => (SubmitAnswer.decode?_encode reply).1⟩
  · refine QueryAnswer.decode?_encode reply fun a ha => ⟨h a ha, ?_⟩
    subst ha
    exact a.depth_replyFrame_le_iff.mp hd
  · have hlines : ∀ text ∈ texts, '\n' ∉ text.toList := fun text ht => (h text ht).newline_not_mem
    exact ⟨fun text ht => ⟨lineFeed_not_mem_utf8 (hlines text ht), fromUTF8?_utf8 _⟩,
      fun conn rest hc => takeLines?_eq hlines hc⟩
  · have hd := Message.depth_of_decode? hm
    exact ⟨m.depth_frame_le_iff.mpr hd, (m.decode?_encode h hd).1⟩
  · refine (QueryAnswer.decode?_encode reply fun a ha => ⟨h a ha, ?_⟩).1
    subst ha
    exact QueryAnswer.depth_of_decode? hr

/-- A body with the greatest and the least integer and with all kinds of characters that are
escaped is read as it was. -/
theorem frames_of_integers_and_escapes :
    let body := Body.ofJson (.record [("values", .list [.text "\"\\/\x08\n\x1fé𝄞",
      .natural 0xFFFFFFFFFFFFFFFF, .number (.negative ⟨0x7FFFFFFFFFFFFFFF, by decide⟩),
      .natural 0, .list [], .record []])])
    let m := Message.query ⟨⟨0, 0, 3⟩, some ⟨⟨0, 0, 2⟩, 7, 9⟩, body⟩
    m.body.json.IsExact ∧ m.frame.depth = 5 ∧ Message.decode? m.encode = some m := by
  intro body m
  have hexact : m.body.json.IsExact := by
    simp [m, body, Message.body, Body.ofJson, Json.sort, Json.sortItems, Json.sortMembers,
      insertEarlier, Json.IsExact, Json.ItemsExact, Json.MembersExact, Json.natural,
      Number.isExact]
  have hdepth : m.frame.depth = 5 := by
    decide +kernel
  have hbound : m.frame.depth ≤ nestingLimit := hdepth ▸ by decide
  obtain ⟨hmessages, -⟩ := frames_round_trip
  exact ⟨hexact, hdepth, (hmessages m hexact hbound).1⟩

end LedgerClient
