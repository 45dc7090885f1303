import LedgerClient.Proofs.AccountText
import LedgerClient.Telemetry

namespace LedgerClient

variable {c : Char} {s rest rest' : List Char} {n : Nat} {a b : TransactionId}
  {p q : Precheck} {e f : DispatchError}

theorem not_mem_of_readDecimal? (h : readDecimal? s = some n) (hc : c.isDigit = false) : c ∉ s :=
  fun hmem => by simp [isDigit_of_readDecimal? h c hmem] at hc

/-- Zeros before a number do not count, and a number that is longer is not cut. -/
theorem readDecimal?_padded (width n : Nat) : readDecimal? (padded width n) = some n := by
  have hvalue : Nat.ofDigitChars 10 (decimal n) 0 = n :=
    Nat.ofDigitChars_toDigits (by decide) (by decide)
  refine readDecimal?_eq_some_iff.mpr ⟨by simp [padded, decimal_ne_nil], fun c hc => ?_, ?_⟩
  · rcases List.mem_append.mp hc with hzero | hdigit
    · rw [(List.mem_replicate.mp hzero).2]
      rfl
    · exact isDigit_of_mem_decimal hdigit
  · rw [padded, Nat.ofDigitChars_append, Nat.ofDigitChars_replicate_zero, Nat.mul_zero, hvalue]

/-- A text that stands for an id: each of its numbers with as many leading zeros as one likes. -/
def TransactionId.Denotes (s : List Char) (t : TransactionId) : Prop :=
  ∃ shard realm num seconds nanos : List Char,
    s = joinParts shard realm num ++ '@' :: (seconds ++ '.' :: nanos) ∧
    readDecimal? shard = some t.account.shard.toNat ∧
    readDecimal? realm = some t.account.realm.toNat ∧
    readDecimal? num = some t.account.num.toNat ∧
    readDecimal? seconds = some t.seconds.toNat ∧ readDecimal? nanos = some t.nanos.toNat

theorem TransactionId.denotes_chars (t : TransactionId) : TransactionId.Denotes t.chars t :=
  ⟨_, _, _, _, _, rfl, readDecimal?_decimal _, readDecimal?_decimal _, readDecimal?_decimal _,
    readDecimal?_decimal _, readDecimal?_padded 9 _⟩

theorem readDecimal?_inj {x y : Nat} (hx : readDecimal? s = some x) (hy : readDecimal? s = some y) :
    x = y :=
  Option.some.inj (hx.symm.trans hy)

/-- The separators are no digits, so each of them ends a number. -/
theorem TransactionId.Denotes.unique (ha : TransactionId.Denotes s a)
    (hb : TransactionId.Denotes s b) : a = b := by
  obtain ⟨shard, realm, num, seconds, nanos, rfl, hshard, hrealm, hnum, hseconds, hnanos⟩ := ha
  obtain ⟨shard', realm', num', seconds', nanos', heq, hshard', hrealm', hnum', hseconds',
    hnanos'⟩ := hb
  have hdot : '.'.isDigit = false := rfl
  have hdotless : ∀ x ∈ [shard, realm, num], '.' ∉ x := by
    simpa using ⟨not_mem_of_readDecimal? hshard hdot, not_mem_of_readDecimal? hrealm hdot,
      not_mem_of_readDecimal? hnum hdot⟩
  have hdotless' : ∀ x ∈ [shard', realm', num'], '.' ∉ x := by
    simpa using ⟨not_mem_of_readDecimal? hshard' hdot, not_mem_of_readDecimal? hrealm' hdot,
      not_mem_of_readDecimal? hnum' hdot⟩
  have hat : ∀ {x y z : List Char} {i j k : Nat}, readDecimal? x = some i →
      readDecimal? y = some j → readDecimal? z = some k → '@' ∉ joinParts x y z := by
    intro x y z i j k hx hy hz
    simp [joinParts, not_mem_of_readDecimal? hx, not_mem_of_readDecimal? hy,
      not_mem_of_readDecimal? hz]
  obtain ⟨haccount, hstart⟩ :=
    (append_first_inj (hat hshard hrealm hnum) (hat hshard' hrealm' hnum')).mp heq
  obtain ⟨rfl, rfl⟩ := (append_first_inj (not_mem_of_readDecimal? hseconds hdot)
    (not_mem_of_readDecimal? hseconds' hdot)).mp hstart
  have hparts : [shard, realm, num] = [shard', realm', num'] := by
    rw [← splitOn_joinParts hdotless, haccount, splitOn_joinParts hdotless']
  cases hparts
  obtain ⟨⟨_, _, _⟩, _, _⟩ := a
  obtain ⟨⟨_, _, _⟩, _, _⟩ := b
  simp only [TransactionId.mk.injEq, AccountId.mk.injEq]
  exact ⟨⟨UInt64.toNat_inj.mp (readDecimal?_inj hshard hshard'),
    UInt64.toNat_inj.mp (readDecimal?_inj hrealm hrealm'),
    UInt64.toNat_inj.mp (readDecimal?_inj hnum hnum')⟩,
    UInt64.toNat_inj.mp (readDecimal?_inj hseconds hseconds'),
    UInt32.toNat_inj.mp (readDecimal?_inj hnanos hnanos')⟩

theorem TransactionId.chars_inj : a.chars = b.chars ↔ a = b :=
  ⟨fun h => a.denotes_chars.unique (h ▸ b.denotes_chars), congrArg TransactionId.chars⟩

theorem TransactionId.text_inj : a.text = b.text ↔ a = b :=
  String.ofList_inj.trans TransactionId.chars_inj

theorem TransactionId.not_mem_chars (t : TransactionId) (hdigit : c.isDigit = false)
    (hdot : c ≠ '.') (hat : c ≠ '@') : c ∉ t.chars := by
  obtain ⟨_, _, _, _, _, heq, hshard, hrealm, hnum, hseconds, hnanos⟩ := t.denotes_chars
  simp [heq, joinParts, hdot, hat, not_mem_of_readDecimal? hshard hdigit,
    not_mem_of_readDecimal? hrealm hdigit, not_mem_of_readDecimal? hnum hdigit,
    not_mem_of_readDecimal? hseconds hdigit, not_mem_of_readDecimal? hnanos hdigit]

theorem Precheck.ofName_name (p : Precheck) : Precheck.ofName p.name = p := by
  cases p <;> rfl

theorem Precheck.space_not_mem_name (p : Precheck) : ' ' ∉ p.name.toList := by
  cases p <;> decide

theorem message_afterAttempts {attempts limit : Nat} {source : DispatchError} :
    (DispatchError.afterAttempts attempts limit source).message =
      "retry " ++ String.ofList (decimal attempts ++ '/' :: decimal limit) ++ ": " ++
        source.message :=
  rfl

theorem message_transactionRefused : (DispatchError.transactionRefused p a).message =
    "exceptional precheck status " ++ p.name ++ " received for transaction " ++ a.text :=
  rfl

/-- Counts of attempts stand before the message of what they count for. -/
theorem message_eq_append_root (e : DispatchError) :
    ∃ before, e.message = before ++ e.root.message := by
  induction e with
  | afterAttempts attempts limit source ih =>
    obtain ⟨before, hbefore⟩ := ih
    rw [message_afterAttempts, hbefore, ← String.append_assoc]
    exact ⟨_, rfl⟩
  | _ => exact ⟨"", String.empty_append.symm⟩

/-- The message of a refusal ends with the id, and before the words that stand between them with
the code. -/
theorem message_of_refused (h : e.root = .transactionRefused p a) : ∃ before : List Char,
    e.message.toList =
      before ++ ' ' :: (p.name.toList ++ " received for transaction".toList) ++ ' ' :: a.chars := by
  obtain ⟨before, hmessage⟩ := message_eq_append_root e
  have hstatus : "exceptional precheck status ".toList =
      "exceptional precheck status".toList ++ [' '] := by decide
  have hfor :
      " received for transaction ".toList = " received for transaction".toList ++ [' '] := by
    decide
  refine ⟨before.toList ++ "exceptional precheck status".toList, ?_⟩
  rw [hmessage, h, message_transactionRefused]
  simp only [String.toList_append, hstatus, hfor, TransactionId.text, String.toList_ofList,
    List.append_assoc, List.cons_append, List.nil_append]

/-- Refusals with one message are refusals of one transaction, with one code. -/
theorem refused_eq_of_message_eq (he : e.root = .transactionRefused p a)
    (hf : f.root = .transactionRefused q b) (h : e.message = f.message) : p = q ∧ a = b := by
  obtain ⟨before, hbefore⟩ := message_of_refused he
  obtain ⟨before', hbefore'⟩ := message_of_refused hf
  rw [h, hbefore'] at hbefore
  have hspace : ∀ t : TransactionId, ' ' ∉ t.chars := fun t =>
    t.not_mem_chars rfl (by decide) (by decide)
  obtain ⟨hfront, hid⟩ := (append_last_inj (hspace b) (hspace a)).mp hbefore
  -- the words between code and id are the same, so the code is the last word before them
  rw [← List.cons_append, ← List.cons_append, ← List.append_assoc, ← List.append_assoc,
    List.append_left_inj] at hfront
  obtain ⟨-, hname⟩ := (append_last_inj q.space_not_mem_name p.space_not_mem_name).mp hfront
  rw [String.toList_inj] at hname
  exact ⟨by rw [← p.ofName_name, ← hname, q.ofName_name], (TransactionId.chars_inj.mp hid).symm⟩

/-- Records of replaced ids name both ids. -/
theorem log_regenerated_inj {a' b' : TransactionId} {m n : Nat}
    (h : (Event.regenerated a b).log m = (Event.regenerated a' b').log n) : a = a' ∧ b = b' := by
  simpa [Event.log, TransactionId.text_inj] using congrArg (List.drop 1 ·.fields) h

theorem decimal_inj {m n : Nat} : decimal m = decimal n ↔ m = n :=
  ⟨fun h => readDecimal?_inj (h ▸ readDecimal?_decimal m) (readDecimal?_decimal n),
    congrArg decimal⟩

theorem AccountId.chars_inj {a b : AccountId} : a.chars = b.chars ↔ a = b :=
  ⟨fun h => AccountId.text_injective (congrArg String.ofList h), congrArg AccountId.chars⟩

theorem AccountId.mem_chars {a : AccountId} (h : c ∈ a.chars) : c.isDigit = true ∨ c = '.' := by
  simp only [AccountId.chars, List.mem_append, List.mem_cons] at h
  rcases h with h | h | h | h | h
  · exact .inl (isDigit_of_mem_decimal h)
  · exact .inr h
  · exact .inl (isDigit_of_mem_decimal h)
  · exact .inr h
  · exact .inl (isDigit_of_mem_decimal h)

/-- An account is written without escapes. -/
theorem AccountId.json_chars (a : AccountId) : a.json.chars = '"' :: (a.chars ++ ['"']) := by
  have hescape : a.chars.flatMap escapeChar = a.chars.flatMap fun c => [c] := by
    refine List.flatMap_congr fun c hc => ?_
    rcases AccountId.mem_chars hc with hdigit | rfl
    · have hall : ∀ d ∈ ['0', '1', '2', '3', '4', '5', '6', '7', '8', '9'],
          escapeChar d = [d] := by simp [escapeChar]
      exact hall c (mem_digits hdigit)
    · rfl
  rw [AccountId.json, Json.chars, quote, AccountId.text, String.toList_ofList, hescape,
    List.flatMap_singleton']

/-- The end of an account's text can be seen, whatever follows. -/
theorem AccountId.json_append_inj {a b : AccountId} :
    a.json.chars ++ rest = b.json.chars ++ rest' ↔ a = b ∧ rest = rest' := by
  have hquote : ∀ a : AccountId, '"' ∉ a.chars := fun a hmem =>
    (AccountId.mem_chars hmem).elim (by simp [Char.isDigit]) (by decide)
  simp only [AccountId.json_chars, List.cons_append, List.append_assoc, List.nil_append,
    List.cons.injEq, true_and]
  rw [append_first_inj (hquote a) (hquote b), AccountId.chars_inj]

theorem TransactionId.json_chars (t : TransactionId) : t.json.chars =
    '{' :: (quote "account_id" ++ ':' :: (t.account.json.chars ++ ',' ::
      (quote "valid_start_seconds" ++ ':' :: (decimal t.seconds.toNat ++ ',' ::
        (quote "valid_start_nanos" ++ ':' :: (decimal t.nanos.toNat ++ ['}'])))))) := by
  simp [TransactionId.json, Json.chars, Json.membersChars, Json.natural, Number.chars]

theorem TransactionId.json_append_inj :
    a.json.chars ++ rest = b.json.chars ++ rest' ↔ a = b ∧ rest = rest' := by
  have hdecimal : ∀ {n : Nat} {c : Char}, c.isDigit = false → c ∉ decimal n := fun hc hmem => by
    simp [isDigit_of_mem_decimal hmem] at hc
  obtain ⟨account, seconds, nanos⟩ := a
  obtain ⟨account', seconds', nanos'⟩ := b
  simp only [TransactionId.json_chars, List.cons_append, List.append_assoc, List.nil_append,
    List.cons.injEq, true_and, List.append_right_inj, AccountId.json_append_inj,
    append_first_inj (hdecimal rfl : ',' ∉ _) (hdecimal rfl),
    append_first_inj (hdecimal rfl : '}' ∉ _) (hdecimal rfl), decimal_inj, UInt64.toNat_inj,
    UInt32.toNat_inj, TransactionId.mk.injEq, and_assoc]

/-- The ids that a message carries. -/
def Message.ids : Message → List TransactionId
  | .query m => m.payment.toList
  | .transaction m => [m.id]

/-- What stands before the name of the method in every frame. -/
def frameFront : List Char :=
  '{' :: (quote "method" ++ [':'])

theorem transaction_frame_chars (m : TransactionMessage) : ∃ rest,
    (Message.transaction m).frame.chars = frameFront ++ (quote "submit_transaction" ++ ',' ::
      (quote "payload" ++ ':' :: '{' :: (quote "transaction_id" ++ ':' ::
        (m.id.json.chars ++ rest)))) := by
  simp [Message.frame, Message.payload, Message.method, TransactionMessage.json, Json.chars,
    Json.membersChars, frameFront]

/-- A payment stands right after the node, where else the header ends. -/
theorem query_frame_chars (m : QueryMessage) : ∃ rest,
    (Message.query m).frame.chars = frameFront ++ (quote "query" ++ ',' ::
      (quote "payload" ++ ':' :: '{' :: (quote "header" ++ ':' :: '{' ::
        (quote "node_account_id" ++ ':' :: (m.node.json.chars ++
          (match m.payment with
            | none => '}' :: rest
            | some id => ',' :: (quote "payment_transaction_id" ++ ':' ::
              (id.json.chars ++ rest)))))))) := by
  obtain ⟨node, payment, body⟩ := m
  cases payment <;> simp [Message.frame, Message.payload, Message.method, QueryMessage.json,
    Json.chars, Json.membersChars, frameFront]

/-- Frames with one text carry the same ids, whatever their bodies are. -/
theorem ids_eq_of_encode_eq {m m' : Message} (h : m.encode = m'.encode) : m.ids = m'.ids := by
  have hchars : m.frame.chars = m'.frame.chars := String.ofList_inj.mp h
  have hmethods : ∀ x y : List Char,
      quote "query" ++ x ≠ quote "submit_transaction" ++ y := fun x y heq => by
    simp [quote, escapeChar] at heq
  cases m with
  | query m =>
    obtain ⟨rest, hm⟩ := query_frame_chars m
    cases m' with
    | query m' =>
      obtain ⟨rest', hm'⟩ := query_frame_chars m'
      rw [hm, hm'] at hchars
      simp only [List.append_right_inj, List.cons.injEq, true_and,
        AccountId.json_append_inj] at hchars
      obtain ⟨-, hpayment⟩ := hchars
      rw [Message.ids, Message.ids]
      split at hpayment <;> split at hpayment
      · simp_all
      · simp at hpayment
      · simp at hpayment
      · simp_all [TransactionId.json_append_inj]
    | transaction m' =>
      obtain ⟨rest', hm'⟩ := transaction_frame_chars m'
      rw [hm, hm', List.append_right_inj] at hchars
      exact absurd hchars (hmethods _ _)
  | transaction m =>
    obtain ⟨rest, hm⟩ := transaction_frame_chars m
    cases m' with
    | query m' =>
      obtain ⟨rest', hm'⟩ := query_frame_chars m'
      rw [hm, hm', List.append_right_inj] at hchars
      exact absurd hchars.symm (hmethods _ _)
    | transaction m' =>
      obtain ⟨rest', hm'⟩ := transaction_frame_chars m'
      rw [hm, hm'] at hchars
      simp only [List.append_right_inj, List.cons.injEq, true_and,
        TransactionId.json_append_inj] at hchars
      rw [Message.ids, Message.ids, hchars.1]

theorem TransactionId.ofDocument?_print (t : TransactionId) :
    (Document.parse? t.json.print.toList).bind TransactionId.ofDocument? = some t := by
  rw [(parse?_print t.isExact_json.1).1, Option.bind_some, t.ofDocument?_json]

theorem TransactionId.print_inj : a.json.print = b.json.print ↔ a = b := by
  refine ⟨fun h => ?_, fun h => h ▸ rfl⟩
  have ha := a.ofDocument?_print
  rw [h, b.ofDocument?_print] at ha
  exact (Option.some.inj ha).symm

/-- Two ids have one text only if they are the same id, also if their nanoseconds have ten digits,
and in JSON every id is read back as it was. The text stands for the id and no text stands for two
ids, with whatever leading zeros its numbers are written. So ids are told apart in the messages of
refusals, however many counts of attempts stand before them, in the records of replacements, and in
frames, whatever else these hold. -/
theorem text_of_id :
    (∀ t u : TransactionId, t.text = u.text ↔ t = u) ∧
    (∀ t : TransactionId,
      (Document.parse? t.json.print.toList).bind TransactionId.ofDocument? = some t) ∧
    (∀ t u : TransactionId, t.json.print = u.json.print ↔ t = u) ∧
    (∀ t : TransactionId, TransactionId.Denotes t.text.toList t) ∧
    (∀ (s : List Char) (t u : TransactionId), TransactionId.Denotes s t →
      TransactionId.Denotes s u → t = u) ∧
    (∀ (e f : DispatchError) (p q : Precheck) (t u : TransactionId),
      e.root = .transactionRefused p t → f.root = .transactionRefused q u →
      e.message = f.message → p = q ∧ t = u) ∧
    (∀ (m n : Nat) (t u t' u' : TransactionId),
      (Event.regenerated t u).log m = (Event.regenerated t' u').log n → t = t' ∧ u = u') ∧
    ∀ m m' : Message, m.encode = m'.encode → m.ids = m'.ids := by
  refine ⟨fun _ _ => TransactionId.text_inj, TransactionId.ofDocument?_print,
    fun _ _ => TransactionId.print_inj, fun t => ?_, fun _ _ _ => TransactionId.Denotes.unique,
    fun _ _ _ _ _ _ => refused_eq_of_message_eq, fun _ _ _ _ _ _ => log_regenerated_inj,
    fun _ _ => ids_eq_of_encode_eq⟩
  rw [TransactionId.text, String.toList_ofList]
  exact t.denotes_chars

/-- The digits of these two ids are the same, but for the place of the dot between them. -/
theorem text_of_ten_digits :
    let t : TransactionId := ⟨⟨0, 0, 2⟩, 1, 4294967295⟩
    let u : TransactionId := ⟨⟨0, 0, 2⟩, 14, 294967295⟩
    let refusal (id : TransactionId) : DispatchError :=
      .afterAttempts 1 10 (.transactionRefused .transactionExpired id)
    let submission (id : TransactionId) : Message := .transaction ⟨id, ⟨0, 0, 3⟩, default⟩
    t.text = "0.0.2@1.4294967295" ∧ u.text = "0.0.2@14.294967295" ∧ t.text ≠ u.text ∧
      (∀ v, TransactionId.Denotes "00.0.02@001.04294967295".toList v → v = t) ∧
      (refusal t).message ≠ (refusal u).message ∧
      (∀ n, (Event.regenerated t u).log n ≠ (Event.regenerated u t).log n) ∧
      (submission t).encode ≠ (submission u).encode := by
  intro t u refusal submission
  obtain ⟨htext, -, -, -, hunique, hmessage, hlog, hframe⟩ := text_of_id
  have hne : t ≠ u := by decide
  have hzeros : TransactionId.Denotes "00.0.02@001.04294967295".toList t :=
    ⟨['0', '0'], ['0'], ['0', '2'], ['0', '0', '1'], "04294967295".toList, by decide⟩
  exact ⟨by decide +kernel, by decide +kernel, fun h => hne ((htext t u).mp h),
    fun v hv => hunique _ v t hv hzeros, fun h => hne (hmessage _ _ _ _ t u rfl rfl h).2,
    fun n h => hne (hlog n n t u u t h).1, fun h => hne (List.cons.inj (hframe _ _ h)).1⟩

end LedgerClient
