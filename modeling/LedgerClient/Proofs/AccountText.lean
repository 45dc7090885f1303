import LedgerClient.Proofs.Frames
import LedgerClient.Proofs.Pieces

namespace LedgerClient

variable {s t p q r : List Char} {n : UInt64} {input : String}
  {result : Except AccountId.Malformed AccountId}

/-- A number of 64 bits: digits, with leading zeros or without, after a plus sign or not. -/
def AccountId.IsPart (s : List Char) (n : UInt64) : Prop :=
  ∃ digits, (s = digits ∨ s = '+' :: digits) ∧ digits ≠ [] ∧ (∀ c ∈ digits, c.isDigit = true) ∧
    Nat.ofDigitChars 10 digits 0 = n.toNat

/-- Three parts with dots between them. -/
def joinParts (p q r : List Char) : List Char :=
  p ++ '.' :: (q ++ '.' :: r)

/-- What a text gives. Of parts that are no numbers the first is named. -/
inductive AccountId.Reads (input : String) : Except AccountId.Malformed AccountId → Prop
  | account {p q r : List Char} {a : AccountId} (trimmed : Trimmed input.toList (joinParts p q r))
      (shard : AccountId.IsPart p a.shard) (realm : AccountId.IsPart q a.realm)
      (num : AccountId.IsPart r a.num) : Reads input (.ok a)
  | shape (dots : input.toList.count '.' ≠ 2) : Reads input (.error (.shape input))
  | number {p q r part : List Char} {before after : List (List Char)}
      (trimmed : Trimmed input.toList (joinParts p q r)) (dotless : ∀ x ∈ [p, q, r], '.' ∉ x)
      (parts : [p, q, r] = before ++ part :: after)
      (numbers : ∀ x ∈ before, ∃ n, AccountId.IsPart x n)
      (offends : ¬ ∃ n, AccountId.IsPart part n) :
      Reads input (.error (.number input (String.ofList part)))

theorem readPart?_eq_some_iff : AccountId.readPart? s = some n ↔ AccountId.IsPart s n := by
  constructor
  · intro h
    obtain ⟨m, hm, rfl⟩ := Option.map_eq_some_iff.mp h
    obtain ⟨hread, hlt⟩ := Option.filter_eq_some_iff.mp hm
    have hvalue : (UInt64.ofNat m).toNat = m := UInt64.toNat_ofNat_of_lt' (of_decide_eq_true hlt)
    split at hread
    next digits =>
      obtain ⟨hne, hdigits, hm⟩ := readDecimal?_eq_some_iff.mp hread
      exact ⟨digits, .inr rfl, hne, hdigits, hm.trans hvalue.symm⟩
    next =>
      obtain ⟨hne, hdigits, hm⟩ := readDecimal?_eq_some_iff.mp hread
      exact ⟨s, .inl rfl, hne, hdigits, hm.trans hvalue.symm⟩
  · rintro ⟨digits, hs, hne, hdigits, hvalue⟩
    have hread : readDecimal? digits = some n.toNat :=
      readDecimal?_eq_some_iff.mpr ⟨hne, hdigits, hvalue⟩
    have hlt : n.toNat < UInt64.size := n.toNat_lt
    have hbelow : readBelow? UInt64.size s = some n.toNat := by
      unfold readBelow?
      rcases hs with rfl | rfl
      · split
        next rest => cases hdigits '+' (by simp)
        next => simp [hread, hlt]
      · simp [hread, hlt]
    rw [AccountId.readPart?, hbelow, Option.map_some, UInt64.ofNat_toNat]

/-- A part as the parser reads it. -/
def AccountId.readPart (input : String) (s : List Char) : Except AccountId.Malformed UInt64 :=
  match AccountId.readPart? s with
  | some n => .ok n
  | none => .error (.number input (String.ofList s))

theorem AccountId.IsPart.readPart_eq (h : AccountId.IsPart s n) :
    AccountId.readPart input s = .ok n := by
  rw [AccountId.readPart, readPart?_eq_some_iff.mpr h]

theorem readPart_of_not_isPart (h : ¬ ∃ n, AccountId.IsPart s n) :
    AccountId.readPart input s = .error (.number input (String.ofList s)) := by
  unfold AccountId.readPart
  split
  next n hn => exact absurd ⟨n, readPart?_eq_some_iff.mp hn⟩ h
  next => rfl

theorem AccountId.IsPart.dotless (h : AccountId.IsPart s n) : '.' ∉ s := by
  obtain ⟨digits, hs, -, hdigits, -⟩ := h
  have hdot : '.' ∉ digits := fun hmem => by cases hdigits _ hmem
  rcases hs with rfl | rfl
  · exact hdot
  · simpa using hdot

/-- Blanks are no dots. -/
theorem Trimmed.count_dot (h : Trimmed s t) : s.count '.' = t.count '.' := by
  obtain ⟨⟨front, back, rfl, hfront, hback⟩, -, -⟩ := h
  have hnone : ∀ {blanks : List Char}, (∀ c ∈ blanks, isBlank c = true) → blanks.count '.' = 0 :=
    fun h => List.count_eq_zero.mpr fun hmem => by cases h _ hmem
  simp [hnone hfront, hnone hback]

theorem exists_parts (h : s.count '.' = 2) :
    ∃ p q r, s = joinParts p q r ∧ ∀ x ∈ [p, q, r], '.' ∉ x := by
  have hmem : '.' ∈ s := List.count_pos_iff.mp (by omega)
  obtain ⟨p, rest, rfl, hp⟩ := List.eq_append_cons_of_mem hmem
  have hrest : rest.count '.' = 1 := by
    simpa [List.count_eq_zero.mpr hp] using h
  have hmem' : '.' ∈ rest := List.count_pos_iff.mp (by omega)
  obtain ⟨q, r, rfl, hq⟩ := List.eq_append_cons_of_mem hmem'
  have hr : r.count '.' = 0 := by
    simpa [List.count_eq_zero.mpr hq] using hrest
  refine ⟨p, q, r, rfl, ?_⟩
  simp [hp, hq, List.count_eq_zero.mp hr]

theorem splitOn_joinParts (h : ∀ x ∈ [p, q, r], '.' ∉ x) :
    (joinParts p q r).splitOn '.' = [p, q, r] := by
  simp only [List.forall_mem_cons] at h
  obtain ⟨hp, hq, hr, -⟩ := h
  rw [joinParts, List.splitOn_append_cons_self_of_not_mem hp,
    List.splitOn_append_cons_self_of_not_mem hq, List.splitOn_eq_singleton hr]

theorem parse_of_trimmed (h : Trimmed input.toList (joinParts p q r))
    (hdotless : ∀ x ∈ [p, q, r], '.' ∉ x) :
    AccountId.parse input = do
      let shard ← AccountId.readPart input p
      let realm ← AccountId.readPart input q
      let num ← AccountId.readPart input r
      return ⟨shard, realm, num⟩ := by
  unfold AccountId.parse
  rw [h.trim_eq, splitOn_joinParts hdotless]
  rfl

theorem parse_of_dots (h : input.toList.count '.' ≠ 2) :
    AccountId.parse input = .error (.shape input) := by
  have hlength := length_splitOn '.' (trim input.toList)
  rw [← (trimmed_trim input.toList).count_dot] at hlength
  unfold AccountId.parse
  split
  next p q r hsplit =>
    rw [hsplit] at hlength
    exact absurd (Nat.succ.inj hlength).symm h
  next => rfl

/-- Every result is one that the text gives. -/
theorem reads_parse (input : String) : AccountId.Reads input (AccountId.parse input) := by
  by_cases hdots : input.toList.count '.' = 2
  · have htrim := trimmed_trim input.toList
    rw [htrim.count_dot] at hdots
    obtain ⟨p, q, r, heq, hdotless⟩ := exists_parts hdots
    rw [heq] at htrim
    rw [parse_of_trimmed htrim hdotless]
    -- the parts are read from left to right, and the first one that fails is the result
    by_cases hp : ∃ n, AccountId.IsPart p n
    · obtain ⟨shard, hshard⟩ := hp
      rw [hshard.readPart_eq]
      by_cases hq : ∃ n, AccountId.IsPart q n
      · obtain ⟨realm, hrealm⟩ := hq
        rw [hrealm.readPart_eq]
        by_cases hr : ∃ n, AccountId.IsPart r n
        · obtain ⟨num, hnum⟩ := hr
          rw [hnum.readPart_eq]
          exact .account htrim hshard hrealm hnum
        · rw [readPart_of_not_isPart hr]
          have hparts : [p, q, r] = [p, q] ++ r :: [] := rfl
          have hnumbers : ∀ x ∈ [p, q], ∃ n, AccountId.IsPart x n := by
            simpa using ⟨⟨shard, hshard⟩, realm, hrealm⟩
          exact .number htrim hdotless hparts hnumbers hr
      · rw [readPart_of_not_isPart hq]
        have hparts : [p, q, r] = [p] ++ q :: [r] := rfl
        exact .number htrim hdotless hparts (by simpa using ⟨shard, hshard⟩) hq
    · rw [readPart_of_not_isPart hp]
      have hparts : [p, q, r] = [] ++ p :: [q, r] := rfl
      exact .number htrim hdotless hparts (by simp) hp
  · rw [parse_of_dots hdots]
    exact .shape hdots

/-- What a text gives is the result. -/
theorem AccountId.Reads.parse_eq (h : AccountId.Reads input result) :
    AccountId.parse input = result := by
  cases h with
  | @account p q r a trimmed shard realm num =>
    have hdotless : ∀ x ∈ [p, q, r], '.' ∉ x := by
      simpa using ⟨shard.dotless, realm.dotless, num.dotless⟩
    rw [parse_of_trimmed trimmed hdotless, shard.readPart_eq, realm.readPart_eq, num.readPart_eq]
    rfl
  | shape dots => exact parse_of_dots dots
  | @number p q r part before after trimmed dotless parts numbers offends =>
    rw [parse_of_trimmed trimmed dotless]
    obtain _ | ⟨x, _ | ⟨y, _ | ⟨z, before⟩⟩⟩ := before
    · cases parts
      rw [readPart_of_not_isPart offends]
      rfl
    · cases parts
      obtain ⟨shard, hshard⟩ := numbers p (by simp)
      rw [hshard.readPart_eq, readPart_of_not_isPart offends]
      rfl
    · cases parts
      obtain ⟨shard, hshard⟩ := numbers p (by simp)
      obtain ⟨realm, hrealm⟩ := numbers q (by simp)
      rw [hshard.readPart_eq, hrealm.readPart_eq, readPart_of_not_isPart offends]
      rfl
    · simp at parts

theorem AccountId.text_injective : Function.Injective AccountId.text := by
  intro a b h
  have ha := a.parse_text
  rw [h, b.parse_text] at ha
  exact (Except.ok.inj ha).symm

theorem AccountId.ofDocument?_print (a : AccountId) :
    (Document.parse? a.json.print.toList).bind AccountId.ofDocument? = some a := by
  rw [(parse?_print a.isExact_json.1).1, Option.bind_some, a.ofDocument?_json]

/-- The result of reading a text is the one that the text gives: three numbers, or what is wrong
with the text. The text of an account gives the account, and no other account has it; so reading and
writing a text brings it into a form that stays as it is. In JSON accounts are these texts. -/
theorem account_of_text :
    (∀ (input : String) (result : Except AccountId.Malformed AccountId),
      AccountId.parse input = result ↔ AccountId.Reads input result) ∧
    (∀ a : AccountId, AccountId.parse a.text = .ok a) ∧
    Function.Injective AccountId.text ∧
    (∀ input text : String, (AccountId.parse input).map AccountId.text = .ok text →
      (AccountId.parse text).map AccountId.text = .ok text) ∧
    (∀ text : String, AccountId.ofDocument? (.text (some text)) = (AccountId.parse text).toOption) ∧
    ∀ a : AccountId, a.json = .text a.text ∧
      (Document.parse? a.json.print.toList).bind AccountId.ofDocument? = some a := by
  refine ⟨fun input result => ⟨?_, AccountId.Reads.parse_eq⟩, AccountId.parse_text,
    AccountId.text_injective, fun input text h => ?_, fun _ => rfl,
    fun a => ⟨rfl, a.ofDocument?_print⟩⟩
  · rintro rfl
    exact reads_parse input
  · cases hparse : AccountId.parse input with
    | error => rw [hparse] at h; cases h
    | ok a =>
      rw [hparse] at h
      cases h
      rw [a.parse_text]
      rfl

theorem account_of_padded :
    (AccountId.parse "\t+007.0.3 ").map AccountId.text = .ok "7.0.3" ∧
      (AccountId.parse "7.0.3").map AccountId.text = .ok "7.0.3" := by
  have h : (AccountId.parse "\t+007.0.3 ").map AccountId.text = .ok "7.0.3" := by rfl
  exact ⟨h, account_of_text.2.2.2.1 _ _ h⟩

end LedgerClient
