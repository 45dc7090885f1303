import LedgerClient.Json.Printer
import LedgerClient.Json.Token

namespace LedgerClient

variable {c d : Char} {a b ds rest : List Char} {s t done : List Token} {p : NumberParts}
  {q : Quoted} {n acc : Nat} {stage : NumberStage} {text : List Char} {token : Token}
  {state : LexState} {started other : Option (LexState × List Token)}

mutual

/-- The tokens of a printed value. -/
def Json.tokens : Json → List Token
  | .null => [.null]
  | .bool b => [.bool b]
  | .number n => [.number (some n)]
  | .text s => [.text (some s)]
  | .list items => .openList :: (Json.itemsTokens items ++ [.closeList])
  | .record members => .openRecord :: (Json.membersTokens members ++ [.closeRecord])

def Json.itemsTokens : List Json → List Token
  | [] => []
  | [v] => v.tokens
  | v :: rest => v.tokens ++ .comma :: Json.itemsTokens rest

def Json.membersTokens : List (String × Json) → List Token
  | [] => []
  | [(k, v)] => [.text (some k), .colon] ++ v.tokens
  | (k, v) :: rest => [.text (some k), .colon] ++ (v.tokens ++ .comma :: Json.membersTokens rest)

end

def Number.isExact : Number → Prop
  | .double _ => False
  | _ => True

mutual

/-- Whether all numbers of a value are integers that are kept exactly. -/
def Json.IsExact : Json → Prop
  | .null | .bool _ | .text _ => True
  | .number n => n.isExact
  | .list items => Json.ItemsExact items
  | .record members => Json.MembersExact members

def Json.ItemsExact : List Json → Prop
  | [] => True
  | v :: rest => v.IsExact ∧ Json.ItemsExact rest

def Json.MembersExact : List (String × Json) → Prop
  | [] => True
  | (_, v) :: rest => v.IsExact ∧ Json.MembersExact rest

end

/-- A text that does not go on with a part of a number. -/
def Ends (rest : List Char) : Prop :=
  ∀ c ∈ rest.head?, c.isDigit = false ∧ c ≠ '.' ∧ c ≠ 'e' ∧ c ≠ 'E'

/-- A text that is read as these tokens, whatever follows that is no part of a number. -/
def Lexes (text : List Char) (tokens : List Token) : Prop :=
  ∀ done rest, Ends rest →
    lexFrom done .between (text ++ rest) = lexFrom (tokens.reverse ++ done) .between rest

theorem ends_nil : Ends [] := by
  simp [Ends]

theorem Lexes.nil : Lexes [] [] :=
  fun _ _ _ => rfl

/-- A character that is a token of its own. -/
def IsMark (c : Char) (t : Token) : Prop :=
  startToken c = some (.between, [t]) ∧ c.isDigit = false ∧ c ≠ '.' ∧ c ≠ 'e' ∧ c ≠ 'E'

theorem IsMark.ends {token : Token} (h : IsMark c token) : Ends (c :: rest) := by
  intro d hd
  obtain rfl : c = d := by simpa using hd
  exact h.2

theorem Lexes.mark {token : Token} (h : IsMark c token) (hb : Lexes b t) :
    Lexes (c :: b) (token :: t) := by
  intro done rest hr
  have hstep : lexFrom done .between (c :: b ++ rest) =
      lexFrom (token :: done) .between (b ++ rest) := by
    simp only [List.cons_append, lexFrom, LexState.step, h.1]
    rfl
  rw [hstep, hb _ _ hr, List.reverse_cons, List.append_assoc]
  rfl

/-- One text after another, where the second begins with a mark. -/
theorem Lexes.append_mark {token : Token} (ha : Lexes a s) (h : IsMark c token) (hb : Lexes b t) :
    Lexes (a ++ c :: b) (s ++ token :: t) := by
  intro done rest hr
  have hmark := Lexes.mark h hb (s.reverse ++ done) rest hr
  rw [List.cons_append] at hmark
  rw [List.append_assoc, List.cons_append, ha _ _ h.ends, hmark, List.reverse_append,
    List.append_assoc]

theorem isMark_marks : IsMark '[' .openList ∧ IsMark ']' .closeList ∧ IsMark '{' .openRecord ∧
    IsMark '}' .closeRecord ∧ IsMark ',' .comma ∧ IsMark ':' .colon := by
  refine ⟨⟨rfl, ?_⟩, ⟨rfl, ?_⟩, ⟨rfl, ?_⟩, ⟨rfl, ?_⟩, ⟨rfl, ?_⟩, ⟨rfl, ?_⟩⟩ <;> decide

theorem lexes_word : Lexes ['n', 'u', 'l', 'l'] [.null] ∧
    Lexes ['t', 'r', 'u', 'e'] [.bool true] ∧ Lexes ['f', 'a', 'l', 's', 'e'] [.bool false] :=
  ⟨fun _ _ _ => rfl, fun _ _ _ => rfl, fun _ _ _ => rfl⟩

theorem mem_digits (h : c.isDigit = true) :
    c ∈ ['0', '1', '2', '3', '4', '5', '6', '7', '8', '9'] := by
  have hrange : 48 ≤ c.toNat ∧ c.toNat ≤ 57 := by
    simpa [Char.isDigit, UInt32.le_iff_toNat_le] using h
  have hall : ∀ n < 58, 48 ≤ n →
      Char.ofNat n ∈ ['0', '1', '2', '3', '4', '5', '6', '7', '8', '9'] := by
    decide
  rw [← Char.ofNat_toNat c]
  exact hall c.toNat (by omega) hrange.1

theorem decimal_eq_cons (hn : 0 < n) :
    ∃ d ds, decimal n = d :: ds ∧ d ≠ '0' ∧ ∀ c ∈ d :: ds, c.isDigit = true := by
  have head : ∃ d ds, decimal n = d :: ds ∧ d ≠ '0' := by
    induction n using Nat.strongRecOn with
    | _ n ih =>
      by_cases hlt : n < 10
      · refine ⟨n.digitChar, [], Nat.toDigits_of_lt_base hlt, ?_⟩
        rw [ne_eq, Nat.digitChar_eq_zero]
        omega
      · obtain ⟨d, ds, hd, hne⟩ := ih (n / 10) (by omega) (by omega)
        refine ⟨d, ds ++ [(n % 10).digitChar], ?_, hne⟩
        have hdigits : decimal n = decimal (n / 10) ++ [(n % 10).digitChar] :=
          Nat.toDigits_of_base_le (by decide) (by omega)
        rw [hdigits, hd, List.cons_append]
  obtain ⟨d, ds, hd, hne⟩ := head
  exact ⟨d, ds, hd, hne, fun c hc => isDigit_of_mem_decimal (hd ▸ hc)⟩

theorem le_ofDigitChars : acc ≤ Nat.ofDigitChars 10 ds acc := by
  induction ds generalizing acc with
  | nil => exact Nat.le_refl _
  | cons d ds ih =>
    rw [Nat.ofDigitChars_cons]
    refine Nat.le_trans ?_ ih
    omega

/-- Digits that stand for a number of 64 bits are all taken. -/
theorem takeDigits_eq (h : Nat.ofDigitChars 10 ds acc < UInt64.size) :
    takeDigits acc ds = (Nat.ofDigitChars 10 ds acc, []) := by
  induction ds generalizing acc with
  | nil => rfl
  | cons d ds ih =>
    rw [Nat.ofDigitChars_cons] at h ⊢
    have hfits : 10 * acc + (d.toNat - '0'.toNat) < UInt64.size :=
      Nat.lt_of_le_of_lt le_ofDigitChars h
    rw [takeDigits]
    simp only [hfits, if_true]
    exact ih h

theorem takeDigits_decimal (h : n < UInt64.size) : takeDigits 0 (decimal n) = (n, []) := by
  have hvalue : Nat.ofDigitChars 10 (decimal n) 0 = n := Nat.ofDigitChars_ten_toDigits
  rw [takeDigits_eq (by rwa [hvalue]), hvalue]

theorem lexFrom_digits (h : ∀ c ∈ ds, c.isDigit = true) :
    lexFrom done (.number .whole p) (ds ++ rest) =
      lexFrom done (.number .whole { p with whole := ds.reverse ++ p.whole }) rest := by
  induction ds generalizing p with
  | nil => rfl
  | cons d ds ih =>
    have hd := h d (by simp)
    have hstep : stepNumber .whole p d =
        some (.number .whole { p with whole := d :: p.whole }, []) := by
      simp [stepNumber, hd]
    simp only [List.cons_append, lexFrom, LexState.step, hstep, List.reverse_nil, List.nil_append]
    rw [ih fun c hc => h c (by simp [hc])]
    simp

/-- An integer ends where the text does not go on with a part of a number. -/
theorem lexFrom_number_end (hs : stage = .zero ∨ stage = .whole) (hr : Ends rest) :
    lexFrom done (.number stage p) rest = lexFrom (.number p.value? :: done) .between rest := by
  cases rest with
  | nil => rcases hs with rfl | rfl <;> simp [lexFrom, LexState.finish, NumberStage.closed]
  | cons c rest =>
    obtain ⟨hd, hpoint, he, hE⟩ := hr c (by simp)
    have hstep : stepNumber stage p c =
        (startToken c).map fun next => (next.1, .number p.value? :: next.2) := by
      rcases hs with rfl | rfl <;> simp [stepNumber, hd, hpoint, he, hE]
    simp only [lexFrom, LexState.step, hstep]
    cases startToken c with
    | none => rfl
    | some x => simp

theorem startToken_digit (h : c.isDigit = true) (hne : c ≠ '0') :
    startToken c = some (.number .whole ⟨false, [c], [], false, []⟩, []) := by
  have hmem := mem_digits h
  simp only [List.mem_cons, List.not_mem_nil, or_false] at hmem
  rcases hmem with rfl | rfl | rfl | rfl | rfl | rfl | rfl | rfl | rfl | rfl
  · exact absurd rfl hne
  all_goals rfl

theorem value?_of_natural {x : UInt64} {whole : List Char} (h : whole.reverse = decimal x.toNat) :
    (NumberParts.mk false whole [] false []).value? = some (.natural x) := by
  have htake : takeDigits 0 whole.reverse = (x.toNat, []) := by
    rw [h]
    exact takeDigits_decimal x.toNat_lt
  simp [NumberParts.value?, htake]

theorem value?_of_negative {x : Fin 0x8000000000000000} {whole : List Char}
    (h : whole.reverse = decimal (x.val + 1)) :
    (NumberParts.mk true whole [] false []).value? = some (.negative x) := by
  have hx := x.isLt
  have htake : takeDigits 0 whole.reverse = (x.val + 1, []) := by
    rw [h]
    refine takeDigits_decimal ?_
    simp only [UInt64.size]
    omega
  have hbound : x.val + 1 ≤ 0x8000000000000000 := by omega
  simp [NumberParts.value?, htake, hbound]

theorem lexes_natural (x : UInt64) : Lexes (decimal x.toNat) [.number (some (.natural x))] := by
  intro done rest hr
  -- zero is read in a stage of its own, after which no digit may come
  rcases Nat.eq_zero_or_pos x.toNat with hzero | hpos
  · obtain rfl : x = 0 := UInt64.toNat_inj.mp hzero
    have hstart : lexFrom done .between (decimal (0 : UInt64).toNat ++ rest) =
        lexFrom done (.number .zero ⟨false, ['0'], [], false, []⟩) rest := rfl
    rw [hstart, lexFrom_number_end (.inl rfl) hr]
    rfl
  · obtain ⟨d, ds, hd, hne, hdigits⟩ := decimal_eq_cons hpos
    have hstart : lexFrom done .between (d :: ds ++ rest) =
        lexFrom done (.number .whole ⟨false, [d], [], false, []⟩) (ds ++ rest) := by
      simp [lexFrom, LexState.step, startToken_digit (hdigits d (by simp)) hne]
    have hvalue : (NumberParts.mk false (ds.reverse ++ [d]) [] false []).value? =
        some (.natural x) :=
      value?_of_natural (by simp [hd])
    rw [hd, hstart, lexFrom_digits fun c hc => hdigits c (by simp [hc]),
      lexFrom_number_end (.inr rfl) hr, hvalue]
    rfl

theorem lexes_negative (x : Fin 0x8000000000000000) :
    Lexes ('-' :: decimal (x.val + 1)) [.number (some (.negative x))] := by
  intro done rest hr
  obtain ⟨d, ds, hd, hne, hdigits⟩ := decimal_eq_cons (n := x.val + 1) (by omega)
  have hfirst : stepNumber .sign ⟨true, [], [], false, []⟩ d =
      some (.number .whole ⟨true, [d], [], false, []⟩, []) := by
    simp [stepNumber, hne, hdigits d (by simp)]
  have hsign : startToken '-' = some (.number .sign ⟨true, [], [], false, []⟩, []) := rfl
  have hstart : lexFrom done .between ('-' :: (d :: ds) ++ rest) =
      lexFrom done (.number .whole ⟨true, [d], [], false, []⟩) (ds ++ rest) := by
    simp [lexFrom, LexState.step, hsign, hfirst]
  have hvalue : (NumberParts.mk true (ds.reverse ++ [d]) [] false []).value? =
      some (.negative x) :=
    value?_of_negative (by simp [hd])
  rw [hd, hstart, lexFrom_digits fun c hc => hdigits c (by simp [hc]),
    lexFrom_number_end (.inr rfl) hr, hvalue]
  rfl

theorem lexes_number {x : Number} (h : x.isExact) : Lexes x.chars [.number (some x)] := by
  cases x with
  | natural n => exact lexes_natural n
  | negative n => exact lexes_negative n
  | double x => cases h

/-- The four digits of a control character in an escape. -/
theorem hexadecimal_control : ∀ n < 32,
    List.replicate (4 - (hexadecimal n).length) '0' ++ hexadecimal n =
      ['0', '0', (n / 16).digitChar, (n % 16).digitChar] := by
  decide

theorem hexValue?_digitChar : ∀ d < 16, hexValue? d.digitChar = some d := by
  decide

theorem Quoted.pushUnit_control (h : n < 32) : q.pushUnit n = q.push (Char.ofNat n) := by
  have hlow : ¬ (0xDC00 ≤ n ∧ n < 0xE000) := by omega
  have hhigh : ¬ (0xD800 ≤ n ∧ n < 0xDC00) := by omega
  simp only [Quoted.pushUnit, if_neg hlow, if_neg hhigh]

/-- Every character is read as itself, whether it is escaped or not. -/
theorem lexFrom_escapeChar :
    lexFrom done (.quoted q) (escapeChar c ++ rest) = lexFrom done (.quoted (q.push c)) rest := by
  unfold escapeChar
  split
  next h => subst h; rfl
  split
  next h => subst h; rfl
  split
  next h => subst h; rfl
  split
  next h => subst h; rfl
  split
  next h => subst h; rfl
  split
  next h => subst h; rfl
  split
  next h => subst h; rfl
  split
  next h =>
    have hone := hexValue?_digitChar (c.toNat / 16) (by omega)
    have htwo := hexValue?_digitChar (c.toNat % 16) (by omega)
    have hzero : hexValue? '0' = some 0 := rfl
    have hvalue : 16 * (c.toNat / 16) + c.toNat % 16 = c.toNat := Nat.div_add_mod ..
    simp only [hexadecimal_control _ h, List.cons_append, List.nil_append, lexFrom, LexState.step,
      stepEscape]
    simp [hone, htwo, hzero, hvalue, Quoted.pushUnit_control h, Char.ofNat_toNat]
  next hquote hbackslash _ _ _ _ _ hcontrol =>
    simp [lexFrom, LexState.step, hquote, hbackslash, hcontrol]

theorem lexFrom_quoted (chars read : List Char) :
    lexFrom done (.quoted ⟨read, none, false⟩) (chars.flatMap escapeChar ++ '"' :: rest) =
      lexFrom (.text (some (String.ofList (read.reverse ++ chars))) :: done) .between rest := by
  induction chars generalizing read with
  | nil => simp [lexFrom, LexState.step, Quoted.value?]
  | cons c chars ih =>
    have hpush : Quoted.push ⟨read, none, false⟩ c = ⟨c :: read, none, false⟩ := rfl
    rw [List.flatMap_cons, List.append_assoc, lexFrom_escapeChar, hpush, ih, List.reverse_cons,
      List.append_assoc, List.singleton_append]

theorem lexFrom_quote {x : String} :
    lexFrom done .between (quote x ++ rest) = lexFrom (.text (some x) :: done) .between rest := by
  have hstart : startToken '"' = some (.quoted ⟨[], none, false⟩, []) := rfl
  have hquoted :
      lexFrom done (.quoted ⟨[], none, false⟩) (x.toList.flatMap escapeChar ++ '"' :: rest) =
        lexFrom (.text (some (String.ofList ([].reverse ++ x.toList))) :: done) .between rest :=
    lexFrom_quoted x.toList []
  rw [List.reverse_nil, List.nil_append, String.ofList_toList] at hquoted
  simp only [quote, List.cons_append, List.append_assoc, lexFrom,
    LexState.step, hstart, List.reverse_nil, List.nil_append]
  exact hquoted

theorem lexes_quote {x : String} : Lexes (quote x) [.text (some x)] :=
  fun _ _ _ => lexFrom_quote

mutual

theorem Json.lexes : (j : Json) → j.IsExact → Lexes j.chars j.tokens
  | .null, _ => by
    rw [Json.chars, Json.tokens]
    exact lexes_word.1
  | .bool true, _ => by
    rw [Json.chars, Json.tokens]
    exact lexes_word.2.1
  | .bool false, _ => by
    rw [Json.chars, Json.tokens]
    exact lexes_word.2.2
  | .number n, h => by
    rw [Json.chars, Json.tokens]
    exact lexes_number h
  | .text x, _ => by
    rw [Json.chars, Json.tokens]
    exact lexes_quote
  | .list items, h => by
    rw [Json.chars, Json.tokens]
    have hitems := Json.itemsLexes items h
    exact .mark isMark_marks.1 (hitems.append_mark isMark_marks.2.1 .nil)
  | .record members, h => by
    rw [Json.chars, Json.tokens]
    have hmembers := Json.membersLexes members h
    exact .mark isMark_marks.2.2.1 (hmembers.append_mark isMark_marks.2.2.2.1 .nil)

theorem Json.itemsLexes : (items : List Json) → Json.ItemsExact items →
    Lexes (Json.itemsChars items) (Json.itemsTokens items)
  | [], _ => .nil
  | [v], h => by
    rw [Json.itemsChars, Json.itemsTokens]
    exact v.lexes h.1
  | v :: w :: rest, h => by
    have hrest := Json.itemsLexes (w :: rest) h.2
    rw [Json.itemsChars, Json.itemsTokens]
    · exact (v.lexes h.1).append_mark isMark_marks.2.2.2.2.1 hrest
    · simp
    · simp

theorem Json.membersLexes : (members : List (String × Json)) → Json.MembersExact members →
    Lexes (Json.membersChars members) (Json.membersTokens members)
  | [], _ => .nil
  | [(k, v)], h => by
    rw [Json.membersChars, Json.membersTokens]
    exact lexes_quote.append_mark isMark_marks.2.2.2.2.2 (v.lexes h.1)
  | (k, v) :: w :: rest, h => by
    have hrest := Json.membersLexes (w :: rest) h.2
    have hvalue := (v.lexes h.1).append_mark isMark_marks.2.2.2.2.1 hrest
    rw [Json.membersChars, Json.membersTokens]
    · exact lexes_quote.append_mark isMark_marks.2.2.2.2.2 hvalue
    · simp
    · simp

end

/-- No word that goes on with the end of a line is being read. -/
def LexState.AwaitsNoNewline : LexState → Prop
  | .word _ rest => '\n' ∉ rest
  | _ => True

/-- The same of the state after a character. -/
def NextAwaitsNoNewline (read : Option (LexState × List Token)) : Prop :=
  ∀ next ∈ read, next.1.AwaitsNoNewline

theorem NextAwaitsNoNewline.none : NextAwaitsNoNewline none :=
  fun _ h => nomatch h

theorem NextAwaitsNoNewline.some {next : LexState × List Token} (h : next.1.AwaitsNoNewline) :
    NextAwaitsNoNewline (some next) := by
  rintro _ ⟨⟩
  exact h

theorem NextAwaitsNoNewline.ite {condition : Prop} [Decidable condition]
    (h : NextAwaitsNoNewline started) (hother : NextAwaitsNoNewline other) :
    NextAwaitsNoNewline (if condition then started else other) := by
  split
  · exact h
  · exact hother

theorem NextAwaitsNoNewline.map (h : NextAwaitsNoNewline started) :
    NextAwaitsNoNewline (started.map fun (state, tokens) => (state, token :: tokens)) := by
  cases started with
  | none => exact .none
  | some next => exact .some (h next rfl)

theorem nextAwaitsNoNewline_startToken : NextAwaitsNoNewline (startToken c) := by
  unfold startToken
  repeat' apply NextAwaitsNoNewline.ite
  all_goals first
    | exact .none
    | exact .some trivial
    | exact .some (show _ ∉ _ by decide)

theorem nextAwaitsNoNewline_stepNumber : NextAwaitsNoNewline (stepNumber stage p c) := by
  unfold stepNumber
  cases stage
  all_goals
    repeat' apply NextAwaitsNoNewline.ite
    all_goals first
      | exact .none
      | exact .some trivial
      | exact nextAwaitsNoNewline_startToken.map

theorem nextAwaitsNoNewline_stepEscape :
    NextAwaitsNoNewline ((stepEscape q c).map fun s => (s, [])) := by
  rintro ⟨_, _⟩ h
  obtain ⟨after, hafter, ⟨⟩⟩ := Option.map_eq_some_iff.mp h
  unfold stepEscape at hafter
  repeat' split at hafter
  all_goals
    cases hafter
    try trivial

theorem LexState.AwaitsNoNewline.step (ho : state.AwaitsNoNewline) :
    NextAwaitsNoNewline (state.step c) := by
  cases state with
  | between => exact nextAwaitsNoNewline_startToken
  | number stage p => exact nextAwaitsNoNewline_stepNumber
  | word token rest =>
    match rest with
    | [] => exact .none
    | [d] => exact .ite (.some trivial) .none
    | d :: e :: rest => exact .ite (.some fun hmem => ho (List.mem_cons_of_mem d hmem)) .none
  | quoted q =>
    exact .ite (.some trivial) (.ite (.some trivial) (.ite .none (.some trivial)))
  | escaped q => exact nextAwaitsNoNewline_stepEscape
  | unit q value left =>
    intro next h
    obtain ⟨digit, -, hread⟩ := Option.bind_eq_some_iff.mp h
    match left with
    | 0 => cases hread
    | 1 => cases hread; trivial
    | left + 2 => cases hread; trivial

/-- The end of a line completes what the end of the text would. -/
theorem finish_newline (ho : state.AwaitsNoNewline) :
    ((state.step '\n').bind fun next => next.1.finish.map (next.2 ++ ·)) = state.finish := by
  cases state with
  | between | quoted q | escaped q | unit q value left => rfl
  | number stage p => cases stage <;> rfl
  | word token rest =>
    match rest with
    | [] => rfl
    | [d] =>
      have hne : '\n' ≠ d := fun heq => ho (List.mem_cons.mpr (.inl heq))
      simp [LexState.step, hne, LexState.finish]
    | d :: e :: rest =>
      have hne : '\n' ≠ d := fun heq => ho (List.mem_cons.mpr (.inl heq))
      simp [LexState.step, hne, LexState.finish]

theorem lexFrom_newline (ho : state.AwaitsNoNewline) :
    lexFrom done state (text ++ ['\n']) = lexFrom done state text := by
  induction text generalizing done state with
  | nil =>
    have hfinish := finish_newline ho
    simp only [List.nil_append, lexFrom]
    rw [← hfinish]
    cases state.step '\n' with
    | none => rfl
    | some next =>
      obtain ⟨after, tokens⟩ := next
      cases hn : after.finish <;> simp [hn]
  | cons c text ih =>
    simp only [List.cons_append, lexFrom]
    cases hs : state.step c with
    | none => rfl
    | some next => exact ih (ho.step next hs)

/-- The end of a line after a text does not matter. -/
theorem tokens?_newline : tokens? (text ++ ['\n']) = tokens? text :=
  lexFrom_newline trivial

/-- A printed value is read as its tokens, also with the end of a line after it. -/
theorem tokens?_chars {j : Json} (h : j.IsExact) :
    tokens? j.chars = some j.tokens ∧ tokens? (j.chars ++ ['\n']) = some j.tokens := by
  have hchars : tokens? j.chars = some j.tokens := by
    have hread := j.lexes h [] [] ends_nil
    rw [List.append_nil, List.append_nil] at hread
    rw [tokens?, hread]
    simp [lexFrom, LexState.finish]
  exact ⟨hchars, tokens?_newline.trans hchars⟩

end LedgerClient
