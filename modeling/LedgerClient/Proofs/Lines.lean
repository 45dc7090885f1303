import LedgerClient.LineChannel
import LedgerClient.Proofs.Lexing
import Mathlib.Data.List.Basic

namespace LedgerClient

variable {c : Char} {n : Nat} {text other : String} {texts : List String}
  {bytes line rest : List UInt8} {conn : Connection}

theorem newline_not_mem_decimal : '\n' ∉ decimal n := by
  intro h
  have hdigit := isDigit_of_mem_decimal h
  cases hdigit

theorem newline_not_mem_escapeChar : '\n' ∉ escapeChar c := by
  have hcontrol : ∀ n < 32,
      '\n' ∉ List.replicate (4 - (hexadecimal n).length) '0' ++ hexadecimal n := by
    decide
  unfold escapeChar
  split
  · decide
  split
  · decide
  split
  · decide
  split
  · decide
  split
  · decide
  split
  · decide
  split
  · decide
  split
  next h => simpa using hcontrol c.toNat h
  next hnewline _ _ _ => simpa using Ne.symm hnewline

theorem newline_not_mem_chars (x : Double) : '\n' ∉ x.chars := by
  have hdigits : ∀ n, '\n' ∉ decimal n := fun _ => newline_not_mem_decimal
  have htake : ∀ n k, '\n' ∉ (decimal n).take k := fun n k h => hdigits n (List.mem_of_mem_take h)
  have hdrop : ∀ n k, '\n' ∉ (decimal n).drop k := fun n k h => hdigits n (List.mem_of_mem_drop h)
  have htail : ∀ n, '\n' ∉ (decimal n).tail := fun n h => hdigits n (List.mem_of_mem_tail h)
  unfold Double.chars
  by_cases hn : x.negative
  all_goals
    simp only [hn, if_true, Bool.false_eq_true, if_false]
    split
    · decide
    · split
      · simp [hdigits, List.mem_replicate]
      split
      · simp [htake, hdrop]
      split
      · simp [hdigits, List.mem_replicate]
      · split <;> split <;> simp [hdigits, htake, htail]

theorem newline_of_mem_utf8EncodeChar (h : lineFeed ∈ String.utf8EncodeChar c) : c = '\n' := by
  -- all bytes of a code of more than one byte
  have high : ∀ {a : Nat}, 0x80 ≤ a → a < 0x100 → lineFeed ≠ UInt8.ofNat a := by
    intro a hlow hhigh heq
    have hnat : (10 : Nat) = a % 256 := congrArg UInt8.toNat heq
    omega
  simp only [String.utf8EncodeChar] at h
  have hten : c.val.toNat = 10 := by
    generalize c.val.toNat = v at h
    split at h
    next hle =>
      have hnat : (10 : Nat) = v % 256 := congrArg UInt8.toNat (List.mem_singleton.mp h)
      omega
    next =>
      split at h
      next =>
        simp only [List.mem_cons, List.not_mem_nil, or_false] at h
        rcases h with h | h <;> exact absurd h (high (by omega) (by omega))
      next =>
        split at h
        next =>
          simp only [List.mem_cons, List.not_mem_nil, or_false] at h
          rcases h with h | h | h <;> exact absurd h (high (by omega) (by omega))
        next =>
          simp only [List.mem_cons, List.not_mem_nil, or_false] at h
          rcases h with h | h | h | h <;> exact absurd h (high (by omega) (by omega))
  have hc : c.toNat = 10 := hten
  rw [← Char.ofNat_toNat c, hc]

theorem newline_not_mem_number (x : Number) : '\n' ∉ x.chars := by
  cases x with
  | natural => exact newline_not_mem_decimal
  | negative =>
    rw [Number.chars, List.mem_cons, not_or]
    exact ⟨by decide, newline_not_mem_decimal⟩
  | double x => exact newline_not_mem_chars x

theorem newline_not_mem_quote {x : String} : '\n' ∉ quote x := by
  simp [quote, List.mem_flatMap, newline_not_mem_escapeChar]

mutual

theorem Json.newline_not_mem : (j : Json) → '\n' ∉ j.chars
  | .null | .bool true | .bool false => by
    rw [Json.chars]
    decide
  | .number x => by
    rw [Json.chars]
    exact newline_not_mem_number x
  | .text x => by
    rw [Json.chars]
    exact newline_not_mem_quote
  | .list items => by
    have hitems := Json.newline_not_mem_items items
    simp [Json.chars, hitems]
  | .record members => by
    have hmembers := Json.newline_not_mem_members members
    simp [Json.chars, hmembers]

theorem Json.newline_not_mem_items : (items : List Json) → '\n' ∉ Json.itemsChars items
  | [] => by
    rw [Json.itemsChars]
    exact List.not_mem_nil
  | [v] => by
    rw [Json.itemsChars]
    exact v.newline_not_mem
  | v :: w :: rest => by
    have hv := v.newline_not_mem
    have hrest := Json.newline_not_mem_items (w :: rest)
    simp [Json.itemsChars, hv, hrest]

theorem Json.newline_not_mem_members : (members : List (String × Json)) →
    '\n' ∉ Json.membersChars members
  | [] => by
    rw [Json.membersChars]
    exact List.not_mem_nil
  | [(k, v)] => by
    have hv := v.newline_not_mem
    simp [Json.membersChars, hv, newline_not_mem_quote]
  | (k, v) :: w :: rest => by
    have hv := v.newline_not_mem
    have hrest := Json.newline_not_mem_members (w :: rest)
    simp [Json.membersChars, hv, hrest, newline_not_mem_quote]

end

/-- The bytes of a text. -/
def utf8 (text : String) : List UInt8 :=
  text.toByteArray.data.toList

theorem utf8_append {text more : String} : utf8 (text ++ more) = utf8 text ++ utf8 more := by
  simp [utf8]

theorem utf8_eq_flatMap (text : String) :
    utf8 text = text.toList.flatMap String.utf8EncodeChar := by
  rw [utf8, ← String.utf8Encode_toList]
  simp [List.utf8Encode]

theorem fromUTF8?_utf8 (text : String) : String.fromUTF8? ⟨(utf8 text).toArray⟩ = some text := by
  have hbytes : (⟨(utf8 text).toArray⟩ : ByteArray) = text.toByteArray := rfl
  rw [hbytes, String.fromUTF8?, dif_pos text.isValidUTF8]
  rfl

theorem utf8_injective (h : utf8 text = utf8 other) : text = other := by
  have hread := fromUTF8?_utf8 text
  rw [h, fromUTF8?_utf8] at hread
  exact (Option.some.inj hread).symm

theorem fromUTF8?_eq_some (h : String.fromUTF8? ⟨bytes.toArray⟩ = some text) :
    bytes = utf8 text := by
  unfold String.fromUTF8? at h
  split at h
  · cases h
    rfl
  · cases h

theorem fromUTF8?_eq_none (h : ∀ text, bytes ≠ utf8 text) :
    String.fromUTF8? ⟨bytes.toArray⟩ = none := by
  cases hread : String.fromUTF8? ⟨bytes.toArray⟩ with
  | none => rfl
  | some text => exact absurd (fromUTF8?_eq_some hread) (h text)

theorem lineFeed_not_mem_utf8 (h : '\n' ∉ text.toList) : lineFeed ∉ utf8 text := by
  rw [utf8_eq_flatMap, List.mem_flatMap]
  rintro ⟨c, hc, hmem⟩
  obtain rfl := newline_of_mem_utf8EncodeChar hmem
  exact h hc

theorem utf8_line : utf8 (text ++ "\n") = utf8 text ++ [lineFeed] :=
  utf8_append

/-- Without the end of its line a text is still a text. -/
theorem utf8_of_line (h : bytes ++ [lineFeed] = utf8 text) : ∃ before, bytes = utf8 before := by
  rcases text.toList.eq_nil_or_concat with hnil | ⟨init, last, hlast⟩
  · rw [utf8_eq_flatMap, hnil] at h
    cases bytes <;> cases h
  rw [List.concat_eq_append] at hlast
  have hsplit : bytes ++ [lineFeed] =
      init.flatMap String.utf8EncodeChar ++ String.utf8EncodeChar last := by
    rw [h, utf8_eq_flatMap, hlast, List.flatMap_append, List.flatMap_singleton]
  have hmem : lineFeed ∈ String.utf8EncodeChar last := by
    have hends := congrArg List.getLast? hsplit
    rw [List.getLast?_concat,
      List.getLast?_append_of_ne_nil _ String.utf8EncodeChar_ne_nil] at hends
    exact List.mem_of_getLast? hends.symm
  obtain rfl := newline_of_mem_utf8EncodeChar hmem
  refine ⟨String.ofList init, ?_⟩
  rw [utf8_eq_flatMap, String.toList_ofList]
  exact List.append_cancel_right hsplit

theorem bne_lineFeed (h : lineFeed ∉ line) : ∀ b ∈ line, (b != lineFeed) = true :=
  fun _ hb => bne_iff_ne.mpr fun heq => h (heq ▸ hb)

/-- The first line of what has not been read ends at the first line feed. -/
theorem takeLine?_eq (h : lineFeed ∉ line) (hc : conn.unread = line ++ lineFeed :: rest) :
    conn.takeLine? = some (line ++ [lineFeed], { conn with unread := rest }) := by
  have htake : conn.unread.takeWhile (· != lineFeed) = line := by
    rw [hc, List.takeWhile_append_of_pos (bne_lineFeed h)]
    simp
  have hlength : conn.unread.length = line.length + (rest.length + 1) := by
    rw [hc, List.length_append, List.length_cons]
  have hdrop : conn.unread.drop (line.length + 1) = rest := by
    rw [hc, ← List.drop_drop, List.drop_left, List.drop_one, List.tail_cons]
  simp only [Connection.takeLine?, htake, hdrop]
  rw [if_pos (by omega)]

/-- Takes so many lines off what has not been read. -/
def Connection.takeLines? : Nat → Connection → Option (List (List UInt8) × Connection)
  | 0, c => some ([], c)
  | n + 1, c => do
    let (line, c) ← c.takeLine?
    let (lines, c) ← Connection.takeLines? n c
    return (line :: lines, c)

/-- Texts without line feeds that are sent as lines are read one by one. -/
theorem takeLines?_eq (h : ∀ text ∈ texts, '\n' ∉ text.toList)
    (hc : conn.unread = (texts.flatMap fun text => utf8 (text ++ "\n")) ++ rest) :
    conn.takeLines? texts.length =
      some (texts.map fun text => utf8 (text ++ "\n"), { conn with unread := rest }) := by
  induction texts generalizing conn with
  | nil =>
    have hrest : rest = conn.unread := by simpa using hc.symm
    rw [hrest]
    rfl
  | cons text texts ih =>
    have hline : lineFeed ∉ utf8 text := lineFeed_not_mem_utf8 (h text (by simp))
    have hfirst : conn.unread = utf8 text ++ lineFeed ::
        ((texts.flatMap fun text => utf8 (text ++ "\n")) ++ rest) := by
      rw [hc, List.flatMap_cons, utf8_line]
      simp
    have hothers : Connection.takeLines? texts.length { conn with
        unread := (texts.flatMap fun text => utf8 (text ++ "\n")) ++ rest } = _ :=
      ih (fun other ho => h other (by simp [ho])) rfl
    rw [List.length_cons, Connection.takeLines?, takeLine?_eq hline hfirst, Option.bind_eq_bind,
      Option.bind_some]
    simp only [hothers]
    rw [List.map_cons, utf8_line]
    rfl

end LedgerClient
