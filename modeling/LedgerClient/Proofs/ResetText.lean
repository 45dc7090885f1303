import LedgerClient.StreamReset
import Mathlib

namespace LedgerClient

variable {c letter : Char} {word s text rest front back : List Char} {before : Option Char}

/-- Simple case folding, as far as it leads to a letter of ASCII: of the capitals, of the long s and
of the sign for kelvin. -/
def foldLatin (c : Char) : Char :=
  if c = 'ſ' then 's' else if c = '\u212A' then 'k' else c.toLower

/-- A letter or digit of ASCII, or a character that folds to one. -/
def isBasicAlphanum (c : Char) : Bool :=
  (foldLatin c).isAlphanum

/-- A word in any letter case. -/
def Spells (word s : List Char) : Prop :=
  s.map foldLatin = word

instance : Decidable (Spells word s) :=
  inferInstanceAs (Decidable (s.map foldLatin = word))

/-- The parts of a text in which a character joins the words `rst` and `stream`. No other word runs
on into the first of them, and the second runs on into no other. -/
structure Reset where
  before : List Char
  first : List Char
  joiner : Char
  second : List Char
  after : List Char
  spells_first : Spells ['r', 's', 't'] first
  spells_second : Spells ['s', 't', 'r', 'e', 'a', 'm'] second
  begins : ∀ c ∈ before.getLast?, isWordChar c = false
  ends : ∀ c ∈ after.head?, isWordChar c = false

def Reset.chars (r : Reset) : List Char :=
  r.before ++ (r.first ++ r.joiner :: (r.second ++ r.after))

theorem toLower_eq_iff (h : letter.isLower = true) :
    c.toLower = letter ↔ c = letter ∨ c = letter.toUpper := by
  have hlower : letter.toLower = letter :=
    Char.toLower_eq_of_not_isUpper (Char.not_isUpper_of_isLower h)
  constructor
  · rintro rfl
    by_cases hc : c.isUpper = true
    · have hupper : c.toUpper = c := Char.toUpper_eq_of_not_isLower (Char.not_isLower_of_isUpper hc)
      exact .inr (by rw [Char.toUpper_toLower_eq_toUpper, hupper])
    · exact .inl (Char.toLower_eq_of_not_isUpper hc).symm
  · rintro (rfl | rfl)
    · exact hlower
    · rw [Char.toLower_toUpper_eq_toLower, hlower]

/-- The search folds like `foldLatin`, but to the letter `k`. -/
theorem foldsTo_iff (h : letter.isLower = true) (hk : letter ≠ 'k') :
    foldsTo letter c = true ↔ foldLatin c = letter := by
  have hfolds : foldsTo letter c = true ↔ c.toLower = letter ∨ letter = 's' ∧ c = 'ſ' := by
    simp [foldsTo, toLower_eq_iff h]
  have hne : ∀ d : Char, d.isLower = false → d ≠ letter := by
    rintro d hd rfl
    rw [h] at hd
    cases hd
  rw [hfolds]
  unfold foldLatin
  split
  next hc =>
    subst hc
    simp [hne 'ſ' (by decide), eq_comm]
  next hc =>
    split
    next hkelvin =>
      subst hkelvin
      simp [hne '\u212A' (by decide), hk.symm]
    next => simp [hc]

theorem isDigit_of_isAlpha (h : c.isAlpha = true) : c.isDigit = false := by
  grind [Char.isAlpha, Char.isUpper, Char.isLower, Char.isDigit]

theorem isDigit_toLower (c : Char) : c.toLower.isDigit = c.isDigit := by
  by_cases h : c.isUpper = true
  · have hc : c.isAlpha = true := by simp [Char.isAlpha, h]
    have hlower : c.toLower.isAlpha = true := by rwa [Char.isAlpha_toLower_eq_isAlpha]
    rw [isDigit_of_isAlpha hc, isDigit_of_isAlpha hlower]
  · rw [Char.toLower_eq_of_not_isUpper h]

theorem isBasicAlphanum_iff :
    isBasicAlphanum c = true ↔ c.isAlphanum = true ∨ c = 'ſ' ∨ c = '\u212A' := by
  unfold isBasicAlphanum foldLatin
  split
  next hc => simp [hc, Char.isAlphanum]
  next hc =>
    split
    next hk => simp [hk, Char.isAlphanum]
    next hk => simp [hc, hk, Char.isAlphanum, isDigit_toLower]

theorem isJoiner_iff : isJoiner c = true ↔ isBasicAlphanum c = false := by
  rw [← Bool.not_eq_true, isBasicAlphanum_iff]
  simp [isJoiner, Char.isAlphanum, and_comm, and_assoc]

theorem endsWord_iff : endsWord s = true ↔ ∀ c ∈ s.head?, isWordChar c = false := by
  cases s with
  | nil => simp [endsWord]
  | cons c s => simp [endsWord]

theorem afterWord?_eq_some_iff (h : ∀ letter ∈ word, letter.isLower = true ∧ letter ≠ 'k') :
    afterWord? word text = some rest ↔ ∃ s, text = s ++ rest ∧ Spells word s := by
  induction word generalizing text with
  | nil => simp [afterWord?, Spells]
  | cons letter word ih =>
    obtain ⟨⟨hlower, hk⟩, hword⟩ := List.forall_mem_cons.mp h
    cases text with
    | nil => simp [afterWord?, Spells]
    | cons c text =>
      rw [afterWord?, Option.ite_none_right_eq_some, foldsTo_iff hlower hk, ih hword]
      constructor
      · rintro ⟨hc, s, rfl, hs⟩
        exact ⟨c :: s, rfl, by rw [Spells, List.map_cons, hc, hs]⟩
      · rintro ⟨s, htext, hs⟩
        cases s with
        | nil => cases hs
        | cons d s =>
          cases htext
          obtain ⟨hc, hs⟩ := List.cons_eq_cons.mp hs
          exact ⟨hc, s, rfl, hs⟩

theorem startsWithReset_iff : startsWithReset text = true ↔
    ∃ first c second after, text = first ++ c :: (second ++ after) ∧
      Spells ['r', 's', 't'] first ∧ isBasicAlphanum c = false ∧
      Spells ['s', 't', 'r', 'e', 'a', 'm'] second ∧ ∀ d ∈ after.head?, isWordChar d = false := by
  unfold startsWithReset
  constructor
  · intro h
    split at h
    next c rest hfirst =>
      obtain ⟨first, rfl, hspells⟩ := (afterWord?_eq_some_iff (by simp)).mp hfirst
      simp only [Bool.and_eq_true, Option.any_eq_true] at h
      obtain ⟨hc, after, hsecond, hends⟩ := h
      obtain ⟨second, rfl, hspells'⟩ := (afterWord?_eq_some_iff (by simp)).mp hsecond
      exact ⟨first, c, second, after, rfl, hspells, isJoiner_iff.mp hc, hspells',
        endsWord_iff.mp hends⟩
    next => cases h
  · rintro ⟨first, c, second, after, htext, hspells, hc, hspells', hends⟩
    rw [(afterWord?_eq_some_iff (by simp)).mpr ⟨first, htext, hspells⟩]
    dsimp only
    rw [(afterWord?_eq_some_iff (by simp)).mpr ⟨second, rfl, hspells'⟩, isJoiner_iff.mpr hc]
    exact endsWord_iff.mpr hends

theorem findsReset_iff : findsReset before text = true ↔
    ∃ front rest, text = front ++ rest ∧ startsWithReset rest = true ∧
      ∀ c ∈ front.getLast?.or before, isWordChar c = false := by
  induction text generalizing before with
  | nil =>
    constructor
    · intro h
      cases h
    · rintro ⟨front, rest, htext, hstarts, -⟩
      obtain ⟨rfl, rfl⟩ := List.append_eq_nil_iff.mp htext.symm
      cases hstarts
  | cons c text ih =>
    have hbefore : (!before.any isWordChar) = true ↔ ∀ c ∈ before, isWordChar c = false := by
      cases before <;> simp
    -- before the rest stands the last character of `front`, or `c` if `front` is empty
    have hfront : ∀ front : List Char,
        (c :: front).getLast?.or before = front.getLast?.or (some c) :=
      fun front => by simp [List.getLast?_cons]
    rw [findsReset, Bool.or_eq_true, Bool.and_eq_true, ih, hbefore]
    constructor
    · rintro (⟨hboundary, hstarts⟩ | ⟨front, rest, rfl, hstarts, hboundary⟩)
      · exact ⟨[], c :: text, rfl, hstarts, hboundary⟩
      · exact ⟨c :: front, rest, rfl, hstarts, by rwa [hfront]⟩
    · rintro ⟨front, rest, htext, hstarts, hboundary⟩
      cases front with
      | nil =>
        cases htext
        exact .inl ⟨hboundary, hstarts⟩
      | cons d front =>
        cases htext
        exact .inr ⟨front, rest, rfl, hstarts, by rwa [hfront] at hboundary⟩

theorem isStreamReset_iff (message : String) : isStreamReset message = true ↔
    ∃ r : Reset, r.chars = message.toList ∧ isBasicAlphanum r.joiner = false := by
  rw [isStreamReset, findsReset_iff]
  simp only [Option.or_none]
  constructor
  · rintro ⟨before, rest, htext, hstarts, hbegins⟩
    obtain ⟨first, c, second, after, rfl, hfirst, hc, hsecond, hends⟩ :=
      startsWithReset_iff.mp hstarts
    exact ⟨⟨before, first, c, second, after, hfirst, hsecond, hbegins, hends⟩, htext.symm, hc⟩
  · rintro ⟨r, htext, hc⟩
    have hstarts : startsWithReset (r.first ++ r.joiner :: (r.second ++ r.after)) = true :=
      startsWithReset_iff.mpr
        ⟨_, _, _, _, rfl, r.spells_first, hc, r.spells_second, r.ends⟩
    exact ⟨r.before, _, htext.symm, hstarts, r.begins⟩

/-- The same parts in a longer text. -/
def Reset.within (r : Reset) (front back : List Char)
    (hfront : ∀ c ∈ front.getLast?, isWordChar c = false)
    (hback : ∀ c ∈ back.head?, isWordChar c = false) : Reset :=
  { r with
    before := front ++ r.before
    after := r.after ++ back
    begins := by
      rw [List.getLast?_append]
      intro c hc
      rcases Option.or_eq_some_iff.mp hc with hc | ⟨-, hc⟩
      · exact r.begins c hc
      · exact hfront c hc
    ends := by
      rw [List.head?_append]
      intro c hc
      rcases Option.or_eq_some_iff.mp hc with hc | ⟨-, hc⟩
      · exact r.ends c hc
      · exact hback c hc }

theorem Reset.chars_within (r : Reset) (hfront : ∀ c ∈ front.getLast?, isWordChar c = false)
    (hback : ∀ c ∈ back.head?, isWordChar c = false) :
    (r.within front back hfront hback).chars = front ++ (r.chars ++ back) := by
  simp [Reset.chars, Reset.within]

theorem Fault.isTransient_iff (f : Fault) : f.isTransient = true ↔
    f.code = .resourceExhausted ∨ f.code = .unavailable ∨
      f.code = .internal ∧ isStreamReset f.message = true := by
  obtain ⟨code, message⟩ := f
  cases code <;> simp [Fault.isTransient]

/-- A text reports a stream reset if and only if it has parts between which no letter or digit of
ASCII stands, nor a character that folds to one. What stands before and after such a text does not
matter, as long as no word runs on. An internal fault is transient if and only if its message has
such parts. -/
theorem resets_of_text :
    (∀ message : String, isStreamReset message = true ↔
      ∃ r : Reset, r.chars = message.toList ∧ isBasicAlphanum r.joiner = false) ∧
    (∀ c, isBasicAlphanum c = true ↔ c.isAlphanum = true ∨ c = 'ſ' ∨ c = '\u212A') ∧
    (∀ front message back : String, (∀ c ∈ front.toList.getLast?, isWordChar c = false) →
      (∀ c ∈ back.toList.head?, isWordChar c = false) → isStreamReset message = true →
      isStreamReset (front ++ message ++ back) = true) ∧
    ∀ f : Fault, f.isTransient = true ↔
      f.code = .resourceExhausted ∨ f.code = .unavailable ∨ f.code = .internal ∧
        ∃ r : Reset, r.chars = f.message.toList ∧ isBasicAlphanum r.joiner = false := by
  refine ⟨isStreamReset_iff, fun c => isBasicAlphanum_iff, ?_, fun f => ?_⟩
  · intro front message back hfront hback h
    obtain ⟨r, htext, hc⟩ := (isStreamReset_iff message).mp h
    have hchars : (r.within _ _ hfront hback).chars = (front ++ message ++ back).toList := by
      rw [r.chars_within, htext, String.toList_append, String.toList_append, List.append_assoc]
    exact (isStreamReset_iff _).mpr ⟨_, hchars, hc⟩
  · rw [f.isTransient_iff, isStreamReset_iff]

/-- The table of word characters in two halves, each of which is short enough to be searched by
evaluation. -/
theorem isWordChar_eq_or (c : Char) :
    isWordChar c = ((wordRanges.take 400).any (fun r => r.1 ≤ c.toNat && c.toNat ≤ r.2) ||
      (wordRanges.drop 400).any fun r => r.1 ≤ c.toNat && c.toNat ≤ r.2) := by
  rw [← List.any_append, List.take_append_drop, isWordChar]

theorem reset_after_failed_matches :
    (∀ c ∈ "burst_stream rst ".toList.getLast?, isWordChar c = false) ∧
      (∀ c ∈ " (code 2)".toList.head?, isWordChar c = false) ∧
      isStreamReset "RſT—ſtream" = true ∧
      isStreamReset ("burst_stream rst " ++ "RſT—ſtream" ++ " (code 2)") = true := by
  have hblank : isWordChar ' ' = false := by
    rw [isWordChar_eq_or]
    decide +kernel
  have hfront : ∀ c ∈ "burst_stream rst ".toList.getLast?, isWordChar c = false := by
    rintro c ⟨⟩
    exact hblank
  have hback : ∀ c ∈ " (code 2)".toList.head?, isWordChar c = false := by
    rintro c ⟨⟩
    exact hblank
  have hreset : isStreamReset "RſT—ſtream" = true := by decide +kernel
  exact ⟨hfront, hback, hreset, resets_of_text.2.2.1 _ _ _ hfront hback hreset⟩

theorem Spells.length_eq (h : Spells word s) : s.length = word.length := by
  rw [← h, List.length_map]

/-- In a text of ten characters only one of them can join the words. -/
theorem Reset.joiner_eq (r : Reset) {s t : List Char} (h : r.chars = s ++ c :: t)
    (hs : s.length = 3) (ht : t.length = 6) : r.joiner = c := by
  have hfirst : r.first.length = 3 := r.spells_first.length_eq
  have hsecond : r.second.length = 6 := r.spells_second.length_eq
  have hlength := congrArg List.length h
  simp only [Reset.chars, List.length_append, List.length_cons, hfirst, hsecond, hs, ht] at hlength
  have hbefore : r.before = [] := List.eq_nil_of_length_eq_zero (by omega)
  rw [Reset.chars, hbefore, List.nil_append] at h
  have hrest := (List.append_inj h (hfirst.trans hs.symm)).2
  exact (List.cons_eq_cons.mp hrest).1

/-- The two words with a character between them, and nothing else. -/
def Reset.joinedBy (c : Char) : Reset where
  before := []
  first := ['r', 's', 't']
  joiner := c
  second := ['s', 't', 'r', 'e', 'a', 'm']
  after := []
  spells_first := by decide
  spells_second := by decide
  begins := nofun
  ends := nofun

theorem Reset.joiner_eq_of_joinedBy (r : Reset) (h : r.chars = (Reset.joinedBy c).chars) :
    r.joiner = c :=
  r.joiner_eq h rfl rfl

theorem isStreamReset_joinedBy (c : Char) :
    isStreamReset (String.ofList (Reset.joinedBy c).chars) = true ↔ isBasicAlphanum c = false := by
  rw [isStreamReset_iff, String.toList_ofList]
  constructor
  · rintro ⟨r, hchars, hc⟩
    rwa [r.joiner_eq_of_joinedBy hchars] at hc
  · exact fun hc => ⟨Reset.joinedBy c, rfl, hc⟩

theorem isWordChar_of_range {r : Nat × Nat} (hr : r ∈ wordRanges)
    (h : r.1 ≤ c.toNat ∧ c.toNat ≤ r.2) : isWordChar c = true :=
  List.any_eq_true.mpr ⟨r, hr, by simpa using h⟩

theorem isWordChar_of_isBasicAlphanum (h : isBasicAlphanum c = true) : isWordChar c = true := by
  rcases isBasicAlphanum_iff.mp h with h | rfl | rfl
  · simp only [Char.isAlphanum, Char.isAlpha, Char.isUpper, Char.isLower, Char.isDigit,
      Bool.or_eq_true, Bool.and_eq_true, decide_eq_true_eq, ge_iff_le, UInt32.le_iff_toNat_le] at h
    rcases h with (h | h) | h
    · exact isWordChar_of_range (.tail _ (.head _)) h
    · exact isWordChar_of_range (.tail _ (.tail _ (.tail _ (.head _)))) h
    · exact isWordChar_of_range (.head _) h
  · decide +kernel
  · decide +kernel

theorem isWordChar_joinedBy (h : isWordChar c = true) :
    ∀ d ∈ (Reset.joinedBy c).chars, isWordChar d = true := by
  have hwords : ∀ d ∈ ['r', 's', 't'] ++ ['s', 't', 'r', 'e', 'a', 'm'], isWordChar d = true :=
    fun d hd => isWordChar_of_isBasicAlphanum
      (List.all_eq_true.mp (by decide : List.all _ isBasicAlphanum = true) d hd)
  intro d hd
  obtain hd | rfl | hd : d ∈ ['r', 's', 't'] ∨ d = c ∨ d ∈ ['s', 't', 'r', 'e', 'a', 'm'] := by
    simpa [Reset.chars, Reset.joinedBy, or_assoc] using hd
  · exact hwords d (List.mem_append_left _ hd)
  · exact h
  · exact hwords d (List.mem_append_right _ hd)

/-- Let `alphanumeric` hold of the letters and digits of all scripts, those of ASCII among them. A
reset is a text with a character between the words that is no letter or digit, or with one that is
none of ASCII and folds to none; all of these join the words, also to a single word. So there are
resets with nothing but letters and digits between the words, unless there are no letters and digits
beyond those of ASCII and what folds to them. -/
theorem joiners_of_resets (alphanumeric : Char → Bool)
    (hbasic : ∀ c, isBasicAlphanum c = true → alphanumeric c = true) :
    (∀ message : String, isStreamReset message = true ↔
      (∃ r : Reset, r.chars = message.toList ∧ alphanumeric r.joiner = false) ∨
      ∃ r : Reset, r.chars = message.toList ∧ alphanumeric r.joiner = true ∧
        isBasicAlphanum r.joiner = false) ∧
    (∀ c, isStreamReset (String.ofList (Reset.joinedBy c).chars) = true ↔
      isBasicAlphanum c = false) ∧
    (∀ c, isWordChar c = true → ∀ d ∈ (Reset.joinedBy c).chars, isWordChar d = true) ∧
    ((∀ message : String, isStreamReset message = true →
        ∃ r : Reset, r.chars = message.toList ∧ alphanumeric r.joiner = false) ↔
      ∀ c, alphanumeric c = true → isBasicAlphanum c = true) := by
  have hnot : ∀ c, alphanumeric c = false → isBasicAlphanum c = false := fun c hc =>
    Bool.eq_false_iff.mpr fun h => by
      rw [hbasic c h] at hc
      cases hc
  refine ⟨fun message => ?_, isStreamReset_joinedBy, fun c => isWordChar_joinedBy, ?_, ?_⟩
  · rw [isStreamReset_iff]
    constructor
    · rintro ⟨r, htext, hr⟩
      cases halpha : alphanumeric r.joiner with
      | false => exact .inl ⟨r, htext, halpha⟩
      | true => exact .inr ⟨r, htext, halpha, hr⟩
    · rintro (⟨r, htext, hr⟩ | ⟨r, htext, -, hr⟩)
      · exact ⟨r, htext, hnot _ hr⟩
      · exact ⟨r, htext, hr⟩
  · intro hall c hc
    by_contra hbeyond
    have hreset := (isStreamReset_joinedBy c).mpr (Bool.eq_false_iff.mpr hbeyond)
    obtain ⟨r, hchars, hr⟩ := hall _ hreset
    rw [String.toList_ofList] at hchars
    rw [r.joiner_eq_of_joinedBy hchars, hc] at hr
    cases hr
  · intro hall message hreset
    obtain ⟨r, htext, hr⟩ := (isStreamReset_iff message).mp hreset
    refine ⟨r, htext, Bool.eq_false_iff.mpr fun halpha => ?_⟩
    rw [hall _ halpha] at hr
    cases hr

/-- With the word characters but the underscore for letters and digits. -/
theorem joiners_beyond_ascii :
    (∀ c, isBasicAlphanum c = true → (isWordChar c && c != '_') = true) ∧
      ¬ ∀ message : String, isStreamReset message = true →
        ∃ r : Reset, r.chars = message.toList ∧
          (isWordChar r.joiner && r.joiner != '_') = false := by
  have hbasic : ∀ c, isBasicAlphanum c = true → (isWordChar c && c != '_') = true := by
    intro c hc
    have hne : c ≠ '_' := by
      rintro rfl
      revert hc
      decide
    simp [isWordChar_of_isBasicAlphanum hc, hne]
  refine ⟨hbasic, fun hall => ?_⟩
  have hletter := (joiners_of_resets _ hbasic).2.2.2.mp hall '\u00E9' (by decide +kernel)
  revert hletter
  decide

/-- An accented letter makes one word of the two, and still this is a reset. -/
theorem reset_joined_by_letter :
    isStreamReset "rst\u00E9stream" = true ∧
      (∀ c ∈ "rst\u00E9stream".toList, isWordChar c = true) ∧
      ∀ alphanumeric : Char → Bool, alphanumeric '\u00E9' = true →
        ¬ ∃ r : Reset, r.chars = "rst\u00E9stream".toList ∧ alphanumeric r.joiner = false := by
  have htext : "rst\u00E9stream".toList = (Reset.joinedBy '\u00E9').chars := rfl
  rw [htext]
  refine ⟨by decide +kernel, isWordChar_joinedBy (by decide +kernel), ?_⟩
  rintro alphanumeric h ⟨r, hchars, hr⟩
  rw [r.joiner_eq_of_joinedBy hchars, h] at hr
  cases hr

end LedgerClient
