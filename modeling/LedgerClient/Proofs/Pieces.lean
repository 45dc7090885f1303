import LedgerClient.Text.Blank
import LedgerClient.Text.Decimal
import Mathlib.Data.List.Basic
import Mathlib.Data.List.TakeWhile

namespace LedgerClient

variable {c : Char} {s t rest : List Char} {keep : Char → Bool} {n : Nat}

theorem span_append (h : ∀ c ∈ s, keep c = true) (hrest : ∀ c ∈ rest.head?, keep c = false) :
    (s ++ rest).takeWhile keep = s ∧ (s ++ rest).dropWhile keep = rest := by
  have hstop : rest.takeWhile keep = [] ∧ rest.dropWhile keep = rest := by
    cases rest with
    | nil => exact ⟨rfl, rfl⟩
    | cons c rest =>
      have hc : keep c = false := hrest c rfl
      simp [hc]
  rw [List.takeWhile_append_of_pos h, List.dropWhile_append_of_pos h, hstop.1, hstop.2,
    List.append_nil]
  exact ⟨rfl, rfl⟩

theorem head?_dropWhile (keep : Char → Bool) (s : List Char) :
    ∀ c ∈ (s.dropWhile keep).head?, keep c = false := by
  intro c hc
  have hnot := List.head?_dropWhile_not keep s
  rwa [Option.mem_def.mp hc] at hnot

theorem dropTail_append (h : ∀ c ∈ rest, keep c = true) (hs : ∀ c ∈ s.getLast?, keep c = false) :
    dropTail keep (s ++ rest) = s := by
  have hspan : (rest.reverse ++ s.reverse).dropWhile keep = s.reverse :=
    (span_append (by simpa using h) (by simpa using hs)).2
  rw [dropTail, List.reverse_append, hspan, List.reverse_reverse]

theorem exists_eq_dropTail_append (keep : Char → Bool) (s : List Char) :
    ∃ rest, s = dropTail keep s ++ rest ∧ ∀ c ∈ rest, keep c = true := by
  refine ⟨(s.reverse.takeWhile keep).reverse, ?_, fun c hc => ?_⟩
  · rw [dropTail, ← List.reverse_append, List.takeWhile_append_dropWhile, List.reverse_reverse]
  · exact List.mem_takeWhile_imp (List.mem_reverse.mp hc)

theorem getLast?_dropTail (keep : Char → Bool) (s : List Char) :
    ∀ c ∈ (dropTail keep s).getLast?, keep c = false := by
  simpa [dropTail] using head?_dropWhile keep s.reverse

/-- `t` is what is left of `s` without the blanks around it. -/
structure Trimmed (s t : List Char) : Prop where
  blanks : ∃ front back, s = front ++ (t ++ back) ∧ (∀ c ∈ front, isBlank c = true) ∧
    ∀ c ∈ back, isBlank c = true
  first : ∀ c ∈ t.head?, isBlank c = false
  last : ∀ c ∈ t.getLast?, isBlank c = false

theorem Trimmed.trim_eq (h : Trimmed s t) : trim s = t := by
  obtain ⟨⟨front, back, rfl, hfront, hback⟩, hfirst, hlast⟩ := h
  cases t with
  | nil =>
    have hall : (front ++ ([] ++ back)).dropWhile isBlank = [] :=
      List.dropWhile_eq_nil_iff.mpr fun c hc =>
        (List.mem_append.mp hc).elim (hfront c) (hback c)
    rw [trim, hall]
    rfl
  | cons c t =>
    have hhead : ∀ d ∈ (c :: t ++ back).head?, isBlank d = false := hfirst
    have hspan : (front ++ (c :: t ++ back)).dropWhile isBlank = c :: t ++ back :=
      (span_append hfront hhead).2
    rw [trim, hspan, dropTail_append hback hlast]

theorem trimmed_trim (s : List Char) : Trimmed s (trim s) := by
  obtain ⟨back, hback, hblank⟩ := exists_eq_dropTail_append isBlank (s.dropWhile isBlank)
  refine ⟨⟨s.takeWhile isBlank, back, ?_, fun c => List.mem_takeWhile_imp, hblank⟩, fun c hc => ?_,
    getLast?_dropTail isBlank _⟩
  · rw [trim, ← hback, List.takeWhile_append_dropWhile]
  · refine head?_dropWhile isBlank s c ?_
    rw [hback]
    exact List.mem_head?_append_of_mem_head? hc

theorem eq_append_last_of_mem (h : c ∈ s) :
    ∃ before after, s = before ++ c :: after ∧ c ∉ after := by
  obtain ⟨after, before, heq, hnot⟩ := List.eq_append_cons_of_mem (List.mem_reverse.mpr h)
  refine ⟨before.reverse, after.reverse, ?_, by simpa using hnot⟩
  rw [← List.reverse_reverse s, heq]
  simp

/-- A text is cut in one way where a character stands for the first time. -/
theorem append_first_inj {s' t' : List Char} (hs : c ∉ s) (hs' : c ∉ s') :
    s ++ c :: t = s' ++ c :: t' ↔ s = s' ∧ t = t' := by
  constructor
  · intro h
    have cut : ∀ {s t : List Char}, c ∉ s → (s ++ c :: t).takeWhile (· != c) = s :=
      fun hs => (span_append (fun d hd => by grind) (by simp)).1
    have hfirst : s = s' := by rw [← cut (t := t) hs, h, cut hs']
    subst hfirst
    exact ⟨rfl, List.cons.inj (List.append_cancel_left h) |>.2⟩
  · rintro ⟨rfl, rfl⟩
    rfl

/-- And where it stands for the last time. -/
theorem append_last_inj {s' t' : List Char} (ht : c ∉ t) (ht' : c ∉ t') :
    s ++ c :: t = s' ++ c :: t' ↔ s = s' ∧ t = t' := by
  have hreverse : t.reverse ++ c :: s.reverse = t'.reverse ++ c :: s'.reverse ↔
      t.reverse = t'.reverse ∧ s.reverse = s'.reverse :=
    append_first_inj (by simpa using ht) (by simpa using ht')
  rw [List.reverse_inj, List.reverse_inj] at hreverse
  rw [← List.reverse_inj, and_comm, ← hreverse]
  simp

theorem mem_of_splitOn (sep : Char) (h : c ∈ s) : c = sep ∨ ∃ part ∈ s.splitOn sep, c ∈ part := by
  have hjoined : c ∈ [sep].intercalate (s.splitOn sep) := by
    rwa [List.intercalate_splitOn]
  generalize s.splitOn sep = parts at hjoined
  induction parts with
  | nil => cases hjoined
  | cons part parts ih =>
    cases parts with
    | nil => exact .inr ⟨part, by simp, by simpa using hjoined⟩
    | cons part' parts =>
      rw [List.intercalate_cons_cons] at hjoined
      simp only [List.mem_append, or_assoc] at hjoined
      rcases hjoined with hc | hc | hc
      · exact .inr ⟨part, by simp, hc⟩
      · exact .inl (List.mem_singleton.mp hc)
      · obtain heq | ⟨p, hp, hc⟩ := ih hc
        · exact .inl heq
        · exact .inr ⟨p, List.mem_cons_of_mem _ hp, hc⟩

theorem length_splitOn (sep : Char) (s : List Char) :
    (s.splitOn sep).length = s.count sep + 1 := by
  induction s with
  | nil => simp
  | cons d s ih =>
    rw [List.splitOn_cons_eq_if_modifyHead, List.count_cons]
    split <;> simp [ih]

theorem readDecimal?_eq_some_iff : readDecimal? s = some n ↔
    s ≠ [] ∧ (∀ c ∈ s, c.isDigit = true) ∧ Nat.ofDigitChars 10 s 0 = n := by
  simp only [readDecimal?, Option.ite_none_right_eq_some, Option.some.injEq, List.all_eq_true,
    and_assoc]

theorem isDigit_of_readDecimal? (h : readDecimal? s = some n) : ∀ c ∈ s, c.isDigit = true :=
  (readDecimal?_eq_some_iff.mp h).2.1

end LedgerClient
