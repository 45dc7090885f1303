import LedgerClient.Ipv6
import LedgerClient.Proofs.Lexing
import LedgerClient.Proofs.Pieces

namespace LedgerClient

variable {c : Char} {s before after rest : List Char} {parts : List (List Char)} {n : Nat}
  {g : UInt16} {groups left right : List UInt16} {a : Ipv6}

/-- Hexadecimal digits and what may stand between them. -/
def Ipv6.isLetter (c : Char) : Bool :=
  (hexValue? c).isSome || c == ':' || c == '.'

theorem Ipv6.isLetter_of_isDigit (h : c.isDigit = true) : Ipv6.isLetter c = true := by
  simp [Ipv6.isLetter, hexValue?, h]

theorem hexValue?_of_readHex? (h : readHex? s = some n) : ∀ c ∈ s, (hexValue? c).isSome = true := by
  unfold readHex? at h
  generalize 0 = value at h
  induction s generalizing value with
  | nil => simp
  | cons c s ih =>
    rw [List.foldlM_cons] at h
    obtain ⟨next, hnext, hrest⟩ := Option.bind_eq_some_iff.mp h
    obtain ⟨d, hd, -⟩ := Option.map_eq_some_iff.mp hnext
    intro x hx
    rcases List.mem_cons.mp hx with rfl | hx
    · rw [hd, Option.isSome_some]
    · exact ih next hrest x hx

theorem exists_of_mapM {α β : Type} {f : α → Option β} {xs : List α} {ys : List β}
    (h : xs.mapM f = some ys) : ∀ x ∈ xs, ∃ y, f x = some y := by
  induction xs generalizing ys with
  | nil => simp
  | cons x xs ih =>
    rw [List.mapM_cons] at h
    obtain ⟨y, hy, h⟩ := Option.bind_eq_some_iff.mp h
    obtain ⟨ys', hys, -⟩ := Option.bind_eq_some_iff.mp h
    intro z hz
    rcases List.mem_cons.mp hz with rfl | hz
    · exact ⟨y, hy⟩
    · exact ih hys z hz

theorem Ipv6.letters_of_readGroup? (h : Ipv6.readGroup? s = some g) :
    ∀ c ∈ s, Ipv6.isLetter c = true := by
  unfold Ipv6.readGroup? at h
  split at h
  next =>
    obtain ⟨n, hn, -⟩ := Option.map_eq_some_iff.mp h
    intro c hc
    simp [Ipv6.isLetter, hexValue?_of_readHex? hn c hc]
  next => cases h

theorem isDigit_of_readByte? {b : UInt8} (h : readByte? s = some b) :
    ∀ c ∈ s, c.isDigit = true := by
  obtain ⟨n, hn, -⟩ := Option.map_eq_some_iff.mp h
  exact isDigit_of_readDecimal? (Option.filter_eq_some_iff.mp hn).1

theorem isDigit_or_dot_of_readDottedBytes? {bytes : UInt8 × UInt8 × UInt8 × UInt8}
    (h : readDottedBytes? s = some bytes) : ∀ c ∈ s, c.isDigit = true ∨ c = '.' := by
  unfold readDottedBytes? at h
  split at h
  next p q r t hsplit =>
    simp only [Option.bind_eq_bind, Option.bind_eq_some_iff] at h
    obtain ⟨_, hp, _, hq, _, hr, _, ht, -⟩ := h
    intro c hc
    obtain rfl | ⟨part, hpart, hc⟩ := mem_of_splitOn '.' hc
    · exact .inr rfl
    · rw [hsplit] at hpart
      simp only [List.mem_cons, List.not_mem_nil, or_false] at hpart
      rcases hpart with rfl | rfl | rfl | rfl
      · exact .inl (isDigit_of_readByte? hp c hc)
      · exact .inl (isDigit_of_readByte? hq c hc)
      · exact .inl (isDigit_of_readByte? hr c hc)
      · exact .inl (isDigit_of_readByte? ht c hc)
  next => cases h

theorem Ipv6.letters_of_readGroups? (h : Ipv6.readGroups? parts = some groups) :
    ∀ part ∈ parts, ∀ c ∈ part, Ipv6.isLetter c = true := by
  induction parts generalizing groups with
  | nil => simp
  | cons part parts ih =>
    intro p hp
    cases parts with
    | nil =>
      rw [List.mem_singleton.mp hp]
      unfold Ipv6.readGroups? at h
      split at h
      next hbytes =>
        intro c hc
        rcases isDigit_or_dot_of_readDottedBytes? hbytes c hc with hc | rfl
        · exact Ipv6.isLetter_of_isDigit hc
        · rfl
      next =>
        obtain ⟨g, hg, -⟩ := Option.map_eq_some_iff.mp h
        exact Ipv6.letters_of_readGroup? hg
    | cons part' parts =>
      rw [Ipv6.readGroups?] at h
      · obtain ⟨g, hg, h⟩ := Option.bind_eq_some_iff.mp h
        obtain ⟨groups', hgroups, -⟩ := Option.bind_eq_some_iff.mp h
        rcases List.mem_cons.mp hp with rfl | hp
        · exact Ipv6.letters_of_readGroup? hg
        · exact ih hgroups p hp
      · simp

theorem Ipv6.letters_of_fields (h : ∀ part ∈ Ipv6.fields s, ∀ c ∈ part, Ipv6.isLetter c = true) :
    ∀ c ∈ s, Ipv6.isLetter c = true := by
  intro c hc
  have hs : s ≠ [] := List.ne_nil_of_mem hc
  rw [Ipv6.fields, if_neg hs] at h
  obtain rfl | ⟨part, hpart, hc⟩ := mem_of_splitOn ':' hc
  · rfl
  · exact h part hpart c hc

theorem Ipv6.eq_append_of_cutAtGap? (h : Ipv6.cutAtGap? s = some (before, after)) :
    s = before ++ ':' :: ':' :: after := by
  fun_induction Ipv6.cutAtGap? s generalizing before with
  | case1 rest => cases h; rfl
  | case2 c rest _ ih =>
    obtain ⟨cut, hcut, heq⟩ := Option.map_eq_some_iff.mp h
    cases heq
    rw [ih hcut, List.cons_append]
  | case3 => cases h

theorem Ipv6.letters_of_parse? (h : Ipv6.parse? s = some a) : ∀ c ∈ s, Ipv6.isLetter c = true := by
  unfold Ipv6.parse? at h
  split at h
  next =>
    obtain ⟨groups, hgroups, -⟩ := Option.bind_eq_some_iff.mp h
    exact Ipv6.letters_of_fields (Ipv6.letters_of_readGroups? hgroups)
  next before after hcut =>
    obtain ⟨left, hleft, h⟩ := Option.bind_eq_some_iff.mp h
    obtain ⟨right, hright, -⟩ := Option.bind_eq_some_iff.mp h
    intro c hc
    rw [Ipv6.eq_append_of_cutAtGap? hcut] at hc
    simp only [List.mem_append, List.mem_cons] at hc
    rcases hc with hc | rfl | rfl | hc
    · refine Ipv6.letters_of_fields (fun part hpart => ?_) c hc
      obtain ⟨g, hg⟩ := exists_of_mapM hleft part hpart
      exact Ipv6.letters_of_readGroup? hg
    · rfl
    · rfl
    · exact Ipv6.letters_of_fields (Ipv6.letters_of_readGroups? hright) c hc

theorem hexadecimal_ne_nil (n : Nat) : hexadecimal n ≠ [] := by
  simp [hexadecimal]

theorem exists_digitChar_of_hexadecimal (h : c ∈ hexadecimal n) : ∃ d < 16, c = d.digitChar := by
  unfold hexadecimal at h
  induction n using Nat.strongRecOn with
  | _ n ih =>
    rw [Nat.toDigits_eq_if (by decide)] at h
    split at h
    next hn => exact ⟨n, hn, List.mem_singleton.mp h⟩
    next hn =>
      rcases List.mem_append.mp h with h | h
      · exact ih (n / 16) (by omega) h
      · exact ⟨n % 16, Nat.mod_lt n (by decide), List.mem_singleton.mp h⟩

theorem readHex?_hexadecimal (n : Nat) : readHex? (hexadecimal n) = some n := by
  unfold hexadecimal
  induction n using Nat.strongRecOn with
  | _ n ih =>
    rw [Nat.toDigits_eq_if (by decide)]
    split
    next hn => simp [readHex?, hexValue?_digitChar n hn]
    next hn =>
      have hread := ih (n / 16) (by omega)
      have hlast := hexValue?_digitChar (n % 16) (by omega)
      unfold readHex? at hread ⊢
      rw [List.foldlM_append, hread]
      simp [hlast, Nat.div_add_mod]

theorem Ipv6.readGroup?_hexadecimal (g : UInt16) :
    Ipv6.readGroup? (hexadecimal g.toNat) = some g := by
  have hlength : (hexadecimal g.toNat).length ≤ 4 :=
    (Nat.length_toDigits_le_iff (by decide) (by decide)).mpr g.toNat_lt
  rw [Ipv6.readGroup?, if_pos ⟨hexadecimal_ne_nil _, hlength⟩, readHex?_hexadecimal,
    Option.map_some, UInt16.ofNat_toNat]

/-- Neither a colon nor a dot stands in a group. -/
theorem ne_of_hexadecimal (h : c ∈ hexadecimal n) : c ≠ ':' ∧ c ≠ '.' := by
  obtain ⟨d, hd, rfl⟩ := exists_digitChar_of_hexadecimal h
  have hdigits : ∀ d < 16, d.digitChar ≠ ':' ∧ d.digitChar ≠ '.' := by decide
  exact hdigits d hd

theorem mapM_readGroup? (groups : List UInt16) :
    (groups.map fun g => hexadecimal g.toNat).mapM Ipv6.readGroup? = some groups := by
  induction groups with
  | nil => rfl
  | cons g groups ih =>
    rw [List.map_cons, List.mapM_cons, Ipv6.readGroup?_hexadecimal, ih]
    rfl

theorem readDottedBytes?_hexadecimal (n : Nat) : readDottedBytes? (hexadecimal n) = none := by
  rw [readDottedBytes?, List.splitOn_eq_singleton fun h => (ne_of_hexadecimal h).2 rfl]

theorem Ipv6.readGroups?_map (groups : List UInt16) :
    Ipv6.readGroups? (groups.map fun g => hexadecimal g.toNat) = some groups := by
  induction groups with
  | nil => rfl
  | cons g groups ih =>
    cases groups with
    | nil =>
      rw [List.map_cons, List.map_nil, Ipv6.readGroups?, readDottedBytes?_hexadecimal,
        Ipv6.readGroup?_hexadecimal]
      rfl
    | cons g' groups =>
      rw [List.map_cons, Ipv6.readGroups?, Ipv6.readGroup?_hexadecimal, ih]
      · rfl
      · simp

theorem Ipv6.joinGroups_cons_cons (g g' : UInt16) (groups : List UInt16) :
    Ipv6.joinGroups (g :: g' :: groups) =
      hexadecimal g.toNat ++ ':' :: Ipv6.joinGroups (g' :: groups) := by
  simp [Ipv6.joinGroups, List.intercalate_cons_cons]

theorem Ipv6.joinGroups_eq_cons (g : UInt16) (groups : List UInt16) :
    ∃ c text, Ipv6.joinGroups (g :: groups) = c :: text ∧ c ≠ ':' := by
  obtain ⟨c, digits, hdigits⟩ := List.exists_cons_of_ne_nil (hexadecimal_ne_nil g.toNat)
  have hc : c ≠ ':' := (ne_of_hexadecimal (n := g.toNat) (by simp [hdigits])).1
  cases groups with
  | nil => exact ⟨c, digits, by simp [Ipv6.joinGroups, hdigits], hc⟩
  | cons g' groups =>
    refine ⟨c, digits ++ ':' :: Ipv6.joinGroups (g' :: groups), ?_, hc⟩
    rw [Ipv6.joinGroups_cons_cons, hdigits, List.cons_append]

theorem Ipv6.fields_joinGroups (groups : List UInt16) :
    Ipv6.fields (Ipv6.joinGroups groups) = groups.map fun g => hexadecimal g.toNat := by
  cases groups with
  | nil => rfl
  | cons g groups =>
    have hne : Ipv6.joinGroups (g :: groups) ≠ [] := by
      obtain ⟨c, text, htext, -⟩ := Ipv6.joinGroups_eq_cons g groups
      simp [htext]
    rw [Ipv6.fields, if_neg hne, Ipv6.joinGroups]
    refine List.splitOn_intercalate ':' (fun part hpart hcolon => ?_) (by simp)
    obtain ⟨g, -, rfl⟩ := List.mem_map.mp hpart
    exact (ne_of_hexadecimal hcolon).1 rfl

theorem Ipv6.cutAtGap?_append (h : ∀ c ∈ before, c ≠ ':') :
    Ipv6.cutAtGap? (before ++ rest) =
      (Ipv6.cutAtGap? rest).map fun cut => (before ++ cut.1, cut.2) := by
  induction before with
  | nil => simp
  | cons c before ih =>
    have hc : c ≠ ':' := h c (by simp)
    rw [List.cons_append, Ipv6.cutAtGap?, ih fun d hd => h d (by simp [hd]), Option.map_map]
    · rfl
    · rintro _ rfl
      exact absurd rfl hc

/-- A single colon is not a gap. -/
theorem Ipv6.cutAtGap?_colon (h : c ≠ ':') :
    Ipv6.cutAtGap? (':' :: c :: rest) =
      (Ipv6.cutAtGap? (c :: rest)).map fun cut => (':' :: cut.1, cut.2) := by
  rw [Ipv6.cutAtGap?]
  rintro _ - heq
  exact h (List.cons.inj heq).1

theorem Ipv6.cutAtGap?_joinGroups (groups : List UInt16) (rest : List Char) :
    Ipv6.cutAtGap? (Ipv6.joinGroups groups ++ rest) =
      (Ipv6.cutAtGap? rest).map fun cut => (Ipv6.joinGroups groups ++ cut.1, cut.2) := by
  have hgroup : ∀ g : UInt16, ∀ c ∈ hexadecimal g.toNat, c ≠ ':' :=
    fun g c hc => (ne_of_hexadecimal hc).1
  induction groups with
  | nil => simp [Ipv6.joinGroups]
  | cons g groups ih =>
    cases groups with
    | nil => exact Ipv6.cutAtGap?_append (by simpa [Ipv6.joinGroups] using hgroup g)
    | cons g' groups =>
      obtain ⟨c, text, hhead, hc⟩ := Ipv6.joinGroups_eq_cons g' groups
      rw [Ipv6.joinGroups_cons_cons, List.append_assoc, Ipv6.cutAtGap?_append (hgroup g), hhead,
        List.cons_append, List.cons_append, Ipv6.cutAtGap?_colon hc, ← List.cons_append, ← hhead,
        ih]
      simp [Function.comp_def]

/-- A run of zeros in a list of groups, by its place and its length. -/
def Ipv6.IsGap (groups : List UInt16) (gap : Nat × Nat) : Prop :=
  ∃ left right, groups = left ++ List.replicate gap.2 0 ++ right ∧ left.length = gap.1

theorem Ipv6.replicate_leadingZeros (groups : List UInt16) :
    ∃ right, groups = List.replicate (Ipv6.leadingZeros groups) 0 ++ right := by
  refine ⟨groups.dropWhile (· == 0), ?_⟩
  have hzeros : groups.takeWhile (· == 0) = List.replicate (Ipv6.leadingZeros groups) 0 :=
    List.eq_replicate_of_mem fun g hg => by simpa using List.mem_takeWhile_imp hg
  rw [← hzeros, List.takeWhile_append_dropWhile]

/-- What is left out of a text is a run of zeros. That no other run is longer does not matter for
reading the text. -/
theorem Ipv6.isGap_longestGap (groups : List UInt16) :
    Ipv6.IsGap groups (Ipv6.longestGap groups) := by
  unfold Ipv6.longestGap
  refine List.foldlRecOn (motive := Ipv6.IsGap groups) _ _ ⟨[], groups, rfl, rfl⟩
    fun best hbest start hstart => ?_
  dsimp only
  split
  next =>
    obtain ⟨right, hright⟩ := Ipv6.replicate_leadingZeros (groups.drop start)
    have hlength : start ≤ groups.length := Nat.le_of_lt (List.mem_range.mp hstart)
    refine ⟨groups.take start, right, ?_, List.length_take_of_le hlength⟩
    rw [List.append_assoc, ← hright, List.take_append_drop]
  next => exact hbest

theorem readByte?_decimal (h : n < 256) : readByte? (decimal n) = some (UInt8.ofNat n) := by
  have hkeep : (n < 256 && decimal n == decimal n) = true := by simp [h]
  rw [readByte?, readDecimal?_decimal, Option.filter_some, if_pos hkeep, Option.map_some]

theorem readDottedBytes?_decimal {b₁ b₂ b₃ b₄ : Nat} (h₁ : b₁ < 256) (h₂ : b₂ < 256)
    (h₃ : b₃ < 256) (h₄ : b₄ < 256) :
    readDottedBytes? (['.'].intercalate ([b₁, b₂, b₃, b₄].map decimal)) =
      some (UInt8.ofNat b₁, UInt8.ofNat b₂, UInt8.ofNat b₃, UInt8.ofNat b₄) := by
  have hdot : ∀ part ∈ [b₁, b₂, b₃, b₄].map decimal, '.' ∉ part := by
    intro part hpart hdot
    obtain ⟨b, -, rfl⟩ := List.mem_map.mp hpart
    cases isDigit_of_mem_decimal hdot
  rw [readDottedBytes?, List.splitOn_intercalate '.' hdot (by simp)]
  simp [readByte?_decimal, h₁, h₂, h₃, h₄]

theorem Ipv6.readDottedBytes?_dottedBytes (high low : UInt16) :
    ∃ a b c d, readDottedBytes? (Ipv6.dottedBytes high low) = some (a, b, c, d) ∧
      Ipv6.groupOfBytes a b = high ∧ Ipv6.groupOfBytes c d = low := by
  have hgroup : ∀ g : UInt16, Ipv6.groupOfBytes (UInt8.ofNat (g.toNat / 256))
      (UInt8.ofNat (g.toNat % 256)) = g := by
    intro g
    have hg := g.toNat_lt
    have hhigh : (UInt8.ofNat (g.toNat / 256)).toNat = g.toNat / 256 :=
      UInt8.toNat_ofNat_of_lt' (Nat.div_lt_of_lt_mul hg)
    have hlow : (UInt8.ofNat (g.toNat % 256)).toNat = g.toNat % 256 :=
      UInt8.toNat_ofNat_of_lt' (Nat.mod_lt _ (by decide))
    rw [Ipv6.groupOfBytes, hhigh, hlow, Nat.div_add_mod, UInt16.ofNat_toNat]
  have hhigh := high.toNat_lt
  have hlow := low.toNat_lt
  exact ⟨_, _, _, _, readDottedBytes?_decimal (by omega) (by omega) (by omega) (by omega),
    hgroup high, hgroup low⟩

theorem Ipv6.ofGroups?_groups (a : Ipv6) : Ipv6.ofGroups? a.groups = some a :=
  dif_pos a.length_eq

/-- A gap is filled with the zeros that are missing. -/
theorem Ipv6.parse?_gap {length : Nat} (hcut : Ipv6.cutAtGap? s = some (before, after))
    (hleft : (Ipv6.fields before).mapM Ipv6.readGroup? = some left)
    (hright : Ipv6.readGroups? (Ipv6.fields after) = some right)
    (hgroups : a.groups = left ++ List.replicate length 0 ++ right) (hlength : 0 < length) :
    Ipv6.parse? s = some a := by
  have hcount : left.length + right.length + length = 8 := by
    rw [← a.length_eq, hgroups, List.length_append, List.length_append, List.length_replicate]
    omega
  have hmissing : 8 - (left.length + right.length) = length := by omega
  have hroom : left.length + right.length ≤ 7 := by omega
  simp only [Ipv6.parse?, hcut, hleft, hright, Option.bind_eq_bind, Option.bind_some, hmissing]
  rw [if_pos hroom, ← hgroups, Ipv6.ofGroups?_groups]

theorem Ipv6.parse?_mapped {high low : UInt16} (h : a.mapped? = some (high, low)) :
    Ipv6.parse? (':' :: ':' :: (hexadecimal 0xffff ++ ':' :: Ipv6.dottedBytes high low)) =
      some a := by
  have hgroups : a.groups = [] ++ List.replicate 5 0 ++ [0xffff, high, low] := by
    unfold Ipv6.mapped? at h
    split at h
    next heq => cases h; exact heq
    next => cases h
  have hright : Ipv6.readGroups?
      (Ipv6.fields (hexadecimal 0xffff ++ ':' :: Ipv6.dottedBytes high low)) =
        some [0xffff, high, low] := by
    obtain ⟨b₁, b₂, b₃, b₄, hbytes, hhigh, hlow⟩ := Ipv6.readDottedBytes?_dottedBytes high low
    have hmark : Ipv6.readGroup? (hexadecimal 0xffff) = some 0xffff :=
      Ipv6.readGroup?_hexadecimal 0xffff
    have hcolon : ':' ∉ Ipv6.dottedBytes high low := fun hc => by
      rcases isDigit_or_dot_of_readDottedBytes? hbytes ':' hc with hc | hc <;> cases hc
    rw [Ipv6.fields, if_neg (by simp),
      List.splitOn_append_cons_self_of_not_mem (fun hc => (ne_of_hexadecimal hc).1 rfl),
      List.splitOn_eq_singleton hcolon]
    simp [Ipv6.readGroups?, hmark, hbytes, hhigh, hlow]
  exact Ipv6.parse?_gap rfl rfl hright hgroups (by decide)

/-- Every address is read back from its text. -/
theorem Ipv6.parse?_chars (a : Ipv6) : Ipv6.parse? a.chars = some a := by
  unfold Ipv6.chars
  split
  next high low hmapped => exact Ipv6.parse?_mapped hmapped
  next =>
    dsimp only
    split
    next =>
      -- no group is left out, and no pair of colons is found
      have hcut : Ipv6.cutAtGap? (Ipv6.joinGroups a.groups) = none := by
        simpa [Ipv6.cutAtGap?] using Ipv6.cutAtGap?_joinGroups a.groups []
      simp only [Ipv6.parse?, hcut, Ipv6.fields_joinGroups, Ipv6.readGroups?_map,
        Option.bind_some, Ipv6.ofGroups?_groups]
    next hlength =>
      obtain ⟨left, right, hgroups, hstart⟩ := Ipv6.isGap_longestGap a.groups
      generalize (Ipv6.longestGap a.groups).1 = start, (Ipv6.longestGap a.groups).2 = length at *
      have htake : a.groups.take start = left := by
        rw [hgroups, List.append_assoc, List.take_left' hstart]
      have hdrop : a.groups.drop (start + length) = right := by
        rw [hgroups, List.drop_left' (by simp [hstart])]
      -- the pair of colons that stands for the gap is the first one
      have hcut : Ipv6.cutAtGap? (Ipv6.joinGroups left ++ ':' :: ':' :: Ipv6.joinGroups right) =
          some (Ipv6.joinGroups left, Ipv6.joinGroups right) := by
        simp [Ipv6.cutAtGap?_joinGroups, Ipv6.cutAtGap?]
      rw [htake, hdrop]
      refine Ipv6.parse?_gap hcut ?_ ?_ hgroups (by omega)
      · rw [Ipv6.fields_joinGroups, mapM_readGroup?]
      · rw [Ipv6.fields_joinGroups, Ipv6.readGroups?_map]

end LedgerClient
