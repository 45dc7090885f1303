import LedgerClient.Proofs.Frames
import LedgerClient.Proofs.NodeSet
import LedgerClient.Proofs.Spelling

namespace LedgerClient

variable {c : Char} {s : List Char} {host other : Host} {a b : NodeAddress} {text : String}

/-- The characters of names as they are kept: none of them is escaped again. -/
def isNameChar (c : Char) : Bool :=
  0x20 ≤ c.toNat && c.toNat < 0x7F && !NodeAddress.isForbidden c

theorem isNameChar_of_hexByte {byte : UInt8} (h : c ∈ hexByte byte) : isNameChar c = true := by
  unfold hexByte at h
  rcases List.mem_append.mp h with h | h
  · rw [List.eq_of_mem_replicate h]
    decide
  · obtain ⟨d, hd, rfl⟩ := List.mem_map.mp h
    obtain ⟨n, hn, rfl⟩ := exists_digitChar_of_hexadecimal hd
    have hdigits : ∀ n < 16, isNameChar n.digitChar.toUpper = true := by decide
    exact hdigits n hn

theorem isNameChar_of_escapeHostChar (hc : NodeAddress.isForbidden c = false) :
    ∀ d ∈ NodeAddress.escapeHostChar c, isNameChar d = true := by
  unfold NodeAddress.escapeHostChar
  split
  next =>
    intro d hd
    obtain ⟨byte, -, hd⟩ := List.mem_flatMap.mp hd
    rcases List.mem_cons.mp hd with rfl | hd
    · decide
    · exact isNameChar_of_hexByte hd
  next hrange =>
    intro d hd
    rw [List.mem_singleton.mp hd]
    simp only [Bool.or_eq_true, decide_eq_true_eq, not_or, Nat.not_lt, Nat.not_le] at hrange
    simp [isNameChar, hc, hrange]

theorem escapeHostChar_ne_nil (c : Char) : NodeAddress.escapeHostChar c ≠ [] := by
  obtain ⟨byte, bytes, hbytes⟩ := List.exists_cons_of_ne_nil (String.utf8EncodeChar_ne_nil (c := c))
  unfold NodeAddress.escapeHostChar
  split <;> simp [hbytes]

theorem escapeHostChar_of_isNameChar (h : isNameChar c = true) :
    NodeAddress.escapeHostChar c = [c] := by
  simp only [isNameChar, Bool.and_eq_true, decide_eq_true_eq] at h
  exact if_neg (by simp; omega)

theorem flatMap_escapeHostChar (h : ∀ c ∈ s, isNameChar c = true) :
    s.flatMap NodeAddress.escapeHostChar = s := by
  induction s with
  | nil => rfl
  | cons c s ih =>
    rw [List.flatMap_cons, escapeHostChar_of_isNameChar (h c (by simp)),
      ih fun d hd => h d (by simp [hd]), List.singleton_append]

/-- A host as it stands in the text of an address. -/
def Host.chars : Host → List Char
  | .name text => text.toList
  | .ipv6 address => '[' :: (address.chars ++ [']'])

theorem chars_eq (a : NodeAddress) : a.chars = a.host.chars ++ ':' :: decimal a.port.toNat := by
  unfold NodeAddress.chars Host.chars
  cases a.host <;> simp

theorem Host.Written.name_chars (h : Host.Written s (.name text)) :
    text.toList ≠ [] ∧ ∀ c ∈ text.toList, isNameChar c = true := by
  cases h with
  | name ne_nil allowed =>
    rw [String.toList_ofList]
    constructor
    · obtain ⟨c, rest, rfl⟩ := List.exists_cons_of_ne_nil ne_nil
      simp [escapeHostChar_ne_nil]
    · intro d hd
      obtain ⟨c, hc, hd⟩ := List.mem_flatMap.mp hd
      exact isNameChar_of_escapeHostChar (allowed c hc) d hd

theorem Host.written_name (hne : text.toList ≠ []) (h : ∀ c ∈ text.toList, isNameChar c = true) :
    Host.Written text.toList (.name text) := by
  have hallowed : ∀ c ∈ text.toList, NodeAddress.isForbidden c = false := fun c hc => by
    have hname := h c hc
    simp only [isNameChar, Bool.and_eq_true, Bool.not_eq_true'] at hname
    exact hname.2
  have hwritten := Host.Written.name hne hallowed
  rwa [flatMap_escapeHostChar h, String.ofList_toList] at hwritten

/-- However a host was written, it can be written as it is displayed. -/
theorem Host.Written.chars (h : host.Written s) : host.Written host.chars := by
  cases host with
  | name text =>
    obtain ⟨hne, hchars⟩ := h.name_chars
    exact Host.written_name hne hchars
  | ipv6 address => exact .ipv6 address.parse?_chars

theorem Ipv6.colon_mem_chars (a : Ipv6) : ':' ∈ a.chars := by
  unfold Ipv6.chars
  split
  next => simp
  next =>
    dsimp only
    split
    next =>
      obtain ⟨groups, hlength⟩ := a
      match groups, hlength with
      | g :: g' :: groups, _ => simp [Ipv6.joinGroups_cons_cons]
    next => simp

theorem Host.Written.colon_mem_iff (h : host.Written s) :
    ':' ∈ host.text.toList ↔ ∃ address, host = .ipv6 address := by
  cases host with
  | name text =>
    have hcolon : ':' ∉ text.toList := fun hmem => by
      cases h.name_chars.2 ':' hmem
    simpa [Host.text] using hcolon
  | ipv6 address => simpa [Host.text] using address.colon_mem_chars

theorem Ipv6.chars_inj {x y : Ipv6} (h : x.chars = y.chars) : x = y := by
  have hx := x.parse?_chars
  rw [h, y.parse?_chars] at hx
  exact (Option.some.inj hx).symm

/-- The texts of hosts tell them apart, names from addresses of version 6 too. -/
theorem Host.Written.text_eq_iff {t : List Char} (h : host.Written s) (ho : other.Written t) :
    host.text = other.text ↔ host = other := by
  refine ⟨fun htext => ?_, congrArg Host.text⟩
  -- a colon tells which kind of host a text is of
  have hcolon := h.colon_mem_iff.symm.trans (htext ▸ ho.colon_mem_iff)
  cases host with
  | name text =>
    cases other with
    | name other => exact congrArg Host.name htext
    | ipv6 => simp at hcolon
  | ipv6 x =>
    cases other with
    | name => simp at hcolon
    | ipv6 y => exact congrArg Host.ipv6 (Ipv6.chars_inj (String.ofList_injective htext))

/-- The characters of ASCII but control characters and the space. -/
def isVisible (c : Char) : Bool :=
  0x20 < c.toNat && c.toNat < 0x7F

theorem significant_ofList (h : ∀ c ∈ s, isVisible c = true) :
    NodeAddress.significant (String.ofList s) = s := by
  have hbounds : ∀ c ∈ s, 0x20 < c.toNat ∧ c.toNat < 0x7F := by simpa [isVisible] using h
  have hblank : ∀ c ∈ s, isBlank c = false := fun c hc => by
    obtain ⟨hlow, hhigh⟩ := hbounds c hc
    simp only [isBlank, Bool.or_eq_false_iff, Bool.and_eq_false_iff, decide_eq_false_iff_not,
      beq_eq_false_iff_ne]
    omega
  have htail : dropTail (· ≤ ' ') s = s := by
    have hend : ∀ c ∈ s.getLast?, decide (c ≤ ' ') = false := fun c hc => by
      obtain ⟨hlow, -⟩ := hbounds c (List.mem_of_mem_getLast? hc)
      simpa [Char.le_def, UInt32.le_iff_toNat_le] using hlow
    have hnil : ∀ c ∈ ([] : List Char), decide (c ≤ ' ') = true := by simp
    simpa using dropTail_append hnil hend
  have hfilter : (s.filter fun c => c != '\t' && c != '\n' && c != '\r') = s := by
    refine List.filter_eq_self.mpr fun c hc => ?_
    have hne : ∀ d : Char, d.toNat < 0x20 → c ≠ d := by
      rintro d hd rfl
      exact absurd hd (Nat.lt_asymm (hbounds c hc).1)
    simp [hne '\t' (by decide), hne '\n' (by decide), hne '\r' (by decide)]
  rw [NodeAddress.significant, String.toList_ofList, trim_of_not_blank hblank, htail, hfilter]

theorem isVisible_of_isDigit (h : c.isDigit = true) : isVisible c = true := by
  simp [Char.isDigit, UInt32.le_iff_toNat_le, isVisible] at h ⊢
  omega

theorem Ipv6.isVisible_of_isLetter (h : Ipv6.isLetter c = true) : isVisible c = true := by
  simp only [Ipv6.isLetter, Bool.or_eq_true, beq_iff_eq] at h
  rcases h with (h | rfl) | rfl
  · unfold hexValue? at h
    split at h
    next hdigit => exact isVisible_of_isDigit hdigit
    split at h
    next hlower =>
      simp [Char.le_def, UInt32.le_iff_toNat_le, isVisible] at hlower ⊢
      omega
    split at h
    next hupper =>
      simp [Char.le_def, UInt32.le_iff_toNat_le, isVisible] at hupper ⊢
      omega
    next => cases h
  · decide
  · decide

theorem Host.Written.visible (h : host.Written s) : ∀ c ∈ host.chars, isVisible c = true := by
  cases host with
  | name text =>
    intro c hc
    have hname := h.name_chars.2 c hc
    have hspace : c.toNat ≠ 0x20 := fun heq => by
      have hc : c = ' ' := Char.toNat_inj.mp heq
      rw [hc] at hname
      cases hname
    simp only [isNameChar, isVisible, Bool.and_eq_true, decide_eq_true_eq] at hname ⊢
    omega
  | ipv6 address =>
    intro c hc
    simp only [Host.chars, List.mem_cons, List.mem_append, List.not_mem_nil, or_false] at hc
    rcases hc with rfl | hc | rfl
    · decide
    · exact Ipv6.isVisible_of_isLetter (Ipv6.letters_of_parse? address.parse?_chars c hc)
    · decide

theorem NodeAddress.significant_text (h : a.host.Written s) :
    NodeAddress.significant a.text = a.chars := by
  refine significant_ofList fun c hc => ?_
  rw [chars_eq] at hc
  rcases List.mem_append.mp hc with hc | hc
  · exact h.visible c hc
  · rcases List.mem_cons.mp hc with rfl | hc
    · decide
    · exact isVisible_of_isDigit (isDigit_of_mem_decimal hc)

/-- What an address is written as is accepted, and is the address. -/
theorem parse_text_of_written (h : a.host.Written s) : NodeAddress.parse a.text = .ok a := by
  have hdenotes : NodeAddress.Spelling.Denotes ⟨none, a.host.chars, decimal a.port.toNat, none⟩ a :=
    ⟨nofun, nofun, h.chars, readDecimal?_decimal _⟩
  refine parse_of_denotes ?_ hdenotes
  rw [NodeAddress.significant_text h, chars_eq]
  simp [NodeAddress.Spelling.chars, NodeAddress.Spelling.tail]

theorem written_of_parse (h : NodeAddress.parse text = .ok a) : ∃ s, a.host.Written s := by
  obtain ⟨spelling, -, hdenotes⟩ := denotes_of_parse h
  exact ⟨spelling.host, hdenotes.host⟩

/-- Brackets stand around the texts of hosts that have a colon. -/
theorem Host.Written.chars_eq_if (h : host.Written s) :
    host.chars = if ':' ∈ host.text.toList then '[' :: (host.text.toList ++ [']'])
      else host.text.toList := by
  have hcolon := h.colon_mem_iff
  cases host with
  | name => rw [if_neg fun hmem => by simpa using hcolon.mp hmem]; rfl
  | ipv6 address =>
    rw [if_pos (hcolon.mpr ⟨address, rfl⟩), Host.text, String.toList_ofList]
    rfl

theorem address_eq_iff {t : List Char} (ha : a.host.Written s) (hb : b.host.Written t) :
    a = b ↔ a.host.text = b.host.text ∧ a.port = b.port := by
  rw [ha.text_eq_iff hb]
  cases a
  cases b
  simp

theorem text_eq_iff {t : List Char} (ha : a.host.Written s) (hb : b.host.Written t) :
    a.text = b.text ↔ a = b := by
  refine ⟨fun h => ?_, congrArg NodeAddress.text⟩
  have hread := parse_text_of_written ha
  rw [h, parse_text_of_written hb] at hread
  exact (Except.ok.inj hread).symm

theorem carryOver_of_written {t : List Char} {net : Network} {node : Node} {id : AccountId}
    (hnode : net.find? id = some node) (ha : node.address.host.Written s)
    (hb : b.host.Written t) :
    net.carryOver (id, b) = if node.address.text = b.text then node else .fresh id b := by
  split
  next h => exact carryOver_of_held hnode ((text_eq_iff ha hb).mp h)
  next h =>
    refine carryOver_of_not_held fun old hold heq => h ?_
    rw [hnode] at hold
    cases hold
    rw [heq]

/-- The text of an accepted address is accepted as the same address, whatever text it was read from,
and every address of version 6 is among them. Texts of accepted addresses are equal exactly where
the addresses are, in host and port, and so a node is carried over exactly if the new address has
the text of the old one. -/
theorem text_of_address :
    (∀ (address : Ipv6) (port : UInt16),
      NodeAddress.parse (NodeAddress.text ⟨.ipv6 address, port⟩) = .ok ⟨.ipv6 address, port⟩) ∧
    ∀ (t : String) (a : NodeAddress), NodeAddress.parse t = .ok a →
      NodeAddress.parse a.text = .ok a ∧
      a.chars = (if ':' ∈ a.host.text.toList then '[' :: (a.host.text.toList ++ [']'])
        else a.host.text.toList) ++ ':' :: decimal a.port.toNat ∧
      ∀ (u : String) (b : NodeAddress), NodeAddress.parse u = .ok b →
        (a.text = b.text ↔ a = b) ∧
        (a = b ↔ a.host.text = b.host.text ∧ a.port = b.port) ∧
        ∀ (net : Network) (id : AccountId) (node : Node), net.find? id = some node →
          node.address = a →
            net.carryOver (id, b) = if a.text = b.text then node else .fresh id b := by
  refine ⟨fun address port => ?_, fun t a h => ?_⟩
  · exact parse_text_of_written (a := ⟨.ipv6 address, port⟩) (.ipv6 address.parse?_chars)
  · obtain ⟨s, hs⟩ := written_of_parse h
    refine ⟨parse_text_of_written hs, ?_, fun u b hb => ?_⟩
    · rw [chars_eq, hs.chars_eq_if]
    · obtain ⟨s', hs'⟩ := written_of_parse hb
      refine ⟨text_eq_iff hs hs', address_eq_iff hs hs', fun net id node hnode ha => ?_⟩
      subst ha
      exact carryOver_of_written hnode hs hs'

theorem text_of_escaped :
    NodeAddress.parse "n%C3%A9:80" = .ok ⟨.name "n%C3%A9", 80⟩ ∧
      (Network.ofEntries ⟨.ofMillis 1, .ofMillis 2⟩ [(⟨0, 0, 3⟩, ⟨.name "n%C3%A9", 80⟩)]).carryOver
        (⟨0, 0, 3⟩, ⟨.name "n%C3%A9", 81⟩) = .fresh ⟨0, 0, 3⟩ ⟨.name "n%C3%A9", 81⟩ := by
  have h : NodeAddress.parse ":pw@né:00080" = .ok ⟨.name "n%C3%A9", 80⟩ := by rfl
  have hother : NodeAddress.parse "né:81" = .ok ⟨.name "n%C3%A9", 81⟩ := by rfl
  obtain ⟨htext, -, hall⟩ := text_of_address.2 _ _ h
  obtain ⟨-, -, hcarry⟩ := hall _ _ hother
  exact ⟨htext, (hcarry _ _ _ rfl rfl).trans (if_neg (by decide))⟩

end LedgerClient
