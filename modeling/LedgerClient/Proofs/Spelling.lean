import LedgerClient.NodeAddress
import LedgerClient.Proofs.Ipv6Text

namespace LedgerClient

variable {c : Char} {s t credentials authority before after digits rest : List Char} {host : Host}
  {port : UInt16} {a : NodeAddress} {p : NodeAddress.Parts} {inBrackets : Bool}

/-- A host as it is written: a name, of which some characters are escaped, or an address of
version 6 in brackets. -/
inductive Host.Written : List Char → Host → Prop
  | name {s : List Char} (ne_nil : s ≠ []) (allowed : ∀ c ∈ s, NodeAddress.isForbidden c = false) :
      Host.Written s (.name (String.ofList (s.flatMap NodeAddress.escapeHostChar)))
  | ipv6 {s : List Char} {address : Ipv6} (h : Ipv6.parse? s = some address) :
      Host.Written ('[' :: (s ++ [']'])) (.ipv6 address)

/-- The parts of a text that is an address. Besides host and port there may be credentials before
an at-sign, and a fragment after a number sign. -/
structure NodeAddress.Spelling where
  credentials : Option (List Char)
  host : List Char
  port : List Char
  fragment : Option (List Char)

/-- What follows the port. -/
def NodeAddress.Spelling.tail (s : NodeAddress.Spelling) : List Char :=
  s.fragment.elim [] ('#' :: ·)

def NodeAddress.Spelling.chars (s : NodeAddress.Spelling) : List Char :=
  s.credentials.elim [] (· ++ ['@']) ++ (s.host ++ ':' :: (s.port ++ s.tail))

/-- What follows the colon of the credentials. -/
def NodeAddress.Spelling.password (s : NodeAddress.Spelling) : List Char :=
  (s.credentials.getD []).drop 1

/-- Nothing but host and port. -/
def NodeAddress.Spelling.plain (s : NodeAddress.Spelling) : NodeAddress.Spelling :=
  { s with credentials := none, fragment := none }

/-- The parts of an address. The credentials name no user. -/
structure NodeAddress.Spelling.Denotes (s : NodeAddress.Spelling) (a : NodeAddress) : Prop where
  anonymous : ∀ credentials ∈ s.credentials, ∀ c ∈ credentials.head?, c = ':'
  inAuthority : ∀ credentials ∈ s.credentials, ∀ c ∈ credentials, endsAuthority c = false
  host : a.host.Written s.host
  port : readDecimal? s.port = some a.port.toNat

theorem readHost_eq_ok_iff : NodeAddress.readHost s = .ok (some host) ↔ host.Written s := by
  constructor
  · intro h
    unfold NodeAddress.readHost at h
    split at h
    next => cases h
    next rest =>
      split at h
      next inner heq =>
        split at h
        next address haddress =>
          cases h
          have hrest : rest = inner.reverse ++ [']'] := by
            rw [← List.reverse_reverse rest, heq, List.reverse_cons]
          exact hrest ▸ .ipv6 haddress
        next => cases h
      next => cases h
    next hne _ =>
      split at h
      next => cases h
      next hallowed =>
        cases h
        exact .name hne (by simpa using hallowed)
  · intro h
    cases h with
    | name ne_nil allowed =>
      have hany : s.any NodeAddress.isForbidden = false := by simpa using allowed
      unfold NodeAddress.readHost
      split
      next => exact absurd rfl ne_nil
      next rest => cases allowed '[' (by simp)
      next => rw [hany]; rfl
    | ipv6 h =>
      unfold NodeAddress.readHost
      simp [h]

theorem Ipv6.ne_of_isLetter (h : Ipv6.isLetter c = true) :
    endsAuthority c = false ∧ c ≠ '@' ∧ c ≠ '[' ∧ c ≠ ']' := by
  have hother : ['/', '?', '#', '@', '[', ']'].all (!Ipv6.isLetter ·) = true := by decide
  have hne : ∀ d ∈ ['/', '?', '#', '@', '[', ']'], c ≠ d := fun d hd heq => by
    have hd := List.all_eq_true.mp hother d hd
    rw [← heq, h] at hd
    cases hd
  simp only [List.forall_mem_cons] at hne
  simp [endsAuthority, hne]

theorem ne_of_allowed (h : NodeAddress.isForbidden c = false) :
    endsAuthority c = false ∧ c ≠ '@' ∧ c ≠ '[' ∧ c ≠ ':' := by
  simp only [NodeAddress.isForbidden, List.contains_eq_mem, decide_eq_false_iff_not,
    List.mem_cons, not_or] at h
  simp [endsAuthority, h]

/-- No character of a host ends the authority or separates credentials from it. -/
theorem Host.Written.inAuthority (h : host.Written s) :
    ∀ c ∈ s, endsAuthority c = false ∧ c ≠ '@' := by
  cases h with
  | name _ allowed =>
    intro c hc
    obtain ⟨hends, hat, -⟩ := ne_of_allowed (allowed c hc)
    exact ⟨hends, hat⟩
  | @ipv6 inner _ h =>
    have hinner : ∀ c ∈ inner, endsAuthority c = false ∧ c ≠ '@' := by
      intro c hc
      obtain ⟨hends, hat, -⟩ := Ipv6.ne_of_isLetter (Ipv6.letters_of_parse? h c hc)
      exact ⟨hends, hat⟩
    intro c hc
    simp only [List.mem_cons, List.mem_append, List.not_mem_nil, or_false] at hc
    rcases hc with rfl | hc | rfl
    · decide
    · exact hinner c hc
    · decide

theorem cutHost_append (h : ∀ c ∈ s, ((c == ':' && !inBrackets) || endsAuthority c) = false ∧
      (c == '[' || (inBrackets && c != ']')) = inBrackets) :
    NodeAddress.cutHost inBrackets (s ++ rest) =
      (s ++ (NodeAddress.cutHost inBrackets rest).1, (NodeAddress.cutHost inBrackets rest).2) := by
  induction s with
  | nil => rfl
  | cons c s ih =>
    obtain ⟨hgo, hkeep⟩ := h c (by simp)
    rw [List.cons_append, NodeAddress.cutHost, if_neg (by simp [hgo]), hkeep,
      ih fun d hd => h d (by simp [hd])]
    rfl

theorem eq_append_of_cutHost (h : NodeAddress.cutHost inBrackets s = (t, after)) :
    s = t ++ after := by
  induction s generalizing inBrackets t after with
  | nil => cases h; rfl
  | cons c s ih =>
    rw [NodeAddress.cutHost] at h
    split at h
    next => cases h; rfl
    next =>
      generalize hcut : NodeAddress.cutHost _ s = cut at h
      obtain ⟨host, rest⟩ := cut
      cases h
      rw [ih hcut, List.cons_append]

theorem Host.Written.cutHost (h : host.Written s) :
    NodeAddress.cutHost false (s ++ ':' :: rest) = (s, ':' :: rest) := by
  have hcolon : NodeAddress.cutHost false (':' :: rest) = ([], ':' :: rest) := by
    rw [NodeAddress.cutHost, if_pos (by simp)]
  cases h with
  | name _ allowed =>
    have hplain : ∀ c ∈ s, ((c == ':' && !false) || endsAuthority c) = false ∧
        (c == '[' || (false && c != ']')) = false := by
      intro c hc
      obtain ⟨hends, -, hopen, hne⟩ := ne_of_allowed (allowed c hc)
      simp [hends, hopen, hne]
    rw [cutHost_append hplain, hcolon, List.append_nil]
  | @ipv6 s address h =>
    have hinner : ∀ c ∈ s, ((c == ':' && !true) || endsAuthority c) = false ∧
        (c == '[' || (true && c != ']')) = true := by
      intro c hc
      obtain ⟨hends, -, -, hclose⟩ := Ipv6.ne_of_isLetter (Ipv6.letters_of_parse? h c hc)
      simp [hends, hclose]
    have hclose : NodeAddress.cutHost true (']' :: ':' :: rest) = ([']'], ':' :: rest) := by
      rw [NodeAddress.cutHost, if_neg (by decide)]
      simp [hcolon]
    rw [List.cons_append, NodeAddress.cutHost, if_neg (by decide), List.append_assoc,
      List.singleton_append]
    simp [cutHost_append hinner, hclose]

/-- What follows a part that characters of a class end: nothing, or a text that begins with one. -/
def EndedBy (ends : Char → Bool) (rest : List Char) : Prop :=
  ∀ c ∈ rest.head?, ends c = true

instance {ends : Char → Bool} : Decidable (EndedBy ends rest) :=
  inferInstanceAs (Decidable (∀ c ∈ rest.head?, ends c = true))

theorem EndedBy.takeWhile {ends : Char → Bool} (hrest : EndedBy ends rest)
    (h : ∀ c ∈ s, ends c = false) : (s ++ rest).takeWhile (fun c => !ends c) = s :=
  (span_append (by simpa using h) fun c hc => by simp [hrest c hc]).1

theorem cutCredentials?_eq_none (h : ∀ c ∈ authority, endsAuthority c = false ∧ c ≠ '@')
    (hrest : EndedBy endsAuthority rest) :
    NodeAddress.cutCredentials? (authority ++ rest) = none := by
  have htake := hrest.takeWhile fun c hc => (h c hc).1
  have hhost : (authority.reverse.takeWhile (· != '@')).reverse = authority := by
    rw [List.takeWhile_eq_self_iff.mpr (by simpa using fun c hc => (h c hc).2),
      List.reverse_reverse]
  simp only [NodeAddress.cutCredentials?, htake, hhost, Nat.lt_irrefl, if_false]

theorem cutCredentials?_eq_some (hcredentials : ∀ c ∈ credentials, endsAuthority c = false)
    (h : ∀ c ∈ authority, endsAuthority c = false ∧ c ≠ '@') (hrest : EndedBy endsAuthority rest) :
    NodeAddress.cutCredentials? (credentials ++ '@' :: (authority ++ rest)) =
      some (credentials, authority ++ rest) := by
  have hhead : ∀ c ∈ credentials ++ '@' :: authority, endsAuthority c = false := by
    intro c hc
    rcases List.mem_append.mp hc with hc | hc
    · exact hcredentials c hc
    · rcases List.mem_cons.mp hc with rfl | hc
      · decide
      · exact (h c hc).1
  have htake := hrest.takeWhile hhead
  rw [List.append_assoc, List.cons_append] at htake
  have hhost : ((credentials ++ '@' :: authority).reverse.takeWhile (· != '@')).reverse =
      authority := by
    rw [List.reverse_append, List.reverse_cons, List.append_assoc,
      List.takeWhile_append_of_pos (by simpa using fun c hc => (h c hc).2)]
    simp
  have hlength : authority.length < (credentials ++ '@' :: authority).length := by
    simp
    omega
  have hbefore : (credentials ++ '@' :: authority).take
      ((credentials ++ '@' :: authority).length - authority.length - 1) = credentials :=
    List.take_left' (by simp; omega)
  simp only [NodeAddress.cutCredentials?, htake, hhost, if_pos hlength, hbefore]
  rw [List.drop_append, List.drop_of_length_le (Nat.le_succ _)]
  simp

theorem of_cutCredentials? (h : NodeAddress.cutCredentials? s = some (credentials, after)) :
    s = credentials ++ '@' :: after ∧ ∀ c ∈ credentials, endsAuthority c = false := by
  have hhead : ∀ c ∈ s.takeWhile (fun c => !endsAuthority c), endsAuthority c = false :=
    fun c hc => by simpa using List.mem_takeWhile_imp hc
  have hrest : EndedBy endsAuthority (s.dropWhile fun c => !endsAuthority c) :=
    fun c hc => by simpa using head?_dropWhile (fun c => !endsAuthority c) s c hc
  rw [← List.takeWhile_append_dropWhile (p := fun c => !endsAuthority c) (l := s)] at h ⊢
  generalize s.takeWhile (fun c => !endsAuthority c) = head,
    s.dropWhile (fun c => !endsAuthority c) = rest at *
  -- of several at-signs in the authority the last one counts
  by_cases hat : '@' ∈ head
  · obtain ⟨before, authority, rfl, hnot⟩ := eq_append_last_of_mem hat
    have hbefore : ∀ c ∈ before, endsAuthority c = false :=
      fun c hc => hhead c (List.mem_append_left _ hc)
    have hauthority : ∀ c ∈ authority, endsAuthority c = false ∧ c ≠ '@' := fun c hc =>
      ⟨hhead c (List.mem_append_right _ (List.mem_cons_of_mem _ hc)), fun heq => hnot (heq ▸ hc)⟩
    rw [List.append_assoc, List.cons_append, cutCredentials?_eq_some hbefore hauthority hrest] at h
    cases h
    exact ⟨by rw [List.append_assoc, List.cons_append], hbefore⟩
  · have hauthority : ∀ c ∈ head, endsAuthority c = false ∧ c ≠ '@' :=
      fun c hc => ⟨hhead c hc, fun heq => hat (heq ▸ hc)⟩
    rw [cutCredentials?_eq_none hauthority hrest] at h
    cases h

/-- The characters that may follow the digits of a port. -/
def endsPort (c : Char) : Bool :=
  endsAuthority c || c == '\\'

theorem readPort_eq (s : List Char) :
    let digits := s.takeWhile Char.isDigit
    let number := (readDecimal? digits).getD 0
    NodeAddress.readPort s =
      if number < UInt16.size ∧ EndedBy endsPort (s.dropWhile Char.isDigit) then
        .ok (if digits = [] then none else some (.ofNat number), s.dropWhile Char.isDigit)
      else .error .invalidPort := by
  dsimp only [NodeAddress.readPort]
  generalize s.dropWhile Char.isDigit = rest
  generalize s.takeWhile Char.isDigit = digits
  generalize (readDecimal? digits).getD 0 = number
  by_cases hn : number < UInt16.size
  · have hle : decide (UInt16.size ≤ number) = false := decide_eq_false (Nat.not_le.mpr hn)
    cases rest with
    | nil =>
      have hended : EndedBy endsPort [] := nofun
      simp only [hle, Bool.not_true, Bool.or_self, Bool.false_eq_true, if_false,
        if_pos (And.intro hn hended)]
      split <;> rfl
    | cons c rest =>
      have hended : EndedBy endsPort (c :: rest) ↔ (endsAuthority c || c == '\\') = true := by
        simp [EndedBy, endsPort]
      cases hc : endsAuthority c || c == '\\'
      · simp only [hended, hc, Bool.not_false, Bool.or_true, if_true, Bool.false_eq_true,
          and_false, if_false]
      · simp only [hle, hended, hc, hn, Bool.not_true, Bool.or_self, Bool.false_eq_true, if_false,
          and_self, if_true]
        split <;> rfl
  · have hle : decide (UInt16.size ≤ number) = true := decide_eq_true (Nat.not_lt.mp hn)
    simp only [hle, Bool.true_or, if_true, hn, false_and, if_false]

theorem not_isDigit_of_endedBy (h : EndedBy endsPort rest) :
    ∀ c ∈ rest.head?, c.isDigit = false := by
  intro c hc
  have hends := h c hc
  simp only [endsPort, endsAuthority, Bool.or_eq_true, beq_iff_eq] at hends
  rcases hends with ((rfl | rfl) | rfl) | rfl <;> decide

theorem readPort_eq_ok_iff : NodeAddress.readPort s = .ok (some port, rest) ↔
    ∃ digits, s = digits ++ rest ∧ readDecimal? digits = some port.toNat ∧
      EndedBy endsPort rest := by
  rw [readPort_eq]
  constructor
  · intro h
    split at h
    next hok =>
      split at h
      next => cases h
      next hne =>
        cases h
        have hread : readDecimal? (s.takeWhile Char.isDigit) = some _ :=
          readDecimal?_eq_some_iff.mpr ⟨hne, fun c => List.mem_takeWhile_imp, rfl⟩
        refine ⟨s.takeWhile Char.isDigit, List.takeWhile_append_dropWhile.symm, ?_, hok.2⟩
        rw [hread, Option.getD_some] at hok ⊢
        rw [UInt16.toNat_ofNat_of_lt' hok.1]
    next => cases h
  · rintro ⟨digits, rfl, hdigits, hrest⟩
    have hne : digits ≠ [] := by
      rintro rfl
      cases hdigits
    obtain ⟨htake, hdrop⟩ :=
      span_append (isDigit_of_readDecimal? hdigits) (not_isDigit_of_endedBy hrest)
    simp only [htake, hdrop, hdigits, Option.getD_some, if_neg hne, UInt16.ofNat_toNat]
    exact if_pos ⟨port.toNat_lt, hrest⟩

theorem ofParts_eq_ok_iff : NodeAddress.ofParts p = .ok a ↔
    p.user = [] ∧ (∀ c ∈ p.rest.head?, c = '#') ∧ p.host = some a.host ∧
      p.port = some a.port := by
  obtain ⟨user, password, host, port, rest⟩ := p
  constructor
  · intro h
    cases user with
    | cons => cases h
    | nil =>
      cases rest with
      | nil => cases host <;> cases port <;> cases h; simp
      | cons c rest =>
        by_cases hc : c = '#'
        · subst hc
          cases host <;> cases port <;> cases h; simp
        · have hbeyond : (c != '#') = true := by simpa using hc
          simp only [NodeAddress.ofParts, hbeyond] at h
          cases h
  · rintro ⟨huser, hrest, hhost, hport⟩
    dsimp only at huser hrest hhost hport
    subst huser hhost hport
    cases rest with
    | nil => rfl
    | cons c rest =>
      cases hrest c rfl
      rfl

variable {spelling : NodeAddress.Spelling} {text : String}

/-- What is read after the credentials. -/
def NodeAddress.readRemainder (credentials s : List Char) :
    Except NodeAddress.Flaw NodeAddress.Parts := do
  let user := credentials.takeWhile (· != ':')
  let password := (credentials.dropWhile (· != ':')).drop 1
  let (hostText, after) := NodeAddress.cutHost false s
  let host ← NodeAddress.readHost hostText
  let (port, rest) ← match after with
    | ':' :: after => if host.isNone then throw .emptyHost else NodeAddress.readPort after
    | _ => pure (none, after)
  if host.isNone && !(user.isEmpty && password.isEmpty) then throw .emptyHost
  return ⟨user, password, host, port, rest⟩

theorem readParts_of_none (h : NodeAddress.cutCredentials? s = none) :
    NodeAddress.readParts s = NodeAddress.readRemainder [] s := by
  unfold NodeAddress.readParts
  rw [h]
  rfl

theorem readParts_of_some (h : NodeAddress.cutCredentials? s = some (credentials, after))
    (hafter : ∀ c ∈ after.head?, endsAuthority c = false) :
    NodeAddress.readParts s = NodeAddress.readRemainder credentials after := by
  unfold NodeAddress.readParts
  rw [h]
  cases credentials with
  | cons => rfl
  | nil =>
    cases after with
    | nil => rfl
    | cons c after =>
      simp only [hafter c rfl]
      rfl

theorem of_readParts (h : NodeAddress.readParts s = .ok p) :
    ∃ (cut : Option (List Char)) (after : List Char),
      NodeAddress.readRemainder (cut.getD []) after = .ok p ∧
        s = cut.elim [] (· ++ ['@']) ++ after ∧
        ∀ credentials ∈ cut, ∀ c ∈ credentials, endsAuthority c = false := by
  cases hcut : NodeAddress.cutCredentials? s with
  | none => exact ⟨none, s, readParts_of_none hcut ▸ h, rfl, nofun⟩
  | some cut =>
    obtain ⟨credentials, after⟩ := cut
    obtain ⟨hs, hcredentials⟩ := of_cutCredentials? hcut
    refine ⟨some credentials, after, ?_, by simpa using hs, by rintro _ ⟨⟩; exact hcredentials⟩
    unfold NodeAddress.readParts at h
    rw [hcut] at h
    cases credentials with
    | cons => exact h
    | nil =>
      cases after with
      | nil => exact h
      | cons c after =>
        cases hc : endsAuthority c <;> simp only [hc] at h
        · exact h
        · cases h

theorem readRemainder_of_host (hcut : NodeAddress.cutHost false s = (t, ':' :: after))
    (hhost : NodeAddress.readHost t = .ok (some host))
    (hport : NodeAddress.readPort after = .ok (some port, rest)) :
    NodeAddress.readRemainder credentials s = .ok ⟨credentials.takeWhile (· != ':'),
      (credentials.dropWhile (· != ':')).drop 1, some host, some port, rest⟩ := by
  unfold NodeAddress.readRemainder
  simp only [hcut, hhost, hport]
  rfl

theorem of_readRemainder (h : NodeAddress.readRemainder credentials s = .ok p)
    (hhost : p.host = some host) (hport : p.port = some port) :
    p.user = credentials.takeWhile (· != ':') ∧
      ∃ t after, s = t ++ ':' :: after ∧ NodeAddress.readHost t = .ok (some host) ∧
        NodeAddress.readPort after = .ok (some port, p.rest) := by
  unfold NodeAddress.readRemainder at h
  generalize hcut : NodeAddress.cutHost false s = cut at h
  obtain ⟨t, after⟩ := cut
  have hs : s = t ++ after := eq_append_of_cutHost hcut
  cases hread : NodeAddress.readHost t with
  | error =>
    simp only [hread] at h
    cases h
  | ok host' =>
    simp only [hread, bind, Except.bind, pure, Except.pure, throw] at h
    split at h
    next after =>
      cases host' with
      | none => cases h
      | some host' =>
        cases hread' : NodeAddress.readPort after with
        | error => rw [hread'] at h; cases h
        | ok v =>
          rw [hread'] at h
          cases h
          cases hhost
          dsimp only at hport
          exact ⟨rfl, t, after, hs, hread, hport ▸ hread'⟩
    next =>
      split at h
      · cases h
      · cases h
        cases hport

theorem head?_tail (spelling : NodeAddress.Spelling) : ∀ c ∈ spelling.tail.head?, c = '#' := by
  unfold NodeAddress.Spelling.tail
  cases spelling.fragment with
  | none => nofun
  | some => rintro c ⟨⟩; rfl

theorem endedBy_tail {ends : Char → Bool} (spelling : NodeAddress.Spelling)
    (h : ends '#' = true) : EndedBy ends spelling.tail := fun c hc => by
  rw [head?_tail spelling c hc, h]

theorem user_eq_nil_iff :
    credentials.takeWhile (· != ':') = [] ↔ ∀ c ∈ credentials.head?, c = ':' := by
  cases credentials with
  | nil => simp
  | cons c credentials => by_cases hc : c = ':' <;> simp [hc]

theorem drop_dropWhile_of_anonymous (h : ∀ c ∈ credentials.head?, c = ':') :
    (credentials.dropWhile (· != ':')).drop 1 = credentials.drop 1 := by
  cases credentials with
  | nil => rfl
  | cons c credentials =>
    cases h c rfl
    rfl

/-- Host and port, which are followed by a fragment at most. -/
theorem NodeAddress.Spelling.Denotes.inAuthority_core (h : spelling.Denotes a) :
    ∀ c ∈ spelling.host ++ ':' :: spelling.port, endsAuthority c = false ∧ c ≠ '@' := by
  intro c hc
  rcases List.mem_append.mp hc with hc | hc
  · exact h.host.inAuthority c hc
  · rcases List.mem_cons.mp hc with rfl | hc
    · decide
    · have hdigit := isDigit_of_readDecimal? h.port c hc
      obtain ⟨hends, hat, -⟩ := Ipv6.ne_of_isLetter (Ipv6.isLetter_of_isDigit hdigit)
      exact ⟨hends, hat⟩

theorem NodeAddress.Spelling.Denotes.readParts (h : spelling.Denotes a) :
    NodeAddress.readParts spelling.chars =
      .ok ⟨[], spelling.password, some a.host, some a.port, spelling.tail⟩ := by
  have hcore := h.inAuthority_core
  have htail : EndedBy endsAuthority spelling.tail := endedBy_tail spelling rfl
  have hport := readPort_eq_ok_iff.mpr
    ⟨spelling.port, rfl, h.port, endedBy_tail spelling rfl⟩
  have hremainder : ∀ credentials, NodeAddress.readRemainder credentials _ = .ok _ :=
    fun _ => readRemainder_of_host h.host.cutHost (readHost_eq_ok_iff.mpr h.host) hport
  have hassoc : spelling.host ++ ':' :: (spelling.port ++ spelling.tail) =
      (spelling.host ++ ':' :: spelling.port) ++ spelling.tail := by
    simp
  unfold NodeAddress.Spelling.chars NodeAddress.Spelling.password
  cases hcredentials : spelling.credentials with
  | none =>
    have hnone := cutCredentials?_eq_none hcore htail
    rw [← hassoc] at hnone
    exact (readParts_of_none hnone).trans (hremainder [])
  | some credentials =>
    have hsome := cutCredentials?_eq_some (h.inAuthority credentials hcredentials) hcore htail
    rw [← hassoc] at hsome
    have hanonymous := h.anonymous credentials hcredentials
    have hhead : ∀ c ∈ (spelling.host ++ ':' :: (spelling.port ++ spelling.tail)).head?,
        endsAuthority c = false := by
      intro c hc
      rw [hassoc, List.head?_append_of_ne_nil _ (by simp)] at hc
      exact (hcore c (List.mem_of_mem_head? hc)).1
    have hread := (readParts_of_some hsome hhead).trans (hremainder credentials)
    rw [user_eq_nil_iff.mpr hanonymous, drop_dropWhile_of_anonymous hanonymous] at hread
    simpa using hread

theorem NodeAddress.Spelling.Denotes.plain (h : spelling.Denotes a) : spelling.plain.Denotes a :=
  ⟨nofun, nofun, h.host, h.port⟩

theorem parse_eq_ok_iff :
    NodeAddress.parse text = .ok a ↔
      ∃ p, NodeAddress.readParts (NodeAddress.significant text) = .ok p ∧
        NodeAddress.ofParts p = .ok a := by
  unfold NodeAddress.parse
  cases NodeAddress.readParts (NodeAddress.significant text) with
  | error => simp [Except.bind, Except.mapError]
  | ok p => cases hp : NodeAddress.ofParts p <;> simp [Except.bind, Except.mapError, hp]

/-- What the grammar describes is accepted. -/
theorem parse_of_denotes (hchars : spelling.chars = NodeAddress.significant text)
    (h : spelling.Denotes a) : NodeAddress.parse text = .ok a := by
  refine parse_eq_ok_iff.mpr ⟨_, hchars ▸ h.readParts, ofParts_eq_ok_iff.mpr ?_⟩
  exact ⟨rfl, head?_tail spelling, rfl, rfl⟩

/-- What is accepted is described by the grammar. -/
theorem denotes_of_parse (h : NodeAddress.parse text = .ok a) :
    ∃ spelling : NodeAddress.Spelling,
      spelling.chars = NodeAddress.significant text ∧ spelling.Denotes a := by
  obtain ⟨p, hparts, hp⟩ := parse_eq_ok_iff.mp h
  obtain ⟨huser, hrest, hhost, hport⟩ := ofParts_eq_ok_iff.mp hp
  obtain ⟨cut, after, hremainder, hs, hcut⟩ := of_readParts hparts
  obtain ⟨huser', t, after', rfl, hread, hread'⟩ := of_readRemainder hremainder hhost hport
  obtain ⟨digits, rfl, hdigits, -⟩ := readPort_eq_ok_iff.mp hread'
  obtain ⟨fragment, hfragment⟩ : ∃ fragment : Option (List Char),
      p.rest = fragment.elim [] ('#' :: ·) := by
    cases hp : p.rest with
    | nil => exact ⟨none, rfl⟩
    | cons c rest => exact ⟨some rest, by rw [hrest c (by rw [hp]; rfl)]; rfl⟩
  refine ⟨⟨cut, t, digits, fragment⟩, ?_, ?_, hcut, readHost_eq_ok_iff.mp hread, hdigits⟩
  · rw [hs, hfragment]
    rfl
  · rintro credentials ⟨⟩
    exact user_eq_nil_iff.mp (huser'.symm.trans huser)

/-- The parser accepts the texts of the grammar and no others. Besides host and port they hold a
password and a fragment at most, and without these they are read as the same host and port. -/
theorem spelling_of_address (text : String) (a : NodeAddress) :
    NodeAddress.parse text = .ok a ↔
      ∃ spelling : NodeAddress.Spelling,
        spelling.chars = NodeAddress.significant text ∧ spelling.Denotes a ∧
        NodeAddress.readParts spelling.chars =
          .ok ⟨[], spelling.password, some a.host, some a.port, spelling.tail⟩ ∧
        NodeAddress.readParts spelling.plain.chars =
          .ok ⟨[], [], some a.host, some a.port, []⟩ := by
  constructor
  · intro h
    obtain ⟨spelling, hchars, hdenotes⟩ := denotes_of_parse h
    exact ⟨spelling, hchars, hdenotes, hdenotes.readParts, hdenotes.plain.readParts⟩
  · rintro ⟨spelling, hchars, hdenotes, -, -⟩
    exact parse_of_denotes hchars hdenotes

/-- A password and a fragment are accepted, and the address does not tell that they were there. -/
theorem secret_of_address :
    NodeAddress.parse ":secret@node:50211#there" = .ok ⟨.name "node", 50211⟩ ∧
      NodeAddress.readParts (NodeAddress.significant ":secret@node:50211#there") =
        .ok ⟨[], "secret".toList, some (.name "node"), some 50211, "#there".toList⟩ := by
  constructor <;> rfl

end LedgerClient
