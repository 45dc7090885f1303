import LedgerClient.Json.Body
import LedgerClient.Proofs.Lexing

namespace LedgerClient

variable {j : Json} {items : List Json} {members : List (String × Json)} {room : Nat} {d : Document}
  {docs : List Document} {around : List Document.Open} {done : List Document}
  {named : List (Option String × Document)} {t : Token} {ts : List Token} {k : String} {v : Json}

mutual

/-- How deep the containers of a value nest. -/
def Json.depth : Json → Nat
  | .null | .bool _ | .number _ | .text _ => 0
  | .list items => Json.itemsDepth items + 1
  | .record members => Json.membersDepth members + 1

def Json.itemsDepth : List Json → Nat
  | [] => 0
  | v :: rest => max v.depth (Json.itemsDepth rest)

def Json.membersDepth : List (String × Json) → Nat
  | [] => 0
  | (_, v) :: rest => max v.depth (Json.membersDepth rest)

end

theorem itemsTokens_cons_cons {w : Json} {rest : List Json} :
    Json.itemsTokens (v :: w :: rest) = v.tokens ++ .comma :: Json.itemsTokens (w :: rest) := by
  rw [Json.itemsTokens]
  simp

theorem membersTokens_cons_cons {w : String × Json} {rest : List (String × Json)} :
    Json.membersTokens ((k, v) :: w :: rest) = .text (some k) :: .colon ::
      (v.tokens ++ .comma :: Json.membersTokens (w :: rest)) := by
  rw [Json.membersTokens]
  · rfl
  · simp

theorem Json.tokens_eq_cons (j : Json) : ∃ t ts, j.tokens = t :: ts ∧ t ≠ .closeList := by
  cases j with
  | null | bool | number | text | list | record => exact ⟨_, _, by rw [Json.tokens], by simp⟩

theorem Json.itemsTokens_eq_cons (h : items ≠ []) :
    ∃ t ts, Json.itemsTokens items = t :: ts ∧ t ≠ .closeList := by
  match items with
  | [v] =>
    rw [Json.itemsTokens]
    exact v.tokens_eq_cons
  | v :: w :: rest =>
    obtain ⟨t, ts, hv, ht⟩ := v.tokens_eq_cons
    rw [itemsTokens_cons_cons, hv]
    exact ⟨t, _, rfl, ht⟩

/-- What a list begins with is read like an item that follows others. -/
theorem foldlM_valueOrEnd (ht : t ≠ .closeList) :
    (t :: ts).foldlM Document.Reader.step ⟨around, .valueOrEnd⟩ =
      (t :: ts).foldlM Document.Reader.step ⟨.list [] :: around, .value⟩ := by
  cases t <;> first | rfl | exact absurd rfl ht

theorem Json.membersTokens_eq_cons (h : members ≠ []) :
    ∃ k ts, Json.membersTokens members = .text k :: ts := by
  match members with
  | [(k, v)] =>
    rw [Json.membersTokens]
    exact ⟨some k, _, rfl⟩
  | (k, v) :: w :: rest =>
    rw [membersTokens_cons_cons]
    exact ⟨some k, _, rfl⟩

mutual

theorem Json.reads : (j : Json) → (around : List Document.Open) →
    j.tokens.foldlM Document.Reader.step ⟨around, .value⟩ = some (j.document.deliver around)
  | .null, _ | .bool _, _ | .number _, _ | .text _, _ => by
    rw [Json.tokens, Json.document]
    rfl
  | .list [], _ => by
    rw [Json.tokens, Json.document, Json.itemsTokens, Json.documents]
    rfl
  | .list (v :: rest), around => by
    obtain ⟨t, ts, hitems, ht⟩ := Json.itemsTokens_eq_cons (List.cons_ne_nil v rest)
    have hread := Json.itemsRead (v :: rest) (by simp) around []
    have hopen : Document.Reader.step ⟨around, .value⟩ .openList = some ⟨around, .valueOrEnd⟩ := rfl
    rw [Json.tokens, Json.document, List.foldlM_cons, hopen, hitems, Option.bind_eq_bind,
      Option.bind_some, List.cons_append, foldlM_valueOrEnd ht, ← List.cons_append, ← hitems,
      List.foldlM_append, hread, List.append_nil, Option.bind_eq_bind, Option.bind_some]
    simp [Document.Reader.step]
  | .record [], _ => by
    rw [Json.tokens, Json.document, Json.membersTokens, Json.memberDocuments]
    rfl
  | .record (m :: rest), around => by
    obtain ⟨k, ts, hmembers⟩ := Json.membersTokens_eq_cons (List.cons_ne_nil m rest)
    have hread := Json.membersRead (m :: rest) (by simp) around []
    have hfirst : (Token.openRecord :: (Json.membersTokens (m :: rest) ++ [.closeRecord])).foldlM
        Document.Reader.step ⟨around, .value⟩ =
          (Json.membersTokens (m :: rest) ++ [Token.closeRecord]).foldlM Document.Reader.step
            ⟨around, .key []⟩ := by
      rw [hmembers]
      rfl
    rw [Json.tokens, Json.document, hfirst, List.foldlM_append, hread, List.append_nil,
      Option.bind_eq_bind, Option.bind_some]
    simp [Document.Reader.step]

theorem Json.itemsRead : (items : List Json) → items ≠ [] → (around : List Document.Open) →
    (done : List Document) →
    (Json.itemsTokens items).foldlM Document.Reader.step ⟨.list done :: around, .value⟩ =
      some ⟨around, .afterItem ((Json.documents items).reverse ++ done)⟩
  | [v], _, around, done => by
    rw [Json.itemsTokens, Json.documents, Json.documents, v.reads]
    rfl
  | v :: w :: rest, _, around, done => by
    have hrest := Json.itemsRead (w :: rest) (by simp) around (v.document :: done)
    have hcomma : Document.Reader.step ⟨around, .afterItem (v.document :: done)⟩ .comma =
        some ⟨.list (v.document :: done) :: around, .value⟩ := rfl
    rw [itemsTokens_cons_cons, List.foldlM_append, v.reads, Json.documents, Option.bind_eq_bind,
      Option.bind_some, Document.deliver, List.foldlM_cons, hcomma, Option.bind_eq_bind,
      Option.bind_some, hrest, List.reverse_cons, List.append_assoc, List.singleton_append]

theorem Json.membersRead : (members : List (String × Json)) → members ≠ [] →
    (around : List Document.Open) → (named : List (Option String × Document)) →
    (Json.membersTokens members).foldlM Document.Reader.step ⟨around, .key named⟩ =
      some ⟨around, .afterMember ((Json.memberDocuments members).reverse ++ named)⟩
  | [(k, v)], _, around, named => by
    have hkey : (Json.membersTokens [(k, v)]).foldlM Document.Reader.step ⟨around, .key named⟩ =
        v.tokens.foldlM Document.Reader.step ⟨.record named (some k) :: around, .value⟩ := by
      rw [Json.membersTokens]
      rfl
    rw [hkey, v.reads, Json.memberDocuments, Json.memberDocuments]
    rfl
  | (k, v) :: w :: rest, _, around, named => by
    have hrest := Json.membersRead (w :: rest) (by simp) around ((some k, v.document) :: named)
    have hkey : (Json.membersTokens ((k, v) :: w :: rest)).foldlM Document.Reader.step
        ⟨around, .key named⟩ = (v.tokens ++ .comma :: Json.membersTokens (w :: rest)).foldlM
          Document.Reader.step ⟨.record named (some k) :: around, .value⟩ := by
      rw [membersTokens_cons_cons]
      rfl
    have hcomma : Document.Reader.step ⟨around, .afterMember ((some k, v.document) :: named)⟩
        .comma = some ⟨around, .key ((some k, v.document) :: named)⟩ := rfl
    rw [hkey, List.foldlM_append, v.reads, Json.memberDocuments, Option.bind_eq_bind,
      Option.bind_some, Document.deliver, List.foldlM_cons, hcomma, Option.bind_eq_bind,
      Option.bind_some, hrest, List.reverse_cons, List.append_assoc, List.singleton_append]

end

theorem Document.parse?_chars (h : j.IsExact) : Document.parse? j.chars = some j.document ∧
    Document.parse? (j.chars ++ ['\n']) = some j.document := by
  obtain ⟨hchars, hline⟩ := tokens?_chars h
  have hread : Document.ofTokens? j.tokens = some j.document := by
    rw [Document.ofTokens?, j.reads]
    rfl
  rw [Document.parse?, Document.parse?, hchars, hline]
  exact ⟨hread, hread⟩

mutual

theorem Json.value?_document : (j : Json) → (room : Nat) → j.depth ≤ room →
    j.document.value? room = some j
  | .null, _, _ | .bool _, _, _ => by rw [Json.document, Document.value?]
  | .number _, _, _ | .text _, _, _ => by
    rw [Json.document, Document.value?]
    rfl
  | .list items, 0, h => by simp [Json.depth] at h
  | .list items, room + 1, h => by
    rw [Json.depth] at h
    rw [Json.document, Document.value?, Json.values?_documents items room (by omega)]
    rfl
  | .record members, 0, h => by simp [Json.depth] at h
  | .record members, room + 1, h => by
    rw [Json.depth] at h
    rw [Json.document, Document.value?, Json.memberValues?_documents members room (by omega)]
    rfl

theorem Json.values?_documents : (items : List Json) → (room : Nat) →
    Json.itemsDepth items ≤ room → Document.values? room (Json.documents items) = some items
  | [], _, _ => by rw [Json.documents, Document.values?]
  | v :: rest, room, h => by
    rw [Json.itemsDepth] at h
    rw [Json.documents, Document.values?, v.value?_document room (by omega),
      Json.values?_documents rest room (by omega)]
    rfl

theorem Json.memberValues?_documents : (members : List (String × Json)) → (room : Nat) →
    Json.membersDepth members ≤ room →
    Document.memberValues? room (Json.memberDocuments members) = some members
  | [], _, _ => by rw [Json.memberDocuments, Document.memberValues?]
  | (k, v) :: rest, room, h => by
    rw [Json.membersDepth] at h
    rw [Json.memberDocuments, Document.memberValues?, v.value?_document room (by omega),
      Json.memberValues?_documents rest room (by omega)]
    rfl

end

theorem insertEarlier_of_lt (h : ∀ x ∈ members.map Prod.fst, k < x) :
    insertEarlier k v members = (k, v) :: members := by
  cases members with
  | nil => rfl
  | cons m rest =>
    have hm : k < m.1 := h m.1 (by simp)
    simp [insertEarlier, hm]

mutual

theorem Json.sort_of_sorted : (j : Json) → j.Sorted → j.sort = j
  | .null, _ | .bool _, _ | .number _, _ | .text _, _ => by rw [Json.sort]
  | .list items, h => by rw [Json.sort, Json.sortItems_of_sorted items h]
  | .record members, h => by rw [Json.sort, Json.sortMembers_of_sorted members h.1 h.2]

theorem Json.sortItems_of_sorted : (items : List Json) → Json.ItemsSorted items →
    Json.sortItems items = items
  | [], _ => by rw [Json.sortItems]
  | v :: rest, h => by
    rw [Json.sortItems, v.sort_of_sorted h.1, Json.sortItems_of_sorted rest h.2]

theorem Json.sortMembers_of_sorted : (members : List (String × Json)) →
    (members.map Prod.fst).Pairwise (· < ·) → Json.MembersSorted members →
    Json.sortMembers members = members
  | [], _, _ => by rw [Json.sortMembers]
  | (k, v) :: rest, hp, h => by
    obtain ⟨hfirst, hrest⟩ := List.pairwise_cons.mp hp
    rw [Json.sortMembers, v.sort_of_sorted h.1, Json.sortMembers_of_sorted rest hrest h.2,
      insertEarlier_of_lt hfirst]

end

theorem Body.ofJson_json (body : Body) : Body.ofJson body.json = body := by
  obtain ⟨json, sorted⟩ := body
  simp only [Body.ofJson, json.sort_of_sorted sorted]

theorem Body.read?_document {body : Body} (h : body.json.depth ≤ room) :
    Body.read? room body.json.document = some body := by
  rw [Body.read?, body.json.value?_document room h, Option.map_some, body.ofJson_json]

theorem membersDepth_insertEarlier :
    Json.membersDepth (insertEarlier k v members) ≤ max v.depth (Json.membersDepth members) := by
  induction members with
  | nil => simp [insertEarlier, Json.membersDepth]
  | cons m rest ih =>
    obtain ⟨k', v'⟩ := m
    unfold insertEarlier
    split
    · simp [Json.membersDepth]
    split
    all_goals
      simp only [Json.membersDepth]
      omega

mutual

theorem Json.depth_sort : (j : Json) → j.sort.depth ≤ j.depth
  | .null | .bool _ | .number _ | .text _ => by
    simp [Json.sort]
  | .list items => by
    have hitems := Json.itemsDepth_sort items
    rw [Json.sort, Json.depth, Json.depth]
    omega
  | .record members => by
    have hmembers := Json.membersDepth_sort members
    rw [Json.sort, Json.depth, Json.depth]
    omega

theorem Json.itemsDepth_sort : (items : List Json) →
    Json.itemsDepth (Json.sortItems items) ≤ Json.itemsDepth items
  | [] => Nat.le_refl _
  | v :: rest => by
    have hv := v.depth_sort
    have hrest := Json.itemsDepth_sort rest
    rw [Json.sortItems, Json.itemsDepth, Json.itemsDepth]
    omega

theorem Json.membersDepth_sort : (members : List (String × Json)) →
    Json.membersDepth (Json.sortMembers members) ≤ Json.membersDepth members
  | [] => Nat.le_refl _
  | (k, v) :: rest => by
    have hv := v.depth_sort
    have hrest := Json.membersDepth_sort rest
    have hinsert : Json.membersDepth (insertEarlier k v.sort (Json.sortMembers rest)) ≤ _ :=
      membersDepth_insertEarlier
    rw [Json.sortMembers, Json.membersDepth]
    omega

end

mutual

theorem Document.depth_of_value? : (d : Document) → (room : Nat) → {j : Json} →
    d.value? room = some j → j.depth ≤ room
  | .null, _, _, h | .bool _, _, _, h => by
    rw [Document.value?] at h
    cases h
    exact Nat.zero_le _
  | .number _, _, _, h | .text _, _, _, h => by
    rw [Document.value?] at h
    obtain ⟨_, -, rfl⟩ := Option.map_eq_some_iff.mp h
    exact Nat.zero_le _
  | .list _, 0, _, h | .record _, 0, _, h => by
    rw [Document.value?] at h
    cases h
  | .list items, room + 1, _, h => by
    rw [Document.value?] at h
    obtain ⟨values, hvalues, rfl⟩ := Option.map_eq_some_iff.mp h
    have hitems := Document.depth_of_values? items room hvalues
    rw [Json.depth]
    omega
  | .record members, room + 1, _, h => by
    rw [Document.value?] at h
    obtain ⟨values, hvalues, rfl⟩ := Option.map_eq_some_iff.mp h
    have hmembers := Document.depth_of_memberValues? members room hvalues
    rw [Json.depth]
    omega

theorem Document.depth_of_values? : (docs : List Document) → (room : Nat) → {items : List Json} →
    Document.values? room docs = some items → Json.itemsDepth items ≤ room
  | [], _, _, h => by
    rw [Document.values?] at h
    cases h
    exact Nat.zero_le _
  | d :: rest, room, _, h => by
    rw [Document.values?, Option.bind_eq_bind, Option.bind_eq_some_iff] at h
    obtain ⟨j, hj, h⟩ := h
    obtain ⟨items, hitems, h⟩ := Option.bind_eq_some_iff.mp h
    cases h
    have hd := d.depth_of_value? room hj
    have hrest := Document.depth_of_values? rest room hitems
    rw [Json.itemsDepth]
    omega

theorem Document.depth_of_memberValues? : (docs : List (Option String × Document)) →
    (room : Nat) → {members : List (String × Json)} →
    Document.memberValues? room docs = some members → Json.membersDepth members ≤ room
  | [], _, _, h => by
    rw [Document.memberValues?] at h
    cases h
    exact Nat.zero_le _
  | (name, d) :: rest, room, _, h => by
    rw [Document.memberValues?, Option.bind_eq_bind, Option.bind_eq_some_iff] at h
    obtain ⟨k, -, h⟩ := h
    obtain ⟨j, hj, h⟩ := Option.bind_eq_some_iff.mp h
    obtain ⟨members, hmembers, h⟩ := Option.bind_eq_some_iff.mp h
    cases h
    have hd := d.depth_of_value? room hj
    have hrest := Document.depth_of_memberValues? rest room hmembers
    rw [Json.membersDepth]
    omega

end

/-- A body that was read nests no deeper than there was room. -/
theorem Body.depth_of_read? {body : Body} (h : Body.read? room d = some body) :
    body.json.depth ≤ room := by
  obtain ⟨j, hj, rfl⟩ := Option.map_eq_some_iff.mp h
  exact Nat.le_trans j.depth_sort (d.depth_of_value? room hj)

end LedgerClient
