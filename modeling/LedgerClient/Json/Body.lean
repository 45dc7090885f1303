import LedgerClient.Json.Document

namespace LedgerClient

/-- Adds a member that was written before the members of a sorted record. -/
def insertEarlier (k : String) (v : Json) : List (String × Json) → List (String × Json)
  | [] => [(k, v)]
  | (k', v') :: rest =>
    if k < k' then (k, v) :: (k', v') :: rest
    else if k = k' then (k', v') :: rest
    else (k', v') :: insertEarlier k v rest

mutual

/-- Of members with one name the last counts, and the members stand in the order of their names, so
equal bodies are equal values. -/
def Json.sort : Json → Json
  | .null => .null
  | .bool b => .bool b
  | .number n => .number n
  | .text s => .text s
  | .list items => .list (Json.sortItems items)
  | .record members => .record (Json.sortMembers members)

def Json.sortItems : List Json → List Json
  | [] => []
  | v :: rest => v.sort :: Json.sortItems rest

def Json.sortMembers : List (String × Json) → List (String × Json)
  | [] => []
  | (k, v) :: rest => insertEarlier k v.sort (Json.sortMembers rest)

end

mutual

/-- Every record has its names in increasing order, each of them once. -/
def Json.Sorted : Json → Prop
  | .null | .bool _ | .number _ | .text _ => True
  | .list items => Json.ItemsSorted items
  | .record members => (members.map Prod.fst).Pairwise (· < ·) ∧ Json.MembersSorted members

def Json.ItemsSorted : List Json → Prop
  | [] => True
  | v :: rest => v.Sorted ∧ Json.ItemsSorted rest

def Json.MembersSorted : List (String × Json) → Prop
  | [] => True
  | (_, v) :: rest => v.Sorted ∧ Json.MembersSorted rest

end

theorem mem_insertEarlier {k x : String} {v : Json} {members : List (String × Json)} :
    x ∈ (insertEarlier k v members).map Prod.fst ↔ x = k ∨ x ∈ members.map Prod.fst := by
  induction members with
  | nil => simp [insertEarlier]
  | cons m rest ih =>
    obtain ⟨k', v'⟩ := m
    by_cases hlt : k < k'
    · simp [insertEarlier, hlt]
    · by_cases heq : k = k'
      · simp [insertEarlier, heq]
      · simp only [insertEarlier, hlt, heq, ↓reduceIte, List.map_cons, List.mem_cons, ih]
        exact or_left_comm

theorem pairwise_insertEarlier {k : String} {v : Json} {members : List (String × Json)}
    (h : (members.map Prod.fst).Pairwise (· < ·)) :
    ((insertEarlier k v members).map Prod.fst).Pairwise (· < ·) := by
  induction members with
  | nil => simp [insertEarlier]
  | cons m rest ih =>
    obtain ⟨k', v'⟩ := m
    obtain ⟨hhead, htail⟩ := List.pairwise_cons.mp h
    by_cases hlt : k < k'
    · simp only [insertEarlier, hlt, ↓reduceIte]
      refine List.pairwise_cons.mpr ⟨fun x hx => ?_, h⟩
      rcases List.mem_cons.mp hx with rfl | hx
      · exact hlt
      · exact String.lt_trans hlt (hhead x hx)
    · by_cases heq : k = k'
      · simpa [insertEarlier, heq] using h
      · simp only [insertEarlier, hlt, heq, ↓reduceIte]
        refine List.pairwise_cons.mpr ⟨fun x hx => ?_, ih htail⟩
        rcases mem_insertEarlier.mp hx with rfl | hx
        · exact String.not_le.mp fun hle => heq (String.le_antisymm hle (String.not_lt.mp hlt))
        · exact hhead x hx

theorem membersSorted_insertEarlier {k : String} {v : Json} {members : List (String × Json)}
    (hv : v.Sorted) (h : Json.MembersSorted members) :
    Json.MembersSorted (insertEarlier k v members) := by
  induction members with
  | nil => simpa [insertEarlier, Json.MembersSorted] using hv
  | cons m rest ih =>
    obtain ⟨k', v'⟩ := m
    obtain ⟨hhead, htail⟩ := h
    by_cases hlt : k < k'
    · simpa [insertEarlier, hlt, Json.MembersSorted] using ⟨hv, hhead, htail⟩
    · by_cases heq : k = k'
      · simpa [insertEarlier, heq, Json.MembersSorted] using ⟨hhead, htail⟩
      · simpa [insertEarlier, hlt, heq, Json.MembersSorted] using ⟨hhead, ih htail⟩

mutual

theorem Json.sorted_sort : (j : Json) → j.sort.Sorted
  | .null | .bool _ | .number _ | .text _ => trivial
  | .list items => Json.itemsSorted_sort items
  | .record members => Json.membersSorted_sort members

theorem Json.itemsSorted_sort : (items : List Json) → Json.ItemsSorted (Json.sortItems items)
  | [] => trivial
  | v :: rest => ⟨Json.sorted_sort v, Json.itemsSorted_sort rest⟩

theorem Json.membersSorted_sort : (members : List (String × Json)) →
    ((Json.sortMembers members).map Prod.fst).Pairwise (· < ·) ∧
      Json.MembersSorted (Json.sortMembers members)
  | [] => ⟨List.Pairwise.nil, trivial⟩
  | (_, v) :: rest =>
    have h := Json.membersSorted_sort rest
    ⟨pairwise_insertEarlier h.1, membersSorted_insertEarlier (Json.sorted_sort v) h.2⟩

end

/-- A value whose records are sorted. -/
structure Body where
  json : Json
  sorted : json.Sorted

instance : Inhabited Body := ⟨.null, trivial⟩

def Body.ofJson (j : Json) : Body :=
  ⟨j.sort, j.sorted_sort⟩

/-- The body that a document stands for, if its containers nest no deeper than `room`. -/
def Body.read? (room : Nat) (d : Document) : Option Body :=
  (d.value? room).map Body.ofJson

end LedgerClient
