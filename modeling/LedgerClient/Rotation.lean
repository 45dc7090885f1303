import LedgerClient.AccountId

namespace LedgerClient

structure Rotation where
  ids : List AccountId
  /-- The place of the candidate that is next. -/
  index : Nat
  inside : index = 0 ∨ index < ids.length
deriving DecidableEq, Repr

def Rotation.ofList (ids : List AccountId) : Rotation :=
  ⟨ids, 0, .inl rfl⟩

def Rotation.current? (r : Rotation) : Option AccountId :=
  r.ids[r.index]?

/-- The candidate after the last is the first. -/
def Rotation.advance (r : Rotation) : Rotation :=
  if h : r.ids = [] then r
  else
    { r with
      index := (r.index + 1) % r.ids.length
      inside := .inr (Nat.mod_lt _ (List.length_pos_iff.mpr h)) }

@[simp]
theorem Rotation.advance_ids (r : Rotation) : r.advance.ids = r.ids := by
  unfold Rotation.advance
  split <;> rfl

/-- Only an empty rotation has no candidate. -/
theorem Rotation.current?_isSome_iff {r : Rotation} : r.current?.isSome ↔ r.ids ≠ [] := by
  have h := r.inside
  simp only [Rotation.current?, isSome_getElem?, ← List.length_pos_iff]
  omega

end LedgerClient
