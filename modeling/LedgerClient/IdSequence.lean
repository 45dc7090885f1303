import LedgerClient.DispatchError

namespace LedgerClient

/-- Ids that are locked are not added to and not replaced. -/
structure IdSequence where
  ids : List TransactionId
  /-- The place of the id that is sent next. -/
  index : Nat
  locked : Bool
  inside : index = 0 ∨ index < ids.length
deriving DecidableEq, Repr

def IdSequence.empty : IdSequence :=
  ⟨[], 0, false, .inl rfl⟩

/-- The one id its owner depends on. -/
def IdSequence.pinned (id : TransactionId) : IdSequence :=
  ⟨[id], 0, true, .inl rfl⟩

def IdSequence.current? (s : IdSequence) : Option TransactionId :=
  s.ids[s.index]?

def IdSequence.lock (s : IdSequence) : IdSequence :=
  { s with locked := true }

/-- Goes to the next id and shows it; stays on the last. -/
def IdSequence.advance (s : IdSequence) : Option TransactionId × IdSequence :=
  if h : s.ids.length ≤ s.index + 1 then (none, s)
  else
    let s := { s with index := s.index + 1, inside := .inr (by omega) }
    (s.current?, s)

/-- The ids with another one at the end. -/
def IdSequence.append (s : IdSequence) (id : TransactionId) : IdSequence :=
  { s with
    ids := s.ids ++ [id]
    inside := s.inside.imp_right fun h => by simp; omega }

def IdSequence.push (s : IdSequence) (id : TransactionId) : Except DispatchError IdSequence :=
  if s.locked then .error .transactionIdsLocked else .ok (s.append id)

/-- The ids with another one in the current place. -/
def IdSequence.overwrite (s : IdSequence) (id : TransactionId) : IdSequence :=
  { s with
    ids := s.ids.set s.index id
    inside := s.inside.imp_right fun h => by simpa using h }

/-- Puts another id in the place of the current one and shows the old one. Where there is none,
the new id is added and becomes current. -/
def IdSequence.replaceCurrent (s : IdSequence) (id : TransactionId) :
    Except DispatchError (Option TransactionId × IdSequence) :=
  if s.locked then .error .transactionIdsLocked
  else
    match s.current? with
    | some old => .ok (some old, s.overwrite id)
    | none =>
      .ok (none, { s.append id with
        index := s.ids.length
        inside := .inr (by simp [IdSequence.append]) })

/-- Only an empty sequence has no current id. -/
theorem IdSequence.current?_isSome_iff {s : IdSequence} : s.current?.isSome ↔ s.ids ≠ [] := by
  have h := s.inside
  simp only [IdSequence.current?, isSome_getElem?, ← List.length_pos_iff]
  omega

theorem IdSequence.current?_overwrite {s : IdSequence} {id : TransactionId}
    (h : s.current?.isSome) : (s.overwrite id).current? = some id := by
  simp only [IdSequence.current?, isSome_getElem?] at h
  simp [IdSequence.current?, IdSequence.overwrite, h]

end LedgerClient
