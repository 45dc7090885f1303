import LedgerClient.Message
import LedgerClient.Request

namespace LedgerClient

variable {r : Request} {m : Message}

/-- What a request needs so that a message can be made of it. -/
def Request.Ready : Request → Prop
  | .query q => q.nodes.ids ≠ []
  | .transaction t => t.nodes.ids ≠ [] ∧ t.ids.ids ≠ []

/-- A message can be made exactly of a request that is ready. -/
theorem Request.ready_iff : r.Ready ↔ ∃ m, r.message = .ok m := by
  have hn : r.nodes.current?.isSome ↔ r.nodes.ids ≠ [] := Rotation.current?_isSome_iff
  unfold Request.message
  cases r with
  | query r =>
    simp only [Request.Ready, Request.nodes] at hn ⊢
    rw [← hn]
    cases r.nodes.current? <;> simp
  | transaction t =>
    simp only [Request.Ready, Request.nodes] at hn ⊢
    rw [← hn, ← IdSequence.current?_isSome_iff]
    cases t.nodes.current? <;> cases t.ids.current? <;> simp

theorem Request.ready_advance : r.advance.Ready ↔ r.Ready := by
  cases r <;> simp [Request.advance, Request.withNodes, Request.nodes, Request.Ready]

def Request.isQuery : Request → Bool
  | .query _ => true
  | .transaction _ => false

def Message.isQuery : Message → Bool
  | .query _ => true
  | .transaction _ => false

theorem Message.exists_transaction (h : m.isQuery = false) : ∃ t, m = .transaction t := by
  cases m with
  | query q => cases h
  | transaction t => exact ⟨t, rfl⟩

def Answer.isQuery : Answer → Bool
  | .query _ => true
  | .submit _ => false

theorem Request.isQuery_withNodes {nodes : Rotation} :
    (r.withNodes nodes).isQuery = r.isQuery := by
  cases r <;> rfl

theorem Request.isQuery_advance : r.advance.isQuery = r.isQuery :=
  Request.isQuery_withNodes

theorem Request.message_eq_ok (h : r.message = .ok m) :
    r.nodes.current? = some m.node ∧ m.isQuery = r.isQuery ∧
      ∀ t, m = .transaction t → r.transactionId? = some t.id := by
  unfold Request.message at h
  split at h
  next => cases h
  next node hn =>
    cases r with
    | query q => cases h; exact ⟨hn, rfl, by simp⟩
    | transaction t =>
      cases hi : t.ids.current? with
      | none => simp [hi] at h
      | some id =>
        simp only [hi] at h
        cases h
        exact ⟨hn, rfl, fun _ ht => by cases ht; exact hi⟩

/-- What can become of a request while it is carried out: it is pointed at its next candidate, or
another id is put in the place of the current one. -/
inductive Request.Becomes (r : Request) : Request → Prop
  | refl : Becomes r r
  | advance {s : Request} : Becomes r s → Becomes r s.advance
  | overwrite {t : TransactionRequest} (id : TransactionId) : Becomes r (.transaction t) →
      Becomes r (.transaction { t with ids := t.ids.overwrite id })

variable {s t : Request}

theorem Request.Becomes.trans (hs : r.Becomes s) (ht : s.Becomes t) : r.Becomes t := by
  induction ht with
  | refl => exact hs
  | advance _ ih => exact .advance ih
  | overwrite id _ ih => exact .overwrite id ih

theorem Request.Becomes.ready_iff (h : r.Becomes s) : s.Ready ↔ r.Ready := by
  induction h with
  | refl => rfl
  | advance _ ih => exact Request.ready_advance.trans ih
  | overwrite id _ ih =>
    rw [← ih]
    simp [Request.Ready, IdSequence.overwrite]

theorem Request.Becomes.isQuery_eq (h : r.Becomes s) : s.isQuery = r.isQuery := by
  induction h with
  | refl => rfl
  | advance _ ih => exact Request.isQuery_advance.trans ih
  | overwrite id _ ih => exact ih

end LedgerClient
