import LedgerClient.Execution
import LedgerClient.Proofs.Request

namespace LedgerClient

variable {σ : Type} {c : Client} {w : World σ} {p q : Progress σ}

/-- There is an operator, the request or else the client wants it, and the ids are not locked. -/
def Client.mayReplaceId (c : Client) : Request → Bool
  | .query _ => false
  | .transaction t => c.operator?.isSome && t.regenerate.getD c.regenerate && !t.ids.locked

theorem Request.Becomes.mayReplaceId_eq {r s : Request} (h : r.Becomes s) :
    c.mayReplaceId s = c.mayReplaceId r := by
  induction h with
  | refl => rfl
  | @advance s _ ih =>
    rw [← ih]
    cases s <;> rfl
  | overwrite id _ ih => exact ih

theorem replaceExpired?_eq_some {previous next : TransactionId}
    (h : c.replaceExpired? w p = some (previous, next, q)) :
    ∃ operator t, c.operator? = some operator ∧ p.request = .transaction t ∧
      c.mayReplaceId p.request = true ∧ t.ids.current? = some previous ∧
      next = (p.situation.generate w operator).1 ∧
      q = { p with
        request := .transaction { t with ids := t.ids.overwrite next }
        situation := (p.situation.generate w operator).2 } := by
  unfold Client.replaceExpired? at h
  split at h
  next operator t ho hr =>
    split at h
    next hm =>
      have hm' : c.mayReplaceId p.request = true := by
        simpa [Client.mayReplaceId, hr, ho, and_assoc] using hm
      have hl : t.ids.locked = false := by simp_all
      simp only [IdSequence.replaceCurrent, hl] at h
      split at h
      next old ids hi =>
        split at hi
        next => cases hi
        next =>
          split at hi
          next hcur =>
            cases hi
            cases h
            exact ⟨operator, t, ho, hr, hm', hcur, rfl, rfl⟩
          next => cases hi
      next => cases h
    next => cases h
  next => cases h

/-- Where a replacement is allowed, it is made. -/
theorem replaceExpired?_isSome_iff (ready : p.request.Ready) :
    (c.replaceExpired? w p).isSome ↔ c.mayReplaceId p.request = true := by
  constructor
  · intro h
    obtain ⟨⟨previous, next, q⟩, h⟩ := Option.isSome_iff_exists.mp h
    obtain ⟨_, _, _, _, hm, _⟩ := replaceExpired?_eq_some h
    exact hm
  · intro hm
    cases hr : p.request with
    | query r => simp [hr, Client.mayReplaceId] at hm
    | transaction t =>
      simp only [hr, Client.mayReplaceId, Bool.and_eq_true, Bool.not_eq_true'] at hm
      obtain ⟨⟨ho, hg⟩, hl⟩ := hm
      obtain ⟨operator, ho⟩ := Option.isSome_iff_exists.mp ho
      have hi : t.ids.current?.isSome := by
        rw [hr] at ready
        exact IdSequence.current?_isSome_iff.mpr ready.2
      obtain ⟨old, hi⟩ := Option.isSome_iff_exists.mp hi
      simp [Client.replaceExpired?, ho, hr, hg, hl, IdSequence.replaceCurrent, hi]

end LedgerClient
