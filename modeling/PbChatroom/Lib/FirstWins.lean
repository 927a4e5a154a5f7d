import Mathlib.Tactic.Common

namespace FirstWins
universe u v
variable {α : Type u} {κ : Type v} [DecidableEq κ]

/-- A register that keeps the first value offered to it. -/
def offer (cell : Option α) (a : α) : Option α := some (cell.getD a)

/-- What a bidder is told: the stored value when it is its own, else the owner
of the stored value. -/
def answer (owner : α → κ) (cell : Option α) (a : α) : Except κ α :=
  if owner (cell.getD a) = owner a then .ok (cell.getD a) else .error (owner (cell.getD a))

@[simp] theorem offer_some (b a : α) : offer (some b) a = some b := rfl

@[simp] theorem offer_none (a : α) : offer none a = some a := rfl

@[simp] theorem answer_none (owner : α → κ) (a : α) : answer owner none a = .ok a := if_pos rfl

/-- An accepted bidder is told the value the register holds from then on. -/
theorem offer_of_answer_ok {owner : α → κ} {cell : Option α} {a w : α} (accepted : answer owner cell a = .ok w) :
    offer cell a = some w ∧ owner w = owner a := by
  unfold answer at accepted
  split at accepted
  · rename_i own
    cases accepted
    exact ⟨rfl, own⟩
  · cases accepted

/-- A refused bidder is told the owner of the value that was there before. -/
theorem offer_of_answer_error {owner : α → κ} {cell : Option α} {a : α} {k : κ}
    (refused : answer owner cell a = .error k) : ∃ w, cell = some w ∧ offer cell a = cell ∧ owner w = k ∧
      k ≠ owner a := by
  cases cell with
  | none => simp at refused
  | some w =>
    unfold answer at refused
    split at refused
    · cases refused
    · rename_i other
      cases refused
      exact ⟨w, rfl, rfl, rfl, other⟩

end FirstWins
