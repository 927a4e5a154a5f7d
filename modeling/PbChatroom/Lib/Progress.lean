import PbChatroom.Lib.Interleaving

namespace Interleaving
namespace Machine
universe u
variable {Store Request Process Input : Type u} (M : Machine Store Request Process Input)
  (fits : Input → Process → Prop) [∀ x p, Decidable (fits x p)]

/-- The event is a step of the process at `i` with an input that it waits for. -/
def Turn (i : Nat) (c : Config Store Process) : Event Request Input → Prop
  | .arrive _ => False
  | .step j x => j = i ∧ ∃ p ∈ c.pool[i]?, fits x p

instance (i : Nat) (c : Config Store Process) : ∀ e : Event Request Input, Decidable (Turn fits i c e)
  | .arrive _ => isFalse id
  | .step j x =>
    match at_i : c.pool[i]? with
    | none => isFalse fun turn => by
        obtain ⟨_, p, here, _⟩ := turn
        rw [at_i] at here
        cases here
    | some p => decidable_of_iff (j = i ∧ fits x p) (by simp [Turn, at_i])

/-- How often the process at `i` gets its turn in a run. -/
def turns (i : Nat) : Config Store Process → List (Event Request Input) → Nat
  | _, [] => 0
  | c, e :: es => (if Turn fits i c e then 1 else 0) + turns i (M.exec c e) es

variable {M fits}

/-- A process that is brought nearer to its end by each of its turns is there after
as many turns as it is away from it, whatever the others do. -/
theorem rank_run {rank : Process → Nat} (never : ∀ x s p, rank (M.step x s p).2 ≤ rank p)
    (nearer : ∀ x s p, fits x p → rank (M.step x s p).2 ≤ rank p - 1) {i : Nat} (es : List (Event Request Input))
    {c : Config Store Process} {p : Process} (at_i : c.pool[i]? = some p) :
    ∃ p', (M.run c es).pool[i]? = some p' ∧ rank p' ≤ rank p - M.turns fits i c es := by
  induction es generalizing c p with
  | nil => exact ⟨p, at_i, Nat.le_refl _⟩
  | cons e es ih =>
    have next : ∃ q, (M.exec c e).pool[i]? = some q ∧ rank q ≤ rank p - (if Turn fits i c e then 1 else 0) := by
      cases e with
      | arrive request =>
        exact ⟨p, (List.getElem?_append_left (List.getElem?_eq_some_iff.mp at_i).1).trans at_i, Nat.le_refl _⟩
      | step j x =>
        by_cases own : j = i
        · subst own
          have bound : j < c.pool.length := (List.getElem?_eq_some_iff.mp at_i).1
          refine ⟨(M.step x c.store p).2, by rw [M.exec_step x at_i, List.getElem?_set_self bound], ?_⟩
          split
          · rename_i turn
            obtain ⟨_, q, here, waits⟩ := turn
            rw [at_i, Option.mem_def, Option.some.injEq] at here
            subst here
            exact nearer x c.store p waits
          · exact never x c.store p
        · rw [if_neg fun turn : Turn fits i c (.step j x) => own turn.1]
          cases at_j : c.pool[j]? with
          | none => exact ⟨p, by rw [M.exec_idle x at_j, at_i], Nat.le_refl _⟩
          | some q =>
            exact ⟨p, by rw [M.exec_step x at_j, List.getElem?_set_ne own, at_i], Nat.le_refl _⟩
    obtain ⟨q, at_i', less⟩ := next
    obtain ⟨p', reached, rest⟩ := ih at_i'
    refine ⟨p', reached, ?_⟩
    rw [turns]
    omega

end Machine

end Interleaving
