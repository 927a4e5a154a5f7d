import PbChatroom.Lib.Simulation

namespace Interleaving
universe u

namespace Machine
variable {Store Request Process Process' Input : Type u}

/-- Beside the run of `es` from `c`: the same requests come in at the same moments, and
each process moves at some of the moments at which it moves in that run before it is
`Done`, with inputs of its own. -/
inductive Retimed (M : Machine Store Request Process Input) (Done : Process → Prop) :
    Config Store Process → List (Event Request Input) → List (Event Request Input) → Prop
  | nil c : Retimed M Done c [] []
  | arrive {c} (request : Request) {es es'} : Retimed M Done (M.exec c (.arrive request)) es es' →
      Retimed M Done c (.arrive request :: es) (.arrive request :: es')
  | step {c i p} (x x' : Input) {es es'} : c.pool[i]? = some p → ¬Done p →
      Retimed M Done (M.exec c (.step i x)) es es' → Retimed M Done c (.step i x :: es) (.step i x' :: es')
  | drop {c} (i : Nat) (x : Input) {es es'} : Retimed M Done (M.exec c (.step i x)) es es' →
      Retimed M Done c (.step i x :: es) es'

variable {M : Machine Store Request Process Input} {M' : Machine Store Request Process' Input}

/-- Reduction: if every step of a process either is one step of its partner, with
whatever input, or changes nothing but how far the process is, then every run through
stores of `J` has the effect of a retimed run of the partners. A process that is `Done`
takes no step of the first kind. -/
theorem reduces {R : Store → Process → Process' → Prop} {J : Store → Prop} {Done : Process → Prop}
    (fresh : ∀ s request, R s (M.receive request) (M'.receive request))
    (step : ∀ x s p p', J s → R s p p' →
      (¬Done p ∧ ∃ x', (M'.step x' s p').1 = (M.step x s p).1 ∧
        R (M.step x s p).1 (M.step x s p).2 (M'.step x' s p').2) ∨
      (M.step x s p).1 = s ∧ R s (M.step x s p).2 p')
    (stable : ∀ x s p p' r r', R s p p' → R s r r' → R (M.step x s p).1 r r')
    (es : List (Event Request Input)) {c : Config Store Process} {c' : Config Store Process'}
    (simulated : Simulated R c c') (all : M.Throughout (fun c => J c.store) c es) :
    ∃ es', M.Retimed Done c es es' ∧ Simulated R (M.run c es) (M'.run c' es') := by
  induction es generalizing c c' with
  | nil => exact ⟨[], .nil c, simulated⟩
  | cons e es ih =>
    have here : J c.store := all.1
    cases e with
    | arrive request =>
      obtain ⟨es', retimed, after⟩ := ih (simulated.arrive (fresh _ _)) all.2
      exact ⟨.arrive request :: es', .arrive request retimed, after⟩
    | step i x =>
      cases at_i : c.pool[i]? with
      | none =>
        have stays : Simulated R (M.exec c (.step i x)) c' := by rwa [M.exec_idle x at_i]
        obtain ⟨es', retimed, after⟩ := ih stays all.2
        exact ⟨es', .drop i x retimed, after⟩
      | some p =>
        obtain ⟨p', at_i', related⟩ := simulated.each i p at_i
        have keeps : ∀ r r', R c.store r r' → R (M.step x c.store p).1 r r' :=
          fun r r' => stable x c.store p p' r r' related
        rcases step x c.store p p' here related with ⟨undone, x', store, moved⟩ | ⟨store, moved⟩
        · have both : Simulated R (M.exec c (.step i x)) (M'.exec c' (.step i x')) := by
            rw [M.exec_step x at_i, M'.exec_step x' at_i', simulated.store, store]
            exact simulated.set at_i keeps moved
          obtain ⟨es', retimed, after⟩ := ih both all.2
          exact ⟨.step i x' :: es', .step x x' at_i undone retimed, after⟩
        · have stays : Simulated R (M.exec c (.step i x)) c' := by
            rw [M.exec_step x at_i, store]
            have same : c' = ⟨c.store, c'.pool.set i p'⟩ := by
              obtain ⟨bound, value⟩ := List.getElem?_eq_some_iff.mp at_i'
              rw [← value, List.set_getElem_self, ← simulated.store]
            rw [same]
            exact simulated.set at_i (fun _ _ => id) moved
          obtain ⟨es', retimed, after⟩ := ih stays all.2
          exact ⟨es', .drop i x retimed, after⟩

end Machine

end Interleaving
