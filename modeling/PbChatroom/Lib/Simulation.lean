import PbChatroom.Lib.Interleaving

namespace Interleaving
universe u v

/-- A run with some of its steps left out, all with inputs that may be skipped. -/
inductive Thinned {Request Input : Type u} (skip : Input → Prop) :
    List (Event Request Input) → List (Event Request Input) → Prop
  | nil : Thinned skip [] []
  | keep (e : Event Request Input) {es es'} : Thinned skip es es' → Thinned skip (e :: es) (e :: es')
  | drop (i : Nat) {x : Input} {es es'} : skip x → Thinned skip es es' → Thinned skip (.step i x :: es) es'

namespace Thinned
variable {Request Input : Type u} {skip : Input → Prop} {es es' : List (Event Request Input)}

/-- What is noted of the events that are not skipped is the same in both runs. -/
theorem filterMap_eq {α : Type v} {note : Event Request Input → Option α}
    (silent : ∀ i x, skip x → note (.step i x) = none) (thinned : Thinned skip es es') :
    es'.filterMap note = es.filterMap note := by
  induction thinned with
  | nil => rfl
  | keep e _ ih => rw [List.filterMap_cons, List.filterMap_cons, ih]
  | drop i skipped _ ih => rw [List.filterMap_cons_none (silent i _ skipped), ih]

end Thinned

namespace Machine
variable {Store Request Process Process' Input : Type u} {M : Machine Store Request Process Input}
  {M' : Machine Store Request Process' Input}

/-- Two servers over one store whose processes are related one by one. -/
structure Simulated (R : Store → Process → Process' → Prop) (c : Config Store Process) (c' : Config Store Process') :
    Prop where
  store : c'.store = c.store
  length : c'.pool.length = c.pool.length
  each : ∀ (i : Nat) p, c.pool[i]? = some p → ∃ p', c'.pool[i]? = some p' ∧ R c.store p p'

namespace Simulated
variable {R : Store → Process → Process' → Prop} {c : Config Store Process} {c' : Config Store Process'}

theorem arrive (simulated : Simulated R c c') {request : Request}
    (fresh : R c.store (M.receive request) (M'.receive request)) :
    Simulated R (M.exec c (.arrive request)) (M'.exec c' (.arrive request)) where
  store := simulated.store
  length := by simp only [exec, List.length_append, simulated.length, List.length_singleton]
  each i p at_i := by
    rcases getElem?_pool_append at_i with ⟨rfl, rfl⟩ | old
    · refine ⟨M'.receive request, ?_, fresh⟩
      rw [← simulated.length]
      exact List.getElem?_concat_length ..
    · obtain ⟨p', at_i', related⟩ := simulated.each i p old
      exact ⟨p', (List.getElem?_append_left (List.getElem?_eq_some_iff.mp at_i').1).trans at_i', related⟩

/-- A step of the first server that changes its own process and the store. -/
theorem set (simulated : Simulated R c c') {i : Nat} {p q : Process} {q' : Process'} {s : Store}
    (at_i : c.pool[i]? = some p) (stable : ∀ r r', R c.store r r' → R s r r') (related : R s q q') :
    Simulated R ⟨s, c.pool.set i q⟩ ⟨s, c'.pool.set i q'⟩ where
  store := rfl
  length := by rw [List.length_set, List.length_set, simulated.length]
  each j r at_j := by
    rcases getElem?_pool_set at_i at_j with ⟨rfl, rfl⟩ | ⟨other, old⟩
    · have bound : i < c'.pool.length := by
        rw [simulated.length]
        exact (List.getElem?_eq_some_iff.mp at_i).1
      exact ⟨q', List.getElem?_set_self bound, related⟩
    · obtain ⟨r', at_j', same⟩ := simulated.each j r old
      exact ⟨r', (List.getElem?_set_ne other).trans at_j', stable r r' same⟩

end Simulated

/-- Stuttering simulation: if every step of a process is the step of its partner
on the same input, or one with an input that may be skipped that only the first
server takes, then every run of the first server is a thinned one of the second. -/
theorem simulates {R : Store → Process → Process' → Prop} {G : Store → Store → Prop} {skip : Input → Prop}
    (fresh : ∀ s request, R s (M.receive request) (M'.receive request))
    (step : ∀ x s p p', R s p p' →
      (M'.step x s p').1 = (M.step x s p).1 ∧ R (M.step x s p).1 (M.step x s p).2 (M'.step x s p').2 ∨
        skip x ∧ (M.step x s p).1 = s ∧ R s (M.step x s p).2 p')
    (guarantee : ∀ x s p p', R s p p' → G s (M.step x s p).1)
    (stable : ∀ s s' p p', G s s' → R s p p' → R s' p p') (es : List (Event Request Input))
    {c : Config Store Process} {c' : Config Store Process'}
    (simulated : Simulated R c c') : ∃ es', Thinned skip es es' ∧ Simulated R (M.run c es) (M'.run c' es') := by
  induction es generalizing c c' with
  | nil => exact ⟨[], .nil, simulated⟩
  | cons e es ih =>
    have goesOn : Simulated R (M.exec c e) (M'.exec c' e) →
        ∃ es', Thinned skip (e :: es) es' ∧ Simulated R (M.run c (e :: es)) (M'.run c' es') := by
      intro next
      obtain ⟨es', thinned, after⟩ := ih next
      exact ⟨e :: es', .keep e thinned, after⟩
    cases e with
    | arrive request => exact goesOn (simulated.arrive (fresh _ _))
    | step i x =>
      cases at_i : c.pool[i]? with
      | none =>
        have free : c'.pool[i]? = none := by
          rw [List.getElem?_eq_none_iff] at at_i ⊢
          rwa [simulated.length]
        refine goesOn ?_
        rwa [M.exec_idle x at_i, M'.exec_idle x free]
      | some p =>
        obtain ⟨p', at_i', related⟩ := simulated.each i p at_i
        have keeps : ∀ r r', R c.store r r' → R (M.step x c.store p).1 r r' :=
          fun r r' => stable _ _ r r' (guarantee x c.store p p' related)
        rcases step x c.store p p' related with ⟨store, after⟩ | ⟨skipped, store, after⟩
        · refine goesOn ?_
          rw [M.exec_step x at_i, M'.exec_step x at_i', simulated.store, store]
          exact simulated.set at_i keeps after
        · have stays : Simulated R (M.exec c (.step i x)) c' := by
            rw [M.exec_step x at_i, store]
            have same : c' = ⟨c.store, c'.pool.set i p'⟩ := by
              obtain ⟨bound, value⟩ := List.getElem?_eq_some_iff.mp at_i'
              rw [← value, List.set_getElem_self, ← simulated.store]
            rw [same]
            exact simulated.set at_i (fun _ _ => id) after
          obtain ⟨es', thinned, later⟩ := ih stays
          exact ⟨es', .drop i skipped thinned, later⟩

end Machine

end Interleaving
