import Mathlib.Data.List.Induction
import Mathlib.Tactic.Common

namespace Interleaving
universe u

/-- A server whose requests run as processes over one shared store. A step is
either one atomic transaction or one local action of a single process. -/
structure Machine (Store Request Process Input : Type u) where
  receive : Request → Process
  step : Input → Store → Process → Store × Process

/-- The shared store and every process ever started, finished ones included. -/
structure Config (Store Process : Type u) where
  store : Store
  pool : List Process

inductive Event (Request Input : Type u) where
  | arrive (request : Request)
  | step (index : Nat) (input : Input)

namespace Machine
variable {Store Request Process Input : Type u} (M : Machine Store Request Process Input)

def exec (c : Config Store Process) : Event Request Input → Config Store Process
  | .arrive request => { c with pool := c.pool ++ [M.receive request] }
  | .step i x =>
    match c.pool[i]? with
    | none => c
    | some p => { store := (M.step x c.store p).1, pool := c.pool.set i (M.step x c.store p).2 }

/-- One interleaving is one list of events: which process moves next is free. -/
def run (c : Config Store Process) (es : List (Event Request Input)) : Config Store Process := es.foldl M.exec c

@[simp] theorem run_nil (c : Config Store Process) : M.run c [] = c := rfl

@[simp] theorem run_cons (c : Config Store Process) (e : Event Request Input) (es : List (Event Request Input)) :
    M.run c (e :: es) = M.run (M.exec c e) es := rfl

theorem run_append (c : Config Store Process) (es es' : List (Event Request Input)) :
    M.run c (es ++ es') = M.run (M.run c es) es' := List.foldl_append ..

theorem exec_step {c : Config Store Process} {i : Nat} {p : Process} (x : Input) (at_i : c.pool[i]? = some p) :
    M.exec c (.step i x) = ⟨(M.step x c.store p).1, c.pool.set i (M.step x c.store p).2⟩ := by
  simp only [exec, at_i]

theorem exec_idle {c : Config Store Process} {i : Nat} (x : Input) (free : c.pool[i]? = none) :
    M.exec c (.step i x) = c := by
  simp only [exec, free]

/-- Events are of two effective kinds, so a property of configurations is
preserved once arrivals and the steps of present processes preserve it. -/
theorem exec_preserves {I : Config Store Process → Prop}
    (arrive : ∀ c request, I c → I ⟨c.store, c.pool ++ [M.receive request]⟩)
    (step : ∀ c i p x, c.pool[i]? = some p → I c → I ⟨(M.step x c.store p).1, c.pool.set i (M.step x c.store p).2⟩)
    (c : Config Store Process) (e : Event Request Input) (holds : I c) : I (M.exec c e) := by
  cases e with
  | arrive request => exact arrive c request holds
  | step i x =>
    cases at_i : c.pool[i]? with
    | none => rwa [M.exec_idle x at_i]
    | some p =>
      rw [M.exec_step x at_i]
      exact step c i p x at_i holds

theorem run_preserves {I : Config Store Process → Prop} (next : ∀ c e, I c → I (M.exec c e))
    (es : List (Event Request Input)) {c : Config Store Process} (holds : I c) : I (M.run c es) := by
  induction es generalizing c with
  | nil => exact holds
  | cons e es ih => exact ih (next c e holds)

section Pool

theorem mem_pool_set {c : Config Store Process} {i : Nat} {q r : Process} (member : r ∈ c.pool.set i q) :
    r = q ∨ r ∈ c.pool := by
  rcases List.mem_or_eq_of_mem_set member with old | new
  · exact Or.inr old
  · exact Or.inl new

theorem getElem?_pool_set {c : Config Store Process} {i j : Nat} {p q r : Process} (at_i : c.pool[i]? = some p)
    (at_j : (c.pool.set i q)[j]? = some r) : i = j ∧ r = q ∨ i ≠ j ∧ c.pool[j]? = some r := by
  rw [List.getElem?_set] at at_j
  split at at_j
  · rename_i same
    subst same
    have bound : i < c.pool.length := (List.getElem?_eq_some_iff.mp at_i).1
    rw [if_pos bound] at at_j
    exact Or.inl ⟨rfl, (Option.some.inj at_j).symm⟩
  · rename_i different
    exact Or.inr ⟨different, at_j⟩

theorem getElem?_pool_append {pool : List Process} {j : Nat} {q r : Process}
    (at_j : (pool ++ [q])[j]? = some r) : j = pool.length ∧ r = q ∨ pool[j]? = some r := by
  rw [List.getElem?_append] at at_j
  split at at_j
  · exact Or.inr at_j
  · rename_i bound
    obtain ⟨zero, value⟩ := List.getElem?_eq_some_iff.mp at_j
    simp only [List.length_singleton] at zero
    have last : j = pool.length := by omega
    subst last
    simp only [Nat.sub_self, List.getElem_cons_zero] at value
    exact Or.inl ⟨rfl, value.symm⟩

end Pool

section Store

/-- A relation that every step of every process respects relates the first
store of a run to its last one. -/
theorem store_evolves {R : Store → Store → Prop} (reflexive : ∀ s, R s s)
    (transitive : ∀ s t u, R s t → R t u → R s u) (own : ∀ x s p, R s (M.step x s p).1)
    (es : List (Event Request Input)) (c : Config Store Process) : R c.store (M.run c es).store := by
  refine M.run_preserves (I := fun d => R c.store d.store) (M.exec_preserves ?_ ?_) es (reflexive _)
  · exact fun _ _ related => related
  · exact fun d _ p x _ related => transitive _ _ _ related (own x d.store p)

end Store

section Outline

/-- `G` holds of the store and `A` of every process together with the store. -/
def Annotated (G : Store → Prop) (A : Store → Process → Prop) (c : Config Store Process) : Prop :=
  G c.store ∧ ∀ p ∈ c.pool, A c.store p

/-- Two different processes are always related by `D`. -/
def Separate (D : Process → Process → Prop) (c : Config Store Process) : Prop :=
  ∀ (i j : Nat) (p q : Process), i ≠ j → c.pool[i]? = some p → c.pool[j]? = some q → D p q

/-- The rule of interference freedom: each step keeps the store invariant and
the assertion of its own process, and may rely on its separation from every
other process when it has to keep the assertion of that process. -/
theorem outline_exec {G : Store → Prop} {A : Store → Process → Prop} {D : Process → Process → Prop}
    (symmetric : ∀ p q, D p q → D q p) (fresh : ∀ s request, G s → A s (M.receive request))
    (apart : ∀ request q, D (M.receive request) q)
    (own : ∀ x s p, G s → A s p → G (M.step x s p).1 ∧ A (M.step x s p).1 (M.step x s p).2)
    (keepsApart : ∀ x s p q, G s → A s p → A s q → D p q → D (M.step x s p).2 q)
    (stable : ∀ x s p q, G s → A s p → A s q → D p q → A (M.step x s p).1 q) :
    ∀ c e, Annotated G A c ∧ Separate D c → Annotated G A (M.exec c e) ∧ Separate D (M.exec c e) := by
  refine M.exec_preserves ?_ ?_
  · rintro c request ⟨⟨global, each⟩, separate⟩
    refine ⟨⟨global, fun p member => ?_⟩, fun i j p q different at_i at_j => ?_⟩
    · rcases List.mem_append.mp member with old | new
      · exact each p old
      · rw [List.mem_singleton.mp new]
        exact fresh c.store request global
    · rcases getElem?_pool_append at_i with ⟨rfl, rfl⟩ | old_i
      · exact apart request q
      · rcases getElem?_pool_append at_j with ⟨rfl, rfl⟩ | old_j
        · exact symmetric _ _ (apart request p)
        · exact separate i j p q different old_i old_j
  · rintro c k r x at_k ⟨⟨global, each⟩, separate⟩
    have here := each r (List.mem_of_getElem? at_k)
    have kept := own x c.store r global here
    refine ⟨⟨kept.1, fun q member => ?_⟩, fun i j p q different at_i at_j => ?_⟩
    · obtain ⟨j, at_j⟩ := List.mem_iff_getElem?.mp member
      rcases getElem?_pool_set at_k at_j with ⟨_, rfl⟩ | ⟨different, old⟩
      · exact kept.2
      · exact stable x _ r q global here (each q (List.mem_of_getElem? old)) (separate k j r q different at_k old)
    · have moves : ∀ l p, k ≠ l → c.pool[l]? = some p → D (M.step x c.store r).2 p := fun l p other old =>
        keepsApart x _ r p global here (each p (List.mem_of_getElem? old)) (separate k l r p other at_k old)
      rcases getElem?_pool_set at_k at_i with ⟨rfl, rfl⟩ | ⟨other_i, old_i⟩
      · rcases getElem?_pool_set at_k at_j with ⟨rfl, _⟩ | ⟨other_j, old_j⟩
        · exact absurd rfl different
        · exact moves j q other_j old_j
      · rcases getElem?_pool_set at_k at_j with ⟨rfl, rfl⟩ | ⟨_, old_j⟩
        · exact symmetric _ _ (moves i p other_i old_i)
        · exact separate i j p q different old_i old_j

/-- The rule of rely and guarantee: no separation is needed where every step
stays within a relation under which the assertions of all processes are stable. -/
theorem annotated_exec {G : Store → Prop} {A : Store → Process → Prop} {R : Store → Store → Prop}
    (fresh : ∀ s request, G s → A s (M.receive request))
    (own : ∀ x s p, G s → A s p → G (M.step x s p).1 ∧ A (M.step x s p).1 (M.step x s p).2)
    (guarantee : ∀ x s p, R s (M.step x s p).1) (stable : ∀ s s' p, R s s' → A s p → A s' p)
    (c : Config Store Process) (e : Event Request Input) (holds : Annotated G A c) : Annotated G A (M.exec c e) :=
  (M.outline_exec (D := fun _ _ => True) (fun _ _ _ => trivial) fresh (fun _ _ => trivial) own
    (fun _ _ _ _ _ _ _ _ => trivial) (fun x s p q _ _ there _ => stable _ _ q (guarantee x s p) there)
    c e ⟨holds, fun _ _ _ _ _ _ _ => trivial⟩).1

end Outline

section Ledger
variable {ρ : Type u}

theorem filterMap_split (entry : Process → Option ρ) (before after : List Process) (p : Process) :
    (before ++ p :: after).filterMap entry =
      before.filterMap entry ++ ((entry p).toList ++ after.filterMap entry) := by
  rw [List.filterMap_append]
  cases posted : entry p with
  | none => rw [List.filterMap_cons_none posted, Option.toList_none, List.nil_append]
  | some row => rw [List.filterMap_cons_some posted, Option.toList_some, List.singleton_append]

/-- One entry of the pool is exchanged for another. -/
theorem filterMap_set (entry : Process → Option ρ) {pool : List Process} {i : Nat} {p : Process}
    (at_i : pool[i]? = some p) (q : Process) : ((pool.set i q).filterMap entry ++ (entry p).toList).Perm
      (pool.filterMap entry ++ (entry q).toList) := by
  obtain ⟨bound, value⟩ := List.getElem?_eq_some_iff.mp at_i
  have split : pool = pool.take i ++ p :: pool.drop (i + 1) := by
    rw [← value, ← List.drop_eq_getElem_cons bound, List.take_append_drop]
  have before : pool.filterMap entry = (pool.take i).filterMap entry ++
      ((entry p).toList ++ (pool.drop (i + 1)).filterMap entry) := by
    rw [← filterMap_split, ← split]
  have after : (pool.set i q).filterMap entry = (pool.take i).filterMap entry ++
      ((entry q).toList ++ (pool.drop (i + 1)).filterMap entry) := by
    rw [List.set_eq_take_append_cons_drop, if_pos bound, filterMap_split]
  have around : ∀ P Q D : List ρ, (Q ++ (D ++ P)).Perm (P ++ (D ++ Q)) := by
    intro P Q D
    calc List.Perm (Q ++ (D ++ P)) ((D ++ P) ++ Q) := List.perm_append_comm
      List.Perm _ ((P ++ D) ++ Q) := List.Perm.append_right _ List.perm_append_comm
      _ = P ++ (D ++ Q) := List.append_assoc ..
  rw [before, after]
  simp only [List.append_assoc]
  exact List.Perm.append_left _ (around _ _ _)

end Ledger

section History
universe v
variable {α : Type v}

/-- The induction over runs for properties that look back at the run. -/
theorem run_history {H : Config Store Process → List (Event Request Input) → Prop} {c : Config Store Process}
    (start : H c []) (next : ∀ es e, H (M.run c es) es → H (M.exec (M.run c es) e) (es ++ [e]))
    (es : List (Event Request Input)) : H (M.run c es) es := by
  induction es using List.reverseRecOn with
  | nil => exact start
  | append_singleton es e ih =>
    rw [M.run_append]
    exact next es e ih

/-- What an observer notes of a run, event by event. -/
def observe (note : Config Store Process → Event Request Input → Option α) :
    Config Store Process → List (Event Request Input) → List α
  | _, [] => []
  | c, e :: es => (note c e).toList ++ observe note (M.exec c e) es

theorem observe_append (note : Config Store Process → Event Request Input → Option α) (c : Config Store Process)
    (es es' : List (Event Request Input)) :
    M.observe note c (es ++ es') = M.observe note c es ++ M.observe note (M.run c es) es' := by
  induction es generalizing c with
  | nil => rfl
  | cons e es ih => rw [List.cons_append, observe, observe, ih, List.append_assoc, run_cons]

theorem observe_concat (note : Config Store Process → Event Request Input → Option α) (c : Config Store Process)
    (es : List (Event Request Input)) (e : Event Request Input) :
    M.observe note c (es ++ [e]) = M.observe note c es ++ (note (M.run c es) e).toList := by
  rw [observe_append, observe, observe, List.append_nil]

end History

section Along

/-- `Q` holds of every event of the run in the state it is taken in. -/
def Along (Q : Config Store Process → Event Request Input → Prop) :
    Config Store Process → List (Event Request Input) → Prop
  | _, [] => True
  | c, e :: es => Q c e ∧ Along Q (M.exec c e) es

/-- `P` holds of every state the run passes through, both ends included. -/
def Throughout (P : Config Store Process → Prop) : Config Store Process → List (Event Request Input) → Prop
  | c, [] => P c
  | c, e :: es => P c ∧ Throughout P (M.exec c e) es

instance Along.decidable (Q : Config Store Process → Event Request Input → Prop) [∀ c e, Decidable (Q c e)] :
    ∀ c es, Decidable (M.Along Q c es)
  | _, [] => isTrue trivial
  | c, e :: es =>
    have := Along.decidable Q (M.exec c e) es
    inferInstanceAs (Decidable (Q c e ∧ M.Along Q (M.exec c e) es))

variable {M}

theorem along_append {Q : Config Store Process → Event Request Input → Prop} {c : Config Store Process}
    {es es' : List (Event Request Input)} :
    M.Along Q c (es ++ es') ↔ M.Along Q c es ∧ M.Along Q (M.run c es) es' := by
  induction es generalizing c with
  | nil => exact (and_iff_right trivial).symm
  | cons e es ih => rw [List.cons_append, Along, Along, ih, run_cons, and_assoc]

theorem Throughout.first {P : Config Store Process → Prop} {c : Config Store Process}
    {es : List (Event Request Input)} (all : M.Throughout P c es) : P c := by
  cases es with
  | nil => exact all
  | cons e es => exact all.1

/-- The guarded form of the induction over runs: the step may use the
condition that the run meets at each of its events. -/
theorem Along.throughout {Q : Config Store Process → Event Request Input → Prop} {I : Config Store Process → Prop}
    (next : ∀ c e, I c → Q c e → I (M.exec c e)) {c : Config Store Process} {es : List (Event Request Input)}
    (holds : I c) (guarded : M.Along Q c es) : M.Throughout I c es := by
  induction es generalizing c with
  | nil => exact holds
  | cons e es ih => exact ⟨holds, ih (next c e holds guarded.1) guarded.2⟩

/-- A condition on events that says in every state exactly what the next event
has to keep is met along a run exactly if the run keeps it. -/
theorem along_iff {Q N : Config Store Process → Event Request Input → Prop} {J P : Config Store Process → Prop}
    (keeps : ∀ c e, J c → J (M.exec c e)) (meets : ∀ c e, J c → P c → (Q c e ↔ N c e ∧ P (M.exec c e)))
    {c : Config Store Process} {es : List (Event Request Input)} (invariant : J c) (holds : P c) :
    M.Along Q c es ↔ M.Throughout P c es ∧ M.Along N c es := by
  induction es generalizing c with
  | nil => exact iff_of_true trivial ⟨holds, trivial⟩
  | cons e es ih =>
    have here := meets c e invariant holds
    constructor
    · rintro ⟨now, later⟩
      obtain ⟨step, next⟩ := here.mp now
      obtain ⟨all, along⟩ := (ih (keeps c e invariant) next).mp later
      exact ⟨⟨holds, all⟩, step, along⟩
    · rintro ⟨⟨_, all⟩, step, along⟩
      have next := all.first
      exact ⟨here.mpr ⟨step, next⟩, (ih (keeps c e invariant) next).mpr ⟨all, along⟩⟩

theorem Throughout.imp {P P' : Config Store Process → Prop} (weaker : ∀ c, P c → P' c) {c : Config Store Process}
    {es : List (Event Request Input)} (all : M.Throughout P c es) : M.Throughout P' c es := by
  induction es generalizing c with
  | nil => exact weaker c all
  | cons e es ih => exact ⟨weaker c all.1, ih all.2⟩

/-- The states a run passes through are the last states of its prefixes. -/
theorem throughout_iff {P : Config Store Process → Prop} {c : Config Store Process} {es : List (Event Request Input)} :
    M.Throughout P c es ↔ ∀ before after, es = before ++ after → P (M.run c before) := by
  induction es generalizing c with
  | nil =>
    constructor
    · intro here before after split
      rw [(List.append_eq_nil_iff.mp split.symm).1]
      exact here
    · exact fun all => all [] [] rfl
  | cons e es ih =>
    constructor
    · rintro ⟨here, later⟩ before after split
      cases before with
      | nil => exact here
      | cons first before =>
        obtain ⟨rfl, rest⟩ := List.cons.inj split
        exact ih.mp later before after rest
    · intro all
      refine ⟨all [] (e :: es) rfl, ih.mpr fun before after split => ?_⟩
      exact all (e :: before) after (by rw [split, List.cons_append])

theorem Throughout.last {P : Config Store Process → Prop} {c : Config Store Process}
    {es : List (Event Request Input)} (all : M.Throughout P c es) : P (M.run c es) := by
  induction es generalizing c with
  | nil => exact all
  | cons e es ih => exact ih all.2

end Along

end Machine

end Interleaving
