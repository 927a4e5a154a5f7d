import PbChatroom.Lib.Interleaving

namespace Interleaving
namespace Machine
universe u
variable {Store Request Process Input : Type u} (M : Machine Store Request Process Input) (mine : Process → Bool)

section Filter
variable {mine}

/-- Where a kept entry of a list stands among the kept entries. -/
theorem getElem?_filter_countP {pool : List Process} {i : Nat} {p : Process} (at_i : pool[i]? = some p)
    (kept : mine p) : (pool.filter mine)[(pool.take i).countP mine]? = some p := by
  induction pool generalizing i with
  | nil => simp at at_i
  | cons q pool ih =>
    cases i with
    | zero =>
      cases at_i
      simp [kept]
    | succ i =>
      have there := ih (i := i) (by simpa using at_i)
      cases first : mine q <;> simp [first, there]

theorem filter_set_of_kept {pool : List Process} {i : Nat} {p q : Process} (at_i : pool[i]? = some p)
    (kept : mine p) (kept' : mine q) :
    (pool.set i q).filter mine = (pool.filter mine).set ((pool.take i).countP mine) q := by
  induction pool generalizing i with
  | nil => simp at at_i
  | cons r pool ih =>
    cases i with
    | zero =>
      cases at_i
      simp [kept, kept']
    | succ i =>
      have there := ih (i := i) (by simpa using at_i)
      cases first : mine r <;> simp [first, there]

theorem filter_set_of_dropped {pool : List Process} {i : Nat} {p q : Process} (at_i : pool[i]? = some p)
    (dropped : ¬mine p) (dropped' : ¬mine q) : (pool.set i q).filter mine = pool.filter mine := by
  induction pool generalizing i with
  | nil => simp at at_i
  | cons r pool ih =>
    cases i with
    | zero =>
      cases at_i
      simp [dropped, dropped']
    | succ i =>
      have there := ih (i := i) (by simpa using at_i)
      cases first : mine r <;> simp [first, there]

end Filter

/-- The configuration with the processes that are mine only. -/
def own (c : Config Store Process) : Config Store Process := ⟨c.store, c.pool.filter mine⟩

/-- An event as those see it who know of my processes only: nothing, or the same
event with the processes numbered anew. -/
def ownEvent (c : Config Store Process) : Event Request Input → Option (Event Request Input)
  | .arrive request => if mine (M.receive request) then some (.arrive request) else none
  | .step i x => (c.pool[i]?.filter mine).map fun _ => .step ((c.pool.take i).countP mine) x

/-- The run in which my processes do what they do and no others are there. -/
def ownRun (c : Config Store Process) (es : List (Event Request Input)) : List (Event Request Input) :=
  M.observe (M.ownEvent mine) c es

section Agreement
variable {M mine}

/-- The second configuration has my processes of the first, over a store that
`R` relates to the first one's. -/
structure Agree (mine : Process → Bool) (R : Store → Store → Prop) (c c' : Config Store Process) : Prop where
  store : R c.store c'.store
  pool : c'.pool = c.pool.filter mine

/-- If processes stay mine or not mine, the others keep `R`, and mine cannot tell
related stores from each other, the own run of a run ends in agreement with it. -/
theorem agree_ownRun {R : Store → Store → Prop} {I : Config Store Process → Prop}
    {Q : Config Store Process → Event Request Input → Prop} (next : ∀ c e, I c → I (M.exec c e))
    (stays : ∀ (c : Config Store Process) (i : Nat) p x, I c → c.pool[i]? = some p →
      mine (M.step x c.store p).2 = mine p)
    (others : ∀ (c : Config Store Process) (i : Nat) p x s', I c → c.pool[i]? = some p → ¬mine p → R c.store s' →
      R (M.step x c.store p).1 s')
    (alike : ∀ (c : Config Store Process) (i : Nat) p x s', I c → Q c (.step i x) → c.pool[i]? = some p → mine p →
      R c.store s' → (M.step x s' p).2 = (M.step x c.store p).2 ∧ R (M.step x c.store p).1 (M.step x s' p).1)
    {c c' : Config Store Process} {es : List (Event Request Input)} (invariant : I c) (guarded : M.Along Q c es)
    (agree : Agree mine R c c') : Agree mine R (M.run c es) (M.run c' (M.ownRun mine c es)) := by
  induction es generalizing c c' with
  | nil => exact agree
  | cons e es ih =>
    rw [ownRun, observe, run_append]
    refine ih (next c e invariant) guarded.2 ?_
    cases e with
    | arrive request =>
      cases isMine : mine (M.receive request) with
      | true =>
        rw [ownEvent, if_pos isMine]
        refine ⟨agree.store, ?_⟩
        simp [exec, agree.pool, isMine]
      | false =>
        rw [ownEvent, if_neg (by simp [isMine])]
        refine ⟨agree.store, ?_⟩
        simp [exec, agree.pool, isMine]
    | step i x =>
      cases at_i : c.pool[i]? with
      | none =>
        rw [M.exec_idle x at_i, ownEvent, at_i]
        exact agree
      | some p =>
        have same := stays c i p x invariant at_i
        rw [M.exec_step x at_i, ownEvent, at_i]
        by_cases isMine : mine p
        · rw [Option.filter_some, if_pos isMine, Option.map_some, Option.toList_some, run_cons, run_nil]
          have there : c'.pool[(c.pool.take i).countP mine]? = some p := by
            rw [agree.pool]
            exact getElem?_filter_countP at_i isMine
          obtain ⟨moves, related⟩ := alike c i p x c'.store invariant guarded.1 at_i isMine agree.store
          rw [M.exec_step x there, moves]
          refine ⟨related, ?_⟩
          rw [agree.pool]
          exact (filter_set_of_kept at_i isMine (same.trans isMine)).symm
        · rw [Option.filter_some, if_neg isMine, Option.map_none, Option.toList_none, run_nil]
          refine ⟨others c i p x c'.store invariant at_i isMine agree.store, ?_⟩
          rw [agree.pool]
          exact (filter_set_of_dropped at_i isMine (by rwa [same])).symm

end Agreement

end Machine

end Interleaving
