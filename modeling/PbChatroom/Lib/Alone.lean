import PbChatroom.Lib.Interleaving

namespace Interleaving
namespace Machine
universe u
variable {Store Request Process Input : Type u} (M : Machine Store Request Process Input) (next : Process → Input)

/-- A process running alone, each step with the input that `next` has for it. -/
def drive : Nat → Store × Process → Store × Process
  | 0, c => c
  | n + 1, c => drive n (M.step (next c.2) c.1 c.2)

theorem drive_add (m n : Nat) (c : Store × Process) :
    M.drive next (m + n) c = M.drive next n (M.drive next m c) := by
  induction m generalizing c with
  | zero => rw [Nat.zero_add, drive]
  | succ m ih => rw [Nat.succ_add, drive, drive, ih]

/-- Running alone is one of the interleavings. -/
theorem run_drive {c : Config Store Process} {i : Nat} {p : Process} (at_i : c.pool[i]? = some p) (n : Nat) :
    ∃ es, M.run c es =
      ⟨(M.drive next n (c.store, p)).1, c.pool.set i (M.drive next n (c.store, p)).2⟩ := by
  induction n generalizing c p with
  | zero =>
    obtain ⟨bound, value⟩ := List.getElem?_eq_some_iff.mp at_i
    subst value
    exact ⟨[], by rw [run_nil, drive, List.set_getElem_self]⟩
  | succ n ih =>
    have bound : i < c.pool.length := (List.getElem?_eq_some_iff.mp at_i).1
    obtain ⟨es, after⟩ := ih (c := M.exec c (.step i (next p))) (p := (M.step (next p) c.store p).2)
      (by rw [M.exec_step _ at_i]; exact List.getElem?_set_self bound)
    refine ⟨.step i (next p) :: es, ?_⟩
    rw [run_cons, after, M.exec_step _ at_i, List.set_set]
    rfl

variable (finished : Process → Prop)

/-- The process finishes, and leaves the store `s`. -/
def Ends (c : Store × Process) (s : Store) : Prop :=
  ∃ n, finished (M.drive next n c).2 ∧ (M.drive next n c).1 = s

/-- All or nothing: the process finishes, and wherever it is stopped on the way
it has left either the store `before` or the one that it leaves in the end. -/
def Atomic (before : Store) (c : Store × Process) : Prop :=
  ∃ after, M.Ends next finished c after ∧ ∀ n, (M.drive next n c).1 = before ∨ (M.drive next n c).1 = after

section Absorbing
variable {M next finished} (absorbing : ∀ x s p, finished p → M.step x s p = (s, p))
include absorbing

theorem drive_of_finished {c : Store × Process} (done : finished c.2) (n : Nat) : M.drive next n c = c := by
  induction n with
  | zero => rfl
  | succ n ih => rw [drive, absorbing _ _ _ done, ih]

theorem ends_of_finished {c : Store × Process} (done : finished c.2) {s : Store} :
    M.Ends next finished c s ↔ c.1 = s := by
  constructor
  · rintro ⟨n, _, same⟩
    rwa [drive_of_finished absorbing done] at same
  · exact fun same => ⟨0, done, same⟩

theorem ends_iff_step {c : Store × Process} {s : Store} :
    M.Ends next finished c s ↔ M.Ends next finished (M.step (next c.2) c.1 c.2) s := by
  constructor
  · rintro ⟨n, done, same⟩
    cases n with
    | zero =>
      have still : M.step (next c.2) c.1 c.2 = (c.1, c.2) := absorbing _ _ _ done
      rw [still]
      exact ⟨0, done, same⟩
    | succ n => exact ⟨n, done, same⟩
  · rintro ⟨n, done, same⟩
    exact ⟨n + 1, done, same⟩

theorem Ends.unique {c : Store × Process} {s t : Store} (first : M.Ends next finished c s)
    (second : M.Ends next finished c t) : s = t := by
  obtain ⟨m, doneFirst, rfl⟩ := first
  obtain ⟨n, doneSecond, rfl⟩ := second
  have later : ∀ k l, finished (M.drive next k c).2 → M.drive next (k + l) c = M.drive next k c := by
    intro k l done
    rw [drive_add, drive_of_finished absorbing done]
  rw [← later m n doneFirst, ← later n m doneSecond, Nat.add_comm]

theorem atomic_of_finished {before : Store} {c : Store × Process} (done : finished c.2) :
    M.Atomic next finished before c :=
  ⟨c.1, ⟨0, done, rfl⟩, fun n => Or.inr (by rw [drive_of_finished absorbing done])⟩

/-- What a step adds to the demand: the store it starts from has to be one of
the two. -/
theorem atomic_iff_step {before : Store} {c : Store × Process} : M.Atomic next finished before c ↔
    M.Atomic next finished before (M.step (next c.2) c.1 c.2) ∧
      (c.1 = before ∨ M.Ends next finished (M.step (next c.2) c.1 c.2) c.1) := by
  constructor
  · rintro ⟨after, ends, all⟩
    refine ⟨⟨after, (ends_iff_step absorbing).mp ends, fun n => all (n + 1)⟩, (all 0).imp_right ?_⟩
    rintro rfl
    exact (ends_iff_step absorbing).mp ends
  · rintro ⟨⟨after, ends, all⟩, first⟩
    refine ⟨after, (ends_iff_step absorbing).mpr ends, fun n => ?_⟩
    cases n with
    | zero => exact first.imp_right fun here => here.unique absorbing ends
    | succ n => exact all n

/-- A single transaction is atomic. -/
theorem atomic_of_last {before : Store} {p : Process} (last : finished (M.step (next p) before p).2) :
    M.Atomic next finished before (before, p) :=
  (atomic_iff_step absorbing).mpr ⟨atomic_of_finished absorbing last, Or.inl rfl⟩

theorem ends_iff_of_step {s s' r : Store} {p q : Process} (step : M.step (next p) s p = (s', q)) :
    M.Ends next finished (s, p) r ↔ M.Ends next finished (s', q) r := by
  rw [ends_iff_step absorbing]
  dsimp only
  rw [step]

/-- Once the store has changed, nothing may change any more. -/
theorem atomic_iff_of_changed {before s s' : Store} {p q : Process} (changed : s ≠ before)
    (step : M.step (next p) s p = (s', q)) :
    M.Atomic next finished before (s, p) ↔ M.Atomic next finished before (s', q) ∧ M.Ends next finished (s', q) s := by
  rw [atomic_iff_step absorbing]
  dsimp only
  rw [step, or_iff_right changed]

/-- A last transaction behind a change must not change anything. -/
theorem atomic_iff_of_changed_last {before s : Store} {p : Process} (changed : s ≠ before)
    (last : finished (M.step (next p) s p).2) :
    M.Atomic next finished before (s, p) ↔ (M.step (next p) s p).1 = s := by
  rw [atomic_iff_of_changed absorbing changed rfl, and_iff_right (atomic_of_finished absorbing last),
    ends_of_finished absorbing last]

/-- A first change is followed by the rest of the process. -/
theorem atomic_iff_of_changes {before s : Store} {p q : Process} (changes : M.step (next p) before p = (s, q)) :
    M.Atomic next finished before (before, p) ↔ M.Atomic next finished before (s, q) := by
  rw [atomic_iff_step absorbing]
  dsimp only
  rw [changes]
  exact and_iff_left (Or.inl rfl)

end Absorbing

end Machine

end Interleaving
