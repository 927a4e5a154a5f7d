import PbChatroom.Lib.Interleaving

namespace Interleaving
universe u

namespace Machine
variable {Store Request Process Input : Type u} (M : Machine Store Request Process Input)

/-- `c` with processes in front of its own that nobody moves any more. -/
def behind (lost : List Process) (c : Config Store Process) : Config Store Process := ⟨c.store, lost ++ c.pool⟩

/-- An event of a configuration, with its process counted behind the lost ones. -/
def shift (n : Nat) : Event Request Input → Event Request Input
  | .arrive request => .arrive request
  | .step i x => .step (n + i) x

theorem exec_behind (lost : List Process) (c : Config Store Process) (e : Event Request Input) :
    M.exec (behind lost c) (shift lost.length e) = behind lost (M.exec c e) := by
  cases e with
  | arrive request => simp only [shift, exec, behind, List.append_assoc]
  | step i x =>
    have there : (behind lost c).pool[lost.length + i]? = c.pool[i]? := by
      rw [behind, List.getElem?_append_right (Nat.le_add_right ..), Nat.add_sub_cancel_left]
    rw [shift]
    cases at_i : c.pool[i]? with
    | none => rw [M.exec_idle x (there.trans at_i), M.exec_idle x at_i]
    | some p =>
      rw [M.exec_step x (there.trans at_i), M.exec_step x at_i, behind, behind,
        List.set_append_right _ _ (Nat.le_add_right ..), Nat.add_sub_cancel_left]

/-- A run goes on as before behind processes that are not moved. -/
theorem run_behind (lost : List Process) (c : Config Store Process) (es : List (Event Request Input)) :
    M.run (behind lost c) (es.map (shift lost.length)) = behind lost (M.run c es) := by
  induction es generalizing c with
  | nil => rfl
  | cons e es ih => rw [List.map_cons, run_cons, exec_behind, ih, run_cons]

/-- A note on an event that does not say which process has moved. -/
def Blind {α : Type u} (note : Event Request Input → Option α) : Prop :=
  ∀ i j x, note (.step i x) = note (.step j x)

theorem Blind.map_shift {α : Type u} {note : Event Request Input → Option α} (blind : Blind note) (n : Nat)
    (es : List (Event Request Input)) : (es.map (shift n)).filterMap note = es.filterMap note := by
  have same : note ∘ shift n = note := by
    funext e
    cases e with
    | arrive => rfl
    | step i x => exact blind _ _ x
  rw [List.filterMap_map, same]

/-- An outage is no more than that some processes are never moved again. -/
theorem behind_outage (lost : List Process) (c : Config Store Process) :
    behind (lost ++ c.pool) ⟨c.store, []⟩ = behind lost c := by
  rw [behind, behind, List.append_nil]

/-- Runs with outages between them. An outage takes all processes, and a restart
makes something of the store. -/
inductive Life (Restart : Store → Store → Prop) (c : Config Store Process) :
    List (Event Request Input) → Config Store Process → Prop
  | start : Life Restart c [] c
  | run {es d} es' : Life Restart c es d → Life Restart c (es ++ es') (M.run d es')
  | restart {es d s} : Life Restart c es d → Restart d.store s → Life Restart c es ⟨s, []⟩

variable {M}

/-- If restarts leave the store as it is, every life is a run without outages in
which the lost processes are still there. -/
theorem Life.behind {Restart : Store → Store → Prop} (keeps : ∀ s s', Restart s s' → s' = s)
    {c d : Config Store Process} {es : List (Event Request Input)} (life : M.Life Restart c es d)
    (before : List Process) : ∃ es' lost, M.run (Machine.behind before c) es' = Machine.behind lost d ∧
      ∀ {α : Type u} {note : Event Request Input → Option α}, Blind note → es'.filterMap note = es.filterMap note := by
  induction life with
  | start => exact ⟨[], before, rfl, fun _ => rfl⟩
  | @run es d more _ ih =>
    obtain ⟨es', lost, same, noted⟩ := ih
    refine ⟨es' ++ more.map (shift lost.length), lost, ?_, fun blind => ?_⟩
    · rw [run_append, same, run_behind]
    · rw [List.filterMap_append, List.filterMap_append, noted blind, blind.map_shift]
  | @restart es d s _ restarts ih =>
    obtain ⟨es', lost, same, noted⟩ := ih
    refine ⟨es', lost ++ d.pool, ?_, noted⟩
    rw [same, keeps _ _ restarts, behind_outage]

end Machine

end Interleaving
