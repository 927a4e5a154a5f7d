namespace Transactional
universe u

/-- A connection to a database file: what is committed, and what it is with the
changes of the open transaction, if there is one. -/
structure Connection (σ : Type u) where
  file : σ
  pending : Option σ

namespace Connection
variable {σ : Type u}

/-- A new connection. -/
def new (file : σ) : Connection σ := ⟨file, none⟩

/-- What the statements of the connection see. -/
def view (c : Connection σ) : σ := c.pending.getD c.file

/-- A statement that does not open a transaction: outside of one it is committed
at once. -/
def define (c : Connection σ) (s : σ) : Connection σ :=
  if c.pending.isSome then { c with pending := some s } else .new s

/-- A statement that opens a transaction if there is none. -/
def modify (c : Connection σ) (s : σ) : Connection σ := { c with pending := some s }

def commit (c : Connection σ) : Connection σ := .new c.view

/-- The open transaction is rolled back. -/
def close (c : Connection σ) : Connection σ := .new c.file

end Connection

/-- A program over a database, one statement at a time. What it reads may decide
how it goes on; a change that is `none` is an error of the database. -/
inductive Script (σ : Type u) where
  | done
  | raise
  | define (change : σ → Option σ) (next : Script σ)
  | modify (change : σ → Option σ) (next : Script σ)
  | read (next : σ → Script σ)
  | commit (next : Script σ)
  | reconnect (next : Script σ)

namespace Script
variable {σ : Type u}

/-- The next statement, if there is one and it succeeds. -/
def step (c : Connection σ) : Script σ → Option (Script σ × Connection σ)
  | .done => none
  | .raise => none
  | .define change next => (change c.view).map fun s => (next, c.define s)
  | .modify change next => (change c.view).map fun s => (next, c.modify s)
  | .read next => some (next c.view, c)
  | .commit next => some (next, c.commit)
  | .reconnect next => some (next, c.close)

/-- At most `n` statements. -/
def run : Nat → Script σ → Connection σ → Script σ × Connection σ
  | 0, script, c => (script, c)
  | n + 1, script, c =>
    match script.step c with
    | none => (script, c)
    | some (script', c') => run n script' c'

/-- What is left of a run that is stopped after `n` statements. -/
def stopped (script : Script σ) (n : Nat) (file : σ) : σ := (script.run n (.new file)).2.file

/-- Runs one after the other, each stopped after some of its statements. -/
def interrupted (script : Script σ) (stops : List Nat) (file : σ) : σ :=
  stops.foldl (fun file n => script.stopped n file) file

/-- A run from `file` comes to its end and leaves `file'`. -/
def Completes (script : Script σ) (file file' : σ) : Prop :=
  ∃ n c, script.run n (.new file) = (.done, c) ∧ c.file = file'

theorem run_add (m n : Nat) (script : Script σ) (c : Connection σ) :
    script.run (m + n) c = (script.run m c).1.run n (script.run m c).2 := by
  induction m generalizing script c with
  | zero => rw [Nat.zero_add, run]
  | succ m ih =>
    rw [Nat.succ_add, run, run]
    cases next : script.step c with
    | none =>
      dsimp only
      cases n with
      | zero => rfl
      | succ n => rw [run, next]
    | some after => exact ih after.1 after.2

theorem run_done (n : Nat) (c : Connection σ) : Script.done.run n c = (.done, c) := by
  cases n <;> rfl

/-- A script has one outcome. -/
theorem Completes.unique {script : Script σ} {file file' file'' : σ} (first : script.Completes file file')
    (second : script.Completes file file'') : file' = file'' := by
  obtain ⟨m, c, ends, rfl⟩ := first
  obtain ⟨n, c', ends', rfl⟩ := second
  have one : script.run (m + n) (.new file) = (.done, c) := by rw [run_add, ends, run_done]
  have other : script.run (n + m) (.new file) = (.done, c') := by rw [run_add, ends', run_done]
  rw [Nat.add_comm] at other
  cases one.symm.trans other
  rfl

/-- Wherever the run stops, the file satisfies `I`, and it comes to an end where the
file satisfies `Q`. -/
def Runs (I Q : σ → Prop) (script : Script σ) (c : Connection σ) : Prop :=
  (∀ n, I (script.run n c).2.file) ∧ ∃ n c', script.run n c = (.done, c') ∧ Q c'.file

section Rules
variable {I Q : σ → Prop} {c : Connection σ}

theorem Runs.done (now : I c.file) (ends : Q c.file) : Runs I Q .done c := by
  refine ⟨fun n => ?_, 0, c, rfl, ends⟩
  cases n with
  | zero => exact now
  | succ => exact now

theorem Runs.step {script script' : Script σ} {c' : Connection σ} (now : I c.file)
    (steps : script.step c = some (script', c')) (rest : Runs I Q script' c') : Runs I Q script c := by
  have after : ∀ n, script.run (n + 1) c = script'.run n c' := fun n => by rw [run, steps]
  obtain ⟨always, n, c'', ends, holds⟩ := rest
  refine ⟨fun m => ?_, n + 1, c'', (after n).trans ends, holds⟩
  cases m with
  | zero => exact now
  | succ m =>
    rw [after]
    exact always m

theorem Runs.define {change : σ → Option σ} {next : Script σ} {s : σ} (now : I c.file)
    (changes : change c.view = some s) (rest : Runs I Q next (c.define s)) : Runs I Q (.define change next) c :=
  .step now (by rw [Script.step, changes, Option.map_some]) rest

theorem Runs.modify {change : σ → Option σ} {next : Script σ} {s : σ} (now : I c.file)
    (changes : change c.view = some s) (rest : Runs I Q next (c.modify s)) : Runs I Q (.modify change next) c :=
  .step now (by rw [Script.step, changes, Option.map_some]) rest

/-- Outside of a transaction a change is in the file at once. -/
theorem Runs.autocommit {change : σ → Option σ} {next : Script σ} {file file' : σ} (now : I file)
    (changes : change file = some file') (rest : Runs I Q next (.new file')) :
    Runs I Q (.define change next) (.new file) :=
  .define now changes rest

/-- A transaction of one statement: its change is in the file with the commit. -/
theorem Runs.transaction {change : σ → Option σ} {next : Script σ} {file file' : σ} (now : I file)
    (changes : change file = some file') (rest : Runs I Q next (.new file')) :
    Runs I Q (.modify change (.commit next)) (.new file) :=
  .modify now changes (.step now rfl rest)

theorem Runs.read {next : σ → Script σ} {file : σ} (now : I file) (rest : Runs I Q (next file) (.new file)) :
    Runs I Q (.read next) (.new file) :=
  .step now rfl rest

theorem Runs.commit {next : Script σ} {file : σ} (now : I file) (rest : Runs I Q next (.new file)) :
    Runs I Q (.commit next) (.new file) :=
  .step now rfl rest

theorem Runs.reconnect {next : Script σ} {file : σ} (now : I file) (rest : Runs I Q next (.new file)) :
    Runs I Q (.reconnect next) (.new file) :=
  .step now rfl rest

end Rules

section Recovery
variable {I Q : σ → Prop} {script : Script σ}

/-- The invariant of the stops holds behind any number of interrupted runs. -/
theorem interrupted_preserves (each : ∀ file, I file → Runs I Q script (.new file)) (stops : List Nat) {file : σ}
    (start : I file) : I (script.interrupted stops file) := by
  induction stops generalizing file with
  | nil => exact start
  | cons n stops ih => exact ih ((each file start).1 n)

/-- A run after interrupted runs completes. -/
theorem recovers (each : ∀ file, I file → Runs I Q script (.new file)) (stops : List Nat) {file : σ} (start : I file) :
    ∃ file', Completes script (script.interrupted stops file) file' ∧ Q file' := by
  obtain ⟨_, n, c, ends, holds⟩ := each _ (interrupted_preserves each stops start)
  exact ⟨c.file, ⟨n, c, ends, rfl⟩, holds⟩

/-- Behind a run that stays where it is, all others do. -/
theorem interrupted_of_stays {file : σ} (stays : Runs (· = file) (· = file) script (.new file)) (stops : List Nat) :
    script.interrupted stops file = file := by
  refine interrupted_preserves (I := (· = file)) (Q := (· = file)) ?_ stops rfl
  rintro _ rfl
  exact stays

theorem completes_of_stays {file : σ} (stays : Runs (· = file) (· = file) script (.new file)) :
    Completes script file file := by
  obtain ⟨_, n, c, ends, same⟩ := stays
  exact ⟨n, c, ends, same⟩

end Recovery

end Script

end Transactional
