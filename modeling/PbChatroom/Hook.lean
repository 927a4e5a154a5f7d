import Mathlib.Data.List.Chain
import PbChatroom.IdGrammar
import PbChatroom.Inbox
import PbChatroom.Lib.Interleaving

namespace PbChatroom
open Interleaving

namespace Hook

/-- What an invocation of check_messages.sh takes from its environment; an interval
that is no integer is `none`. -/
structure Session where
  participant : String
  interval : Option Int
  deriving DecidableEq, Repr

/-- One character of the class `[A-Za-z0-9._-]`. -/
def safeChar (c : Char) : Bool :=
  ('A' ≤ c && c ≤ 'Z') || ('a' ≤ c && c ≤ 'z') || ('0' ≤ c && c ≤ '9') || c == '.' || c == '_' || c == '-'

/-- `SAFE_PARTICIPANT` -/
def safeParticipant (participant : String) : String :=
  String.ofList (participant.toList.map fun c => if safeChar c then c else '_')

/-- `LAST_CHECK_FILE` in the state directory -/
def lastCheckFile (participant : String) : String := s!"last-check-{safeParticipant participant}.epoch"

/-- One GET to the server, with the reading of the clock that throttles by it. -/
structure Fetch where
  session : Session
  now : Int
  deriving DecidableEq, Repr

/-- The state directory, whose files hold readings of the clock, and the fetches so
far. -/
structure State where
  cursor : String → Option Int
  fetches : List Fetch

/-- Where an invocation stands. -/
inductive Place where
  | start
  | dated (now : Int)
  | fetching (now : Int)
  | writing (now : Int)
  | done
  deriving DecidableEq, Repr

structure Invocation where
  session : Session
  place : Place
  deriving DecidableEq, Repr

inductive Input where
  | clock (now : Int)
  | run
  deriving DecidableEq, Repr

/-- `[ "$ELAPSED" -lt "$CHECK_INTERVAL" ]`, which is false where it fails -/
def Session.throttles (session : Session) (elapsed : Int) : Bool :=
  match session.interval with
  | none => false
  | some interval => elapsed < interval

/-- The script up to the parsing of the response, one command that other invocations
see or that sees them at a time. -/
def step (x : Input) (s : State) (p : Invocation) : State × Invocation :=
  match p.place, x with
  | .start, .clock now => (s, { p with place := .dated now })
  | .dated now, .run =>
    let elapsed := now - (s.cursor (lastCheckFile p.session.participant)).getD 0
    (s, { p with place := if p.session.throttles elapsed then .done else .fetching now })
  | .fetching now, .run => ({ s with fetches := s.fetches ++ [⟨p.session, now⟩] }, { p with place := .writing now })
  | .writing now, .run =>
    let file := lastCheckFile p.session.participant
    ({ s with cursor := fun name => if name = file then some now else s.cursor name }, { p with place := .done })
  | _, _ => (s, p)

/-- Invocations of the hook by any sessions, over one state directory. -/
def hooks : Machine State Session Invocation Input where
  receive session := ⟨session, .start⟩
  step := step

/-- A new state directory. -/
def Config.init : Config State Invocation := ⟨⟨fun _ => none, []⟩, []⟩

def Session.file (session : Session) : String := lastCheckFile session.participant

/-- The fetches that one file throttles. -/
def State.fetchesOf (s : State) (file : String) : List Fetch := s.fetches.filter fun f => f.session.file = file

/-- The later fetch is its interval after the earlier one. -/
def Spaced (f g : Fetch) : Prop := ∀ interval ∈ g.session.interval, interval ≤ g.now - f.now

/-- The invocation has read the clock and is not through with its cursor. -/
def Invocation.Active (p : Invocation) : Prop := p.place ≠ .start ∧ p.place ≠ .done

instance : DecidablePred Invocation.Active := fun _ => inferInstanceAs (Decidable (_ ∧ _))

/-- The hook reads the clock while no other invocation with the same cursor is
active. -/
def OneAtATime (c : Config State Invocation) : Event Session Input → Prop
  | .step i (.clock _) => ∀ p ∈ c.pool[i]?, p.place = .start → ∀ q ∈ c.pool, q.Active →
    q.session.file ≠ p.session.file
  | _ => True

instance (c : Config State Invocation) : ∀ e, Decidable (OneAtATime c e)
  | .arrive _ => isTrue trivial
  | .step _ .run => isTrue trivial
  | .step i (.clock _) => inferInstanceAs (Decidable (∀ p ∈ c.pool[i]?, p.place = .start → ∀ q ∈ c.pool, q.Active →
      q.session.file ≠ p.session.file))

/-- No two invocations with one cursor are active. -/
def Alone (pool : List Invocation) : Prop :=
  ∀ (i j : Nat) (p q : Invocation), pool[i]? = some p → pool[j]? = some q → p.Active → q.Active →
    p.session.file = q.session.file → i = j

/-- What holds where invocations with one cursor take turns. -/
structure TakingTurns (c : Config State Invocation) : Prop where
  alone : Alone c.pool
  spaced : ∀ file, (c.store.fetchesOf file).IsChain Spaced
  fetching : ∀ p ∈ c.pool, ∀ now, p.place = .fetching now →
    ∀ last ∈ (c.store.fetchesOf p.session.file).getLast?, Spaced last ⟨p.session, now⟩
  writing : ∀ p ∈ c.pool, ∀ now, p.place = .writing now →
    ∀ last ∈ (c.store.fetchesOf p.session.file).getLast?, last.now = now
  cursor : ∀ file, (∀ p ∈ c.pool, p.session.file = file → ∀ now, p.place ≠ .writing now) →
    ∀ last ∈ (c.store.fetchesOf file).getLast?, c.store.cursor file = some last.now

theorem TakingTurns.init : TakingTurns Config.init where
  alone _ _ _ _ at_i := nomatch at_i
  spaced _ := .nil
  fetching _ member := nomatch member
  writing _ member := nomatch member
  cursor _ _ _ atLast := nomatch atLast

section Steps
variable {c : Config State Invocation} {i : Nat} {p : Invocation}

theorem Alone.append {pool : List Invocation} (alone : Alone pool) {q : Invocation} (idle : ¬q.Active) :
    Alone (pool ++ [q]) := by
  intro j k r s at_j at_k active active' same
  rcases Machine.getElem?_pool_append at_j with ⟨_, rfl⟩ | old_j
  · exact absurd active idle
  · rcases Machine.getElem?_pool_append at_k with ⟨_, rfl⟩ | old_k
    · exact absurd active' idle
    · exact alone j k r s old_j old_k active active' same

theorem Alone.set (alone : Alone c.pool) (at_i : c.pool[i]? = some p) {p' : Invocation}
    (others : p'.Active → ∀ j q, i ≠ j → c.pool[j]? = some q → q.Active → q.session.file ≠ p'.session.file) :
    Alone (c.pool.set i p') := by
  intro j k r s at_j at_k active active' same
  rcases Machine.getElem?_pool_set at_i at_j with ⟨rfl, rfl⟩ | ⟨other_j, old_j⟩
  · rcases Machine.getElem?_pool_set at_i at_k with ⟨rfl, _⟩ | ⟨other_k, old_k⟩
    · rfl
    · exact absurd same.symm (others active k s other_k old_k active')
  · rcases Machine.getElem?_pool_set at_i at_k with ⟨rfl, rfl⟩ | ⟨_, old_k⟩
    · exact absurd same (others active' j r other_j old_j active)
    · exact alone j k r s old_j old_k active active' same

/-- Whoever is active stays the only one. -/
theorem Alone.others (alone : Alone c.pool) (at_i : c.pool[i]? = some p) (active : p.Active) :
    ∀ j q, i ≠ j → c.pool[j]? = some q → q.Active → q.session.file ≠ p.session.file :=
  fun j q other at_j active' same => other (alone i j p q at_i at_j active active' same.symm)

/-- A step that changes its own place only, and does not end in a fetch. -/
theorem TakingTurns.moves (turns : TakingTurns c) (at_i : c.pool[i]? = some p) (place : Place)
    (others : (⟨p.session, place⟩ : Invocation).Active → ∀ j q, i ≠ j → c.pool[j]? = some q → q.Active →
      q.session.file ≠ p.session.file)
    (fetches : ∀ now, place = .fetching now →
      ∀ last ∈ (c.store.fetchesOf p.session.file).getLast?, Spaced last ⟨p.session, now⟩)
    (before : ∀ now, p.place ≠ .writing now) (after : ∀ now, place ≠ .writing now) :
    TakingTurns ⟨c.store, c.pool.set i ⟨p.session, place⟩⟩ where
  alone := turns.alone.set at_i others
  spaced := turns.spaced
  fetching q member now isFetching := by
    rcases Machine.mem_pool_set member with rfl | old
    · exact fetches now isFetching
    · exact turns.fetching q old now isFetching
  writing q member now isWriting := by
    rcases Machine.mem_pool_set member with rfl | old
    · exact absurd isWriting (after now)
    · exact turns.writing q old now isWriting
  cursor file quiet := by
    refine turns.cursor file fun q member same now isWriting => ?_
    obtain ⟨j, at_j⟩ := List.mem_iff_getElem?.mp member
    by_cases own : i = j
    · subst own
      cases Option.some.inj (at_i.symm.trans at_j)
      exact before now isWriting
    · have kept : (c.pool.set i ⟨p.session, place⟩)[j]? = some q := (List.getElem?_set_ne own).trans at_j
      exact quiet q (List.mem_of_getElem? kept) same now isWriting

theorem fetchesOf_append (s : State) (f : Fetch) (file : String) :
    ({ s with fetches := s.fetches ++ [f] } : State).fetchesOf file =
      s.fetchesOf file ++ if f.session.file = file then [f] else [] := by
  rw [State.fetchesOf, List.filter_append, State.fetchesOf]
  split <;> simp_all

/-- The fetch itself. -/
theorem TakingTurns.fetches {now : Int} (turns : TakingTurns c) (at_i : c.pool[i]? = some p)
    (isFetching : p.place = .fetching now) :
    TakingTurns ⟨{ c.store with fetches := c.store.fetches ++ [⟨p.session, now⟩] },
      c.pool.set i ⟨p.session, .writing now⟩⟩ := by
  have member := List.mem_of_getElem? at_i
  have active : p.Active := by
    rw [Invocation.Active, isFetching]
    exact ⟨nofun, nofun⟩
  have others := turns.alone.others at_i active
  have elsewhere : ∀ j q, i ≠ j → c.pool[j]? = some q → q.Active →
      ({ c.store with fetches := c.store.fetches ++ [⟨p.session, now⟩] } : State).fetchesOf q.session.file =
        c.store.fetchesOf q.session.file := by
    intro j q other at_j active'
    rw [fetchesOf_append, if_neg fun same => others j q other at_j active' same.symm, List.append_nil]
  refine ⟨turns.alone.set at_i fun _ => others, fun file => ?_, fun q inPool now' place => ?_,
    fun q inPool now' place => ?_, fun file quiet => ?_⟩
  · rw [fetchesOf_append]
    split
    · rename_i here
      rw [List.isChain_append]
      refine ⟨turns.spaced file, .singleton _, fun last atLast f isFirst => ?_⟩
      cases isFirst
      exact turns.fetching p member now isFetching last (here ▸ atLast)
    · rw [List.append_nil]
      exact turns.spaced file
  · obtain ⟨j, at_j⟩ := List.mem_iff_getElem?.mp inPool
    rcases Machine.getElem?_pool_set at_i at_j with ⟨_, rfl⟩ | ⟨other, old⟩
    · cases place
    · rw [elsewhere j q other old ⟨by simp [place], by simp [place]⟩]
      exact turns.fetching q (List.mem_of_getElem? old) now' place
  · obtain ⟨j, at_j⟩ := List.mem_iff_getElem?.mp inPool
    rcases Machine.getElem?_pool_set at_i at_j with ⟨_, rfl⟩ | ⟨other, old⟩
    · cases place
      rw [fetchesOf_append, if_pos rfl, List.getLast?_concat]
      rintro last atLast
      cases atLast
      rfl
    · rw [elsewhere j q other old ⟨by simp [place], by simp [place]⟩]
      exact turns.writing q (List.mem_of_getElem? old) now' place
  · by_cases here : p.session.file = file
    · refine absurd rfl (quiet ⟨p.session, .writing now⟩ ?_ here now)
      exact List.mem_of_getElem? (List.getElem?_set_self (List.getElem?_eq_some_iff.mp at_i).1)
    · rw [fetchesOf_append, if_neg here, List.append_nil]
      refine turns.cursor file fun q inPool same now' isWriting => ?_
      obtain ⟨j, at_j⟩ := List.mem_iff_getElem?.mp inPool
      by_cases own : i = j
      · subst own
        cases Option.some.inj (at_i.symm.trans at_j)
        exact here same
      · have kept : (c.pool.set i ⟨p.session, .writing now⟩)[j]? = some q := (List.getElem?_set_ne own).trans at_j
        exact quiet q (List.mem_of_getElem? kept) same now' isWriting

/-- The write of the cursor behind a fetch. -/
theorem TakingTurns.writes {now : Int} (turns : TakingTurns c) (at_i : c.pool[i]? = some p)
    (isWriting : p.place = .writing now) :
    TakingTurns ⟨{ c.store with cursor := fun name => if name = p.session.file then some now else c.store.cursor name },
      c.pool.set i ⟨p.session, .done⟩⟩ where
  alone := turns.alone.set at_i fun active => absurd rfl active.2
  spaced := turns.spaced
  fetching q inPool now' place := by
    rcases Machine.mem_pool_set inPool with rfl | old
    · cases place
    · exact turns.fetching q old now' place
  writing q inPool now' place := by
    rcases Machine.mem_pool_set inPool with rfl | old
    · cases place
    · exact turns.writing q old now' place
  cursor file quiet last atLast := by
    dsimp only
    by_cases here : file = p.session.file
    · subst here
      rw [if_pos rfl, turns.writing p (List.mem_of_getElem? at_i) now isWriting last atLast]
    · rw [if_neg here]
      refine turns.cursor file (fun q inPool same now' writes => ?_) last atLast
      obtain ⟨j, at_j⟩ := List.mem_iff_getElem?.mp inPool
      by_cases own : i = j
      · subst own
        cases Option.some.inj (at_i.symm.trans at_j)
        exact here same.symm
      · have kept : (c.pool.set i ⟨p.session, .done⟩)[j]? = some q := (List.getElem?_set_ne own).trans at_j
        exact quiet q (List.mem_of_getElem? kept) same now' writes

/-- The comparison with the cursor, which holds the reading of the last fetch. -/
theorem TakingTurns.compares {now : Int} (turns : TakingTurns c) (at_i : c.pool[i]? = some p)
    (isDated : p.place = .dated now) :
    let elapsed := now - (c.store.cursor p.session.file).getD 0
    TakingTurns ⟨c.store,
      c.pool.set i ⟨p.session, if p.session.throttles elapsed then .done else .fetching now⟩⟩ := by
  intro elapsed
  have active : p.Active := ⟨by simp [isDated], by simp [isDated]⟩
  have others := turns.alone.others at_i active
  refine turns.moves at_i _ (fun _ => others) (fun now' isFetching last atLast => ?_) (fun now' isWriting => ?_)
    fun now' isWriting => ?_
  · split at isFetching
    · cases isFetching
    · rename_i notThrottled
      cases isFetching
      have atCursor : c.store.cursor p.session.file = some last.now := by
        refine turns.cursor p.session.file (fun q inPool same now' isWriting => ?_) last atLast
        obtain ⟨j, at_j⟩ := List.mem_iff_getElem?.mp inPool
        by_cases own : i = j
        · subst own
          cases Option.some.inj (at_i.symm.trans at_j)
          rw [isDated] at isWriting
          cases isWriting
        · exact others j q own at_j ⟨by simp [isWriting], by simp [isWriting]⟩ same
      rintro interval (given : p.session.interval = some interval)
      have sinceLast : elapsed = now - last.now := by simp [elapsed, atCursor]
      rw [Session.throttles, given, sinceLast, decide_eq_true_eq] at notThrottled
      exact not_lt.mp notThrottled
  · rw [isDated] at isWriting
    cases isWriting
  · split at isWriting <;> cases isWriting

theorem TakingTurns.exec (e : Event Session Input) (turns : TakingTurns c) (oneAtATime : OneAtATime c e) :
    TakingTurns (hooks.exec c e) := by
  cases e with
  | arrive session =>
    have idle : ¬(⟨session, .start⟩ : Invocation).Active := fun active => active.1 rfl
    refine ⟨turns.alone.append idle, turns.spaced, fun q inPool now place => ?_, fun q inPool now place => ?_,
      fun file quiet => turns.cursor file fun q inPool => quiet q (List.mem_append_left _ inPool)⟩
    · rcases List.mem_append.mp inPool with old | new
      · exact turns.fetching q old now place
      · rw [List.mem_singleton.mp new] at place
        cases place
    · rcases List.mem_append.mp inPool with old | new
      · exact turns.writing q old now place
      · rw [List.mem_singleton.mp new] at place
        cases place
  | step i x =>
    cases at_i : c.pool[i]? with
    | none =>
      rw [hooks.exec_idle x at_i]
      exact turns
    | some p =>
      rw [hooks.exec_step x at_i]
      have stays : c.pool.set i p = c.pool := by
        obtain ⟨bound, value⟩ := List.getElem?_eq_some_iff.mp at_i
        rw [← value, List.set_getElem_self]
      have member := List.mem_of_getElem? at_i
      obtain ⟨session, place⟩ := p
      cases x with
      | clock now =>
        cases place with
        | start =>
          refine turns.moves at_i (.dated now) (fun _ j q _ at_j active => ?_) nofun nofun nofun
          exact oneAtATime _ at_i rfl q (List.mem_of_getElem? at_j) active
        | _ => rwa [show hooks.step (.clock now) c.store _ = (c.store, _) from rfl, stays]
      | run =>
        cases place with
        | dated now => exact turns.compares at_i rfl
        | fetching now => exact turns.fetches at_i rfl
        | writing now => exact turns.writes at_i rfl
        | _ => rwa [show hooks.step .run c.store _ = (c.store, _) from rfl, stays]

/-- What is in a file is the reading of a fetch that the file throttles. -/
structure Recorded (c : Config State Invocation) : Prop where
  cursor : ∀ file now, c.store.cursor file = some now → ∃ f ∈ c.store.fetchesOf file, f.now = now
  writing : ∀ p ∈ c.pool, ∀ now, p.place = .writing now → ∃ f ∈ c.store.fetchesOf p.session.file, f.now = now

theorem mem_fetchesOf_append {s : State} {f g : Fetch} {file : String} (old : g ∈ s.fetchesOf file) :
    g ∈ ({ s with fetches := s.fetches ++ [f] } : State).fetchesOf file := by
  rw [fetchesOf_append]
  exact List.mem_append_left _ old

/-- A step that leaves the files and the fetches alone, and does not end in a write. -/
theorem Recorded.moves (recorded : Recorded c) {q : Invocation} (after : ∀ now, q.place ≠ .writing now) :
    Recorded ⟨c.store, c.pool.set i q⟩ where
  cursor := recorded.cursor
  writing r inPool now isWriting := by
    rcases Machine.mem_pool_set inPool with rfl | old
    · exact absurd isWriting (after now)
    · exact recorded.writing r old now isWriting

theorem Recorded.fetches {now : Int} (recorded : Recorded c) :
    Recorded ⟨{ c.store with fetches := c.store.fetches ++ [⟨p.session, now⟩] },
      c.pool.set i ⟨p.session, .writing now⟩⟩ where
  cursor file now' inFile := by
    obtain ⟨f, member, same⟩ := recorded.cursor file now' inFile
    exact ⟨f, mem_fetchesOf_append member, same⟩
  writing q inPool now' isWriting := by
    rcases Machine.mem_pool_set inPool with rfl | old
    · cases isWriting
      refine ⟨⟨p.session, now⟩, ?_, rfl⟩
      rw [fetchesOf_append, if_pos rfl]
      exact List.mem_append_right _ (List.mem_singleton.mpr rfl)
    · obtain ⟨f, member, same⟩ := recorded.writing q old now' isWriting
      exact ⟨f, mem_fetchesOf_append member, same⟩

theorem Recorded.writes {now : Int} (recorded : Recorded c) (at_i : c.pool[i]? = some p)
    (isWriting : p.place = .writing now) :
    Recorded ⟨{ c.store with cursor := fun name => if name = p.session.file then some now else c.store.cursor name },
      c.pool.set i ⟨p.session, .done⟩⟩ where
  cursor file now' inFile := by
    dsimp only at inFile
    split at inFile
    · rename_i here
      cases inFile
      rw [here]
      exact recorded.writing p (List.mem_of_getElem? at_i) now isWriting
    · exact recorded.cursor file now' inFile
  writing q inPool now' place := by
    rcases Machine.mem_pool_set inPool with rfl | old
    · cases place
    · exact recorded.writing q old now' place

theorem Recorded.step (x : Input) (at_i : c.pool[i]? = some p) (recorded : Recorded c) :
    Recorded ⟨(step x c.store p).1, c.pool.set i (step x c.store p).2⟩ := by
  have stays : c.pool.set i p = c.pool := by
    obtain ⟨bound, value⟩ := List.getElem?_eq_some_iff.mp at_i
    rw [← value, List.set_getElem_self]
  obtain ⟨session, place⟩ := p
  cases x with
  | clock now =>
    cases place with
    | start => exact recorded.moves (q := ⟨session, .dated now⟩) nofun
    | _ => rwa [show Hook.step (.clock now) c.store _ = (c.store, _) from rfl, stays]
  | run =>
    cases place with
    | dated now =>
      refine recorded.moves fun now' isWriting => ?_
      change (if _ then _ else _) = _ at isWriting
      split at isWriting <;> cases isWriting
    | fetching now => exact recorded.fetches (p := ⟨session, .fetching now⟩)
    | writing now => exact recorded.writes at_i rfl
    | _ => rwa [show Hook.step .run c.store _ = (c.store, _) from rfl, stays]

theorem recorded_run (es : List (Event Session Input)) : Recorded (hooks.run Config.init es) := by
  refine hooks.run_preserves (fun c e => hooks.exec_preserves (fun c session before => ?_)
    (fun c i p x at_i before => before.step x at_i) c e) es ⟨nofun, nofun⟩
  refine ⟨before.cursor, fun q inPool now isWriting => ?_⟩
  rcases List.mem_append.mp inPool with old | new
  · exact before.writing q old now isWriting
  · rw [List.mem_singleton.mp new] at isWriting
    cases isWriting

/-- An invocation leaves the server alone exactly if its cursor is less than its interval
old, and what the cursor says is the reading of a fetch. Without a cursor the interval is
counted from the epoch. -/
theorem skipped_iff (recorded : Recorded c) {now : Int} (at_i : c.pool[i]? = some p) (isDated : p.place = .dated now) :
    (hooks.exec c (.step i .run)).pool[i]? = some ⟨p.session, .done⟩ ↔ ∃ interval ∈ p.session.interval,
      c.store.cursor p.session.file = none ∧ now < interval ∨
        ∃ f ∈ c.store.fetchesOf p.session.file, c.store.cursor p.session.file = some f.now ∧
          now - f.now < interval := by
  obtain ⟨session, place⟩ := p
  cases isDated
  have leaves : (hooks.exec c (.step i .run)).pool[i]? = some ⟨session, .done⟩ ↔
      session.throttles (now - (c.store.cursor session.file).getD 0) := by
    rw [hooks.exec_step .run at_i, List.getElem?_set_self (List.getElem?_eq_some_iff.mp at_i).1, Option.some.injEq]
    change Invocation.mk session (if session.throttles (now - (c.store.cursor session.file).getD 0) then Place.done
      else .fetching now) = _ ↔ _
    split <;> simp [*]
  have throttles : session.throttles (now - (c.store.cursor session.file).getD 0) ↔
      ∃ interval ∈ session.interval, now - (c.store.cursor session.file).getD 0 < interval := by
    rw [Session.throttles]
    cases session.interval <;> simp
  rw [leaves, throttles]
  refine exists_congr fun interval => and_congr_right fun _ => ?_
  cases inFile : c.store.cursor session.file with
  | none => simp
  | some last =>
    obtain ⟨f, member, rfl⟩ := recorded.cursor _ _ inFile
    simp only [Option.getD_some, reduceCtorEq, false_and, false_or, Option.some.injEq]
    constructor
    · exact fun young => ⟨f, member, rfl, young⟩
    · rintro ⟨g, _, same, young⟩
      rwa [same]

end Steps

section Participants

theorem safeChar_of_idChar {c : Char} (ofClass : idChar c) : safeChar c := by
  simp only [idChar, Bool.or_eq_true] at ofClass
  simp only [safeChar, Bool.or_eq_true]
  tauto

theorem safeParticipant_eq {participant : String} (documented : Documented participant) :
    safeParticipant participant = participant := by
  have same : participant.toList.map (fun c => if safeChar c then c else '_') = participant.toList.map id :=
    List.map_congr_left fun c member => if_pos (safeChar_of_idChar (documented.characters c member))
  rw [safeParticipant, same, List.map_id, String.ofList_toList]

theorem lastCheckFile_inj {p q : String} (ofGrammar : Documented p) (ofGrammar' : Documented q) :
    lastCheckFile p = lastCheckFile q ↔ p = q := by
  refine ⟨fun same => ?_, fun same => same ▸ rfl⟩
  rw [lastCheckFile, lastCheckFile, safeParticipant_eq ofGrammar, safeParticipant_eq ofGrammar', ← String.toList_inj]
    at same
  simpa [toString, ← String.toList_inj] using same

end Participants

end Hook

open Hook in
/-- Where the invocations that share a cursor take turns, each fetch comes its
interval after the one before, whatever the clock reads; sessions share a cursor only
if they are of one participant, as far as the participants are ids; and, turns or not, an
invocation goes without a fetch exactly if its cursor, which holds the reading of a fetch,
is not an interval old, or if there is no cursor and the clock itself reads less than the
interval. -/
theorem hook_throttled (es : List (Event Session Hook.Input)) :
    let c := hooks.run Config.init es
    (hooks.Along OneAtATime Config.init es → ∀ file, (c.store.fetchesOf file).IsChain Spaced) ∧
    (∀ p q, Documented p → Documented q → (lastCheckFile p = lastCheckFile q ↔ p = q)) ∧
    ∀ i p now, c.pool[i]? = some p → p.place = .dated now →
      ((hooks.exec c (.step i .run)).pool[i]? = some ⟨p.session, .done⟩ ↔ ∃ interval ∈ p.session.interval,
        c.store.cursor p.session.file = none ∧ now < interval ∨
          ∃ f ∈ c.store.fetchesOf p.session.file, c.store.cursor p.session.file = some f.now ∧
            now - f.now < interval) := by
  refine ⟨fun oneAtATime => ?_, fun p q => lastCheckFile_inj, fun i p now => skipped_iff (recorded_run es)⟩
  have turns : TakingTurns (hooks.run Config.init es) :=
    (oneAtATime.throughout (fun _ e turns => turns.exec e) TakingTurns.init).last
  exact turns.spaced

open Hook in
/-- Three prompts of one session at 100, 110 and 130 seconds, and one of another. -/
theorem hook_throttled_of_prompts :
    let a : Session := ⟨"host", some 30⟩
    let b : Session := ⟨"container-web", some 30⟩
    let prompt (i : Nat) (now : Int) : List (Event Session Hook.Input) :=
      [.step i (.clock now), .step i .run, .step i .run, .step i .run]
    let es := [.arrive a, .arrive a, .arrive b, .arrive a] ++ prompt 0 100 ++ prompt 1 110 ++ prompt 2 111 ++
      prompt 3 130
    let s := (hooks.run Config.init es).store
    hooks.Along OneAtATime Config.init es ∧ s.fetches = [⟨a, 100⟩, ⟨b, 111⟩, ⟨a, 130⟩] ∧
      ∀ file, (s.fetchesOf file).IsChain Spaced := by
  intro a b prompt es s
  have oneAtATime : hooks.Along OneAtATime Config.init es := by decide
  exact ⟨oneAtATime, by decide, (hook_throttled es).1 oneAtATime⟩

end PbChatroom
