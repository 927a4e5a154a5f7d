import PbChatroom.Answers
import PbChatroom.LastActivity
import PbChatroom.SinceFilter

namespace PbChatroom
open Interleaving Relational

section Dated

theorem Flight.step_awaitsDraw {f : Flight} (awaits : f.awaitsDraw = true) (db : Db) :
    server.step .transaction db f = (db, f) := by
  unfold awaitsDraw at awaits
  split at awaits
  · rfl
  · rfl
  · rfl
  · rfl
  · rfl
  · cases awaits

/-- A message that a request is about to insert was there before the step, or has the
time that the request has drawn with it. -/
theorem Flight.step_writing {x : Input} {db : Db} {f : Flight} {m : Message}
    (writing : (server.step x db f).2.writing = some m) :
    f.writing = some m ∨ ∃ d, x = .draw d ∧ m.createdAt.instant = d.now := by
  cases x with
  | draw d =>
    have drawn : ∀ n : Message, n.createdAt.instant = d.now → some n = some m → m.createdAt.instant = d.now := by
      rintro n time ⟨⟩
      exact time
    cases f with
    | refused => exact Or.inl writing
    | postThread caller payload pc =>
      cases pc with
      | start => exact Or.inr ⟨d, rfl, drawn _ rfl writing⟩
      | _ => exact Or.inl writing
    | postMessage t caller payload pc =>
      cases pc with
      | drawing => exact Or.inr ⟨d, rfl, drawn _ rfl writing⟩
      | _ => exact Or.inl writing
    | postClaim t caller payload pc => cases pc <;> exact Or.inl writing
    | postAck t caller payload pc =>
      cases pc with
      | drawing => exact Or.inr ⟨d, rfl, drawn _ rfl writing⟩
      | stamping => cases writing
      | _ => exact Or.inl writing
  | transaction =>
    refine Or.inl ?_
    by_cases awaits : f.awaitsDraw = true
    · rwa [f.step_awaitsDraw awaits] at writing
    · have moves : Moves db f (server.step .transaction db f).1 (server.step .transaction db f).2 := f.step_moves ..
      generalize server.step .transaction db f = after at moves writing
      obtain ⟨db', f'⟩ := after
      cases moves with
      | refused => exact writing
      | postThread move =>
        cases move with
        | idle => exact writing
        | draws => exact absurd rfl awaits
        | _ => cases writing
      | postMessage move =>
        cases move with
        | idle => exact writing
        | draws => exact absurd rfl awaits
        | _ => cases writing
      | postClaim move =>
        cases move with
        | idle => exact writing
        | _ => cases writing
      | postAck move =>
        cases move with
        | idle => exact writing
        | draws => exact absurd rfl awaits
        | _ => cases writing

theorem Flight.Fresh.writing {f : Flight} (fresh : f.Fresh) : f.writing = none := by
  cases fresh <;> rfl

/-- A message that is new since `w` has a time of the run since then, or a request
held it at `w` already. -/
def World.Holds (w : World) (es : List (Event Request Input)) (m : Message) : Prop :=
  m.createdAt.instant ∈ readings es ∨ ∃ f ∈ w.pool, f.writing = some m

/-- Where the messages of a run come from. -/
structure World.DatedSince (w : World) (es : List (Event Request Input)) (w' : World) : Prop where
  stored : ∀ m ∈ w'.store.messages.rows, m ∈ w.store.messages.rows ∨ w.Holds es m
  held : ∀ f ∈ w'.pool, ∀ m, f.writing = some m → w.Holds es m

theorem World.Holds.append {w : World} {es : List (Event Request Input)} {m : Message} (holds : w.Holds es m)
    (e : Event Request Input) : w.Holds (es ++ [e]) m := by
  refine holds.imp_left fun inRun => ?_
  rw [readings, List.filterMap_append]
  exact List.mem_append_left _ inRun

theorem World.datedSince (w : World) (es : List (Event Request Input)) : w.DatedSince es (server.run w es) := by
  refine server.run_history (H := fun w' es => w.DatedSince es w')
    ⟨fun m member => Or.inl member, fun f member m writing => Or.inr ⟨f, member, writing⟩⟩ ?_ es
  rintro es e ⟨stored, held⟩
  have held' : ∀ f ∈ (server.run w es).pool, ∀ m, f.writing = some m → w.Holds (es ++ [e]) m :=
    fun f member m writing => (held f member m writing).append e
  have stored' : ∀ m ∈ (server.run w es).store.messages.rows, m ∈ w.store.messages.rows ∨ w.Holds (es ++ [e]) m :=
    fun m member => (stored m member).imp_right fun holds => holds.append e
  cases e with
  | arrive request =>
    refine ⟨stored', fun f member m writing => ?_⟩
    rcases List.mem_append.mp member with old | new
    · exact held' f old m writing
    · have fresh : (server.receive request).writing = none := request.receive_fresh.writing
      rw [List.mem_singleton.mp new, fresh] at writing
      cases writing
  | step i x =>
    cases at_i : (server.run w es).pool[i]? with
    | none =>
      rw [server.exec_idle x at_i]
      exact ⟨stored', held'⟩
    | some f =>
      rw [server.exec_step x at_i]
      have inPool := List.mem_of_getElem? at_i
      refine ⟨fun m member => ?_, fun g member m writing => ?_⟩
      · rcases (f.step_commits x (server.run w es).store).messages with same | ⟨n, writing, rows⟩
        · exact stored' m (same ▸ member)
        · rw [rows] at member
          rcases List.mem_append.mp member with old | new
          · exact stored' m old
          · rw [List.mem_singleton.mp new]
            exact Or.inr (held' f inPool n writing)
      · rcases Machine.mem_pool_set member with rfl | old
        · rcases Flight.step_writing writing with before | ⟨d, rfl, time⟩
          · exact held' f inPool m before
          · refine Or.inl ?_
            rw [readings, List.filterMap_append, time]
            exact List.mem_append_right _ (List.mem_singleton_self _)
        · exact held' g old m writing

/-- From the empty server on, every message has a time of the run. -/
theorem readings_of_held {es : List (Event Request Input)} {m : Message}
    (holds : World.init.Holds es m) : m.createdAt.instant ∈ readings es := by
  rcases holds with inRun | ⟨f, member, _⟩
  · exact inRun
  · cases member

end Dated

/-- The request of the newest message of the thread had read the clock by `w`, and
wrote it after `w`. -/
def World.Raced (w : World) (db' : Db) (t : Uuid) : Prop :=
  ∃ m ∈ (db'.messagesOf t).getLast?, m ∉ w.store.messagesOf t ∧ ∃ f ∈ w.pool, f.writing = some m

instance (w : World) (db' : Db) (t : Uuid) : Decidable (w.Raced db' t) :=
  inferInstanceAs (Decidable (∃ m ∈ (db'.messagesOf t).getLast?, m ∉ w.store.messagesOf t ∧
    ∃ f ∈ w.pool, f.writing = some m))

section Recall
variable {t : Uuid}

theorem Db.messagesOf_nodup (db : Db) (t : Uuid) : (db.messagesOf t).Nodup :=
  (List.Nodup.of_map Message.id db.messages.unique).filter _

/-- The newest message of a thread is new exactly if any is. -/
theorem Db.Later.newest_mem_iff {db db' : Db} (later : db.Later db') {m : Message}
    (newest : (db'.messagesOf t).getLast? = some m) : m ∈ db.messagesOf t ↔ db.messagesOf t = db'.messagesOf t := by
  obtain ⟨rest, split⟩ := later.messagesOf t
  have distinct := db'.messagesOf_nodup t
  constructor
  · intro old
    cases rest using List.reverseRecOn with
    | nil => rwa [List.append_nil] at split
    | append_singleton rest n =>
      rw [← split, ← List.append_assoc, List.getLast?_concat] at newest
      cases newest
      rw [← split] at distinct
      exact absurd rfl ((List.nodup_append.mp distinct).2.2 m old m (by simp))
  · intro same
    rw [same]
    exact List.mem_of_getLast? newest

theorem lastIsNewest (es : List (Event Request Input)) (t : Uuid) :
    (server.run World.init es).store.LastIsNewest t :=
  server.run_preserves (World.newest t) es rfl

variable {before after : List (Event Request Input)} {s : IsoText}

/-- A message is no earlier than the poll exactly if it is new since the poll and no
request held it then. -/
theorem noLater_iff_new (past : ∀ d ∈ readings before, ¬s.NoLater d) (since : ∀ d ∈ readings after, s.NoLater d)
    {m : Message} :
    let w : World := server.run World.init before
    m ∈ (server.run w after).store.messages.rows →
      (s.NoLater m.createdAt.instant ↔ m ∉ w.store.messages.rows ∧ ¬∃ f ∈ w.pool, f.writing = some m) := by
  intro w stored
  have dated := World.init.datedSince before
  constructor
  · intro late
    refine ⟨fun old => ?_, fun ⟨f, member, writing⟩ => ?_⟩
    · rcases dated.stored m old with absent | holds
      · cases absent
      · exact past _ (readings_of_held holds) late
    · exact past _ (readings_of_held (dated.held f member m writing)) late
  · rintro ⟨new, free⟩
    rcases (w.datedSince after).stored m stored with old | inRun | held
    · exact absurd old new
    · exact since _ inRun
    · exact absurd held free

/-- What a poll since `s` makes of one thread. -/
theorem recalled_iff (past : ∀ d ∈ readings before, ¬s.NoLater d) (since : ∀ d ∈ readings after, s.NoLater d)
    {row : ThreadRow} :
    let w : World := server.run World.init before
    let w' : World := server.run w after
    w'.store.thread? t = some row →
      ((¬row.lastMessageAt.text < s.text ↔ w.store.messagesOf t ≠ w'.store.messagesOf t) ↔
        (s.Misread row.lastMessageAt ↔ w.Raced w'.store t)) := by
  intro w w' found
  have whole : w' = server.run World.init (before ++ after) := (server.run_append ..).symm
  have sound : w'.store.Sound := whole ▸ (World.Sound.reachable _).1
  have last : w'.store.LastIsNewest t := whole ▸ lastIsNewest _ t
  obtain ⟨seed, _, messages⟩ := sound.messagesOf_eq found
  obtain ⟨m, newest⟩ : ∃ m, (w'.store.messagesOf t).getLast? = some m := by
    rw [messages, List.getLast?_cons]
    exact ⟨_, rfl⟩
  have time : row.lastMessageAt = m.createdAt := by
    rw [Db.LastIsNewest, newest, Db.lastMessageAt?, Db.column, found] at last
    exact Option.some.inj last
  obtain ⟨stored, inThread⟩ := Db.mem_messagesOf.mp (List.mem_of_getLast? newest)
  have old : m ∈ w.store.messagesOf t ↔ m ∈ w.store.messages.rows := by
    rw [Db.mem_messagesOf, and_iff_left inThread]
  have raced : w.Raced w'.store t ↔ m ∉ w.store.messages.rows ∧ ∃ f ∈ w.pool, f.writing = some m := by
    simp only [World.Raced, newest, Option.mem_def, Option.some.injEq, exists_eq_left', old]
  have judged := IsoText.not_lt_text_iff (s := s) (t := m.createdAt)
  have later : w.store.Later w'.store := run_later w after
  have late : s.NoLater m.createdAt.instant ↔ m ∉ w.store.messages.rows ∧ ¬∃ f ∈ w.pool, f.writing = some m :=
    noLater_iff_new past since stored
  rw [late] at judged
  rw [time, raced, Ne, ← later.newest_mem_iff newest, old]
  by_cases isOld : m ∈ w.store.messages.rows
  · simpa only [isOld, not_true_eq_false, false_and, iff_false, not_not] using judged
  · by_cases held : ∃ f ∈ w.pool, f.writing = some m
    · simp only [isOld, held, not_true_eq_false, and_false, iff_false, not_not] at judged
      simp only [isOld, held, not_false_eq_true, and_self, iff_true]
      rw [judged, not_not]
    · simpa only [isOld, held, not_false_eq_true, and_self, and_false, iff_true, iff_false] using judged

end Recall

/-- The poll of someone who was away, with the time of the last poll as its cursor:
the clocks agree, so every request that has read its clock before the last poll has
read an earlier time, and every later one no earlier time. Among the threads that the
other filters let through, the poll finds exactly those that have got a message in
between if and only if the two ways in which it errs meet: the newest message of a
thread is misread exactly where its request was between its clock and its write when
the last poll came. -/
theorem while_away_iff (before after : List (Event Request Input)) (f : ThreadFilter) (s : IsoText)
    (past : ∀ d ∈ readings before, ¬s.NoLater d) (since : ∀ d ∈ readings after, s.NoLater d) :
    let w : World := server.run World.init before
    let w' : World := server.run w after
    (∀ t, t ∈ (listThreads w'.store { f with since := some s.text }).map ThreadSummary.id ↔
      ∃ row, w'.store.thread? t = some row ∧ { f with since := none }.matches w'.store row ∧
        w.store.messagesOf t ≠ w'.store.messagesOf t) ↔
      ∀ row ∈ w'.store.threads.rows, { f with since := none }.matches w'.store row →
        (s.Misread row.lastMessageAt ↔ w.Raced w'.store row.id) := by
  intro w w'
  simp only [mem_listThreads, ThreadFilter.matches_since]
  constructor
  · intro asChanged row member matched
    have found : w'.store.thread? row.id = some row := Table.get?_eq_some_iff.mpr ⟨member, rfl⟩
    have changedIff := asChanged row.id
    simp only [found, Option.some.injEq, exists_eq_left', matched, true_and] at changedIff
    exact (recalled_iff past since found).mp changedIff
  · intro fair t
    refine exists_congr fun row => and_congr_right fun found => and_congr_right fun matched => ?_
    have inThread : row.id = t := Table.get?_key found
    have changedIff := fair row (Table.get?_mem found) matched
    rw [inThread] at changedIff
    exact (recalled_iff past since found).mpr changedIff

/-- Two threads are open when the poll comes, and `b` replies in the one after it. -/
theorem while_away_of_reply :
    let before := .arrive (.postThread (some "a") ⟨some "b", [], "s", "hello", none, none⟩) ::
      .step 0 (.draw ⟨reading 0 1, "t", "m0"⟩) :: transactions 0 2 ++
      .arrive (.postThread (some "a") ⟨some "c", [], "s", "hello", none, none⟩) ::
      .step 1 (.draw ⟨reading 1 1, "u", "m1"⟩) :: transactions 1 2
    let after := .arrive (.postMessage "t" (some "b") ⟨"hi", none⟩) :: transactions 2 2 ++
      .step 2 (.draw ⟨reading 3 0, "m2", ""⟩) :: transactions 2 1
    let w : World := server.run (server.run World.init before) after
    "t" ∈ (listThreads w.store ⟨none, none, none, some (reading 2 0).served.text⟩).map ThreadSummary.id ∧
      "u" ∉ (listThreads w.store ⟨none, none, none, some (reading 2 0).served.text⟩).map ThreadSummary.id := by
  intro before after w
  have asChanged := (while_away_iff before after ⟨none, none, none, none⟩ (reading 2 0).served (by decide)
    (by decide)).mpr (by decide)
  refine ⟨(asChanged "t").mpr ?_, fun listed => ?_⟩
  · exact ⟨_, rfl, rfl, by decide⟩
  · obtain ⟨row, _, _, new⟩ := (asChanged "u").mp listed
    revert new
    decide

end PbChatroom
