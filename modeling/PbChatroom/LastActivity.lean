import PbChatroom.MessageLog

namespace PbChatroom
open Interleaving Relational

namespace Db

/-- The column `last_message_at` of the thread. -/
def lastMessageAt? (db : Db) (t : Uuid) : Option Timestamp := db.column ThreadRow.lastMessageAt t

/-- `last_message_at` is the `created_at` of the latest message of the thread. -/
def LastIsLatest (db : Db) (t : Uuid) : Prop :=
  ∀ last ∈ db.lastMessageAt? t, (∃ m ∈ db.messagesOf t, m.createdAt = last) ∧
    ∀ m ∈ db.messagesOf t, m.createdAt.instant ≤ last.instant

/-- What the code keeps of it: `last_message_at` is the `created_at` of the
message that was committed last. -/
def LastIsNewest (db : Db) (t : Uuid) : Prop :=
  db.lastMessageAt? t = (db.messagesOf t).getLast?.map Message.createdAt

instance (db : Db) (t : Uuid) : Decidable (db.LastIsLatest t) :=
  inferInstanceAs (Decidable (∀ last ∈ db.lastMessageAt? t, (∃ m ∈ db.messagesOf t, m.createdAt = last) ∧
    ∀ m ∈ db.messagesOf t, m.createdAt.instant ≤ last.instant))

theorem LastIsNewest.latest_iff {db : Db} {t : Uuid} (newest : db.LastIsNewest t) :
    db.LastIsLatest t ↔ ∀ last ∈ (db.messagesOf t).getLast?, ∀ m ∈ db.messagesOf t,
      m.createdAt.instant ≤ last.createdAt.instant := by
  rw [LastIsLatest, newest]
  constructor
  · intro latest last atLast
    exact (latest last.createdAt (Option.mem_map_of_mem _ atLast)).2
  · intro latest time atTime
    obtain ⟨last, atLast, rfl⟩ := Option.mem_map.mp atTime
    exact ⟨⟨last, List.mem_of_getLast? atLast, rfl⟩, latest last atLast⟩

end Db

/-- The message or ack that the next transaction of the request is to add to `t`. -/
def Flight.adding (t : Uuid) : Flight → Option Message
  | .postThread .. => none
  | f => f.writing.filter fun m => m.threadId = t

theorem Flight.adding_eq_some {t : Uuid} {f : Flight} {m : Message} (adding : f.adding t = some m) :
    f.writing = some m ∧ m.threadId = t := by
  unfold Flight.adding at adding
  split at adding
  · cases adding
  · obtain ⟨writing, inThread⟩ := Option.filter_eq_some_iff.mp adding
    exact ⟨writing, of_decide_eq_true inThread⟩

/-- With its thread there and its id free the message is added. -/
theorem Flight.adds {t : Uuid} {f : Flight} {m : Message} {db : Db} {row : ThreadRow} (adding : f.adding t = some m)
    (found : db.thread? t = some row) (free : ¬db.MessageIdTaken m.id) :
    (server.step .transaction db f).1.messages.rows = db.messages.rows ++ [m] := by
  obtain ⟨writing, rfl⟩ := adding_eq_some adding
  unfold Flight.writing at writing
  split at writing
  · cases adding
  · rename_i u caller payload recipient d
    cases writing
    obtain ⟨m, db', append⟩ : ∃ m db', appendMessage db d.uuid u d.now caller.id recipient payload.body =
      .ok (m, db') := appendMessage_of_free found free
    obtain ⟨rfl, appended⟩ := appendMessage_ok append
    simp only [server, Flight.step, PostMessage.step, append]
    split
    · exact appended.messages
    · split <;> exact appended.messages
  · rename_i u caller payload path recipient d
    cases writing
    cases path with
    | recipient =>
      obtain ⟨db', insert⟩ : ∃ db', PostAck.insertAck db u caller.id recipient (PostAck.body payload) d = .ok db' :=
        PostAck.insertAck_of_free found free
      simp only [server, Flight.step, PostAck.step, insert]
      exact (PostAck.insertAck_ok insert).messages
    | closing =>
      obtain ⟨m, db', append⟩ : ∃ m db', appendAck db d.uuid u d.now caller.id recipient (PostAck.body payload) =
        .ok (m, db') := appendAck_of_free found free
      obtain ⟨rfl, appended⟩ := appendAck_ok append
      simp only [server, Flight.step, PostAck.step, append]
      exact appended.messages
  · cases writing

/-- Only what writes a message writes a `last_message_at`, and it writes the
`created_at` of that message. -/
theorem Flight.Commits.activity {db db' : Db} {f : Flight} (commits : Commits db f db') :
    (db'.messages = db.messages ∧ ∀ t, db'.lastMessageAt? t = db.lastMessageAt? t) ∨
    (∃ row seed, Created db row seed db' ∧ seed.threadId = row.id ∧ row.lastMessageAt = seed.createdAt) ∨
    ∃ set m, f.adding m.threadId = some m ∧ Appended set db m db' ∧ ∀ row, (set row).lastMessageAt = m.createdAt := by
  have adding : ∀ {m : Message}, f.writing = some m → (∀ caller payload d, f ≠ .postThread caller payload d) →
      f.adding m.threadId = some m := by
    intro m writing reply
    unfold Flight.adding
    split
    · exact absurd rfl (reply _ _ _)
    · rw [writing, Option.filter_some, if_pos (decide_eq_true rfl)]
  cases commits with
  | nothing => exact Or.inl ⟨rfl, fun _ => rfl⟩
  | opens writing created =>
    cases Option.some.inj writing
    exact Or.inr (Or.inl ⟨_, _, created, rfl, rfl⟩)
  | posts writing appended | inserts writing appended | closes writing appended =>
    have sets := congrArg (Option.map Message.createdAt) writing
    exact Or.inr (Or.inr ⟨_, _, adding writing (fun _ _ _ => nofun), appended, fun _ => Option.some.inj sets⟩)
  | typesOpening | types | flips => exact Or.inl ⟨rfl, Db.column_updateThread fun _ => rfl⟩
  | adds added => exact Or.inl ⟨addRecipient_messages added, addRecipient_column added _⟩
  | claims => exact Or.inl ⟨setClaim_messages .., setClaim_column (fun _ _ => rfl) _ _ _ _ _⟩
  | marks => exact Or.inl ⟨rfl, fun _ => rfl⟩

/-- One step as seen from one thread: nothing happens to it, or one message is
added and `last_message_at` becomes its `created_at`. -/
theorem Flight.Commits.activity_at {db db' : Db} {f : Flight} (commits : Commits db f db') (t : Uuid) :
    db'.messagesOf t = db.messagesOf t ∧ db'.lastMessageAt? t = db.lastMessageAt? t ∨
      ∃ m, (db.thread? t = none ∨ f.adding t = some m ∧ ¬db.MessageIdTaken m.id) ∧
        db'.messagesOf t = db.messagesOf t ++ [m] ∧ db'.lastMessageAt? t = some m.createdAt := by
  rcases commits.activity with ⟨messages, last⟩ | ⟨row, seed, created, inThread, sets⟩ |
    ⟨set, m, adding, appended, sets⟩
  · exact Or.inl ⟨Db.messagesOf_congr messages t, last t⟩
  · have messages := created.messagesOf t
    by_cases here : t = row.id
    · rw [if_pos (inThread.trans here.symm)] at messages
      refine Or.inr ⟨seed, Or.inl (here ▸ created.fresh), messages, ?_⟩
      rw [Db.lastMessageAt?, Db.column, created.threads, if_pos here, Option.map_some, sets]
    · rw [if_neg (fun same => here (same.symm.trans inThread)), List.append_nil] at messages
      exact Or.inl ⟨messages, created.column here⟩
  · have messages := appended.messagesOf t
    by_cases here : t = m.threadId
    · obtain ⟨old, found⟩ := appended.parent
      rw [if_pos here.symm] at messages
      refine Or.inr ⟨m, Or.inr ⟨here ▸ adding, Db.free_of_added appended.messages⟩, messages, ?_⟩
      rw [Db.lastMessageAt?, Db.column, appended.threads, if_pos here, here, found, Option.map_some, Option.map_some,
        sets]
    · rw [if_neg (Ne.symm here), List.append_nil] at messages
      exact Or.inl ⟨messages, appended.column t fun same => absurd same here⟩

/-- The step does not set the `last_message_at` of the thread back. -/
def World.NeverBack (t : Uuid) (w : World) (e : Event Request Input) : Prop :=
  ∀ last ∈ w.store.lastMessageAt? t, ∀ last' ∈ (server.exec w e).store.lastMessageAt? t, last.instant ≤ last'.instant

/-- A request that commits a message to the thread has read the clock after
every request that has committed one before it. -/
def World.InClockOrder (t : Uuid) (w : World) : Event Request Input → Prop
  | .step i .transaction => ∀ f ∈ w.pool[i]?, ∀ m ∈ f.adding t, ¬w.store.MessageIdTaken m.id →
      ∀ n ∈ w.store.messagesOf t, n.createdAt.instant ≤ m.createdAt.instant
  | _ => True

instance (t : Uuid) (w : World) : DecidablePred (w.NeverBack t) := fun e =>
  inferInstanceAs (Decidable (∀ last ∈ w.store.lastMessageAt? t,
    ∀ last' ∈ (server.exec w e).store.lastMessageAt? t, last.instant ≤ last'.instant))

theorem World.newest (t : Uuid) (w : World) (e : Event Request Input) (newest : w.store.LastIsNewest t) :
    (server.exec w e).store.LastIsNewest t := by
  cases e with
  | arrive => exact newest
  | step i x =>
    cases at_i : w.pool[i]? with
    | none => rwa [server.exec_idle x at_i]
    | some f =>
      rw [server.exec_step x at_i]
      rcases (f.step_commits x w.store).activity_at t with ⟨messages, last⟩ | ⟨m, _, messages, last⟩
      · rw [Db.LastIsNewest, messages, last]
        exact newest
      · rw [Db.LastIsNewest, messages, last, List.getLast?_concat, Option.map_some]

/-- In clock order the latest message stays the newest one. -/
theorem World.InClockOrder.keeps {t : Uuid} {w : World} {e : Event Request Input} (ordered : w.InClockOrder t e)
    (newest : w.store.LastIsNewest t) (latest : w.store.LastIsLatest t) :
    w.NeverBack t e ∧ (server.exec w e).store.LastIsLatest t := by
  have newest' := World.newest t w e newest
  rw [newest'.latest_iff]
  have same : (server.exec w e).store.messagesOf t = w.store.messagesOf t →
      (server.exec w e).store.lastMessageAt? t = w.store.lastMessageAt? t → w.NeverBack t e ∧
        ∀ last ∈ ((server.exec w e).store.messagesOf t).getLast?, ∀ m ∈ (server.exec w e).store.messagesOf t,
          m.createdAt.instant ≤ last.createdAt.instant := by
    intro messages last
    rw [World.NeverBack, messages, last]
    refine ⟨fun last atLast last' atLast' => ?_, newest.latest_iff.mp latest⟩
    rw [Option.mem_unique atLast atLast']
  cases e with
  | arrive => exact same rfl rfl
  | step i x =>
    cases at_i : w.pool[i]? with
    | none => exact same (by rw [server.exec_idle x at_i]) (by rw [server.exec_idle x at_i])
    | some f =>
      have next := server.exec_step x at_i
      rcases (f.step_commits x w.store).activity_at t with ⟨messages, last⟩ | ⟨m, adds, messages, last⟩
      · exact same (by rw [next, messages]) (by rw [next, last])
      · have inOrder : ∀ n ∈ w.store.messagesOf t, n.createdAt.instant ≤ m.createdAt.instant := by
          rcases adds with absent | ⟨adding, free⟩
          · rw [Db.messagesOf_eq_nil absent]
            exact fun _ member => nomatch member
          · cases x with
            | draw d =>
              rw [f.step_draw d w.store] at messages
              simp at messages
            | transaction => exact ordered f at_i m adding free
        rw [World.NeverBack, next, messages, last]
        refine ⟨fun before atBefore after atAfter => ?_, fun last atLast n member => ?_⟩
        · cases Option.some.inj atAfter
          obtain ⟨n, member, rfl⟩ := (latest before atBefore).1
          exact inOrder n member
        · rw [List.getLast?_concat] at atLast
          cases Option.some.inj atLast
          rcases List.mem_append.mp member with old | new
          · exact inOrder n old
          · rw [List.mem_singleton.mp new]

/-- Out of clock order the latest message is not the newest one any more. -/
theorem World.InClockOrder.of_latest {t : Uuid} {w : World} {e : Event Request Input} (newest : w.store.LastIsNewest t)
    (latest : (server.exec w e).store.LastIsLatest t) : w.InClockOrder t e := by
  have newest' := World.newest t w e newest
  rw [newest'.latest_iff] at latest
  unfold World.InClockOrder
  split
  · rename_i i
    intro f at_i m adding free n member
    obtain ⟨stored, inThread⟩ := Db.mem_messagesOf.mp member
    obtain ⟨row, found⟩ := Option.isSome_iff_exists.mp (w.store.messages_thread n stored)
    have added := Flight.adds adding (inThread ▸ found) free
    have messages : (server.exec w (.step i .transaction)).store.messagesOf t = w.store.messagesOf t ++ [m] := by
      rw [server.exec_step .transaction at_i, Db.messagesOf, added, List.filter_append, Db.messagesOf]
      simp [(Flight.adding_eq_some adding).2]
    rw [messages] at latest
    exact latest m List.getLast?_concat n (List.mem_append_left _ member)
  · trivial

/-- `last_message_at` is the `created_at` of the latest message in every state
and never goes back, exactly if the messages and acks of the thread are committed
in the order in which their requests have read the clock. -/
theorem last_activity_iff (t : Uuid) (es : List (Event Request Input)) :
    server.Throughout (fun w => w.store.LastIsLatest t) World.init es ∧ server.Along (World.NeverBack t) World.init es ↔
      server.Along (World.InClockOrder t) World.init es := by
  refine (Machine.along_iff (J := fun w => w.store.LastIsNewest t) (World.newest t) ?_ rfl ?_).symm
  · intro w e newest latest
    exact ⟨fun ordered => ordered.keeps newest latest, fun kept => .of_latest newest kept.2⟩
  · intro last atLast
    cases atLast

/-- The clock readings of a run, in the order in which they are taken. -/
def readings (es : List (Event Request Input)) : List DateTime :=
  es.filterMap fun | .step _ (.draw d) => some d.now | _ => none

/-- `b` reads the clock, `a` reads it later and is first to commit: with the
commit of `b` the last activity of the thread goes back by a second. -/
theorem last_activity_goes_back :
    let before := [.arrive (.postThread (some "a") ⟨some "b", [], "s", "hello", none, none⟩),
        .step 0 (.draw ⟨reading 0 1, "t", "m0"⟩)] ++ transactions 0 2 ++
      .arrive (.postMessage "t" (some "b") ⟨"hi", none⟩) :: transactions 1 2 ++
      .arrive (.postMessage "t" (some "a") ⟨"and?", none⟩) :: transactions 2 2 ++
      .step 1 (.draw ⟨reading 1 0, "m1", ""⟩) :: .step 2 (.draw ⟨reading 2 0, "m2", ""⟩) :: transactions 2 1
    (readings before).Pairwise (· < ·) ∧
      ¬World.NeverBack "t" (server.run World.init before) (.step 1 .transaction) ∧
      ¬(server.run World.init (before ++ transactions 1 1)).store.LastIsLatest "t" := by
  decide

end PbChatroom
