import PbChatroom.MessageLog
import PbChatroom.Lib.Alone
import PbChatroom.Lib.Simulation
import PbChatroom.Requests

namespace PbChatroom
open Interleaving Relational

/-- The second SELECT of `get_thread_with_messages`. -/
def selectMessages (db : Db) (threadId : Uuid) : List Message := orderBy createdNoLater (db.messagesOf threadId)

/-- The third SELECT of `get_thread_with_messages`. -/
def selectParticipantIds (db : Db) (threadId : Uuid) : List String :=
  (db.recipientsOf threadId).map RecipientRow.participantId

/-- `_assert_thread_exists` -/
def assertThreadExists (db : Db) (threadId : Uuid) : Except StoreError Unit :=
  match db.thread? threadId with
  | none => .error (.threadNotFound threadId)
  | some _ => .ok ()

/-- Where a handler stands inside of a store function that runs several
statements, each of which sees what is committed when it runs. -/
inductive Within where
  | between
  | thread (threadId : Uuid) (row : ThreadRow)
  | messages (threadId : Uuid) (row : ThreadRow) (messages : List Message)
  | asserted

/-- A request in the server whose SELECTs are steps of their own. -/
structure Call where
  flight : Flight
  within : Within

namespace Flight

/-- The thread that the handler is about to read with `get_thread_with_messages`. -/
def reading : Flight → Option Uuid
  | .postMessage t _ _ .start | .postAck t _ _ .start => some t
  | _ => none

/-- How the handler goes on with what `get_thread_with_messages` returns. -/
def hasRead (thread : Option ThreadWithMessages) : Flight → Flight
  | .postMessage t caller payload .start =>
    match thread with
    | none => .postMessage t caller payload (.done (.error threadNotFound))
    | some thread => .postMessage t caller payload (.listing thread)
  | .postAck t caller payload .start =>
    match thread with
    | none => .postAck t caller payload (.done (.error threadNotFound))
    | some thread => .postAck t caller payload (.listing thread)
  | f => f

/-- The thread that the handler is about to append a row to. -/
def asserting : Flight → Option Uuid
  | .postMessage t _ _ (.appending ..) | .postAck t _ _ (.appending ..) => some t
  | _ => none

/-- How the handler goes on when `_assert_thread_exists` raises: the transaction
that the recipient path of `post_ack` inlines is in no `try`. -/
def notAsserted : Flight → Flight
  | .postMessage t caller payload (.appending ..) => .postMessage t caller payload (.done (.error threadNotFound))
  | .postAck t caller payload (.appending .closing ..) => .postAck t caller payload (.done (.error threadNotFound))
  | .postAck t caller payload (.appending .recipient ..) =>
    .postAck t caller payload (.done (.error internalServerError))
  | f => f

/-- The transaction behind `_assert_thread_exists`: INSERT, UPDATE and commit. -/
def append (db : Db) : Flight → Db × Flight
  | .postMessage t caller payload (.appending recipient d) =>
    match insertMsg db d.uuid t caller.id recipient payload.body .message "\x7b\x7d" (nowIso d.now) with
    | none => (db, .postMessage t caller payload (.done (.error internalServerError)))
    | some db' =>
      let result : Message :=
        ⟨d.uuid, t, caller.id, recipient, payload.body, .message, "\x7b\x7d", nowIso d.now⟩
      (setLastMessageAt db' t (nowIso d.now),
        match payload.discussionType with
        | none => .postMessage t caller payload (.done (.ok result))
        | some discussionType =>
          if discussionType ≠ "" then .postMessage t caller payload (.typing result discussionType)
          else .postMessage t caller payload (.done (.ok result)))
  | .postAck t caller payload (.appending path recipient d) =>
    match insertMsg db d.uuid t caller.id recipient (PostAck.body payload) .ack "\x7b\x7d" (nowIso d.now) with
    | none => (db, .postAck t caller payload (.done (.error internalServerError)))
    | some db' =>
      match path with
      | .recipient => (setLastMessageAt db' t (nowIso d.now), .postAck t caller payload (.stamping recipient d))
      | .closing =>
        (db'.updateThread t (fun row => { row with status := .acked, lastMessageAt := nowIso d.now }) fun _ => rfl,
          .postAck t caller payload (.done (.ok (PostAck.response t caller.id recipient (PostAck.body payload) d))))
  | f => (db, f)

end Flight

/-- One statement outside of a transaction, or one transaction. Where a handler
runs single statements and single transactions only, this is `Flight.step`. -/
def Call.step (x : Input) (db : Db) : Call → Db × Call
  | ⟨f, .between⟩ =>
    match x, f.reading, f.asserting with
    | .transaction, some t, _ =>
      match db.thread? t with
      | none => (db, ⟨f.hasRead none, .between⟩)
      | some row => (db, ⟨f, .thread t row⟩)
    | .transaction, none, some t =>
      match assertThreadExists db t with
      | .error _ => (db, ⟨f.notAsserted, .between⟩)
      | .ok _ => (db, ⟨f, .asserted⟩)
    | _, _, _ => ((f.step x db).1, ⟨(f.step x db).2, .between⟩)
  | ⟨f, .thread t row⟩ =>
    match x with
    | .draw _ => (db, ⟨f, .thread t row⟩)
    | .transaction => (db, ⟨f, .messages t row (selectMessages db t)⟩)
  | ⟨f, .messages t row messages⟩ =>
    match x with
    | .draw _ => (db, ⟨f, .messages t row messages⟩)
    | .transaction => (db, ⟨f.hasRead (some ⟨row, messages, selectParticipantIds db t⟩), .between⟩)
  | ⟨f, .asserted⟩ =>
    match x with
    | .draw _ => (db, ⟨f, .asserted⟩)
    | .transaction => ((f.append db).1, ⟨(f.append db).2, .between⟩)

/-- The server, one statement after the other. -/
def statements : Machine Db Request Call Input where
  receive request := ⟨request.receive, .between⟩
  step := Call.step

section Refinement
variable {db : Db} {t : Uuid}

/-- Of what a handler has read, the participant check looks at the creator and
the messages. -/
def ThreadWithMessages.Alike (thread thread' : ThreadWithMessages) : Prop :=
  thread'.thread.createdBy = thread.thread.createdBy ∧ thread'.messages = thread.messages

theorem ThreadWithMessages.Alike.resolve {thread thread' : ThreadWithMessages} (alike : thread.Alike thread')
    (caller : String) (extra : List String) :
    resolveParticipants thread' caller extra = resolveParticipants thread caller extra := by
  unfold resolveParticipants
  rw [alike.1, alike.2]

/-- The same request at the same place, up to what the participant check does
not look at. -/
inductive Flight.Alike : Flight → Flight → Prop
  | refl f : Alike f f
  | message {t caller payload thread thread'} : thread.Alike thread' →
      Alike (.postMessage t caller payload (.listing thread)) (.postMessage t caller payload (.listing thread'))
  | ack {t caller payload thread thread'} : thread.Alike thread' →
      Alike (.postAck t caller payload (.listing thread)) (.postAck t caller payload (.listing thread'))

/-- A request of the server with statements, and the same request of the server
that reads a thread when the SELECT over `messages` does. -/
def Call.Stands (db : Db) : Call → Flight → Prop
  | ⟨f, .between⟩, f' => f.Alike f'
  | ⟨f, .thread t row⟩, f' =>
    f' = f ∧ f.reading = some t ∧ ∃ now, db.thread? t = some now ∧ now.createdBy = row.createdBy
  | ⟨f, .messages t row messages⟩, f' => f.reading = some t ∧
    ∃ thread, f' = f.hasRead (some thread) ∧ thread.thread.createdBy = row.createdBy ∧ thread.messages = messages
  | ⟨f, .asserted⟩, f' => f' = f ∧ ∃ t row, f.asserting = some t ∧ db.thread? t = some row

theorem Call.Stands.later {db db' : Db} {c : Call} {f : Flight} (later : db.Later db') (stands : c.Stands db f) :
    c.Stands db' f := by
  obtain ⟨g, within⟩ := c
  cases within with
  | between => exact stands
  | thread t row =>
    obtain ⟨same, reads, now, found, creator⟩ := stands
    obtain ⟨now', found', step⟩ := later.thread? found
    exact ⟨same, reads, now', found', step.createdBy.trans creator⟩
  | messages => exact stands
  | asserted =>
    obtain ⟨same, t, row, appends, found⟩ := stands
    obtain ⟨row', found', _⟩ := later.thread? found
    exact ⟨same, t, row', appends, found'⟩

/-- The step that reads a thread, as one. -/
theorem Flight.step_reading {f : Flight} (reads : f.reading = some t) :
    f.step .transaction db = (db, f.hasRead (getThreadWithMessages db t)) := by
  unfold Flight.reading at reads
  split at reads
  · cases reads
    simp only [Flight.step, PostMessage.step, Flight.hasRead]
    split <;> simp_all
  · cases reads
    simp only [Flight.step, PostAck.step, Flight.hasRead]
    split <;> simp_all
  · cases reads

theorem Flight.step_reading_draw {f : Flight} (reads : f.reading = some t) (d : Draw) :
    f.step (.draw d) db = (db, f) := by
  unfold Flight.reading at reads
  split at reads
  · rfl
  · rfl
  · cases reads

/-- With its thread there the check is passed, and the rest is the transaction. -/
theorem Flight.step_asserting {f : Flight} {row : ThreadRow} (appends : f.asserting = some t)
    (found : db.thread? t = some row) : f.step .transaction db = f.append db := by
  unfold Flight.asserting at appends
  split at appends
  · rename_i caller payload recipient d
    cases appends
    simp only [Flight.step, PostMessage.step, Flight.append, appendMessage, found]
    cases inserted : insertMsg db d.uuid t caller.id recipient payload.body .message "\x7b\x7d" (nowIso d.now) with
    | none => rfl
    | some db' =>
      dsimp only
      cases payload.discussionType with
      | none => rfl
      | some given =>
        dsimp only
        split <;> rfl
  · rename_i caller payload path recipient d
    cases appends
    cases path with
    | recipient =>
      simp only [Flight.step, PostAck.step, Flight.append, PostAck.insertAck, found]
      cases insertMsg db d.uuid t caller.id recipient (PostAck.body payload) .ack "\x7b\x7d" (nowIso d.now) <;> rfl
    | closing =>
      simp only [Flight.step, PostAck.step, Flight.append, appendAck, found]
      cases insertMsg db d.uuid t caller.id recipient (PostAck.body payload) .ack "\x7b\x7d" (nowIso d.now) <;> rfl
  · cases appends

theorem Flight.step_notAsserted {f : Flight} (appends : f.asserting = some t) (absent : db.thread? t = none) :
    f.step .transaction db = (db, f.notAsserted) := by
  unfold Flight.asserting at appends
  split at appends
  · cases appends
    simp only [Flight.step, PostMessage.step, Flight.notAsserted, appendMessage, absent]
  · rename_i path recipient d
    cases appends
    cases path <;>
      simp only [Flight.step, PostAck.step, Flight.notAsserted, PostAck.insertAck, appendAck, absent]
  · cases appends

theorem Flight.step_asserting_draw {f : Flight} (appends : f.asserting = some t) (d : Draw) :
    f.step (.draw d) db = (db, f) := by
  unfold Flight.asserting at appends
  split at appends
  · rfl
  · rfl
  · cases appends

/-- Alike requests make the same step. -/
theorem Flight.Alike.step {f f' : Flight} (alike : f.Alike f') (x : Input) (db : Db) :
    (f'.step x db).1 = (f.step x db).1 ∧ (f.step x db).2.Alike (f'.step x db).2 := by
  cases alike with
  | refl => exact ⟨rfl, .refl _⟩
  | @message t caller payload thread thread' alike =>
    cases x with
    | draw => exact ⟨rfl, .message alike⟩
    | transaction =>
      simp only [Flight.step, PostMessage.step, alike.resolve]
      split
      · exact ⟨trivial, .refl _⟩
      · exact ⟨trivial, .refl _⟩
  | @ack t caller payload thread thread' alike =>
    cases x with
    | draw => exact ⟨rfl, .ack alike⟩
    | transaction =>
      simp only [Flight.step, PostAck.step, alike.resolve]
      split
      · exact ⟨trivial, .refl _⟩
      · exact ⟨trivial, .refl _⟩

theorem Flight.hasRead_alike {f : Flight} {thread thread' : ThreadWithMessages} (alike : thread.Alike thread') :
    (f.hasRead (some thread)).Alike (f.hasRead (some thread')) := by
  unfold Flight.hasRead
  split
  · exact .message alike
  · exact .ack alike
  · exact .refl _

theorem Flight.hasRead_draw {f : Flight} (reads : f.reading = some t) (thread : ThreadWithMessages) (d : Draw) :
    (f.hasRead (some thread)).step (.draw d) db = (db, f.hasRead (some thread)) := by
  unfold Flight.reading at reads
  split at reads
  · rfl
  · rfl
  · cases reads

theorem Flight.Alike.eq_of_reading {f f' : Flight} (alike : f.Alike f') (reads : f.reading = some t) : f' = f := by
  cases alike with
  | refl => rfl
  | message => cases reads
  | ack => cases reads

theorem Flight.Alike.eq_of_asserting {f f' : Flight} (alike : f.Alike f') (appends : f.asserting = some t) :
    f' = f := by
  cases alike with
  | refl => rfl
  | message => cases appends
  | ack => cases appends

/-- Between two store functions: the first statement of one of them is taken by
the server with statements only, unless the thread is not there. -/
theorem Flight.Alike.stands {f f' : Flight} (alike : f.Alike f') (x : Input) (db : Db) :
    let c : Call := ⟨f, .between⟩
    (f'.step x db).1 = (c.step x db).1 ∧ (c.step x db).2.Stands (c.step x db).1 (f'.step x db).2 ∨
      x = .transaction ∧ (c.step x db).1 = db ∧ (c.step x db).2.Stands db f' := by
  intro c
  cases x with
  | draw d => exact Or.inl (alike.step (.draw d) db)
  | transaction =>
    cases reads : f.reading with
    | some t =>
      cases alike.eq_of_reading reads
      cases found : db.thread? t with
      | none =>
        have unread : getThreadWithMessages db t = none := by rw [getThreadWithMessages, found, Option.map_none]
        have steps : c.step .transaction db = (db, ⟨f.hasRead none, .between⟩) := by
          simp only [c, Call.step, reads, found]
        rw [steps, Flight.step_reading reads, unread]
        exact Or.inl ⟨rfl, .refl _⟩
      | some row =>
        have steps : c.step .transaction db = (db, ⟨f, .thread t row⟩) := by simp only [c, Call.step, reads, found]
        rw [steps]
        exact Or.inr ⟨rfl, rfl, rfl, reads, row, found, rfl⟩
    | none =>
      cases appends : f.asserting with
      | some t =>
        cases alike.eq_of_asserting appends
        cases found : db.thread? t with
        | none =>
          have steps : c.step .transaction db = (db, ⟨f.notAsserted, .between⟩) := by
            simp only [c, Call.step, reads, appends, assertThreadExists, found]
          rw [steps, Flight.step_notAsserted appends found]
          exact Or.inl ⟨rfl, .refl _⟩
        | some row =>
          have steps : c.step .transaction db = (db, ⟨f, .asserted⟩) := by
            simp only [c, Call.step, reads, appends, assertThreadExists, found]
          rw [steps]
          exact Or.inr ⟨rfl, rfl, rfl, t, row, appends, found⟩
      | none =>
        have steps : c.step .transaction db = ((f.step .transaction db).1, ⟨(f.step .transaction db).2, .between⟩) := by
          simp only [c, Call.step, reads, appends]
        rw [steps]
        exact Or.inl (alike.step .transaction db)

/-- Every statement is a step of the server with transactions, or none of it. -/
theorem Call.Stands.step {c : Call} {f' : Flight} (stands : c.Stands db f') (x : Input) :
    (f'.step x db).1 = (c.step x db).1 ∧ (c.step x db).2.Stands (c.step x db).1 (f'.step x db).2 ∨
      x = .transaction ∧ (c.step x db).1 = db ∧ (c.step x db).2.Stands db f' := by
  obtain ⟨f, within⟩ := c
  cases within with
  | between => exact Flight.Alike.stands stands x db
  | thread t row =>
    obtain ⟨rfl, reads, now, found, creator⟩ := stands
    cases x with
    | draw d =>
      rw [Flight.step_reading_draw reads]
      exact Or.inl ⟨rfl, rfl, reads, now, found, creator⟩
    | transaction =>
      -- the SELECT over `messages` is the step that reads the thread
      have read : getThreadWithMessages db t = some ⟨now, selectMessages db t, selectParticipantIds db t⟩ := by
        rw [getThreadWithMessages, found]
        rfl
      rw [Flight.step_reading reads, read]
      exact Or.inl ⟨rfl, reads, _, rfl, creator, rfl⟩
  | messages t row messages =>
    obtain ⟨reads, thread, rfl, creator, same⟩ := stands
    cases x with
    | draw d =>
      rw [Flight.hasRead_draw reads]
      exact Or.inl ⟨rfl, reads, thread, rfl, creator, same⟩
    | transaction => exact Or.inr ⟨rfl, rfl, Flight.hasRead_alike ⟨creator, same⟩⟩
  | asserted =>
    obtain ⟨rfl, t, row, appends, found⟩ := stands
    cases x with
    | draw d =>
      rw [Flight.step_asserting_draw appends]
      exact Or.inl ⟨rfl, rfl, t, row, appends, found⟩
    | transaction =>
      rw [Flight.step_asserting appends found]
      exact Or.inl ⟨rfl, .refl _⟩

theorem Flight.Alike.request {f f' : Flight} (alike : f.Alike f') : f'.request = f.request := by
  cases alike <;> rfl

theorem Flight.hasRead_request (f : Flight) (thread : Option ThreadWithMessages) :
    (f.hasRead thread).request = f.request := by
  unfold Flight.hasRead
  split
  · split <;> rfl
  · split <;> rfl
  · rfl

theorem Call.Stands.request {c : Call} {f : Flight} (stands : c.Stands db f) : f.request = c.flight.request := by
  obtain ⟨g, within⟩ := c
  cases within with
  | between => exact Flight.Alike.request stands
  | thread => exact congrArg Flight.request stands.1
  | messages =>
    obtain ⟨_, thread, rfl, _⟩ := stands
    exact g.hasRead_request _
  | asserted => exact congrArg Flight.request stands.1

/-- An answered request stands for itself. -/
theorem Call.Stands.finished {c : Call} {f : Flight} (stands : c.Stands db f) (finished : c.flight.Finished) :
    f = c.flight := by
  obtain ⟨g, within⟩ := c
  cases within with
  | between =>
    cases stands with
    | refl => rfl
    | message => exact finished.elim
    | ack => exact finished.elim
  | thread => exact stands.1
  | messages =>
    obtain ⟨reads, _⟩ := stands
    unfold Flight.reading at reads
    split at reads
    · exact finished.elim
    · exact finished.elim
    · cases reads
  | asserted => exact stands.1

end Refinement

section Runs

/-- The server with statements before its first request. -/
def Calls.init : Config Db Call := ⟨.empty, []⟩

/-- What the server with transactions shows for a run with statements: its store
is the same, and so are all requests, as far as they are answered. -/
structure Config.Shows (calls : Config Db Call) (w : World) : Prop where
  store : w.store = calls.store
  length : w.pool.length = calls.pool.length
  requests : ∀ (i : Nat) c, calls.pool[i]? = some c → ∃ f, w.pool[i]? = some f ∧ f.request = c.flight.request ∧
    (c.flight.Finished → f = c.flight)

theorem stands_step_later {db : Db} {c : Call} {f : Flight} (x : Input) (stands : c.Stands db f) :
    db.Later (statements.step x db c).1 := by
  rcases stands.step x with ⟨store, _⟩ | ⟨_, store, _⟩
  · have later : db.Later (f.step x db).1 := step_later x db f
    rwa [store] at later
  · have same : (statements.step x db c).1 = db := store
    rw [same]
    exact .refl db

theorem Calls.simulated_init : Machine.Simulated Call.Stands Calls.init World.init :=
  ⟨rfl, rfl, fun _ _ at_i => nomatch at_i⟩

/-- Every run of the server in which each SELECT is a step of its own is, but for
those SELECTs, a run of the server in which a thread is read at once. -/
theorem statements_simulated {calls : Config Db Call} {w : World} (start : Machine.Simulated Call.Stands calls w)
    (es : List (Event Request Input)) : ∃ es', Thinned (· = .transaction) es es' ∧
      Machine.Simulated Call.Stands (statements.run calls es) (server.run w es') := by
  refine Machine.simulates (G := Db.Later) ?_ ?_ ?_ ?_ es start
  · exact fun _ request => .refl request.receive
  · exact fun x db c f stands => stands.step x
  · exact fun x db c f stands => stands_step_later x stands
  · exact fun _ _ _ _ later stands => stands.later later

/-- A configuration with every request between two store functions. -/
def Calls.of (w : World) : Config Db Call := ⟨w.store, w.pool.map fun f => ⟨f, .between⟩⟩

/-- The statements of one step, one after the other. -/
theorem Flight.drive_statements (f : Flight) (x : Input) (db : Db) : ∃ n,
    statements.drive (fun _ => x) n (db, ⟨f, .between⟩) = ((f.step x db).1, ⟨(f.step x db).2, .between⟩) := by
  cases x with
  | draw d => exact ⟨1, rfl⟩
  | transaction =>
    cases reads : f.reading with
    | some t =>
      cases found : db.thread? t with
      | none =>
        have unread : getThreadWithMessages db t = none := by rw [getThreadWithMessages, found, Option.map_none]
        refine ⟨1, ?_⟩
        rw [Flight.step_reading reads, unread]
        simp only [Machine.drive, statements, Call.step, reads, found]
      | some row =>
        have read : getThreadWithMessages db t = some ⟨row, selectMessages db t, selectParticipantIds db t⟩ := by
          rw [getThreadWithMessages, found]
          rfl
        refine ⟨3, ?_⟩
        rw [Flight.step_reading reads, read]
        simp only [Machine.drive, statements, Call.step, reads, found]
    | none =>
      cases appends : f.asserting with
      | some t =>
        cases found : db.thread? t with
        | none =>
          refine ⟨1, ?_⟩
          rw [Flight.step_notAsserted appends found]
          simp only [Machine.drive, statements, Call.step, reads, appends, assertThreadExists, found]
        | some row =>
          refine ⟨2, ?_⟩
          rw [Flight.step_asserting appends found]
          simp only [Machine.drive, statements, Call.step, reads, appends, assertThreadExists, found]
      | none =>
        refine ⟨1, ?_⟩
        simp only [Machine.drive, statements, Call.step, reads, appends]

theorem Calls.of_exec (w : World) (e : Event Request Input) :
    ∃ es, statements.run (Calls.of w) es = Calls.of (server.exec w e) := by
  cases e with
  | arrive request =>
    refine ⟨[.arrive request], ?_⟩
    rw [statements.run_cons, statements.run_nil, Calls.of, Calls.of, Machine.exec, Machine.exec, List.map_append]
    rfl
  | step i x =>
    cases at_i : w.pool[i]? with
    | none => exact ⟨[], by rw [server.exec_idle x at_i, statements.run_nil]⟩
    | some f =>
      have at_i' : (Calls.of w).pool[i]? = some ⟨f, .between⟩ := by
        rw [Calls.of, List.getElem?_map, at_i, Option.map_some]
      obtain ⟨n, driven⟩ := f.drive_statements x w.store
      obtain ⟨es, after⟩ := statements.run_drive (fun _ => x) at_i' n
      refine ⟨es, ?_⟩
      have store : (Calls.of w).store = w.store := rfl
      rw [after, store, driven, server.exec_step x at_i, Calls.of, Calls.of, List.map_set]
      rfl

/-- Nothing else is lost: every run in which threads are read at once is a run with
statements. -/
theorem Calls.of_run (es : List (Event Request Input)) :
    ∃ es', statements.run Calls.init es' = Calls.of (server.run World.init es) := by
  refine server.run_history (H := fun w _ => ∃ es', statements.run Calls.init es' = Calls.of w) ⟨[], rfl⟩ ?_ es
  rintro es e ⟨before, reached⟩
  obtain ⟨after, steps⟩ := Calls.of_exec (server.run World.init es) e
  exact ⟨before ++ after, by rw [statements.run_append, reached, steps]⟩

/-- The clock readings and ids of a run, in the order in which they are drawn. -/
def draws (es : List (Event Request Input)) : List Draw := es.filterMap fun | .step _ (.draw d) => some d | _ => none

/-- The server whose SELECTs each see what is committed at their own time refines
the server in which a thread is read at once: every run of it leaves the store and
gives the answers of a run of the latter with the same requests, ids and clock
readings; and the latter has no other stores. -/
theorem statements_refine :
    (∀ es, ∃ es', Config.Shows (statements.run Calls.init es) (server.run World.init es') ∧
      arrivals es' = arrivals es ∧ draws es' = draws es) ∧
    ∀ db, (∃ es, (statements.run Calls.init es).store = db) ↔ ∃ es, (server.run World.init es).store = db := by
  have shows : ∀ es, ∃ es', Config.Shows (statements.run Calls.init es) (server.run World.init es') ∧
      arrivals es' = arrivals es ∧ draws es' = draws es := by
    intro es
    obtain ⟨es', thinned, simulated⟩ := statements_simulated Calls.simulated_init es
    refine ⟨es', ⟨simulated.store, simulated.length, fun i c at_i => ?_⟩, ?_, ?_⟩
    · obtain ⟨f, at_i', stands⟩ := simulated.each i c at_i
      exact ⟨f, at_i', stands.request, stands.finished⟩
    · exact thinned.filterMap_eq fun _ _ _ => rfl
    · refine thinned.filterMap_eq fun i x skipped => ?_
      rw [skipped]
  refine ⟨shows, fun db => ⟨?_, ?_⟩⟩
  · rintro ⟨es, rfl⟩
    obtain ⟨es', same, _⟩ := shows es
    exact ⟨es', same.store⟩
  · rintro ⟨es, rfl⟩
    obtain ⟨es', reached⟩ := Calls.of_run es
    exact ⟨es', by rw [reached]; rfl⟩

end Runs

end PbChatroom
