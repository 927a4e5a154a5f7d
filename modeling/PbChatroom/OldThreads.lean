import PbChatroom.AccessControl
import PbChatroom.Recovery
import PbChatroom.ReplyRouting
import PbChatroom.Upgrade
import PbChatroom.WhileAway

namespace PbChatroom
open Interleaving Relational Transactional

/-- One of the two of a thread that nobody else is listed in. -/
def OneOfTwo (creator primary caller : String) : Prop := caller = creator ∨ caller = primary

/-- One of the two, and the recipient to whom its messages go. -/
def Sends (creator primary caller recipient : String) : Prop :=
  OneOfTwo creator primary caller ∧ recipient = route creator primary caller

/-- A reply of `now` stays behind a message of `t`: the reading outlasts the opening of a
thread, and is no earlier than a reply. -/
def Timestamp.OutlastedBy (t : Timestamp) (now : DateTime) : Prop :=
  if t.writer = .nowUtc then Db.Outlasts t.instant now else t.instant ≤ now

instance (t : Timestamp) (now : DateTime) : Decidable (t.OutlastedBy now) :=
  inferInstanceAs (Decidable (if t.writer = .nowUtc then Db.Outlasts t.instant now else t.instant ≤ now))

theorem Timestamp.outlastedBy_iff {t : Timestamp} {now : DateTime} :
    t.OutlastedBy now ↔ ¬(nowIso now).text < t.text := by
  obtain ⟨d, writer⟩ := t
  cases writer with
  | nowUtc =>
    have texts := Timestamp.nowIso_text_lt_nowUtc_iff (d := d) (e := now)
    exact not_congr texts.symm
  | nowIso =>
    have texts := Timestamp.nowIso_text_lt_iff (d := now) (e := d)
    exact not_lt.symm.trans (not_congr texts.symm)

/-- A thread that is read with `front` as its first message, and lists nobody. -/
structure Db.Between (db : Db) (t : Uuid) (creator : String) (front : Message) : Prop where
  creator : ∃ row, db.thread? t = some row ∧ row.createdBy = creator
  front : (listMessages db t).head? = some front
  unlisted : ∀ p, db.recipient? t p = none

/-- Where a message request on such a thread may stand. -/
def PostMessage.Between (creator : String) (front : Message) (caller : String) : PostMessage → Prop
  | .start => True
  | .listing thread => thread.thread.createdBy = creator ∧ thread.messages.head? = some front
  | .drawing recipient | .appending recipient _ => Sends creator front.toParticipant caller recipient
  | .typing .. | .done (.ok _) => OneOfTwo creator front.toParticipant caller
  | .done (.error e) => e = notAParticipant ↔ ¬OneOfTwo creator front.toParticipant caller

/-- Where an ack request may stand: it is always on the path that closes. -/
def PostAck.Between (creator : String) (front : Message) (caller : String) : PostAck → Prop
  | .start => True
  | .listing thread => thread.thread.createdBy = creator ∧ thread.messages.head? = some front
  | .drawing path recipient | .appending path recipient _ =>
    path = .closing ∧ Sends creator front.toParticipant caller recipient
  | .stamping .. | .marking .. | .checking .. | .flipping .. => False
  | .done (.ok _) => OneOfTwo creator front.toParticipant caller
  | .done (.error e) => e = notAParticipant ↔ ¬OneOfTwo creator front.toParticipant caller

def Flight.Between (t : Uuid) (creator : String) (front : Message) : Flight → Prop
  | .postThread _ _ (.typing result _) | .postThread _ _ (.adding result ..) => result.id ≠ t
  | .postMessage u caller _ pc => u = t → pc.Between creator front caller.id
  | .postAck u caller _ pc => u = t → pc.Between creator front caller.id
  | _ => True

section Steps
variable {db db' : Db} {t : Uuid} {creator : String} {front : Message}

theorem Flight.Fresh.between {f : Flight} (fresh : f.Fresh) : f.Between t creator front := by
  cases fresh with
  | postMessage => exact fun _ => trivial
  | postAck => exact fun _ => trivial
  | _ => trivial

theorem Db.Between.read (between : db.Between t creator front) {thread : ThreadWithMessages}
    (read : getThreadWithMessages db t = some thread) :
    thread.thread.createdBy = creator ∧ thread.messages.head? = some front := by
  obtain ⟨row, found, rfl⟩ := Option.map_eq_some_iff.mp read
  obtain ⟨row', found', byCreator⟩ := between.creator
  cases Option.some.inj (found.symm.trans found')
  exact ⟨byCreator, between.front⟩

theorem Db.Between.nobody (between : db.Between t creator front) (p : String) :
    p ∉ (listRecipients db t).map RecipientRow.participantId := by
  intro member
  obtain ⟨r, listed⟩ := Db.mem_recipientsOf_iff_exists.mp member
  rw [between.unlisted] at listed
  cases listed

/-- The check lets in the two and nobody else, each with the other as recipient. -/
theorem Db.Between.resolve (between : db.Between t creator front) {thread : ThreadWithMessages}
    (read : thread.thread.createdBy = creator ∧ thread.messages.head? = some front) {caller recipient : String}
    (accepted : resolveParticipants thread caller ((listRecipients db t).map RecipientRow.participantId) =
      .ok recipient) : Sends creator front.toParticipant caller recipient := by
  have routed := resolveParticipants_route accepted read.1 (by rw [read.2, Option.map_some])
  obtain ⟨seed, rest, messages, outcome⟩ := resolveParticipants_ok_iff.mp accepted
  obtain ⟨rfl, first⟩ := read
  rw [messages, List.head?_cons, Option.some.injEq] at first
  subst first
  refine ⟨?_, routed⟩
  rcases outcome with ⟨isCreator, _⟩ | ⟨_, isPrimary | listed, _⟩
  · exact Or.inl isCreator
  · exact Or.inr isPrimary
  · exact absurd listed (between.nobody caller)

theorem resolveParticipants_forbids {thread : ThreadWithMessages} {caller : String} {extra : List String}
    {e : HTTPException} (read : thread.thread.createdBy = creator ∧ thread.messages.head? = some front)
    (refused : resolveParticipants thread caller extra = .error e) :
    e = notAParticipant ↔ ¬OneOfTwo creator front.toParticipant caller := by
  obtain ⟨rfl, first⟩ := read
  obtain ⟨rest, messages⟩ : ∃ rest, thread.messages = front :: rest := ⟨_, List.eq_cons_of_mem_head? first⟩
  refine iff_of_true (resolveParticipants_error refused (by rw [messages]; exact List.cons_ne_nil front rest)) ?_
  intro isEither
  have accepted : ∃ recipient, resolveParticipants thread caller extra = .ok recipient := by
    by_cases isCreator : caller = thread.thread.createdBy
    · exact ⟨_, resolveParticipants_ok_iff.mpr ⟨front, rest, messages, Or.inl ⟨isCreator, rfl⟩⟩⟩
    · have isPrimary := isEither.resolve_left isCreator
      exact ⟨_, resolveParticipants_ok_iff.mpr ⟨front, rest, messages, Or.inr ⟨isCreator, Or.inl isPrimary, rfl⟩⟩⟩
  obtain ⟨recipient, accepted⟩ := accepted
  rw [refused] at accepted
  cases accepted

theorem Db.Between.fails (between : db.Between t creator front) {caller : String} {e : HTTPException}
    (failed : db.thread? t = none ∨ e = internalServerError) (party : OneOfTwo creator front.toParticipant caller) :
    e = notAParticipant ↔ ¬OneOfTwo creator front.toParticipant caller := by
  obtain ⟨row, found, _⟩ := between.creator
  have internal : internalServerError ≠ notAParticipant := by decide
  rw [failed.resolve_left (by rw [found]; exact Option.some_ne_none row)]
  exact iff_of_false internal (not_not_intro party)

theorem Flight.Moves.between {f f' : Flight} (moves : Moves db f db' f') (between : db.Between t creator front)
    (here : f.Between t creator front) : f'.Between t creator front := by
  obtain ⟨row, found, _⟩ := between.creator
  have present : db.thread? t ≠ none := by
    rw [found]
    exact Option.some_ne_none row
  cases moves with
  | refused => trivial
  | postClaim => trivial
  | @postThread caller payload _ _ _ move =>
    have new : ∀ {d : Draw} {result : CreatedThread} {db' : Db},
        createThread db d.uuid d.uuid' d.now payload.subject caller.id payload.primary payload.body =
          .ok (result, db') → result.id ≠ t := by
      rintro d result db' ok rfl
      obtain ⟨rfl, created⟩ := createThread_ok ok
      exact present created.fresh
    cases move with
    | createsTyped _ ok => exact new ok
    | creates _ ok => exact new ok
    | types => exact here
    | adds => exact here
    | idle => exact here
    | _ => trivial
  | postMessage move =>
    rintro rfl
    have here := here rfl
    cases move with
    | idle => exact here
    | notFound absent => exact absurd absent present
    | reads read => exact between.read read
    | refused refused => exact resolveParticipants_forbids here refused
    | resolves accepted => exact between.resolve here accepted
    | draws => exact here
    | appendFails _ _ failed => exact between.fails failed here.1
    | appendsTyped => exact here.1
    | appends => exact here.1
    | types => exact here
  | postAck move =>
    rintro rfl
    have here := here rfl
    cases move with
    | idle => exact here
    | notFound absent => exact absurd absent present
    | reads read => exact between.read read
    | refused refused => exact resolveParticipants_forbids here refused
    | @resolves _ path _ accepted onPath =>
      refine ⟨?_, between.resolve here accepted⟩
      cases path with
      | recipient => exact absurd (onPath.mp rfl) (between.nobody _)
      | closing => rfl
    | draws => exact here
    | appendFails _ _ _ failed => exact between.fails failed here.2.1
    | inserts => cases here.1
    | closes => exact here.2.1
    | stamps => exact here.elim
    | marks => exact here.elim
    | completes => exact here.elim
    | leavesOpen => exact here.elim
    | flips => exact here.elim

end Steps

/-- How such a thread goes on: messages are added, an ack among them closes it, and
nobody is listed. -/
structure Db.GoesOn (db : Db) (t : Uuid) (new : List Message) (db' : Db) : Prop where
  messages : db'.messagesOf t = db.messagesOf t ++ new
  creator : db'.column ThreadRow.createdBy t = db.column ThreadRow.createdBy t
  closed : db'.column ThreadRow.status t = some .acked ↔
    db.column ThreadRow.status t = some .acked ∨ ∃ m ∈ new, m.kind = .ack
  recipients : ∀ p, db'.recipient? t p = db.recipient? t p

section Runs
variable {db db' db'' : Db} {t : Uuid} {creator : String} {front : Message}

theorem Db.SameThread.goesOn (same : db.SameThread t db') : db.GoesOn t [] db' where
  messages := by rw [same.messages, List.append_nil]
  creator := by rw [Db.column, Db.column, same.thread]
  closed := by rw [Db.column, Db.column, same.thread]; simp
  recipients := same.recipient?

theorem Db.GoesOn.trans {new new' : List Message} (first : db.GoesOn t new db') (second : db'.GoesOn t new' db'') :
    db.GoesOn t (new ++ new') db'' where
  messages := by rw [second.messages, first.messages, List.append_assoc]
  creator := second.creator.trans first.creator
  closed := by
    rw [second.closed, first.closed, or_assoc]
    simp only [List.mem_append, or_and_right, exists_or]
  recipients p := (second.recipients p).trans (first.recipients p)

/-- An update of the columns that neither say who created the thread nor close it. -/
theorem Db.goesOn_of_columns (messages : db'.messages = db.messages)
    (recipients : db'.threadRecipients = db.threadRecipients)
    (creator : db'.column ThreadRow.createdBy t = db.column ThreadRow.createdBy t)
    (status : db'.column ThreadRow.status t = db.column ThreadRow.status t) : db.GoesOn t [] db' where
  messages := by rw [Db.messagesOf_congr messages, List.append_nil]
  creator := creator
  closed := by rw [status]; simp
  recipients p := by rw [Db.recipient?, Db.recipient?, recipients]

theorem Appended.goesOn {set : ThreadRow → ThreadRow} {m : Message} (appended : Appended set db m db')
    (creator : ∀ row, (set row).createdBy = row.createdBy)
    (status : ∀ row, (set row).status = .acked ↔ row.status = .acked ∨ m.kind = .ack) :
    db.GoesOn m.threadId [m] db' := by
  obtain ⟨row, found⟩ := appended.parent
  have after : db'.thread? m.threadId = some (set row) := by
    rw [appended.threads, if_pos rfl, found, Option.map_some]
  refine ⟨?_, ?_, ?_, fun p => ?_⟩
  · rw [appended.messagesOf, if_pos rfl]
  · rw [Db.column, Db.column, after, found, Option.map_some, Option.map_some, creator]
  · rw [Db.column, Db.column, after, found, Option.map_some, Option.map_some, Option.some.injEq, Option.some.injEq,
      status]
    simp
  · rw [Db.recipient?, Db.recipient?, appended.recipients]

/-- What one request can do to such a thread. -/
theorem Flight.Commits.goesOn {f : Flight} (commits : Commits db f db') (between : db.Between t creator front)
    (here : f.Between t creator front) : ∃ new, db.GoesOn t new db' ∧ ∀ m ∈ new,
      f.writing = some m ∧ m.createdAt.writer = .nowIso ∧
        Sends creator front.toParticipant m.fromParticipant m.toParticipant := by
  have quiet : ∀ {db' : Db}, db.GoesOn t [] db' → ∃ new, db.GoesOn t new db' ∧ ∀ m ∈ new,
      f.writing = some m ∧ m.createdAt.writer = .nowIso ∧
        Sends creator front.toParticipant m.fromParticipant m.toParticipant :=
    fun goesOn => ⟨[], goesOn, fun _ member => nomatch member⟩
  cases commits with
  | nothing => exact quiet (Db.SameThread.refl t db).goesOn
  | opens writing created =>
    cases Option.some.inj writing
    obtain ⟨row, found, _⟩ := between.creator
    refine quiet (created.sameThread rfl ?_).goesOn
    rintro rfl
    rw [created.fresh] at found
    cases found
  | typesOpening => exact quiet (Db.sameThread_updateThread (Ne.symm here)).goesOn
  | adds added => exact quiet (addRecipient_sameThread added (Ne.symm here)).goesOn
  | types =>
    refine quiet (Db.goesOn_of_columns rfl rfl ?_ ?_)
    · refine Db.column_updateThread (fun row => ?_) t
      rfl
    · refine Db.column_updateThread (fun row => ?_) t
      rfl
  | claims => exact quiet (Db.goesOn_of_columns (setClaim_messages ..) (setClaim_recipients ..)
      (setClaim_column (fun _ _ => rfl) ..) (setClaim_column (fun _ _ => rfl) ..))
  | @posts u caller payload recipient d m _ writing appended =>
    by_cases same : t = m.threadId
    · subst same
      have sends := here (by cases writing; rfl)
      refine ⟨[m], appended.goesOn (fun _ => rfl) fun _ => ?_, ?_⟩
      · cases writing
        simp
      · rintro _ (_ | ⟨_, ⟨⟩⟩)
        refine ⟨writing, ?_⟩
        cases writing
        exact ⟨rfl, sends⟩
    · exact quiet (appended.sameThread same).goesOn
  | @inserts u caller payload recipient d m _ writing appended =>
    by_cases same : t = m.threadId
    · subst same
      cases (here (by cases writing; rfl)).1
    · exact quiet (appended.sameThread same).goesOn
  | @closes u caller payload recipient d m _ writing appended =>
    by_cases same : t = m.threadId
    · subst same
      have sends := (here (by cases writing; rfl)).2
      refine ⟨[m], appended.goesOn (fun _ => rfl) fun _ => ?_, ?_⟩
      · cases writing
        simp [PostAck.response]
      · rintro _ (_ | ⟨_, ⟨⟩⟩)
        refine ⟨writing, ?_⟩
        cases writing
        exact ⟨rfl, sends⟩
    · exact quiet (appended.sameThread same).goesOn
  | marks u =>
    by_cases same : u = t
    · exact (here same).elim
    · exact quiet (Db.sameThread_updateRecipient (Ne.symm same)).goesOn
  | flips u =>
    by_cases same : u = t
    · exact (here same).elim
    · exact quiet (Db.sameThread_updateThread (Ne.symm same)).goesOn

/-- A thread that goes on behind its first message. -/
theorem Db.Between.goesOn {new : List Message} (between : db.Between t creator front) (goesOn : db.GoesOn t new db')
    (behind : ∀ m ∈ new, createdNoLater front m) : db'.Between t creator front where
  creator := by
    obtain ⟨row, found, byCreator⟩ := between.creator
    have same := goesOn.creator
    rw [Db.column, Db.column, found, Option.map_some] at same
    obtain ⟨row', found', byCreator'⟩ := Option.map_eq_some_iff.mp same
    exact ⟨row', found', byCreator'.trans byCreator⟩
  front := by
    rw [listMessages, goesOn.messages]
    exact head?_orderBy_append createdNoLater between.front behind
  unlisted p := (goesOn.recipients p).trans (between.unlisted p)

/-- What has become of such a thread since `db`. -/
structure World.Continues (db : Db) (t : Uuid) (creator : String) (front : Message) (w : World) : Prop where
  log : ∃ new, db.GoesOn t new w.store ∧ ∀ m ∈ new, createdNoLater front m ∧
    Sends creator front.toParticipant m.fromParticipant m.toParticipant
  flights : ∀ f ∈ w.pool, f.Between t creator front

theorem World.Continues.between {w : World} (continues : w.Continues db t creator front)
    (between : db.Between t creator front) : w.store.Between t creator front := by
  obtain ⟨new, goesOn, sent⟩ := continues.log
  exact between.goesOn goesOn fun m member => (sent m member).1

theorem World.Continues.exec {w : World} (continues : w.Continues db t creator front)
    (between : db.Between t creator front) (e : Event Request Input)
    (behind : ∀ f ∈ w.pool, ∀ m, f.writing = some m → m.createdAt.writer = .nowIso → createdNoLater front m) :
    World.Continues db t creator front (server.exec w e) := by
  cases e with
  | arrive request =>
    refine ⟨continues.log, fun f member => ?_⟩
    rcases List.mem_append.mp member with old | new
    · exact continues.flights f old
    · rw [List.mem_singleton.mp new]
      exact request.receive_fresh.between
  | step i x =>
    cases at_i : w.pool[i]? with
    | none => rwa [server.exec_idle x at_i]
    | some f =>
      rw [server.exec_step x at_i]
      have inPool := List.mem_of_getElem? at_i
      have now := continues.between between
      obtain ⟨new, goesOn, sent⟩ := continues.log
      obtain ⟨more, goesOn', sent'⟩ := (f.step_commits x w.store).goesOn now (continues.flights f inPool)
      refine ⟨⟨new ++ more, goesOn.trans goesOn', fun m member => ?_⟩, fun g member => ?_⟩
      · rcases List.mem_append.mp member with old | isNew
        · exact sent m old
        · obtain ⟨writing, byReply, sends⟩ := sent' m isNew
          exact ⟨behind f inPool m writing byReply, sends⟩
      · rcases Machine.mem_pool_set member with rfl | old
        · exact (f.step_moves x w.store).between now (continues.flights f inPool)
        · exact continues.flights g old

/-- With readings that outlast the first message the thread goes on for good. -/
theorem World.Continues.run (between : db.Between t creator front) {es : List (Event Request Input)}
    (clock : ∀ now ∈ readings es, front.createdAt.OutlastedBy now) :
    World.Continues db t creator front (server.run ⟨db, []⟩ es) := by
  have start : World.Continues db t creator front ⟨db, []⟩ :=
    ⟨⟨[], (Db.SameThread.refl t db).goesOn, fun _ member => nomatch member⟩, fun _ member => nomatch member⟩
  refine server.run_history (H := fun w es => (∀ now ∈ readings es, front.createdAt.OutlastedBy now) →
    World.Continues db t creator front w) (fun _ => start) (fun es e ih later => ?_) es clock
  have clock : ∀ now ∈ readings es, front.createdAt.OutlastedBy now := by
    intro now member
    refine later now ?_
    rw [readings, List.filterMap_append]
    exact List.mem_append_left _ member
  refine (ih clock).exec between e fun f member m writing byReply => ?_
  have drawn : m.createdAt.instant ∈ readings es := by
    rcases (World.datedSince ⟨db, []⟩ es).held f member m writing with inRun | ⟨_, before, _⟩
    · exact inRun
    · cases before
  have time : m.createdAt = nowIso m.createdAt.instant := by rw [nowIso, ← byReply]
  rw [createdNoLater, time]
  exact Timestamp.outlastedBy_iff.mp (clock _ drawn)

end Runs

/-- The two are never forbidden to write, and others never get past the check. -/
theorem Flight.Between.screened {t : Uuid} {creator : String} {front : Message} {f : Flight}
    (between : f.Between t creator front) {caller : String} (writes : f.Writes t caller) :
    (OneOfTwo creator front.toParticipant caller → ¬f.Forbidden) ∧
      (¬OneOfTwo creator front.toParticipant caller → f.Unchecked ∨ f.Forbidden) := by
  cases f with
  | postMessage u p payload pc =>
    obtain ⟨rfl, rfl⟩ := writes
    have here := between rfl
    cases pc with
    | start => exact ⟨fun _ => id, fun _ => Or.inl trivial⟩
    | listing => exact ⟨fun _ => id, fun _ => Or.inl trivial⟩
    | drawing => exact ⟨fun _ => id, absurd here.1⟩
    | appending => exact ⟨fun _ => id, absurd here.1⟩
    | typing => exact ⟨fun _ => id, absurd here⟩
    | done answer =>
      cases answer with
      | error e => exact ⟨fun party forbidden => here.mp forbidden party, fun outside => Or.inr (here.mpr outside)⟩
      | ok => exact ⟨fun _ => id, absurd here⟩
  | postAck u p payload pc =>
    obtain ⟨rfl, rfl⟩ := writes
    have here := between rfl
    cases pc with
    | start => exact ⟨fun _ => id, fun _ => Or.inl trivial⟩
    | listing => exact ⟨fun _ => id, fun _ => Or.inl trivial⟩
    | drawing => exact ⟨fun _ => id, absurd here.2.1⟩
    | appending => exact ⟨fun _ => id, absurd here.2.1⟩
    | done answer =>
      cases answer with
      | error e => exact ⟨fun party forbidden => here.mp forbidden party, fun outside => Or.inr (here.mpr outside)⟩
      | ok => exact ⟨fun _ => id, absurd here⟩
    | _ => exact here.elim
  | _ => exact writes.elim

/-- The threads that v0.3 has left, in every life of the upgraded server, if the
readings of its clock outlast the first message of the thread. The thread stays one
between its creator and the recipient of that message: nobody is ever listed, each
message that is added goes from one of the two to the other, nobody else gets past the
check and the two are never refused there, and it is closed exactly if it was closed
before or one of the two has acked. -/
theorem old_threads_stay {db : Db} (old : db.Old) {es : List (Event Request Input)} {w : World}
    (life : server.Life Db.Restart ⟨db, []⟩ es w) {t : Uuid} {row : ThreadRow} {front : Message}
    (found : db.thread? t = some row) (first : (listMessages db t).head? = some front)
    (clock : ∀ now ∈ readings es, front.createdAt.OutlastedBy now) :
    let party := OneOfTwo row.createdBy front.toParticipant
    (∃ new, w.store.messagesOf t = db.messagesOf t ++ new ∧
      (∀ m ∈ new, party m.fromParticipant ∧
        m.toParticipant = route row.createdBy front.toParticipant m.fromParticipant) ∧
      (w.store.column ThreadRow.status t = some .acked ↔ row.status = .acked ∨ ∃ m ∈ new, m.kind = .ack)) ∧
    (∀ p, w.store.recipient? t p = none) ∧
    ∀ f ∈ w.pool, ∀ caller, f.Writes t caller →
      (party caller → ¬f.Forbidden) ∧ (¬party caller → f.Unchecked ∨ f.Forbidden) := by
  intro party
  have unlisted : ∀ p, db.recipient? t p = none := by
    intro p
    cases listed : db.recipient? t p with
    | none => rfl
    | some r =>
      have member := (Db.recipient?_spec listed).1
      rw [old.unlisted] at member
      cases member
  have between : db.Between t row.createdBy front := ⟨⟨row, found, rfl⟩, first, unlisted⟩
  obtain ⟨es', lost, same, noted⟩ := life.behind Db.Restart.eq []
  have times : readings es' = readings es := noted fun _ _ x => by cases x <;> rfl
  rw [← times] at clock
  have reached : server.run ⟨db, []⟩ es' = Machine.behind lost w := same
  have continues := World.Continues.run between clock
  rw [reached] at continues
  obtain ⟨new, goesOn, sent⟩ := continues.log
  have isOpen : db.column ThreadRow.status t = some .acked ↔ row.status = .acked := by
    rw [Db.column, found, Option.map_some, Option.some.injEq]
  refine ⟨⟨new, goesOn.messages, fun m member => (sent m member).2, ?_⟩, fun p => ?_, fun f member caller writes => ?_⟩
  · rw [← isOpen]
    exact goesOn.closed
  · exact (goesOn.recipients p).trans (unlisted p)
  · exact (continues.flights f (List.mem_append_right lost member)).screened writes

/-- The recipient of an old thread acks, and the thread is closed. -/
theorem old_threads_stay_of_ack :
    let db := (server.run World.init (.arrive (.postThread (some "a") ⟨some "b", [], "s", "hello", none, none⟩) ::
      .step 0 (.draw ⟨reading 0 1, "t", "m0"⟩) :: transactions 0 1)).store
    let w := server.run ⟨db, []⟩ (.arrive (.postAck "t" (some "b") none) :: transactions 0 2 ++
      .step 0 (.draw ⟨reading 1 0, "m1", ""⟩) :: transactions 0 1)
    w.store.column ThreadRow.status "t" = some .acked ∧ ∀ p, w.store.recipient? "t" p = none := by
  intro db w
  have old : db.Old := ⟨by decide, by decide, rfl⟩
  have life : server.Life Db.Restart ⟨db, []⟩ _ w := .run _ .start
  have found : db.thread? "t" = some ⟨"t", "s", "a", .opened, nowUtc (reading 0 1), nowUtc (reading 0 1), none,
    ⟨none, none, none⟩⟩ := rfl
  have first : (listMessages db "t").head? =
    some ⟨"m0", "t", "a", "b", "hello", .message, "\x7b\x7d", nowUtc (reading 0 1)⟩ := by decide
  obtain ⟨⟨new, messages, _, closed⟩, unlisted, _⟩ := old_threads_stay old life found first (by decide)
  have acked : ∃ m ∈ w.store.messagesOf "t", m.kind = .ack := by decide
  have before : ∀ m ∈ db.messagesOf "t", m.kind ≠ .ack := by decide
  refine ⟨closed.mpr (Or.inr ?_), unlisted⟩
  obtain ⟨m, member, isAck⟩ := acked
  rw [messages] at member
  exact ⟨m, (List.mem_append.mp member).resolve_left fun inOld => before m inOld isAck, isAck⟩

end PbChatroom
