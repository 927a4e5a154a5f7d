import PbChatroom.Lib.Alone
import PbChatroom.MessageLog

namespace PbChatroom
open Interleaving Relational

/-- The input a request waits for when it runs alone: `d` is what it draws for
its first row, `d'` what an ack draws for its mark. -/
def Flight.next (d d' : Draw) : Flight → Input
  | .postThread _ _ .start | .postMessage _ _ _ (.drawing _) | .postClaim _ _ _ .start | .postAck _ _ _ (.drawing ..) =>
    .draw d
  | .postAck _ _ _ (.stamping ..) => .draw d'
  | _ => .transaction

/-- The request is all or nothing: run alone on `db` it is answered, and each of
its transactions leaves the database as it was or as it is in the end. -/
def Flight.AllOrNothing (d d' : Draw) (db : Db) (f : Flight) : Prop :=
  server.Atomic (Flight.next d d') Flight.Finished db (db, f)

/-- Where a request that runs alone is stopped, the server may stand. -/
theorem stopped_reachable (es : List (Event Request Input)) (request : Request) (d d' : Draw) (n : Nat) :
    ∃ es', (server.run World.init (es ++ .arrive request :: es')).store =
      (server.drive (Flight.next d d') n ((server.run World.init es).store, request.receive)).1 := by
  have arrived : (server.exec (server.run World.init es) (.arrive request)).pool[
      (server.run World.init es).pool.length]? = some request.receive := List.getElem?_concat_length ..
  obtain ⟨es', after⟩ := server.run_drive (Flight.next d d') arrived n
  refine ⟨es', ?_⟩
  rw [server.run_append, server.run_cons, after]
  rfl

theorem finished_absorbing (x : Input) (db : Db) (f : Flight) (finished : f.Finished) :
    server.step x db f = (db, f) := by
  unfold Flight.Finished at finished
  split at finished
  · rfl
  · rfl
  · rfl
  · rfl
  · rfl
  · exact finished.elim

section NoOps

theorem updateThread_eq_iff {db : Db} {t : Uuid} {set : ThreadRow → ThreadRow} {keeps : ∀ row, (set row).id = row.id} :
    db.updateThread t set keeps = db ↔ ∀ row ∈ db.thread? t, set row = row := by
  constructor
  · intro same row found
    have after : (db.updateThread t set keeps).thread? t = some (set row) := by
      rw [Db.thread?_updateThread, if_pos rfl, found, Option.map_some]
    rw [same, found] at after
    exact (Option.some.inj after).symm
  · exact fun fixed => Db.ext (Table.update_of_fixed keeps fixed) rfl rfl

theorem setDiscussionType_eq_iff {db : Db} {t : Uuid} {discussionType : String} :
    setDiscussionType db t discussionType = db ↔ ∀ row ∈ db.thread? t, row.discussionType = some discussionType := by
  rw [setDiscussionType, updateThread_eq_iff]
  refine forall₂_congr fun row _ => ⟨fun same => ?_, fun same => ?_⟩
  · rw [← same]
  · rw [← same]

theorem updateThreadStatus_eq_iff {db : Db} {t : Uuid} {status : Status} :
    updateThreadStatus db t status = db ↔ ∀ row ∈ db.thread? t, row.status = status := by
  rw [updateThreadStatus, updateThread_eq_iff]
  refine forall₂_congr fun row _ => ⟨fun same => ?_, fun same => ?_⟩
  · rw [← same]
  · rw [← same]

theorem markRecipientAcked_eq_iff {db : Db} {t : Uuid} {p : String} {now : DateTime} :
    markRecipientAcked db t p now = db ↔ ∀ r ∈ db.recipient? t p, r.ackedAt = some (nowUtc now) := by
  constructor
  · intro same r found
    have after : (markRecipientAcked db t p now).recipient? t p = some { r with ackedAt := some (nowUtc now) } := by
      rw [markRecipientAcked, Db.recipient?_updateRecipient, if_pos rfl, found, Option.map_some]
    rw [same, found] at after
    rw [Option.some.inj after]
  · intro fixed
    have keeps : ∀ r : RecipientRow, RecipientRow.key { r with ackedAt := some (nowUtc now) } = r.key := fun _ => rfl
    exact Db.ext rfl rfl (Table.update_of_fixed keeps fun r found => by rw [← fixed r found])

theorem Appended.changes {set : ThreadRow → ThreadRow} {db db' : Db} {m : Message} (appended : Appended set db m db') :
    db' ≠ db := by
  rintro rfl
  have longer := congrArg List.length appended.messages
  rw [List.length_append, List.length_singleton] at longer
  omega

end NoOps

section Refusals

/-- The thread is not there or the participant check refuses the caller. -/
def Db.Refuses (db : Db) (t : Uuid) (caller : String) : Prop :=
  ∀ thread recipient, getThreadWithMessages db t = some thread →
    resolveParticipants thread caller ((listRecipients db t).map RecipientRow.participantId) ≠ .ok recipient

/-- The handlers of messages and acks begin alike: they write nothing until the
participant check has let the caller in. -/
theorem allOrNothing_checked {d d' : Draw} {db : Db} {t : Uuid} {caller : String} {start : Flight}
    (listing : ThreadWithMessages → Flight) (drawing appending : String → Flight) {rest : Prop}
    (absent : getThreadWithMessages db t = none → (server.step (start.next d d') db start).2.Finished)
    (reads : ∀ thread, getThreadWithMessages db t = some thread →
      server.step (start.next d d') db start = (db, listing thread))
    (refuses : ∀ thread e,
      resolveParticipants thread caller ((listRecipients db t).map RecipientRow.participantId) = .error e →
        (server.step ((listing thread).next d d') db (listing thread)).2.Finished)
    (passes : ∀ thread recipient,
      resolveParticipants thread caller ((listRecipients db t).map RecipientRow.participantId) = .ok recipient →
        server.step ((listing thread).next d d') db (listing thread) = (db, drawing recipient))
    (draws : ∀ recipient,
      server.step ((drawing recipient).next d d') db (drawing recipient) = (db, appending recipient))
    (appends : ∀ row recipient, db.thread? t = some row → (Flight.AllOrNothing d d' db (appending recipient) ↔ rest)) :
    Flight.AllOrNothing d d' db start ↔ db.Refuses t caller ∨ rest := by
  cases read : getThreadWithMessages db t with
  | none =>
    have last := absent read
    refine iff_of_true (Machine.atomic_of_last finished_absorbing last) (Or.inl fun thread recipient read' => ?_)
    rw [read] at read'
    cases read'
  | some thread =>
    rw [Flight.AllOrNothing, Machine.atomic_iff_of_changes finished_absorbing (reads thread read)]
    cases check : resolveParticipants thread caller ((listRecipients db t).map RecipientRow.participantId) with
    | error e =>
      have last := refuses thread e check
      refine iff_of_true (Machine.atomic_of_last finished_absorbing last) (Or.inl fun thread' r read' same => ?_)
      cases Option.some.inj (read.symm.trans read')
      rw [check] at same
      cases same
    | ok recipient =>
      obtain ⟨row, found, _⟩ := Option.map_eq_some_iff.mp read
      have accepted : ¬db.Refuses t caller := fun refuses => refuses thread recipient read check
      rw [Machine.atomic_iff_of_changes finished_absorbing (passes thread recipient check),
        Machine.atomic_iff_of_changes finished_absorbing (draws recipient), or_iff_right accepted]
      exact appends row recipient found

end Refusals

section Message
variable {d d' : Draw} {db : Db} {t : Uuid} {caller : Participant} {payload : MessageCreate}

/-- The second transaction of a message request must not change anything. -/
theorem allOrNothing_appending_message {recipient : String} {row : ThreadRow} (found : db.thread? t = some row)
    (free : ¬db.MessageIdTaken d.uuid) :
    Flight.AllOrNothing d d' db (.postMessage t caller payload (.appending recipient d)) ↔
      ¬truthy payload.discussionType ∨ ∀ row ∈ db.thread? t, row.discussionType = payload.discussionType := by
  obtain ⟨m, db', append⟩ : ∃ m db', appendMessage db d.uuid t d.now caller.id recipient payload.body = .ok (m, db') :=
    appendMessage_of_free found free
  obtain ⟨same, appended⟩ := appendMessage_ok append
  have inThread : t = m.threadId := by rw [same]
  by_cases typed : truthy payload.discussionType
  · obtain ⟨discussionType, given, nonempty⟩ := truthy_iff.mp typed
    have appends : server.step .transaction db (.postMessage t caller payload (.appending recipient d)) =
        (db', .postMessage t caller payload (.typing m discussionType)) := by
      simp only [server, Flight.step, PostMessage.step, append, given, ne_eq, nonempty, not_false_eq_true, if_true]
    have rest : (∀ row ∈ db'.thread? t, row.discussionType = some discussionType) ↔
        ∀ row ∈ db.thread? t, row.discussionType = payload.discussionType := by
      rw [appended.threads, if_pos inThread, given]
      simp [found]
    rw [or_iff_right (not_not_intro typed), ← rest, ← setDiscussionType_eq_iff, Flight.AllOrNothing,
      Machine.atomic_iff_of_changes finished_absorbing appends]
    exact Machine.atomic_iff_of_changed_last finished_absorbing appended.changes trivial
  · have last : (server.step .transaction db (.postMessage t caller payload (.appending recipient d))).2.Finished := by
      simp only [server, Flight.step, PostMessage.step, append]
      split
      · trivial
      · rename_i discussionType given
        rw [if_neg (by simpa [given, truthy] using typed)]
        trivial
    exact iff_of_true (Machine.atomic_of_last finished_absorbing last) (Or.inl typed)

theorem allOrNothing_message :
    Flight.AllOrNothing d d' db (.postMessage t caller payload .start) ↔ db.Refuses t caller.id ∨
      db.MessageIdTaken d.uuid ∨ ¬truthy payload.discussionType ∨
        ∀ row ∈ db.thread? t, row.discussionType = payload.discussionType := by
  refine allOrNothing_checked (fun thread => .postMessage t caller payload (.listing thread))
    (fun recipient => .postMessage t caller payload (.drawing recipient))
    (fun recipient => .postMessage t caller payload (.appending recipient d)) ?_ ?_ ?_ ?_ ?_ ?_
  · intro absent
    simp only [Flight.next, server, Flight.step, PostMessage.step, absent]
    trivial
  · intro thread read
    simp only [Flight.next, server, Flight.step, PostMessage.step, read]
  · intro thread e check
    simp only [Flight.next, server, Flight.step, PostMessage.step, check]
    trivial
  · intro thread recipient check
    simp only [Flight.next, server, Flight.step, PostMessage.step, check]
  · exact fun recipient => rfl
  · intro row recipient found
    by_cases taken : db.MessageIdTaken d.uuid
    · have last :
          (server.step .transaction db (.postMessage t caller payload (.appending recipient d))).2.Finished := by
        simp only [server, Flight.step, PostMessage.step, appendMessage, found, (insertMsg_eq_none_iff found).mpr taken]
        trivial
      exact iff_of_true (Machine.atomic_of_last finished_absorbing last) (Or.inl taken)
    · rw [or_iff_right taken]
      exact allOrNothing_appending_message found taken

end Message

section Ack
variable {d d' : Draw} {db : Db} {t : Uuid} {caller : Participant} {body : Option MessageCreate}

/-- The steps of an ack behind its mark: the status is written if all have acked. -/
theorem step_checking (s : Db) (recipient : String) :
    server.step .transaction s (.postAck t caller body (.checking recipient d)) =
      (s, .postAck t caller body (if allRecipientsAcked s t then .flipping recipient d
        else .done (.ok (PostAck.response t caller.id recipient (PostAck.body body) d)))) := by
  simp only [server, Flight.step, PostAck.step]
  split <;> rfl

theorem ends_checking (s r : Db) (recipient : String) :
    server.Ends (Flight.next d d') Flight.Finished (s, .postAck t caller body (.checking recipient d)) r ↔
      (if allRecipientsAcked s t then updateThreadStatus s t .acked else s) = r := by
  have done : ∀ s : Db, server.Ends (Flight.next d d') Flight.Finished (s, .postAck t caller body
      (.done (.ok (PostAck.response t caller.id recipient (PostAck.body body) d)))) r ↔ s = r :=
    fun s => Machine.ends_of_finished (c := (s, .postAck t caller body (.done (.ok _)))) finished_absorbing trivial
  have flips : server.step .transaction s (.postAck t caller body (.flipping recipient d)) =
      (updateThreadStatus s t .acked,
        .postAck t caller body (.done (.ok (PostAck.response t caller.id recipient (PostAck.body body) d)))) := rfl
  rw [Machine.ends_iff_of_step (p := .postAck t caller body (.checking recipient d)) finished_absorbing
    (step_checking s recipient)]
  split
  · rw [Machine.ends_iff_of_step (p := .postAck t caller body (.flipping recipient d)) finished_absorbing flips, done]
  · exact done s

theorem atomic_checking {s : Db} (changed : s ≠ db) (recipient : String) :
    server.Atomic (Flight.next d d') Flight.Finished db (s, .postAck t caller body (.checking recipient d)) ↔
      (allRecipientsAcked s t → updateThreadStatus s t .acked = s) := by
  have rest : server.Ends (Flight.next d d') Flight.Finished (s, .postAck t caller body (.checking recipient d)) s ↔
      (if allRecipientsAcked s t then updateThreadStatus s t .acked else s) = s := ends_checking s s recipient
  rw [Machine.ends_iff_of_step (p := .postAck t caller body (.checking recipient d)) finished_absorbing
    (step_checking s recipient)] at rest
  rw [Machine.atomic_iff_of_changed finished_absorbing changed (step_checking s recipient), rest]
  by_cases all : allRecipientsAcked s t
  · have last :
        server.Atomic (Flight.next d d') Flight.Finished db (s, .postAck t caller body (.flipping recipient d)) ↔
          updateThreadStatus s t .acked = s := Machine.atomic_iff_of_changed_last finished_absorbing changed trivial
    rw [if_pos all, if_pos all, last, and_self, forall_prop_of_true all]
  · rw [if_neg all, if_neg all]
    exact iff_of_true ⟨Machine.atomic_of_finished finished_absorbing trivial, rfl⟩ fun all' => absurd all' all

/-- Behind the ack row neither the mark nor the status may change anything. -/
theorem allOrNothing_stamping {db' : Db} {recipient : String} (changed : db'.messages.rows ≠ db.messages.rows) :
    server.Atomic (Flight.next d d') Flight.Finished db (db', .postAck t caller body (.stamping recipient d)) ↔
      markRecipientAcked db' t caller.id d'.now = db' ∧
        (allRecipientsAcked db' t → updateThreadStatus db' t .acked = db') := by
  have appended : db' ≠ db := by
    rintro rfl
    exact changed rfl
  have marked : markRecipientAcked db' t caller.id d'.now ≠ db := by
    intro same
    have messages : (markRecipientAcked db' t caller.id d'.now).messages = db'.messages := rfl
    rw [same] at messages
    exact changed (congrArg Table.rows messages).symm
  have marks : server.step .transaction db' (.postAck t caller body (.marking recipient d d'.now)) =
      (markRecipientAcked db' t caller.id d'.now, .postAck t caller body (.checking recipient d)) := rfl
  have stamps : server.step (.draw d') db' (.postAck t caller body (.stamping recipient d)) =
      (db', .postAck t caller body (.marking recipient d d'.now)) := rfl
  rw [Machine.atomic_iff_of_changed finished_absorbing appended stamps,
    Machine.atomic_iff_of_changed finished_absorbing appended marks,
    Machine.ends_iff_of_step (p := .postAck t caller body (.marking recipient d d'.now)) finished_absorbing marks,
    and_iff_left_of_imp And.right, atomic_checking marked, ends_checking]
  constructor
  · rintro ⟨unflipped, same⟩
    have unmarked : markRecipientAcked db' t caller.id d'.now = db' := by
      split at same
      · rename_i all
        exact (unflipped all).symm.trans same
      · exact same
    exact ⟨unmarked, unmarked ▸ unflipped⟩
  · rintro ⟨unmarked, unflipped⟩
    rw [unmarked]
    refine ⟨unflipped, ?_⟩
    split
    · exact unflipped (by assumption)
    · rfl

/-- The inlined transaction of a recipient's ack is followed by more, and none of
it may change anything. -/
theorem allOrNothing_appending_ack {recipient : String} {row : ThreadRow} (found : db.thread? t = some row)
    (free : ¬db.MessageIdTaken d.uuid) :
    Flight.AllOrNothing d d' db (.postAck t caller body (.appending .recipient recipient d)) ↔
      (∀ r ∈ db.recipient? t caller.id, r.ackedAt = some (nowUtc d'.now)) ∧
        (allRecipientsAcked db t → ∀ row ∈ db.thread? t, row.status = .acked) := by
  obtain ⟨db', insert⟩ : ∃ db', PostAck.insertAck db t caller.id recipient (PostAck.body body) d = .ok db' :=
    PostAck.insertAck_of_free found free
  have appended := PostAck.insertAck_ok insert
  have inserts : server.step .transaction db (.postAck t caller body (.appending .recipient recipient d)) =
      (db', .postAck t caller body (.stamping recipient d)) := by
    simp only [server, Flight.step, PostAck.step, insert]
  have changed : db'.messages.rows ≠ db.messages.rows := by
    intro same
    have longer := congrArg List.length (same.symm.trans appended.messages)
    rw [List.length_append, List.length_singleton] at longer
    omega
  have recipients : db'.recipient? t caller.id = db.recipient? t caller.id := by
    rw [Db.recipient?, Db.recipient?, appended.recipients]
  have sameVerdict : allRecipientsAcked db' t = allRecipientsAcked db t := by
    rw [allRecipientsAcked, allRecipientsAcked, appended.recipients]
  have status : (∀ row ∈ db'.thread? t, row.status = .acked) ↔ ∀ row ∈ db.thread? t, row.status = .acked := by
    have inThread : t = (PostAck.response t caller.id recipient (PostAck.body body) d).threadId := rfl
    rw [appended.threads, if_pos inThread]
    simp [found]
  rw [Flight.AllOrNothing, Machine.atomic_iff_of_changes finished_absorbing inserts, allOrNothing_stamping changed,
    markRecipientAcked_eq_iff, updateThreadStatus_eq_iff, recipients, sameVerdict, status]

theorem allOrNothing_ack :
    Flight.AllOrNothing d d' db (.postAck t caller body .start) ↔ db.Refuses t caller.id ∨
      db.MessageIdTaken d.uuid ∨ ∀ r ∈ db.recipient? t caller.id, r.ackedAt = some (nowUtc d'.now) ∧
        (allRecipientsAcked db t → ∀ row ∈ db.thread? t, row.status = .acked) := by
  let path : AckPath :=
    if caller.id ∈ (listRecipients db t).map RecipientRow.participantId then .recipient else .closing
  refine allOrNothing_checked (fun thread => .postAck t caller body (.listing thread))
    (fun recipient => .postAck t caller body (.drawing path recipient))
    (fun recipient => .postAck t caller body (.appending path recipient d)) ?_ ?_ ?_ ?_ ?_ ?_
  · intro absent
    simp only [Flight.next, server, Flight.step, PostAck.step, absent]
    trivial
  · intro thread read
    simp only [Flight.next, server, Flight.step, PostAck.step, read]
  · intro thread e check
    simp only [Flight.next, server, Flight.step, PostAck.step, check]
    trivial
  · intro thread recipient check
    simp only [Flight.next, server, Flight.step, PostAck.step, check, path]
  · exact fun recipient => rfl
  · intro row recipient found
    by_cases listed : caller.id ∈ (listRecipients db t).map RecipientRow.participantId
    · rw [show path = .recipient from if_pos listed]
      by_cases taken : db.MessageIdTaken d.uuid
      · have last :
            (server.step .transaction db (.postAck t caller body (.appending .recipient recipient d))).2.Finished := by
          simp only [server, Flight.step, PostAck.step, PostAck.insertAck, found,
            (insertMsg_eq_none_iff found).mpr taken]
          trivial
        exact iff_of_true (Machine.atomic_of_last finished_absorbing last) (Or.inl taken)
      · obtain ⟨r, atCaller⟩ := Db.mem_recipientsOf_iff_exists.mp listed
        rw [or_iff_right taken]
        refine (allOrNothing_appending_ack found taken).trans ?_
        simp only [atCaller, Option.mem_def, Option.some.injEq, forall_eq']
    · rw [show path = .closing from if_neg listed]
      have last :
          (server.step .transaction db (.postAck t caller body (.appending .closing recipient d))).2.Finished := by
        simp only [server, Flight.step, PostAck.step]
        split <;> trivial
      refine iff_of_true (Machine.atomic_of_last finished_absorbing last) (Or.inr fun r atCaller => ?_)
      exact absurd (Db.mem_recipientsOf_iff_exists.mpr ⟨r, atCaller⟩) listed

end Ack

section Thread
variable {d d' : Draw} {db : Db} {caller : Participant} {payload : ThreadCreate}

/-- From its first transaction on, a creating request leaves a database that has
the primary recipient of the thread only in the end. -/
theorem ends_creating (sound : db.Sound) {f : Flight} {t : Uuid} (placed : f.Placed db) (built : f.Built db)
    (creates : f.creates = some t) {after : Db}
    (ends : server.Ends (Flight.next d d') Flight.Finished (db, f) after) :
    ∃ p r, after.recipient? t p = some r := by
  obtain ⟨n, finished, rfl⟩ := ends
  induction n generalizing db f with
  | zero =>
    unfold Flight.creates at creates
    split at creates
    · exact finished.elim
    · exact finished.elim
    · cases creates
      exact ⟨_, (built _).mpr (List.mem_cons_self ..)⟩
    · cases creates
  | succ n ih =>
    have moves := f.step_moves (f.next d d') db
    obtain ⟨sound', placed'⟩ := moves.keeps sound placed
    exact ih sound' placed' (moves.built built) (moves.creates_stays placed creates) finished

theorem createThread_of_taken {threadId msgId : Uuid} {now : DateTime} {subject createdBy toParticipant text : String}
    (taken : (db.thread? threadId).isSome ∨ db.MessageIdTaken msgId) :
    ∃ e, createThread db threadId msgId now subject createdBy toParticipant text = .error e := by
  cases outcome : createThread db threadId msgId now subject createdBy toParticipant text with
  | error e => exact ⟨e, rfl⟩
  | ok created =>
    obtain ⟨result, db'⟩ := created
    obtain ⟨_, creates⟩ := createThread_ok outcome
    rcases taken with thread | message
    · rw [creates.fresh] at thread
      cases thread
    · exact absurd message (Db.free_of_added creates.messages)

theorem createThread_of_free {threadId msgId : Uuid} {now : DateTime} {subject createdBy toParticipant text : String}
    (thread : ¬(db.thread? threadId).isSome) (message : ¬db.MessageIdTaken msgId) :
    ∃ result db', createThread db threadId msgId now subject createdBy toParticipant text = .ok (result, db') := by
  unfold createThread
  dsimp only
  split
  · rename_i failed
    obtain ⟨old, found⟩ := Db.insertThread?_eq_none_iff.mp failed
    exact absurd (Option.isSome_iff_exists.mpr ⟨old, found⟩) thread
  · rename_i middle inserted
    obtain ⟨threads, messages, _⟩ := Db.insertThread?_eq_some inserted
    split
    · rename_i failed
      have parent : middle.thread? threadId = some _ :=
        (Table.get?_of_insert? threads threadId).trans (if_pos rfl)
      have taken := (Db.insertMessage?_eq_none_iff _ parent).mp failed
      rw [Db.MessageIdTaken, messages] at taken
      exact absurd taken message
    · exact ⟨_, _, rfl⟩

/-- What a creating request leaves behind when it is stopped after its first
transaction is neither what was there nor what it leaves in the end. -/
theorem not_atomic_created {db' : Db} {f : Flight} (placed : f.Placed db') (built : f.Built db')
    {row : ThreadRow} {seed : Message} (creates : f.creates = some row.id) (created : Created db row seed db')
    (sound' : db'.Sound) : ¬server.Atomic (Flight.next d d') Flight.Finished db (db', f) := by
  rintro ⟨after, ends, all⟩
  rcases all 0 with same | same
  · have found : db'.thread? row.id = some row := (created.threads row.id).trans (if_pos rfl)
    have unchanged : db' = db := same
    rw [unchanged, created.fresh] at found
    cases found
  · obtain ⟨p, r, listed⟩ := ends_creating sound' placed built creates ends
    have complete : db' = after := same
    rw [← complete, Db.recipient?, created.recipients] at listed
    have unlisted := Db.recipient?_eq_none created.fresh p
    rw [Db.recipient?, listed] at unlisted
    cases unlisted

theorem allOrNothing_thread (sound : db.Sound) :
    Flight.AllOrNothing d d' db (.postThread caller payload .start) ↔
      (db.thread? d.uuid).isSome ∨ db.MessageIdTaken d.uuid' := by
  have draws : server.step (.draw d) db (.postThread caller payload .start) =
      (db, .postThread caller payload (.creating d)) := rfl
  rw [Flight.AllOrNothing, Machine.atomic_iff_of_changes finished_absorbing draws]
  by_cases taken : (db.thread? d.uuid).isSome ∨ db.MessageIdTaken d.uuid'
  · obtain ⟨e, failed⟩ : ∃ e, createThread db d.uuid d.uuid' d.now payload.subject caller.id payload.primary
        payload.body = .error e := createThread_of_taken taken
    have last : (server.step .transaction db (.postThread caller payload (.creating d))).2.Finished := by
      simp only [server, Flight.step, PostThread.step, failed]
      trivial
    exact iff_of_true (Machine.atomic_of_last finished_absorbing last) taken
  · obtain ⟨thread, message⟩ := not_or.mp taken
    obtain ⟨result, db', create⟩ : ∃ result db', createThread db d.uuid d.uuid' d.now payload.subject caller.id
        payload.primary payload.body = .ok (result, db') := createThread_of_free thread message
    obtain ⟨rfl, created⟩ := createThread_ok create
    have moves := (Flight.postThread caller payload (.creating d)).step_moves .transaction db
    have left : (server.step .transaction db (.postThread caller payload (.creating d))).1 = db' := by
      simp only [server, Flight.step, PostThread.step, create]
      split
      · rfl
      · split <;> rfl
    obtain ⟨sound', placed⟩ := moves.keeps sound trivial
    have built := moves.built trivial
    have creates := moves.creates_new
    obtain ⟨f, step⟩ : ∃ f, server.step .transaction db (.postThread caller payload (.creating d)) = (db', f) :=
      ⟨_, Prod.ext left rfl⟩
    have after : (Flight.postThread caller payload (.creating d)).step .transaction db = (db', f) := step
    rw [after] at sound' placed built creates
    dsimp only at sound' placed built creates
    have owns : f.creates = some d.uuid := by
      refine creates.resolve_left fun same => ?_
      have found := (created.threads d.uuid).trans (if_pos rfl)
      rw [same, created.fresh] at found
      cases found
    rw [Machine.atomic_iff_of_changes finished_absorbing step]
    exact iff_of_false (not_atomic_created placed built owns created sound') taken

end Thread

theorem allOrNothing_claim {d d' : Draw} {db : Db} {t : Uuid} {caller : Participant} {payload : ClaimRequest} :
    Flight.AllOrNothing d d' db (.postClaim t caller payload .start) := by
  have draws : server.step (.draw d) db (.postClaim t caller payload .start) =
      (db, .postClaim t caller payload (.claiming d.now)) := rfl
  rw [Flight.AllOrNothing, Machine.atomic_iff_of_changes finished_absorbing draws]
  exact Machine.atomic_of_last finished_absorbing trivial

/-- When a request is all or nothing: it does not get as far as its first row, or
nothing that it does behind that row changes anything. -/
def Flight.Indivisible (d d' : Draw) (db : Db) : Flight → Prop
  | .refused .. | .postClaim .. => True
  | .postThread _ _ _ => (db.thread? d.uuid).isSome ∨ db.MessageIdTaken d.uuid'
  | .postMessage t caller payload _ => db.Refuses t caller.id ∨ db.MessageIdTaken d.uuid ∨
    ¬truthy payload.discussionType ∨ ∀ row ∈ db.thread? t, row.discussionType = payload.discussionType
  | .postAck t caller _ _ => db.Refuses t caller.id ∨ db.MessageIdTaken d.uuid ∨
    ∀ r ∈ db.recipient? t caller.id, r.ackedAt = some (nowUtc d'.now) ∧
      (allRecipientsAcked db t → ∀ row ∈ db.thread? t, row.status = .acked)

/-- Whatever a reachable database holds, a request is all or nothing only where
it has no second transaction that changes something: a creating request that is
accepted never is, a message is as long as it brings no new discussion_type, and
an ack is as long as its caller is not among the recipients. -/
theorem all_or_nothing_iff (es : List (Event Request Input)) (request : Request) (d d' : Draw) :
    let db := (server.run World.init es).store
    request.receive.AllOrNothing d d' db ↔ request.receive.Indivisible d d' db := by
  intro db
  have sound : db.Sound := (World.Sound.reachable es).1
  generalize received : request.receive = f
  have fresh : f.Fresh := received ▸ request.receive_fresh
  cases fresh with
  | refused request' answer => exact iff_of_true (Machine.atomic_of_finished finished_absorbing trivial) trivial
  | postThread => exact allOrNothing_thread sound
  | postMessage => exact allOrNothing_message
  | postClaim => exact iff_of_true allOrNothing_claim trivial
  | postAck => exact allOrNothing_ack

/-- A creating request that is stopped after `create_thread` leaves a thread
without its recipient. -/
theorem creation_not_all_or_nothing :
    ¬(Request.postThread (some "a") ⟨some "b", [], "s", "hello", none, none⟩).receive.AllOrNothing
      ⟨reading 0 1, "t", "m0"⟩ ⟨reading 0 2, "", ""⟩ (server.run World.init []).store := by
  intro whole
  have taken := (allOrNothing_thread Db.Sound.empty).mp whole
  rcases taken with thread | message
  · cases thread
  · cases message

end PbChatroom
