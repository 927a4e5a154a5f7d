import PbChatroom.Dashboard

namespace PbChatroom
open Interleaving Relational

/-- What an accepted ack of `p` makes of the thread, whether `p` is a recipient or not. -/
structure Db.Acks (db : Db) (t : Uuid) (p : String) (db' : Db) : Prop where
  others : ∀ q, q ≠ p → db'.recipient? t q = db.recipient? t q
  marked : ∀ r ∈ db.recipient? t p, ∃ r' ∈ db'.recipient? t p, r'.ackedAt.isSome
  status : (db'.thread? t).map ThreadRow.status = some .acked ↔
    (db.thread? t).map ThreadRow.status = some .acked ∨ db.recipient? t p = none ∨
      ∀ q r, db.recipient? t q = some r → q ≠ p → r.ackedAt.isSome

section Calls
variable {db db' : Db} {t : Uuid} {d : Draw}

theorem Db.AckedBy.acks {p : String} {m : Message} {now : DateTime} (acked : db.AckedBy t p m now db')
    {row : ThreadRow} (found : db.thread? t = some row) {r : RecipientRow} (listed : db.recipient? t p = some r) :
    db.Acks t p db' := by
  obtain ⟨row', found', _, status⟩ := acked.status row found
  refine ⟨fun q other => ?_, fun r' here => ?_, ?_⟩
  · rw [acked.recipients, if_neg fun same => other (congrArg Prod.snd same)]
  · refine ⟨{ r' with ackedAt := some (nowUtc now) }, ?_, rfl⟩
    rw [acked.recipients, if_pos rfl, here]
    rfl
  · rw [found', found, listed, Option.map_some, Option.map_some, Option.some.injEq, Option.some.injEq, status]
    simp

/-- The ack of someone who is no recipient closes the thread at once. -/
theorem Appended.acks {p : String} {m : Message} {time : Timestamp} (inThread : m.threadId = t)
    (appended : Appended (fun row => { row with status := .acked, lastMessageAt := time }) db m db')
    (unlisted : db.recipient? t p = none) : db.Acks t p db' := by
  have same : ∀ q, db'.recipient? t q = db.recipient? t q := by
    intro q
    rw [Db.recipient?, Db.recipient?, appended.recipients]
  obtain ⟨row, found⟩ := appended.parent
  rw [inThread] at found
  refine ⟨fun q _ => same q, fun r here => ?_, ?_⟩
  · rw [unlisted] at here
    cases here
  · refine iff_of_true ?_ (Or.inr (Or.inl unlisted))
    rw [appended.threads, if_pos inThread.symm, found]
    rfl

/-- Whoever the check lets in acks. -/
theorem PostAck.call_acks {caller : Participant} (payload : Option MessageCreate) (d' : Draw)
    {thread : ThreadWithMessages} {recipient : String} (read : getThreadWithMessages db t = some thread)
    (check : resolveParticipants thread caller.id ((listRecipients db t).map RecipientRow.participantId) =
      .ok recipient) (free : ¬db.MessageIdTaken d.uuid) :
    ∃ m, (call t caller payload d d' db).2 = .ok m ∧ m.fromParticipant = caller.id ∧
      db.Acks t caller.id (call t caller payload d d' db).1 := by
  obtain ⟨row, found, _⟩ := Option.map_eq_some_iff.mp read
  cases listed : db.recipient? t caller.id with
  | some r =>
    obtain ⟨db', called, acked⟩ := call_of_listed payload d' read check listed free
    rw [called]
    exact ⟨_, rfl, rfl, acked.acks found listed⟩
  | none =>
    have outside : caller.id ∉ (listRecipients db t).map RecipientRow.participantId := by
      intro member
      obtain ⟨r, here⟩ := Db.mem_recipientsOf_iff_exists.mp member
      rw [listed] at here
      cases here
    obtain ⟨m, db', append⟩ : ∃ m db', appendAck db d.uuid t d.now caller.id recipient (body payload) = .ok (m, db') :=
      appendAck_of_free found free
    have called : call t caller payload d d' db = (db', .ok m) := by
      rw [call, read]
      dsimp only
      rw [check]
      dsimp only
      rw [if_neg outside, append]
    obtain ⟨isRow, appended⟩ := appendAck_ok append
    rw [called]
    exact ⟨m, rfl, by rw [isRow], appended.acks (by rw [isRow]) listed⟩

end Calls

/-- The ack button of a page is for the creator or for the primary recipient. -/
theorem ackButton_addressee {db : Db} (sound : db.Sound) {t : Uuid} {p : String}
    (button : (threadDetail db t).bind DetailPage.ackButton = some p) : db.Addressee t p := by
  obtain ⟨page, shown, onPage⟩ := Option.bind_eq_some_iff.mp button
  obtain ⟨data, read, rfl⟩ := Option.map_eq_some_iff.mp shown
  obtain ⟨row, _, rfl⟩ := Option.map_eq_some_iff.mp read
  unfold DetailPage.ackButton at onPage
  split at onPage
  · obtain ⟨front, atFront, rfl⟩ := Option.map_eq_some_iff.mp onPage
    have shownFront : front ∈ orderBy createdNoLater (db.messagesOf t) := List.mem_of_mem_head? atFront
    obtain ⟨stored, rfl⟩ := Db.mem_messagesOf.mp ((mem_orderBy createdNoLater).mp shownFront)
    exact sound.addressed front stored
  · cases onPage

/-- The creator and the recipients of a thread are let in. -/
theorem Db.Sound.admits {db : Db} (sound : db.Sound) {t : Uuid} {creator primary p : String}
    (opened : db.OpenedFor t creator primary) (isParty : p = creator ∨ ∃ r, db.recipient? t p = some r) :
    ∃ thread recipient, getThreadWithMessages db t = some thread ∧
      resolveParticipants thread p ((listRecipients db t).map RecipientRow.participantId) = .ok recipient := by
  obtain ⟨row, _, found, _, byCreator, _⟩ := opened
  have read := congrArg (Option.map fun thread => (⟨thread, orderBy createdNoLater (db.messagesOf t),
    (db.recipientsOf t).map RecipientRow.participantId⟩ : ThreadWithMessages)) found
  obtain ⟨seed, rest, sorted⟩ := List.exists_cons_of_ne_nil fun empty =>
    (sound.answerable found).2 ((orderBy_eq_nil_iff createdNoLater).mp empty)
  by_cases isCreator : p = row.createdBy
  · exact ⟨_, _, read, resolveParticipants_ok_iff.mpr ⟨seed, rest, sorted, Or.inl ⟨isCreator, rfl⟩⟩⟩
  · have listed : p ∈ (listRecipients db t).map RecipientRow.participantId :=
      Db.mem_recipientsOf_iff_exists.mpr (isParty.resolve_left fun same => isCreator (same.trans byCreator.symm))
    exact ⟨_, _, read, resolveParticipants_ok_iff.mpr ⟨seed, rest, sorted, Or.inr ⟨isCreator, Or.inr listed, rfl⟩⟩⟩

/-- Someone who is let in and whose id is sent as it is acks with a click. -/
theorem Db.Sound.click_acks {db : Db} (sound : db.Sound) {t : Uuid} {creator primary : String} {q : Participant}
    {d d' : Draw} (asIs : headerValue q.id = q.id) (opened : db.OpenedFor t creator primary)
    (isParty : q.id = creator ∨ ∃ r, db.recipient? t q.id = some r) (free : ¬db.MessageIdTaken d.uuid) :
    ∃ payload m, ((ackThread t q.id).receive.serve d d' db).2 = .postAck t q payload (.done (.ok m)) ∧
      m.fromParticipant = q.id ∧ db.Acks t q.id ((ackThread t q.id).receive.serve d d' db).1 := by
  obtain ⟨thread, recipient, read, check⟩ := sound.admits opened isParty
  obtain ⟨m, answer, isFrom, acks⟩ :=
    PostAck.call_acks (some ⟨⟨"Acked from dashboard", none⟩, by decide, by decide⟩) d' read check free
  have receives : (ackThread t q.id).receive =
      .postAck t q (some ⟨⟨"Acked from dashboard", none⟩, by decide, by decide⟩) .start := by
    rw [ackThread, asIs, Request.receive, resolveParticipant_id]
    rfl
  rw [receives, serve_ack, answer]
  exact ⟨_, m, rfl, isFrom, acks⟩

/-- An ack of whom the button names is only accepted if the name is an id that is sent as it is. -/
theorem ackThread_asIs {db : Db} {t : Uuid} {ackAs : String} {d d' : Draw} {caller : Participant}
    {payload : Option MessageCreate} {m : Message}
    (answer : ((ackThread t ackAs).receive.serve d d' db).2 = .postAck t caller payload (.done (.ok m)))
    (isFrom : m.fromParticipant = ackAs) : headerValue ackAs = ackAs ∧ ∃ q : Participant, q.id = ackAs := by
  have asIs : headerValue ackAs = ackAs := (ackThread_from answer).symm.trans isFrom
  cases check : resolveParticipant (some (headerValue ackAs)) with
  | ok sender => exact ⟨asIs, sender, (Option.some.inj (resolveParticipant_header check)).symm.trans asIs⟩
  | error e =>
    have refused : (ackThread t ackAs).receive = .refused (ackThread t ackAs) e := by
      rw [ackThread, Request.receive, check]
      rfl
    rw [refused, serve_refused] at answer
    cases answer

/-- A page that was loaded a while ago, whatever has happened to its thread since. A
click on the ack button that it shows is accepted as an ack of the participant named
there exactly if that is an id which fetch sends as it is. Then it marks nobody else,
and leaves the thread closed exactly if it was closed, if all other recipients had
acked, or if the button names the creator, who is no recipient. -/
theorem ack_button_later {es es' : List (Event Request Input)} {i : Nat} {creator : Participant}
    {payload : ThreadCreate} {created : CreatedThread} {p : String} {d d' : Draw}
    (answered : (server.run World.init es).pool[i]? = some (.postThread creator payload (.done (.ok created))))
    (button : (threadDetail (server.run World.init es).store created.id).bind DetailPage.ackButton = some p)
    (free : ¬(server.run (server.run World.init es) es').store.MessageIdTaken d.uuid) :
    let db := (server.run (server.run World.init es) es').store
    let served := (ackThread created.id p).receive.serve d d' db
    ((∃ caller payload' m, served.2 = .postAck created.id caller payload' (.done (.ok m)) ∧ m.fromParticipant = p) ↔
      headerValue p = p ∧ ∃ q : Participant, q.id = p) ∧
    (headerValue p = p → (∃ q : Participant, q.id = p) → db.Acks created.id p served.1) := by
  intro db served
  have complete := World.Complete.of_answered answered
  have later : (server.run World.init es).store.Later db := run_later _ es'
  have sound : db.Sound := by
    have reached := (World.Sound.reachable (es ++ es')).1
    rwa [server.run_append] at reached
  have opened := complete.opened.later later
  have isParty : p = creator.id ∨ ∃ r, db.recipient? created.id p = some r := by
    obtain ⟨_, _, opened', isEither⟩ := ackButton_addressee complete.accounted.sound.1 button
    obtain ⟨rfl, rfl⟩ := complete.opened.unique opened'
    refine isEither.imp_right fun isPrimary => ?_
    obtain ⟨r, listed⟩ := (complete.listed p).mpr (isPrimary ▸ List.mem_cons_self ..)
    obtain ⟨r', listed', _⟩ := later.recipient? listed
    exact ⟨r', listed'⟩
  have accepted : headerValue p = p → ∀ q : Participant, q.id = p → ∃ payload' m,
      served.2 = .postAck created.id q payload' (.done (.ok m)) ∧ m.fromParticipant = p ∧
        db.Acks created.id p served.1 := by
    rintro asIs q rfl
    exact sound.click_acks asIs opened isParty free
  refine ⟨⟨?_, ?_⟩, fun asIs isId => ?_⟩
  · rintro ⟨caller, payload', m, answer, isFrom⟩
    exact ackThread_asIs answer isFrom
  · rintro ⟨asIs, q, isId⟩
    obtain ⟨payload', m, answer, isFrom, _⟩ := accepted asIs q isId
    exact ⟨q, payload', m, answer, isFrom⟩
  · obtain ⟨q, same⟩ := isId
    obtain ⟨_, _, _, _, acks⟩ := accepted asIs q same
    exact acks

/-- The page is loaded, `c` acks, and the click closes the thread. -/
theorem ack_button_later_of_last :
    let es := .arrive (.postThread (some "a") ⟨none, ["b", "c"], "s", "hello", none, none⟩) ::
      .step 0 (.draw ⟨reading 0 1, "t", "m0"⟩) :: transactions 0 3
    let es' := .arrive (.postAck "t" (some "c") none) :: transactions 1 2 ++
      .step 1 (.draw ⟨reading 1 0, "m1", ""⟩) :: transactions 1 1 ++
      .step 1 (.draw ⟨reading 1 1, "", ""⟩) :: transactions 1 2
    let db := (server.run (server.run World.init es) es').store
    let served := (ackThread "t" "b").receive.serve ⟨reading 2 0, "m2", ""⟩ ⟨reading 2 1, "", ""⟩ db
    (db.thread? "t").map ThreadRow.status = some .opened ∧
      (served.1.thread? "t").map ThreadRow.status = some .acked := by
  intro es es' db served
  have answered : (server.run World.init es).pool[0]? = some (.postThread ⟨"a", rfl⟩
      ⟨⟨none, ["b", "c"], "s", "hello", none, none⟩, by decide, by decide, by decide, by decide⟩
      (.done (.ok ⟨"t", "s", "a", .opened, nowUtc (reading 0 1), nowUtc (reading 0 1), none, ["b", "c"]⟩))) := rfl
  have button : (threadDetail (server.run World.init es).store "t").bind DetailPage.ackButton = some "b" := by decide
  have acks : db.Acks "t" "b" served.1 :=
    (@ack_button_later es es' 0 _ _ _ _ ⟨reading 2 0, "m2", ""⟩ ⟨reading 2 1, "", ""⟩ answered button (by decide)).2
      (by decide) ⟨⟨"b", rfl⟩, rfl⟩
  refine ⟨by decide, acks.status.mpr (Or.inr (Or.inr fun q r found other => ?_))⟩
  have marked : ∀ r ∈ db.threadRecipients.rows, r.participantId ≠ "b" → r.ackedAt.isSome := by decide
  obtain ⟨member, same⟩ := Table.get?_eq_some_iff.mp found
  exact marked r member fun isB => other ((congrArg Prod.snd same).symm.trans isB)

end PbChatroom
