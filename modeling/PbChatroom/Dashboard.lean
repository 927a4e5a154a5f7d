import PbChatroom.Closing
import PbChatroom.Creation
import PbChatroom.FrontMessage
import PbChatroom.LastActivity

namespace PbChatroom
open Interleaving Relational

/-- What `thread_detail` hands to its template. -/
structure DetailPage where
  thread : ThreadRow
  messages : List Message
  ackAs : Option String

/-- `thread_detail`; `none` is the 404 page. -/
def threadDetail (db : Db) (threadId : Uuid) : Option DetailPage :=
  (getThreadWithMessages db threadId).map fun data =>
    { thread := data.thread
      messages := data.messages
      ackAs := data.messages.head?.map Message.toParticipant }

/-- The attribute `data-ack-as` of the ack button, if the page has the button. -/
def DetailPage.ackButton (page : DetailPage) : Option String :=
  if page.thread.status = .opened ∧ truthy page.ackAs then page.ackAs else none

/-- The characters that `fetch` strips from both ends of a header value. -/
def httpWhitespace (c : Char) : Bool := c == '\t' || c == '\n' || c == '\r' || c == ' '

def headerValue (value : String) : String :=
  String.ofList (((value.toList.dropWhile httpWhitespace).reverse.dropWhile httpWhitespace).reverse)

/-- The request that `ackThread` fetches. -/
def ackThread (threadId : Uuid) (ackAs : String) : Request :=
  .postAck threadId (some (headerValue ackAs)) (some ⟨"Acked from dashboard", none⟩)

/-- The ack was accepted as one of `p`; it has marked `p` and nobody else, and
the thread is closed if and only if all others had acked. -/
structure Db.AcksFor (db : Db) (t : Uuid) (p : String) (now : DateTime) (served : Db × Flight) : Prop where
  accepted : ∃ caller payload m, served.2 = .postAck t caller payload (.done (.ok m)) ∧ m.fromParticipant = p
  marked : (served.1.recipient? t p).map RecipientRow.ackedAt = some (some (nowUtc now))
  others : ∀ q, q ≠ p → served.1.recipient? t q = db.recipient? t q
  status : (served.1.thread? t).map ThreadRow.status = some .acked ↔
    ∀ q r, db.recipient? t q = some r → q ≠ p → r.ackedAt.isSome

/-- An accepted ack is from its caller. -/
theorem PostAck.call_from {db : Db} {t : Uuid} {caller : Participant} {payload : Option MessageCreate} {d d' : Draw}
    {m : Message} (accepted : (call t caller payload d d' db).2 = .ok m) : m.fromParticipant = caller.id := by
  unfold call at accepted
  split at accepted
  · cases accepted
  · dsimp only at accepted
    split at accepted
    · cases accepted
    · split at accepted
      · split at accepted
        · cases accepted
        · cases accepted
          rfl
      · split at accepted
        · cases accepted
        · cases accepted
        · rename_i append
          cases accepted
          rw [(appendAck_ok append).1]

/-- Whom the page acks as is who acks. -/
theorem ackThread_from {db : Db} {t : Uuid} {ackAs : String} {d d' : Draw} {caller : Participant}
    {payload : Option MessageCreate} {m : Message}
    (accepted : ((ackThread t ackAs).receive.serve d d' db).2 = .postAck t caller payload (.done (.ok m))) :
    m.fromParticipant = headerValue ackAs := by
  have body : validateAck (some ⟨"Acked from dashboard", none⟩) =
      .ok (some ⟨⟨"Acked from dashboard", none⟩, by decide, by decide⟩) := rfl
  rw [ackThread, Request.receive, body] at accepted
  cases check : resolveParticipant (some (headerValue ackAs)) with
  | error e =>
    rw [check] at accepted
    dsimp only at accepted
    rw [serve_refused] at accepted
    cases accepted
  | ok sender =>
    rw [check] at accepted
    dsimp only at accepted
    rw [serve_ack, Flight.postAck.injEq] at accepted
    obtain ⟨_, rfl, _, done⟩ := accepted
    exact (PostAck.call_from (PostAck.done.inj done)).trans (Option.some.inj (resolveParticipant_header check)).symm

/-- The ack that the page sends as a valid recipient is an ack for that recipient. -/
theorem Db.AcksFor.of_recipient {db : Db} {t : Uuid} {row : ThreadRow} {caller : Participant} {r : RecipientRow}
    {ackAs : String} {d : Draw} (d' : Draw) (sender : headerValue ackAs = caller.id) (answerable : db.Answerable t)
    (found : db.thread? t = some row) (isOpen : row.status = .opened) (listed : db.recipient? t caller.id = some r)
    (free : ¬db.MessageIdTaken d.uuid) :
    db.AcksFor t caller.id d'.now ((ackThread t ackAs).receive.serve d d' db) := by
  let a : AckSent := ⟨caller.id, some ⟨⟨"Acked from dashboard", none⟩, by decide, by decide⟩, d, d'⟩
  have request : ackThread t ackAs = a.request t := by rw [ackThread, sender]; rfl
  obtain ⟨m, db', served, _, fromCaller, acked⟩ := AckSent.serve (a := a) rfl answerable listed free
  obtain ⟨row', found', _, status⟩ := acked.status row found
  rw [request, served]
  refine ⟨⟨_, _, m, rfl, fromCaller⟩, ?_, fun q other => ?_, ?_⟩
  · rw [acked.recipients, if_pos rfl, listed, Option.map_some, Option.map_some]
  · rw [acked.recipients, if_neg fun same => other (congrArg Prod.snd same)]
  · rw [found', Option.map_some, Option.some.injEq, status, isOpen]
    exact or_iff_right fun same => nomatch same

/-- The dashboard acks an open thread for its primary recipient, exactly if the
message in front of the thread is addressed to the primary recipient. -/
theorem dashboard_ack_iff {es : List (Event Request Input)} {i : Nat} {creator : Participant} {payload : ThreadCreate}
    {created : CreatedThread} {row : ThreadRow} {d d' : Draw}
    (answered : (server.run World.init es).pool[i]? = some (.postThread creator payload (.done (.ok created))))
    (valid : ∀ p ∈ payload.allRecipients, ∃ recipient : Participant, recipient.id = p)
    (found : (server.run World.init es).store.thread? created.id = some row) (isOpen : row.status = .opened)
    (free : ¬(server.run World.init es).store.MessageIdTaken d.uuid) :
    let db := (server.run World.init es).store
    ∃ front, db.front? created.id = some front ∧
      (threadDetail db created.id).bind DetailPage.ackButton = some front.toParticipant ∧
      (db.AcksFor created.id payload.primary d'.now
          ((ackThread created.id front.toParticipant).receive.serve d d' db) ↔
        headerValue front.toParticipant = payload.primary) := by
  intro db
  have complete := World.Complete.of_answered answered
  have sound := complete.accounted.sound.1
  have answerable := sound.answerable found
  obtain ⟨primary, isPrimary⟩ := valid payload.primary (List.mem_cons_self ..)
  obtain ⟨r, listed⟩ := (complete.listed primary.id).mpr (isPrimary ▸ List.mem_cons_self ..)
  obtain ⟨front, rest, sorted⟩ := List.exists_cons_of_ne_nil fun empty =>
    answerable.2 ((orderBy_eq_nil_iff createdNoLater).mp empty)
  have atFront : db.front? created.id = some front := by
    rw [← front_reachable, sorted, List.head?_cons]
  have stored : front ∈ db.messagesOf created.id :=
    (mem_orderBy createdNoLater).mp (by rw [sorted]; exact List.mem_cons_self ..)
  have nonempty : front.toParticipant ≠ "" := by
    obtain ⟨inTable, inThread⟩ := Db.mem_messagesOf.mp stored
    obtain ⟨_, _, opened, isEither⟩ := sound.addressed front inTable
    obtain ⟨rfl, rfl⟩ := complete.opened.unique (inThread ▸ opened)
    rcases isEither with isCreator | isPrimary'
    · exact isCreator ▸ creator.id_ne_empty
    · exact isPrimary' ▸ isPrimary ▸ primary.id_ne_empty
  refine ⟨front, atFront, ?_, ?_, ?_⟩
  · have page : threadDetail db created.id = some ⟨row, front :: rest, some front.toParticipant⟩ := by
      rw [threadDetail, getThreadWithMessages, found, sorted]
      rfl
    rw [page, Option.bind_some, DetailPage.ackButton, if_pos ⟨isOpen, truthy_iff.mpr ⟨_, rfl, nonempty⟩⟩]
  · rintro ⟨⟨caller, payload', m, served, isFrom⟩, _⟩
    exact (ackThread_from served).symm.trans isFrom
  · intro sender
    have acks := Db.AcksFor.of_recipient d' (sender.trans isPrimary.symm) answerable found isOpen listed free
    rwa [isPrimary] at acks

/-- With only its seed the thread is acked for the first of two recipients. -/
theorem dashboard_ack_of_seed :
    let es := .arrive (.postThread (some "a") ⟨none, ["b", "c"], "s", "hello", none, none⟩) ::
      .step 0 (.draw ⟨reading 0 1, "t", "m0"⟩) :: transactions 0 3
    let db := (server.run World.init es).store
    db.AcksFor "t" "b" (reading 1 1)
      ((ackThread "t" "b").receive.serve ⟨reading 1 0, "m1", ""⟩ ⟨reading 1 1, "", ""⟩ db) := by
  intro es db
  have answered : (server.run World.init es).pool[0]? = some (.postThread ⟨"a", rfl⟩
      ⟨⟨none, ["b", "c"], "s", "hello", none, none⟩, by decide, by decide, by decide, by decide⟩
      (.done (.ok ⟨"t", "s", "a", .opened, nowUtc (reading 0 1), nowUtc (reading 0 1), none, ["b", "c"]⟩))) := rfl
  have valid : ∀ p ∈ ["b", "c"], ∃ recipient : Participant, recipient.id = p := by
    intro p member
    rcases List.mem_cons.mp member with rfl | second
    · exact ⟨⟨"b", rfl⟩, rfl⟩
    · exact ⟨⟨"c", rfl⟩, (List.mem_singleton.mp second).symm⟩
  obtain ⟨row, found⟩ : ∃ row, db.thread? "t" = some row := ⟨_, rfl⟩
  have isOpen : row.status = .opened := by
    cases found
    rfl
  have seed : db.front? "t" = some ⟨"m0", "t", "a", "b", "hello", .message, "\x7b\x7d", nowUtc (reading 0 1)⟩ := by
    decide
  have free : ¬db.MessageIdTaken (Draw.mk (reading 1 0) "m1" "").uuid := by decide
  obtain ⟨front, atFront, _, acksIff⟩ :=
    @dashboard_ack_iff es 0 ⟨"a", rfl⟩ _ _ row _ ⟨reading 1 1, "", ""⟩ answered valid found isOpen free
  cases Option.some.inj (seed.symm.trans atFront)
  exact acksIff.mpr (by decide)

/-- The thread is opened on the full second and `b` replies half a second later:
the page acks as the creator, which closes the thread without an ack of `b`. -/
theorem dashboard_acks_as_creator :
    let es := .arrive (.postThread (some "a") ⟨some "b", [], "s", "hello", none, none⟩) ::
      .step 0 (.draw ⟨reading 0 0, "t", "m0"⟩) :: transactions 0 2 ++
      .arrive (.postMessage "t" (some "b") ⟨"hi", none⟩) :: transactions 1 2 ++
      .step 1 (.draw ⟨reading 0 500000, "m1", ""⟩) :: transactions 1 1
    let db := (server.run World.init es).store
    let served := (ackThread "t" "a").receive.serve ⟨reading 1 0, "m2", ""⟩ ⟨reading 1 1, "", ""⟩ db
    (readings es).Pairwise (· ≤ ·) ∧ (threadDetail db "t").bind DetailPage.ackButton = some "a" ∧
      (served.1.thread? "t").map ThreadRow.status = some .acked ∧
      (served.1.recipient? "t" "b").map RecipientRow.ackedAt = some none ∧
      ¬db.AcksFor "t" "b" (reading 1 1) served := by
  intro es db served
  have unmarked : (served.1.recipient? "t" "b").map RecipientRow.ackedAt = some none := by decide
  refine ⟨by decide, by decide, by decide, unmarked, fun acks => ?_⟩
  rw [acks.marked] at unmarked
  cases unmarked

end PbChatroom
