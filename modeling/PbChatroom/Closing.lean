import Mathlib.Data.Fintype.EquivFin
import PbChatroom.Requests
import PbChatroom.Sequential

namespace PbChatroom
open Interleaving Relational

/-- What an accepted ack of a recipient does: it adds its row, marks the
recipient and nobody else, and closes the thread if that was the last mark. -/
structure Db.AckedBy (db : Db) (t : Uuid) (p : String) (m : Message) (now : DateTime) (db' : Db) : Prop where
  messages : db'.messages.rows = db.messages.rows ++ [m]
  recipients : ∀ u q, db'.recipient? u q =
    if (u, q) = (t, p) then (db.recipient? u q).map fun r => { r with ackedAt := some (nowUtc now) }
    else db.recipient? u q
  status : ∀ row ∈ db.thread? t, ∃ row' ∈ db'.thread? t, row'.createdBy = row.createdBy ∧
    (row'.status = .acked ↔ row.status = .acked ∨
      ∀ q r, db.recipient? t q = some r → q ≠ p → r.ackedAt.isSome)

/-- The three transactions of the recipient path together. -/
theorem Appended.ackedBy {set : ThreadRow → ThreadRow} {db middle : Db} {t : Uuid} {p : String} {m : Message}
    {now : DateTime} (appended : Appended set db m middle) (inThread : m.threadId = t)
    (keeps : ∀ row, (set row).createdBy = row.createdBy ∧ (set row).status = row.status) :
    let marked := markRecipientAcked middle t p now
    db.AckedBy t p m now (if allRecipientsAcked marked t then updateThreadStatus marked t .acked else marked) := by
  intro marked
  have recipients : ∀ u q, marked.recipient? u q =
      if (u, q) = (t, p) then (db.recipient? u q).map fun r => { r with ackedAt := some (nowUtc now) }
      else db.recipient? u q := by
    intro u q
    have same : middle.recipient? u q = db.recipient? u q := by rw [Db.recipient?, Db.recipient?, appended.recipients]
    rw [← same]
    exact Db.recipient?_updateRecipient middle t p (nowUtc now) u q
  have all_iff : allRecipientsAcked marked t ↔ ∀ q r, db.recipient? t q = some r → q ≠ p → r.ackedAt.isSome := by
    rw [allRecipientsAcked_iff]
    constructor
    · intro all q r found other
      refine all q r ?_
      rw [recipients, if_neg fun same => other (congrArg Prod.snd same)]
      exact found
    · intro others q r found
      rw [recipients] at found
      split at found
      · obtain ⟨_, _, rfl⟩ := Option.map_eq_some_iff.mp found
        rfl
      · rename_i other
        exact others q r found fun same => other (by rw [same])
  have row_of : ∀ row ∈ db.thread? t, marked.thread? t = some (set row) := by
    intro row found
    have after : middle.thread? t = some (set row) := by
      rw [appended.threads, if_pos inThread.symm, found, Option.map_some]
    exact after
  refine ⟨?_, ?_, ?_⟩
  · split <;> exact appended.messages
  · intro u q
    rw [← recipients]
    split <;> rfl
  · intro row found
    split
    · rename_i allAcked
      refine ⟨{ set row with status := .acked }, ?_, (keeps row).1, iff_of_true rfl (Or.inr (all_iff.mp allAcked))⟩
      rw [Option.mem_def, thread?_updateThreadStatus, if_pos rfl, row_of row found, Option.map_some]
    · rename_i notAll
      refine ⟨set row, row_of row found, (keeps row).1, ?_⟩
      rw [(keeps row).2, or_iff_left fun others => notAll (all_iff.mpr others)]

theorem PostAck.call_of_listed {db : Db} {t : Uuid} {caller : Participant} (payload : Option MessageCreate)
    {d : Draw} (d' : Draw) {thread : ThreadWithMessages} {recipient : String} {r : RecipientRow}
    (read : getThreadWithMessages db t = some thread)
    (check : resolveParticipants thread caller.id ((listRecipients db t).map RecipientRow.participantId) =
      .ok recipient)
    (listed : db.recipient? t caller.id = some r) (free : ¬db.MessageIdTaken d.uuid) :
    ∃ db', call t caller payload d d' db = (db', .ok (response t caller.id recipient (body payload) d)) ∧
      db.AckedBy t caller.id (response t caller.id recipient (body payload) d) d'.now db' := by
  have member : caller.id ∈ (listRecipients db t).map RecipientRow.participantId :=
    Db.mem_recipientsOf_iff_exists.mpr ⟨r, listed⟩
  obtain ⟨row, found, _⟩ := Option.map_eq_some_iff.mp read
  obtain ⟨middle, insert⟩ : ∃ middle, insertAck db t caller.id recipient (body payload) d = .ok middle :=
    insertAck_of_free found free
  refine ⟨_, ?_, (insertAck_ok insert).ackedBy rfl fun _ => ⟨rfl, rfl⟩⟩
  rw [call, read]
  dsimp only
  rw [check]
  dsimp only
  rw [if_pos member, insert]

/-- The thread can be read, and an ack of one of its recipients is let in. -/
def Db.Answerable (db : Db) (t : Uuid) : Prop := (∃ row, db.thread? t = some row) ∧ db.messagesOf t ≠ []

theorem Db.Sound.answerable {db : Db} (sound : db.Sound) {t : Uuid} {row : ThreadRow}
    (found : db.thread? t = some row) : db.Answerable t := by
  obtain ⟨seed, _, messages⟩ := sound.messagesOf_eq found
  exact ⟨⟨row, found⟩, by rw [messages]; exact List.cons_ne_nil _ _⟩

theorem Db.AckedBy.answerable {db db' : Db} {t : Uuid} {p : String} {m : Message} {now : DateTime}
    (acked : db.AckedBy t p m now db') (answerable : db.Answerable t) : db'.Answerable t := by
  obtain ⟨⟨row, found⟩, messages⟩ := answerable
  obtain ⟨row', found', _⟩ := acked.status row found
  refine ⟨⟨row', found'⟩, fun empty => messages ?_⟩
  rw [Db.messagesOf, acked.messages, List.filter_append, List.append_eq_nil_iff] at empty
  exact empty.1

theorem Db.AckedBy.taken {db db' : Db} {t id : Uuid} {p : String} {m : Message} {now : DateTime}
    (acked : db.AckedBy t p m now db') (taken : db'.MessageIdTaken id) : db.MessageIdTaken id ∨ id = m.id := by
  rw [Db.MessageIdTaken, Table.get?_isSome_iff, acked.messages, List.map_append, List.mem_append] at taken
  exact taken.imp Table.get?_isSome_iff.mpr List.mem_singleton.mp

/-- An ack request as one of the recipients of a thread sends it. -/
structure AckSent where
  participant : String
  payload : Option MessageCreate
  d : Draw
  d' : Draw

def AckSent.request (a : AckSent) (t : Uuid) : Request :=
  .postAck t (some a.participant) (a.payload.map MessageCreate.toMessageCreateBody)

/-- The acks are sent one after the other: the last store, and what each got. -/
def Db.sends (t : Uuid) : List AckSent → Db → Db × List Flight
  | [], db => (db, [])
  | a :: acks, db =>
    let served := (a.request t).receive.serve a.d a.d' db
    ((sends t acks served.1).1, served.2 :: (sends t acks served.1).2)

theorem AckSent.receive {a : AckSent} {caller : Participant} (t : Uuid) (same : a.participant = caller.id) :
    (a.request t).receive = .postAck t caller a.payload .start := by
  have fresh : (Flight.postAck t caller a.payload .start).Fresh := .postAck ..
  rw [AckSent.request, same]
  exact fresh.receive nofun

/-- A recipient with a valid id acks the thread. -/
theorem AckSent.serve {a : AckSent} {db : Db} {t : Uuid} {caller : Participant} {r : RecipientRow}
    (same : a.participant = caller.id) (answerable : db.Answerable t) (listed : db.recipient? t caller.id = some r)
    (free : ¬db.MessageIdTaken a.d.uuid) :
    ∃ m db', (a.request t).receive.serve a.d a.d' db = (db', .postAck t caller a.payload (.done (.ok m))) ∧
      m.id = a.d.uuid ∧ m.fromParticipant = caller.id ∧ db.AckedBy t caller.id m a.d'.now db' := by
  obtain ⟨⟨row, found⟩, messages⟩ := answerable
  have read : getThreadWithMessages db t = some ⟨row, orderBy createdNoLater (db.messagesOf t),
      (db.recipientsOf t).map RecipientRow.participantId⟩ := by rw [getThreadWithMessages, found]; rfl
  have member : caller.id ∈ (listRecipients db t).map RecipientRow.participantId :=
    Db.mem_recipientsOf_iff_exists.mpr ⟨r, listed⟩
  obtain ⟨seed, rest, sorted⟩ := List.exists_cons_of_ne_nil fun empty =>
    messages ((orderBy_eq_nil_iff createdNoLater).mp empty)
  have check : ∃ recipient, resolveParticipants ⟨row, orderBy createdNoLater (db.messagesOf t),
      (db.recipientsOf t).map RecipientRow.participantId⟩ caller.id
      ((listRecipients db t).map RecipientRow.participantId) = .ok recipient := by
    by_cases creator : caller.id = row.createdBy
    · exact ⟨_, resolveParticipants_ok_iff.mpr ⟨seed, rest, sorted, Or.inl ⟨creator, rfl⟩⟩⟩
    · exact ⟨_, resolveParticipants_ok_iff.mpr ⟨seed, rest, sorted, Or.inr ⟨creator, Or.inr member, rfl⟩⟩⟩
  obtain ⟨recipient, accepted⟩ := check
  obtain ⟨db', called, acked⟩ := PostAck.call_of_listed a.payload a.d' read accepted listed free
  refine ⟨_, db', ?_, rfl, rfl, acked⟩
  rw [AckSent.receive t same, serve_ack, called]

def AckSent.Accepted : Flight → Prop
  | .postAck _ _ _ (.done (.ok _)) => True
  | _ => False

/-- However the recipients of the thread send their acks, one each and in any
order, all acks are accepted and the last one leaves the thread closed. -/
def Db.Closable (db : Db) (t : Uuid) : Prop :=
  ∀ acks : List AckSent, (acks.map AckSent.participant).Perm ((db.recipientsOf t).map RecipientRow.participantId) →
    (acks.map fun a => a.d.uuid).Nodup → (∀ a ∈ acks, ¬db.MessageIdTaken a.d.uuid) →
      (∀ f ∈ (db.sends t acks).2, AckSent.Accepted f) ∧
        (acks ≠ [] → ((db.sends t acks).1.thread? t).map ThreadRow.status = some .acked)

/-- Acks of valid recipients are all accepted. They leave the thread closed once
there is no recipient left who has not acked. -/
theorem Db.Answerable.sends {t : Uuid} {acks : List AckSent} {db : Db} (answerable : db.Answerable t)
    (valid : ∀ a ∈ acks, ∃ caller : Participant, a.participant = caller.id ∧ ∃ r, db.recipient? t caller.id = some r)
    (fresh : (acks.map fun a => a.d.uuid).Nodup) (free : ∀ a ∈ acks, ¬db.MessageIdTaken a.d.uuid) :
    (∀ f ∈ (db.sends t acks).2, AckSent.Accepted f) ∧
      (acks ≠ [] → (∀ q r, db.recipient? t q = some r → r.ackedAt.isSome ∨ q ∈ acks.map AckSent.participant) →
        ((db.sends t acks).1.thread? t).map ThreadRow.status = some .acked) := by
  induction acks generalizing db with
  | nil => exact ⟨fun _ member => (nomatch member), fun nonempty => absurd rfl nonempty⟩
  | cons a acks ih =>
    obtain ⟨caller, same, r, listed⟩ := valid a (List.mem_cons_self ..)
    obtain ⟨m, db', served, isFirst, _, acked⟩ := AckSent.serve same answerable listed (free a (List.mem_cons_self ..))
    rw [List.map_cons, List.nodup_cons] at fresh
    have stays : ∀ q r, db.recipient? t q = some r → ∃ r', db'.recipient? t q = some r' := by
      intro q r found
      rw [acked.recipients, found]
      split
      · exact ⟨_, rfl⟩
      · exact ⟨r, rfl⟩
    have later := ih (acked.answerable answerable) ?_ fresh.2 ?_
    · rw [Db.sends, served]
      refine ⟨fun f member => ?_, fun _ covered => ?_⟩
      · rcases List.mem_cons.mp member with rfl | inRest
        · trivial
        · exact later.1 f inRest
      · cases acks with
        | nil =>
          obtain ⟨row, found⟩ := answerable.1
          obtain ⟨row', found', _, status⟩ := acked.status row found
          have closed : row'.status = .acked := by
            refine status.mpr (Or.inr fun q r listed other => (covered q r listed).resolve_right fun member => other ?_)
            exact (List.mem_singleton.mp member).trans same
          rw [Db.sends, found', Option.map_some, closed]
        | cons b acks =>
          refine later.2 (List.cons_ne_nil _ _) fun q r' listed' => ?_
          rw [acked.recipients] at listed'
          split at listed'
          · obtain ⟨_, _, rfl⟩ := Option.map_eq_some_iff.mp listed'
            exact Or.inl rfl
          · rename_i other
            refine (covered q r' listed').imp_right fun member => ?_
            rcases List.mem_cons.mp member with isA | inRest
            · exact absurd (by rw [isA, same]) other
            · exact inRest
    · intro b member
      obtain ⟨caller', same', r', listed'⟩ := valid b (List.mem_cons_of_mem _ member)
      exact ⟨caller', same', stays _ r' listed'⟩
    · intro b member taken
      rcases acked.taken taken with old | new
      · exact free b (List.mem_cons_of_mem _ member) old
      · exact fresh.1 (List.mem_map.mpr ⟨b, member, new.trans isFirst⟩)

/-- An ack whose header is refused is not accepted, whatever the store. -/
theorem AckSent.not_accepted {a : AckSent} {acks : List AckSent} {e : HTTPException} (t : Uuid) (db : Db)
    (member : a ∈ acks) (refused : resolveParticipant (some a.participant) = .error e) :
    ∃ f ∈ (db.sends t acks).2, ¬AckSent.Accepted f := by
  induction acks generalizing db with
  | nil => cases member
  | cons b acks ih =>
    rcases List.mem_cons.mp member with rfl | inRest
    · have received : (a.request t).receive = .refused (a.request t) e := by
        rw [AckSent.request, Request.receive, validateAck_body, refused]
      refine ⟨_, List.mem_cons_self .., ?_⟩
      rw [received, serve_refused]
      exact id
    · obtain ⟨f, inList, unaccepted⟩ := ih _ inRest
      exact ⟨f, List.mem_cons_of_mem _ inList, unaccepted⟩

/-- There are always enough new ids. -/
theorem exists_fresh (taken : List String) (n : Nat) :
    ∃ fresh : List String, fresh.length = n ∧ fresh.Nodup ∧ ∀ id ∈ fresh, id ∉ taken := by
  induction n with
  | zero => exact ⟨[], rfl, List.nodup_nil, fun _ member => nomatch member⟩
  | succ n ih =>
    obtain ⟨fresh, length, unique, free⟩ := ih
    obtain ⟨id, new⟩ := Infinite.exists_notMem_finset (fresh ++ taken).toFinset
    rw [List.mem_toFinset, List.mem_append, not_or] at new
    refine ⟨id :: fresh, by rw [List.length_cons, length], List.nodup_cons.mpr ⟨new.1, unique⟩, fun other member => ?_⟩
    rcases List.mem_cons.mp member with rfl | old
    · exact new.2
    · exact free other old

/-- The recipients of a thread can close it, exactly if each of them has an id
that the header check accepts. -/
theorem closable_iff {es : List (Event Request Input)} {t : Uuid} {row : ThreadRow}
    (found : (server.run World.init es).store.thread? t = some row) :
    let db := (server.run World.init es).store
    db.Closable t ↔ ∀ r ∈ db.recipientsOf t, ∃ p, resolveParticipant (some r.participantId) = .ok p := by
  intro db
  have answerable : db.Answerable t := (World.Sound.reachable es).1.answerable found
  constructor
  · intro closable
    let ids := (db.recipientsOf t).map RecipientRow.participantId
    obtain ⟨fresh, length, unique, free⟩ := exists_fresh (db.messages.rows.map Message.id) ids.length
    let acks := (ids.zip fresh).map fun pair => AckSent.mk pair.1 none ⟨reading 0 0, pair.2, ""⟩ ⟨reading 0 0, "", ""⟩
    have participants : acks.map AckSent.participant = ids := by
      rw [List.map_map]
      exact List.map_fst_zip length.ge
    have uuids : acks.map (fun a => a.d.uuid) = fresh := by
      rw [List.map_map]
      exact List.map_snd_zip length.le
    have accepted := (closable acks (by rw [participants]) (uuids ▸ unique) fun a member taken => ?_).1
    · intro r member
      have isSent : r.participantId ∈ acks.map AckSent.participant := participants ▸ List.mem_map_of_mem member
      obtain ⟨a, inAcks, same⟩ := List.mem_map.mp isSent
      cases check : resolveParticipant (some r.participantId) with
      | ok p => exact ⟨p, rfl⟩
      | error e =>
        obtain ⟨f, inAnswers, unaccepted⟩ := AckSent.not_accepted t db inAcks (same ▸ check)
        exact absurd (accepted f inAnswers) unaccepted
    · refine free a.d.uuid ?_ (Table.get?_isSome_iff.mp taken)
      exact uuids ▸ List.mem_map_of_mem (f := fun a : AckSent => a.d.uuid) member
  · intro valid acks perm fresh free
    have mem_iff : ∀ q, q ∈ acks.map AckSent.participant ↔ ∃ r, db.recipient? t q = some r :=
      fun q => perm.mem_iff.trans Db.mem_recipientsOf_iff_exists
    have listed : ∀ a ∈ acks, ∃ caller : Participant, a.participant = caller.id ∧
        ∃ r, db.recipient? t caller.id = some r := by
      intro a member
      obtain ⟨r, found⟩ := (mem_iff a.participant).mp (List.mem_map_of_mem member)
      obtain ⟨_, _, same⟩ := Db.recipient?_spec found
      obtain ⟨caller, accepted⟩ := valid r (Db.mem_recipientsOf.mpr (same ▸ found))
      have isCaller := Option.some.inj (resolveParticipant_header accepted)
      exact ⟨caller, same.symm.trans isCaller, r, by rw [← isCaller, same]; exact found⟩
    obtain ⟨accepted, closed⟩ := answerable.sends listed fresh free
    exact ⟨accepted, fun nonempty => closed nonempty fun q r found => Or.inr ((mem_iff q).mpr ⟨r, found⟩)⟩

/-- Two recipients with valid ids can close their thread. -/
theorem closable_of_two :
    let es := .arrive (.postThread (some "a") ⟨none, ["b", "c"], "s", "hello", none, none⟩) ::
      .step 0 (.draw ⟨reading 0 1, "t", "m0"⟩) :: transactions 0 3
    (server.run World.init es).store.Closable "t" := by
  intro es
  obtain ⟨row, found⟩ : ∃ row, (server.run World.init es).store.thread? "t" = some row := ⟨_, rfl⟩
  refine (closable_iff found).mpr fun r member => ?_
  have listed : (server.run World.init es).store.recipientsOf "t" = [⟨"t", "b", none⟩, ⟨"t", "c", none⟩] := rfl
  rw [listed] at member
  rcases List.mem_cons.mp member with rfl | second
  · exact ⟨⟨"b", rfl⟩, rfl⟩
  · rw [List.mem_singleton.mp second]
    exact ⟨⟨"c", rfl⟩, rfl⟩

/-- A thread for a recipient with a capital and a blank in its id: the ack of that
recipient is refused. -/
theorem unreachable_recipient :
    let es := .arrive (.postThread (some "a") ⟨some "Bad Id", [], "s", "hello", none, none⟩) ::
      .step 0 (.draw ⟨reading 0 1, "t", "m0"⟩) :: transactions 0 2
    let db := (server.run World.init es).store
    (db.recipientsOf "t").map RecipientRow.participantId = ["Bad Id"] ∧
      resolveParticipant (some "Bad Id") = .error ⟨400, .text "invalid participant id"⟩ ∧ ¬db.Closable "t" := by
  intro es db
  have refused : resolveParticipant (some "Bad Id") = .error ⟨400, .text "invalid participant id"⟩ := rfl
  refine ⟨by decide, refused, fun closable => ?_⟩
  let a : AckSent := ⟨"Bad Id", none, ⟨reading 1 0, "m1", ""⟩, ⟨reading 1 1, "", ""⟩⟩
  have accepted := (closable [a] (by decide) (by decide) fun b member => ?_).1
  · obtain ⟨f, answered, unaccepted⟩ : ∃ f ∈ (db.sends "t" [a]).2, ¬AckSent.Accepted f :=
      AckSent.not_accepted "t" db (List.mem_singleton.mpr rfl) refused
    exact unaccepted (accepted f answered)
  · rw [List.mem_singleton.mp member]
    decide

end PbChatroom
