import PbChatroom.AckAggregation
import PbChatroom.Inbox

namespace PbChatroom
open Interleaving Relational

/-- A recipient sees its thread in its inbox as long as the thread is open,
whether it has acked or not. -/
theorem mem_inbox_of_recipient {db : Db} {t : Uuid} {p : String} {r : RecipientRow}
    (listed : db.recipient? t p = some r) :
    t ∈ (inbox db p).map ThreadSummary.id ↔ (db.thread? t).map ThreadRow.status = some .opened := by
  obtain ⟨stored, inThread, isP⟩ := Db.recipient?_spec listed
  rw [inbox, mem_listThreads, Option.map_eq_some_iff]
  refine exists_congr fun row => and_congr_right fun found => ?_
  have same : row.id = t := Table.get?_key found
  have named : (db.threadRecipients.rows.any fun r => r.participantId = p ∧ r.threadId = row.id) = true :=
    List.any_eq_true.mpr ⟨r, stored, by simp [isP, inThread, same]⟩
  simp only [ThreadFilter.matches, named, Bool.or_true, Bool.true_and, Bool.and_true, decide_eq_true_eq]

/-- An ack of `p` on `t` has been accepted, and `m` is its row. -/
def World.AckAccepted (w : World) (t : Uuid) (p : String) (m : Message) : Prop :=
  ∃ caller payload, Flight.postAck t caller payload (.done (.ok m)) ∈ w.pool ∧ caller.id = p

/-- The messages of the thread that were committed behind `m`. -/
def Db.messagesBehind (db : Db) (t : Uuid) (m : Message) : List Message :=
  ((db.messagesOf t).dropWhile (· ≠ m)).drop 1

/-- The recipient has an ack accepted, and no later message of the thread is
addressed to it. -/
def World.Through (w : World) (t : Uuid) (p : String) : Prop :=
  (∃ r, w.store.recipient? t p = some r) ∧
    ∃ m, w.AckAccepted t p m ∧ ∀ n ∈ w.store.messagesBehind t m, n.toParticipant ≠ p

/-- `p` has acked the thread: its recipient row is marked, or an ack of it has been
accepted, which marks no row if it came before the row. -/
def World.Acked (w : World) (t : Uuid) (p : String) : Prop :=
  (∃ r, w.store.recipient? t p = some r ∧ r.ackedAt.isSome) ∨ ∃ m, w.AckAccepted t p m

def World.EveryoneAcked (w : World) (t : Uuid) : Prop :=
  ∀ p, (∃ r, w.store.recipient? t p = some r) → w.Acked t p

/-- The thread is out of the inbox of those recipients who are through with it,
and in the inbox of all who have not acked, unless its creator has closed it. -/
def World.ClosedPerRecipient (w : World) (t : Uuid) (creator : String) : Prop :=
  (∀ p, w.Through t p → t ∉ (inbox w.store p).map ThreadSummary.id) ∧
  ∀ p, (∃ r, w.store.recipient? t p = some r) → ¬w.Acked t p → ¬w.store.ClosedBy t creator →
    t ∈ (inbox w.store p).map ThreadSummary.id

section Closing
variable {t : Uuid} {creator : String}

/-- The poll cannot tell who has acked: a recipient is rid of the thread when it is
acked for everybody, which is right only if everybody has acked. -/
theorem World.closedPerRecipient_iff {w : World} {row : ThreadRow} (found : w.store.thread? t = some row) :
    w.ClosedPerRecipient t creator ↔ ((∃ p, w.Through t p) → row.status = .acked) ∧
      (row.status = .acked → w.EveryoneAcked t ∨ w.store.ClosedBy t creator) := by
  have opened_iff : ∀ {p}, (∃ r, w.store.recipient? t p = some r) →
      (t ∈ (inbox w.store p).map ThreadSummary.id ↔ row.status = .opened) := by
    rintro p ⟨r, listed⟩
    rw [mem_inbox_of_recipient listed, found, Option.map_some, Option.some.injEq]
  constructor
  · rintro ⟨gone, stays⟩
    refine ⟨fun ⟨p, through⟩ => ?_, fun acked => or_iff_not_imp_right.mpr fun unclosed p listed => ?_⟩
    · have closed := gone p through
      rw [opened_iff through.1] at closed
      cases status : row.status with
      | opened => exact absurd status closed
      | acked => rfl
    · by_contra unacked
      have opened := (opened_iff listed).mp (stays p listed unacked unclosed)
      rw [acked] at opened
      cases opened
  · rintro ⟨closes, covered⟩
    refine ⟨fun p through => ?_, fun p listed unacked unclosed => ?_⟩
    · rw [opened_iff through.1, closes ⟨p, through⟩]
      exact fun same => nomatch same
    · rw [opened_iff listed]
      cases status : row.status with
      | opened => rfl
      | acked =>
        rcases covered status with everyone | closed
        · exact absurd (everyone p listed) unacked
        · exact absurd closed unclosed

/-- With no ack in flight, a thread that everybody has acked is acked. -/
theorem World.EveryoneAcked.acked {w : World} {es : List (Event Request Input)}
    (reached : server.run World.init es = w) (everyone : w.EveryoneAcked t)
    (quiet : ∀ f ∈ w.pool, ¬f.AckInFlight t) (listed : ∃ p r, w.store.recipient? t p = some r) :
    ∃ row, w.store.thread? t = some row ∧ row.status = .acked := by
  subst reached
  by_contra unacked
  have allAcked : (server.run World.init es).store.AllAcked t := by
    intro p r found
    have marked : ∃ r, (server.run World.init es).store.recipient? t p = some r ∧ r.ackedAt.isSome := by
      rcases everyone p ⟨r, found⟩ with marked | ⟨m, caller, payload, member, rfl⟩
      · exact marked
      · exact (recorded_reachable es member).resolve_right unacked
    obtain ⟨r', found', acked⟩ := marked
    cases Option.some.inj (found.symm.trans found')
    exact acked
  rcases World.Decided.reachable t es listed allAcked with closed | ⟨f, member, deciding⟩
  · exact unacked closed
  · exact quiet f member deciding.inFlight

/-- An ack of the creator, who is no recipient, has closed the thread. -/
theorem Db.ClosedBy.acked {db : Db} (closed : db.ClosedBy t creator) (filed : db.AcksFiled) :
    ∃ row, db.thread? t = some row ∧ row.status = .acked := by
  obtain ⟨outside, m, member, isAck, sender⟩ := closed
  obtain ⟨stored, inThread⟩ := Db.mem_messagesOf.mp member
  have filed := filed m stored isAck
  rw [inThread, sender, outside] at filed
  exact filed.resolve_left fun ⟨_, listed⟩ => nomatch listed

end Closing

/-- An ack takes the thread out of the inbox of its recipient exactly if it closes
the thread for everybody; that is right for the others exactly if by then everybody
has acked, or the creator has, who is no recipient. The thread can be closed without
that only by an ack that is ahead of the end of its creation. -/
theorem inbox_after_ack_iff {es : List (Event Request Input)} {i : Nat} {creator : Participant} {payload : ThreadCreate}
    {created : CreatedThread}
    (answered : (server.run World.init es).pool[i]? = some (.postThread creator payload (.done (.ok created))))
    (es' : List (Event Request Input)) :
    let w : World := server.run (server.run World.init es) es'
    let acked := (w.store.thread? created.id).map ThreadRow.status = some .acked
    let covered := w.EveryoneAcked created.id ∨ w.store.ClosedBy created.id creator.id
    (w.ClosedPerRecipient created.id creator.id ↔
      ((∃ p, w.Through created.id p) → acked) ∧ (acked → covered)) ∧
    ((∀ f ∈ w.pool, ¬f.AckInFlight created.id) →
      (w.ClosedPerRecipient created.id creator.id ↔ ((∃ p, w.Through created.id p) ∨ acked → covered))) ∧
    ((∀ f ∈ (server.run World.init es).pool, ¬f.AckAdmitted created.id) → acked → covered) := by
  intro w acked covered
  have complete := (World.Complete.of_answered answered).run es'
  obtain ⟨row, found⟩ := complete.isSealed.1
  have acked_iff : acked ↔ row.status = .acked := by
    simp only [acked, w, found, Option.map_some, Option.some.injEq]
  have closed_iff : w.ClosedPerRecipient created.id creator.id ↔
      ((∃ p, w.Through created.id p) → row.status = .acked) ∧ (row.status = .acked → covered) :=
    World.closedPerRecipient_iff found
  rw [← acked_iff] at closed_iff
  refine ⟨closed_iff, fun quiet => ?_, fun unadmitted isAcked => ?_⟩
  · have reached : server.run World.init (es ++ es') = w := server.run_append World.init es es'
    have of_covered : covered → acked := by
      intro isCovered
      have closed : ∃ row, w.store.thread? created.id = some row ∧ row.status = .acked := by
        rcases isCovered with everyone | byCreator
        · obtain ⟨r, listed⟩ := (complete.listed payload.primary).mpr (List.mem_cons_self ..)
          exact everyone.acked reached quiet ⟨_, r, listed⟩
        · exact byCreator.acked (reached ▸ (acksFiled_run (es ++ es')).1)
      exact Option.map_eq_some_iff.mpr closed
    rw [closed_iff]
    constructor
    · rintro ⟨closes, right⟩ (through | isAcked)
      · exact right (closes through)
      · exact right isAcked
    · intro right
      exact ⟨fun through => of_covered (right (Or.inl through)), fun isAcked => right (Or.inr isAcked)⟩
  · have tallied := (World.Tallied.completed answered unadmitted).run es'
    refine (tallied.store.acked row found (acked_iff.mp isAcked)).imp_left fun all p listed => ?_
    obtain ⟨r, atRow⟩ := listed
    exact Or.inl ⟨r, atRow, all p r atRow⟩

/-- When both recipients have acked, each is rid of the thread. -/
theorem inbox_after_ack_of_two :
    let es := .arrive (.postThread (some "a") ⟨none, ["b", "c"], "s", "hello", none, none⟩) ::
      .step 0 (.draw ⟨reading 0 1, "t", "m0"⟩) :: transactions 0 3
    let es' := .arrive (.postAck "t" (some "b") none) :: transactions 1 2 ++ .step 1 (.draw ⟨reading 1 0, "m1", ""⟩) ::
      transactions 1 1 ++ .step 1 (.draw ⟨reading 1 1, "", ""⟩) :: transactions 1 2 ++
      .arrive (.postAck "t" (some "c") none) :: transactions 2 2 ++ .step 2 (.draw ⟨reading 2 0, "m2", ""⟩) ::
      transactions 2 1 ++ .step 2 (.draw ⟨reading 2 1, "", ""⟩) :: transactions 2 3
    World.ClosedPerRecipient (server.run (server.run World.init es) es') "t" "a" := by
  intro es es'
  have answered : (server.run World.init es).pool[0]? = some (.postThread ⟨"a", rfl⟩
      ⟨⟨none, ["b", "c"], "s", "hello", none, none⟩, by decide, by decide, by decide, by decide⟩
      (.done (.ok ⟨"t", "s", "a", .opened, nowUtc (reading 0 1), nowUtc (reading 0 1), none, ["b", "c"]⟩))) := rfl
  obtain ⟨closed_iff, _, covered⟩ := inbox_after_ack_iff answered es'
  exact closed_iff.mpr ⟨fun _ => by decide, covered (by decide)⟩

/-- `b` acks alone, and its ack is accepted: the thread stays in its inbox until
`c` has acked, too. -/
theorem acked_thread_in_inbox :
    let es := .arrive (.postThread (some "a") ⟨none, ["b", "c"], "s", "hello", none, none⟩) ::
      .step 0 (.draw ⟨reading 0 1, "t", "m0"⟩) :: transactions 0 3 ++
      .arrive (.postAck "t" (some "b") none) :: transactions 1 2 ++ .step 1 (.draw ⟨reading 1 0, "m1", ""⟩) ::
      transactions 1 1 ++ .step 1 (.draw ⟨reading 1 1, "", ""⟩) :: transactions 1 2
    let w : World := server.run World.init es
    w.Through "t" "b" ∧ ¬w.ClosedPerRecipient "t" "a" := by
  intro es w
  have at_1 : w.pool[1]? = some (.postAck "t" ⟨"b", rfl⟩ none
      (.done (.ok ⟨"m1", "t", "b", "a", "Ack", .ack, "\x7b\x7d", nowIso (reading 1 0)⟩))) := rfl
  have through : w.Through "t" "b" :=
    ⟨⟨_, rfl⟩, _, ⟨_, _, List.mem_of_getElem? at_1, rfl⟩, by decide⟩
  exact ⟨through, fun gone => gone.1 "b" through (by decide)⟩

end PbChatroom
