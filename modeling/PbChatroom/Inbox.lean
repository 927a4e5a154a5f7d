import PbChatroom.Commits
import PbChatroom.Placement

namespace PbChatroom
open Interleaving Relational

/-- The inbox poll of an executor: GET /api/threads?to=…&status=open. -/
def inbox (db : Db) (participant : String) : List ThreadSummary :=
  listThreads db ⟨some participant, some .opened, none, none⟩

theorem mem_listThreads {db : Db} {f : ThreadFilter} {t : Uuid} :
    t ∈ (listThreads db f).map ThreadSummary.id ↔ ∃ row, db.thread? t = some row ∧ f.matches db row := by
  have summary : ThreadSummary.id ∘ summarize db = ThreadRow.id := rfl
  simp only [listThreads, List.map_map, summary, List.mem_map, mem_orderBy, List.mem_filter, Db.thread?,
    Table.get?_eq_some_iff]
  constructor
  · rintro ⟨row, ⟨member, matched⟩, rfl⟩
    exact ⟨row, ⟨member, rfl⟩, matched⟩
  · rintro ⟨row, ⟨member, same⟩, matched⟩
    exact ⟨row, ⟨member, matched⟩, same⟩

/-- A participant to whom a message of the thread is addressed sees the thread
in its inbox as long as it is open. -/
theorem mem_inbox_iff {db : Db} {m : Message} (stored : m ∈ db.messages.rows) :
    m.threadId ∈ (inbox db m.toParticipant).map ThreadSummary.id ↔
      ∃ row, db.thread? m.threadId = some row ∧ row.status = .opened := by
  rw [inbox, mem_listThreads]
  refine exists_congr fun row => and_congr_right fun found => ?_
  have same : row.id = m.threadId := Table.get?_key found
  have addressed : (db.messages.rows.any fun n => n.toParticipant = m.toParticipant ∧ n.threadId = row.id) = true :=
    List.any_eq_true.mpr ⟨m, stored, by simp [same]⟩
  simp only [ThreadFilter.matches, addressed, Bool.true_or, Bool.true_and, Bool.and_true, decide_eq_true_eq]

/-- No step of a message request changes the status of a thread. -/
theorem Flight.Commits.status_of_postMessage {db db' : Db} {t : Uuid} {caller : Participant} {payload : MessageCreate}
    {pc : PostMessage} (commits : Commits db (.postMessage t caller payload pc) db') (u : Uuid) :
    (db'.thread? u).map ThreadRow.status = (db.thread? u).map ThreadRow.status := by
  cases commits with
  | nothing => rfl
  | posts _ appended =>
    rw [appended.threads]
    split
    · rw [Option.map_map]
      rfl
    · rfl
  | types =>
    rw [thread?_setDiscussionType]
    split
    · rw [Option.map_map]
      rfl
    · rfl

/-- An accepted message brings its thread to the inbox of its recipient exactly
if the thread is open, and no message opens a thread again. -/
theorem accepted_in_inbox_iff {es : List (Event Request Input)} {t : Uuid} {caller : Participant}
    {payload : MessageCreate} {m : Message}
    (accepted : .postMessage t caller payload (.done (.ok m)) ∈ (server.run World.init es).pool) :
    let w := server.run World.init es
    (t ∈ (inbox w.store m.toParticipant).map ThreadSummary.id ↔
      (w.store.thread? t).map ThreadRow.status = some .opened) ∧
    ∀ caller' payload' pc x,
      ((server.step x w.store (.postMessage t caller' payload' pc)).1.thread? t).map ThreadRow.status =
        (w.store.thread? t).map ThreadRow.status := by
  intro w
  have sound : World.Sound w := .reachable es
  obtain ⟨stored, inThread, _⟩ := sound.2 _ accepted
  refine ⟨?_, fun caller' payload' pc x => (Flight.step_commits x w.store _).status_of_postMessage t⟩
  rw [← inThread, mem_inbox_iff stored, Option.map_eq_some_iff]

/-- The reply of `b` brings the thread to the inbox of `a`. -/
theorem reply_in_inbox :
    let es := .arrive (.postThread (some "a") ⟨some "b", [], "s", "hello", none, none⟩) ::
      .step 0 (.draw ⟨reading 0 1, "t", "m0"⟩) :: transactions 0 2 ++
      .arrive (.postMessage "t" (some "b") ⟨"hi", none⟩) :: transactions 1 2 ++
      .step 1 (.draw ⟨reading 1 0, "m1", ""⟩) :: transactions 1 1
    "t" ∈ (inbox (server.run World.init es).store "a").map ThreadSummary.id := by
  intro es
  have at_1 : (server.run World.init es).pool[1]? = some (.postMessage "t" ⟨"b", rfl⟩
      ⟨⟨"hi", none⟩, by decide, by decide⟩
      (.done (.ok ⟨"m1", "t", "b", "a", "hi", .message, "\x7b\x7d", nowIso (reading 1 0)⟩))) := rfl
  exact (accepted_in_inbox_iff (List.mem_of_getElem? at_1)).1.mpr (by decide)

/-- `b` has acked before its message is accepted: the message is stored for `a`,
and the thread is in no inbox. -/
theorem reply_not_in_inbox :
    let w := server.run World.init
      (.arrive (.postThread (some "a") ⟨some "b", [], "s", "hello", none, none⟩) ::
        .step 0 (.draw ⟨reading 0 1, "t", "m0"⟩) :: transactions 0 2 ++
        .arrive (.postAck "t" (some "b") none) :: transactions 1 2 ++ .step 1 (.draw ⟨reading 1 0, "m1", ""⟩) ::
        transactions 1 1 ++ .step 1 (.draw ⟨reading 1 1, "", ""⟩) :: transactions 1 3 ++
        .arrive (.postMessage "t" (some "b") ⟨"hi", none⟩) :: transactions 2 2 ++
        .step 2 (.draw ⟨reading 2 0, "m2", ""⟩) :: transactions 2 1)
    w.pool[2]? = some (.postMessage "t" ⟨"b", rfl⟩ ⟨⟨"hi", none⟩, by decide, by decide⟩
      (.done (.ok ⟨"m2", "t", "b", "a", "hi", .message, "\x7b\x7d", nowIso (reading 2 0)⟩))) ∧
    "t" ∉ (inbox w.store "a").map ThreadSummary.id :=
  ⟨rfl, by decide⟩

end PbChatroom
