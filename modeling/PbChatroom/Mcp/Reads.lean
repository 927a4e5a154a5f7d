import PbChatroom.Listing
import PbChatroom.Mcp.Tools

namespace PbChatroom
open Interleaving Relational

/-- What httpx and the router make of the path of a GET: the read of a thread, a listing,
another response with its text, which may be JSON, or an exception. -/
inductive Fetching where
  | thread (threadId : Uuid)
  | threads (q : ThreadsQuery)
  | other (statusCode : Nat) (text : String) (json : Bool)
  | connectError
  | unsent

/-- What a reading tool returns, if it does not raise; a thread that is read is the dict of
the handler, of which the response model leaves nothing out. -/
inductive ReadResult where
  | thread (found : ThreadWithMessages)
  | threads (listed : List Thread)
  | json (text : String)
  | text (error : String)
  | raised

def threadPath (threadId : String) : String := s!"/api/threads/{threadId}"

section Tools
variable (c : Client) (unprocessable : String) (db : Db)

/-- The response to a listing, whose text for a 422 is `unprocessable`. -/
def ThreadsQuery.result (q : ThreadsQuery) : ReadResult :=
  match getThreads db q with
  | .error _ => .text s!"server error 422: {unprocessable}"
  | .ok listed => .threads (listed.map ThreadSummary.response)

/-- `chat_list_threads`, where the server can be reached or not. -/
def chatListThreads (reached : Bool) (toParticipant status : Option String) : ReadResult :=
  let recipient := toParticipant.getD c.participant.id
  let base := c.baseUrl
  if reached then
    ThreadsQuery.result unprocessable db ⟨if recipient = "" then none else some recipient, status, none, none⟩
  else .text s!"server unreachable at {base} — is pb-chatroom-server running?"

/-- `chat_read_thread` -/
def chatReadThread (fetch : String → Fetching) (threadId : Option String) : ReadResult :=
  let t := threadId.getD ""
  let base := rstripSlash c.baseUrl
  if truthy threadId then
    match fetch (threadPath t) with
    | .connectError => .text s!"server unreachable at {base} — is pb-chatroom-server running?"
    | .unsent => .raised
    | .threads q => q.result unprocessable db
    | .thread u =>
      match getThreadWithMessages db u with
      | none => .text s!"thread {t} not found"
      | some found => .thread found
    | .other statusCode text json =>
      if statusCode = 404 then .text s!"thread {t} not found"
      else if 300 ≤ statusCode then .text s!"server error {statusCode}: {text}"
      else if json then .json text
      else .raised
  else .text "thread_id is required"

end Tools

section Agreement
variable {c : Client} {unprocessable : String} {db db' : Db} {fetch : String → Fetching}

theorem chatListThreads_listed {toParticipant status : Option String} {listed : List Thread}
    (returned : chatListThreads c unprocessable db true toParticipant status = .threads listed) :
    ∀ t ∈ listed, ∃ row, db.thread? row.id = some row ∧ t = (summarize db row).response := by
  change ThreadsQuery.result _ _ _ = _ at returned
  unfold ThreadsQuery.result at returned
  split at returned
  · cases returned
  · rename_i answered
    cases returned
    obtain ⟨_, _, rfl⟩ := getThreads_ok answered
    intro t member
    obtain ⟨summary, inList, rfl⟩ := List.mem_map.mp member
    obtain ⟨row, found, _, rfl⟩ := mem_listThreads_iff.mp inList
    exact ⟨row, found, rfl⟩

/-- Without a status every listing is answered. -/
theorem chatListThreads_eq (recipient : String) : chatListThreads c unprocessable db true (some recipient) none =
    .threads ((listThreads db ⟨if recipient = "" then none else some recipient, none, none, none⟩).map
      ThreadSummary.response) := rfl

theorem chatReadThread_eq {t : Uuid} (nonempty : t ≠ "") (routes : fetch (threadPath t) = .thread t) :
    chatReadThread c unprocessable db fetch (some t) =
      (match getThreadWithMessages db t with
        | none => .text s!"thread {t} not found"
        | some found => .thread found) := by
  unfold chatReadThread
  rw [if_pos (truthy_iff.mpr ⟨t, rfl, nonempty⟩)]
  simp only [Option.getD_some, routes]

/-- What is read of a thread after it was listed. -/
structure ReadAfter (t : Thread) (found : ThreadWithMessages) : Prop where
  id : found.thread.id = t.id
  subject : found.thread.subject = t.subject
  createdBy : found.thread.createdBy = t.createdBy
  createdAt : found.thread.createdAt.instant = t.createdAt
  acked : t.status = .acked → found.thread.status = .acked
  claim : t.claimedBy ≠ none → found.thread.claim.claimedBy = t.claimedBy ∧ found.thread.claim.claimedAt = t.claimedAt

theorem read_of_listed (later : db.Later db') {row : ThreadRow} (found : db.thread? row.id = some row) :
    ∃ read, getThreadWithMessages db' row.id = some read ∧ ReadAfter (summarize db row).response read := by
  obtain ⟨row', found', step⟩ := later.thread? found
  have read := congrArg (Option.map fun thread => (⟨thread, orderBy createdNoLater (db'.messagesOf row.id),
    (db'.recipientsOf row.id).map RecipientRow.participantId⟩ : ThreadWithMessages)) found'
  refine ⟨_, read, step.id, step.subject, step.createdBy, congrArg Timestamp.instant step.createdAt, step.acked,
    fun claimed => ?_⟩
  have claim := step.claim claimed
  exact ⟨congrArg Claim.claimedBy claim, congrArg Claim.claimedAt claim⟩

theorem listed_of_read (later : db.Later db') {t : Uuid} {found : ThreadWithMessages}
    (read : getThreadWithMessages db t = some found) {recipient : String}
    (addressed : recipient = "" ∨ ∃ m ∈ found.messages, m.toParticipant = recipient) :
    ∃ listed, chatListThreads c unprocessable db' true (some recipient) none = .threads listed ∧
      t ∈ listed.map Thread.id := by
  refine ⟨_, chatListThreads_eq recipient, ?_⟩
  have id_response : Thread.id ∘ ThreadSummary.response = ThreadSummary.id := rfl
  rw [List.map_map, id_response, mem_listThreads]
  obtain ⟨row, atRow, rfl⟩ := Option.map_eq_some_iff.mp read
  obtain ⟨row', atRow', step⟩ := later.thread? atRow
  refine ⟨row', atRow', ?_⟩
  split
  · rfl
  · rename_i nonempty
    obtain ⟨m, member, isFor⟩ := addressed.resolve_left nonempty
    have stored : m ∈ db'.messagesOf t := (later.messagesOf t).subset ((mem_orderBy createdNoLater).mp member)
    obtain ⟨inRows, inThread⟩ := Db.mem_messagesOf.mp stored
    have same : row'.id = t := Table.get?_key atRow'
    have found : (db'.messages.rows.any fun n => n.toParticipant = recipient ∧ n.threadId = row'.id) = true :=
      List.any_eq_true.mpr ⟨m, inRows, by simp [same, inThread, isFor]⟩
    simp only [ThreadFilter.matches, found, Bool.true_or, Bool.and_self]

end Agreement

/-- The reading tools agree, whatever is written between two calls. A thread that was
listed can be read, is the same thread, and is closed and claimed as it was; and a thread
that was read is listed among all threads and to everyone to whom one of the messages read
is addressed. -/
theorem reading_tools_agree (c : Client) (unprocessable : String) (fetch : String → Fetching)
    (es es' : List (Event Request Input)) :
    let w : World := server.run World.init es
    let w' : World := server.run w es'
    (∀ recipient status listed, chatListThreads c unprocessable w.store true recipient status = .threads listed →
      ∀ t ∈ listed, t.id ≠ "" → fetch (threadPath t.id) = .thread t.id →
        ∃ found, chatReadThread c unprocessable w'.store fetch (some t.id) = .thread found ∧ ReadAfter t found) ∧
    ∀ t found, t ≠ "" → fetch (threadPath t) = .thread t →
      chatReadThread c unprocessable w.store fetch (some t) = .thread found →
        (∃ listed, chatListThreads c unprocessable w'.store true (some "") none = .threads listed ∧
          t ∈ listed.map Thread.id) ∧
        ∀ m ∈ found.messages, ∃ listed,
          chatListThreads c unprocessable w'.store true (some m.toParticipant) none = .threads listed ∧
            t ∈ listed.map Thread.id := by
  intro w w'
  have later : w.store.Later w'.store := run_later w es'
  refine ⟨fun recipient status listed returned t member nonempty routes => ?_,
    fun t found nonempty routes returned => ?_⟩
  · obtain ⟨row, stored, rfl⟩ := chatListThreads_listed returned t member
    obtain ⟨found, read, after⟩ := read_of_listed later stored
    have sameId : getThreadWithMessages w'.store (summarize w.store row).response.id = some found := read
    exact ⟨found, by rw [chatReadThread_eq nonempty routes, sameId], after⟩
  · rw [chatReadThread_eq nonempty routes] at returned
    cases read : getThreadWithMessages w.store t with
    | none =>
      rw [read] at returned
      cases returned
    | some seen =>
      rw [read] at returned
      cases returned
      exact ⟨listed_of_read later read (Or.inl rfl),
        fun m member => listed_of_read later read (Or.inr ⟨m, member, rfl⟩)⟩

end PbChatroom
