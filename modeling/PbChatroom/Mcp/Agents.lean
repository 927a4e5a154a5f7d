import PbChatroom.Mcp.AskPeer
import PbChatroom.Provenance

namespace PbChatroom
open Interleaving

/-- The request that the server gets from a call of a writing tool, if it gets one. -/
def ToolCall.request (c : Client) (call : ToolCall) : Option Request :=
  match call.posting c.baseUrl with
  | .error _ => none
  | .ok posting =>
    match c.deliver posting.path with
    | .endpoint endpoint => (endpoint.request posting.json c.participant.id).toOption
    | _ => none

/-- The request that the server gets from `chat_ask_peer`, where graphiti does not
answer. -/
def Client.question (c : Client) (topic target body : String) : Option Request :=
  match c.deliver "/api/threads" with
  | .endpoint endpoint => (endpoint.asked (questionBody topic target body) c.participant.id).toOption
  | _ => none

section Requests
variable {c : Client} {r : Request}

theorem serve_request (d d' : Draw) (db : Db) (f : Flight) : (f.serve d d' db).2.request = f.request := by
  have drives : ∀ n (s : Db × Flight), (server.drive (Flight.next d d') n s).2.request = s.2.request := by
    intro n
    induction n with
    | zero => exact fun _ => rfl
    | succ n ih =>
      intro s
      rw [Machine.drive, ih]
      exact (s.2.step_moves _ s.1).request
  exact drives 8 (db, f)

/-- The server runs no other request for a tool. -/
theorem ToolCall.ran_request (call : ToolCall) (c : Client) (d d' : Draw) (db : Db) :
    (call.run c d d' db).ran.map Flight.request = call.request c := by
  unfold run request
  cases call.posting c.baseUrl with
  | error => rfl
  | ok posting =>
    dsimp only
    rw [Posting.outcome, Client.post]
    cases c.deliver posting.path with
    | endpoint endpoint =>
      dsimp only
      cases endpoint.request posting.json c.participant.id with
      | error => rfl
      | ok r =>
        dsimp only
        rw [Option.map_some, serve_request, r.receive_request]
        rfl
    | _ => rfl

theorem postQuestion_request {σ : Type} (c : Client) (topic target body : String) (d d' : Draw) (db : Db) :
    (postQuestion c topic target body d d' db : AskOutcome σ).ran.map Flight.request =
      c.question topic target body := by
  unfold postQuestion Client.exchange Client.question
  cases c.deliver "/api/threads" with
  | endpoint endpoint =>
    dsimp only
    cases endpoint.asked (questionBody topic target body) c.participant.id with
    | error => rfl
    | ok r =>
      dsimp only
      rw [Option.map_some, serve_request, r.receive_request]
      rfl
  | _ => rfl

/-- The JSON of a writing tool is taken for a request to an existing thread or not at
all. -/
theorem Endpoint.request_addressed {endpoint : Endpoint} {json : JsonBody} {header : String}
    (taken : endpoint.request json header = .ok r) : r.header = some header ∧ ∃ t, r.addressed = some t := by
  unfold Endpoint.request at taken
  split at taken
  · cases taken
  · split at taken <;> cases taken
    exact ⟨rfl, _, rfl⟩
  · split at taken <;> cases taken
    exact ⟨rfl, _, rfl⟩
  · split at taken <;> cases taken
    exact ⟨rfl, _, rfl⟩

/-- Whatever thread id a writing tool is given, and wherever the path leads that it
makes of it, the request is to an existing thread, under the caller's id. -/
theorem ToolCall.request_addressed {call : ToolCall} (sends : call.request c = some r) :
    r.header = some c.participant.id ∧ ∃ t, r.addressed = some t := by
  unfold request at sends
  split at sends
  · cases sends
  · rename_i posting _
    split at sends
    · rename_i endpoint _
      cases taken : endpoint.request posting.json c.participant.id with
      | error =>
        rw [taken] at sends
        cases sends
      | ok r' =>
        rw [taken] at sends
        cases sends
        exact Endpoint.request_addressed taken
    · cases sends

theorem Client.question_cases {topic target body : String} (sends : c.question topic target body = some r) :
    r.header = some c.participant.id ∧
      (r = .postThread (some c.participant.id) (questionBody topic target body) ∨ ∃ t, r.addressed = some t) := by
  unfold question at sends
  split at sends
  · rename_i endpoint _
    cases endpoint with
    | threads =>
      cases sends
      exact ⟨rfl, Or.inl rfl⟩
    | messages t =>
      cases sends
      exact ⟨rfl, Or.inr ⟨t, rfl⟩⟩
    | claim => cases sends
    | ack t =>
      cases sends
      exact ⟨rfl, Or.inr ⟨t, rfl⟩⟩
  · cases sends

end Requests

/-- A request from one of the writing tools of an agent. -/
def Wrote (agents : Client → Prop) (r : Request) : Prop := ∃ c call, agents c ∧ ToolCall.request c call = some r

/-- A request from any of the tools of an agent. -/
def Asked (agents : Client → Prop) (r : Request) : Prop :=
  Wrote agents r ∨ ∃ c topic target body, agents c ∧ c.question topic target body = some r

/-- The participants that the agents act for. -/
def Agent (agents : Client → Prop) (p : String) : Prop := ∃ c, agents c ∧ p = c.participant.id

section Footprint
variable {agents : Client → Prop} {r : Request}

theorem Asked.header (asked : Asked agents r) : ∃ p, r.header = some p ∧ Agent agents p := by
  rcases asked with ⟨c, call, isAgent, sends⟩ | ⟨c, topic, target, body, isAgent, sends⟩
  · exact ⟨c.participant.id, (ToolCall.request_addressed sends).1, c, isAgent, rfl⟩
  · exact ⟨c.participant.id, (Client.question_cases sends).1, c, isAgent, rfl⟩

theorem Asked.opens {row : ThreadRow} (asked : Asked agents r) (opens : r.Opens row) :
    Agent agents row.createdBy ∧ ∃ topic : String, row.subject = s!"Design question: {topic}" := by
  obtain ⟨p, header, isAgent⟩ := asked.header
  cases r with
  | postThread sender given =>
    obtain ⟨byCreator, subject⟩ := opens
    cases header.symm.trans byCreator
    refine ⟨isAgent, ?_⟩
    rcases asked with ⟨c, call, _, sends⟩ | ⟨c, topic, target, body, _, sends⟩
    · obtain ⟨_, _, addressed⟩ := ToolCall.request_addressed sends
      cases addressed
    · rcases (Client.question_cases sends).2 with same | ⟨_, addressed⟩
      · cases same
        exact ⟨topic, subject.symm⟩
      · cases addressed
  | _ => exact opens.elim

theorem Wrote.not_opens {row : ThreadRow} (wrote : Wrote agents r) : ¬r.Opens row := by
  intro opens
  obtain ⟨c, call, _, sends⟩ := wrote
  obtain ⟨_, _, addressed⟩ := ToolCall.request_addressed sends
  cases r with
  | postThread => cases addressed
  | _ => exact opens.elim

/-- Tools cannot open threads by the back door. While only `chat_send`, `chat_ack` and
`chat_claim` are at work, with whatever arguments, there are no new threads and no
new recipients. Nothing that is there is taken back, and all that is new in the messages,
marks, claims, types and closings is put down to a request of theirs. -/
theorem writing_tools_footprint (es es' : List (Event Request Input))
    (live : World.Live (Wrote agents) (server.run World.init es)) (sent : ∀ r ∈ arrivals es', Wrote agents r) :
    let db := (server.run World.init es).store
    let db' := (server.run (server.run World.init es) es').store
    (∀ t, ((db'.thread? t).isSome ↔ (db.thread? t).isSome) ∧ db.SameRecipients t db') ∧
      db.Later db' ∧ db.Traced (Wrote agents) db' := by
  intro db db'
  have traced : db.Traced (Wrote agents) db' := (live.run es es' sent).2
  have later : db.Later db' := run_later (server.run World.init es) es'
  refine ⟨fun t => ?_, later, traced⟩
  refine ⟨⟨fun after => ?_, fun before => ?_⟩, fun p => ⟨fun after => ?_, fun before => ?_⟩⟩
  · obtain ⟨row', found'⟩ := Option.isSome_iff_exists.mp after
    rcases traced.threads t row' found' with ⟨row, found⟩ | ⟨r, wrote, opens⟩
    · exact Option.isSome_iff_exists.mpr ⟨row, found⟩
    · exact absurd opens wrote.not_opens
  · obtain ⟨row, found⟩ := Option.isSome_iff_exists.mp before
    obtain ⟨row', found', _⟩ := later.thread? found
    exact Option.isSome_iff_exists.mpr ⟨row', found'⟩
  · obtain ⟨r', found'⟩ := after
    rcases traced.recipients t p r' found' with old | ⟨row', r, _, wrote, opens, _⟩
    · exact old
    · exact absurd opens wrote.not_opens
  · exact later.listed before

/-- What agents do is done in the agents' names: while only tools are at work, all new
threads are questions that an agent has opened, all new messages come from agents,
and so do all new claims and marks. -/
theorem agents_footprint (es es' : List (Event Request Input))
    (live : World.Live (Asked agents) (server.run World.init es)) (sent : ∀ r ∈ arrivals es', Asked agents r) :
    let db := (server.run World.init es).store
    let db' := (server.run (server.run World.init es) es').store
    (∀ t row', db'.thread? t = some row' → db.thread? t = none →
      Agent agents row'.createdBy ∧ ∃ topic : String, row'.subject = s!"Design question: {topic}") ∧
    (∀ m ∈ db'.messages.rows, m ∉ db.messages.rows → Agent agents m.fromParticipant) ∧
    (∀ t row', db'.thread? t = some row' → ∀ p, row'.claim.claimedBy = some p →
      (∃ row, db.thread? t = some row ∧ row.claim = row'.claim) ∨ Agent agents p) ∧
    ∀ t p r', db'.recipient? t p = some r' → r'.ackedAt.isSome →
      (∃ r, db.recipient? t p = some r ∧ r.ackedAt.isSome) ∨ Agent agents p := by
  intro db db'
  have traced : db.Traced (Asked agents) db' := (live.run es es' sent).2
  have named : ∀ {r p}, Asked agents r → r.header = some p → Agent agents p := by
    intro r p asked header
    obtain ⟨q, header', isAgent⟩ := asked.header
    cases header.symm.trans header'
    exact isAgent
  refine ⟨fun t row' found' absent => ?_, fun m member new => ?_, fun t row' found' p claimed => ?_,
    fun t p r' found' acked => ?_⟩
  · rcases traced.threads t row' found' with ⟨row, found⟩ | ⟨r, asked, opens⟩
    · rw [absent] at found
      cases found
    · exact asked.opens opens
  · rcases traced.messages m member with old | ⟨r, asked, _, header, _⟩
    · exact absurd old new
    · exact named asked header
  · have isClaimed : row'.claim.claimedBy ≠ none := by
      rw [claimed]
      exact Option.some_ne_none p
    rcases traced.claims t row' found' isClaimed with old | ⟨q, scope, now, asked, same⟩
    · exact Or.inl old
    · rw [same] at claimed
      cases claimed
      exact Or.inr (named asked rfl)
  · rcases traced.marks t p r' found' acked with old | ⟨body, asked⟩
    · exact Or.inl old
    · exact Or.inr (named asked rfl)

end Footprint

section Scenario

/-- A session on the host, whose paths all lead where they should. -/
def hostClient (participant : Participant) : Client where
  baseUrl := "http://127.0.0.1:7476"
  participant := participant
  deliver path :=
    if path = "/api/threads" then .endpoint .threads
    else if path = "/api/threads/t/messages" then .endpoint (.messages "t")
    else .notFound

/-- A thread between two participants, ready for a reply. -/
def opening : List (Event Request Input) :=
  .arrive (.postThread (some "a") ⟨some "b", [], "s", "hello", none, none⟩) ::
    .step 0 (.draw ⟨reading 0 1, "t", "m0"⟩) :: transactions 0 2

end Scenario

/-- An agent replies, and there is still one thread. -/
theorem writing_tools_footprint_of_reply :
    let es' := .arrive (.postMessage "t" (some "b") ⟨"hi", none⟩) :: transactions 1 2 ++
      .step 1 (.draw ⟨reading 1 0, "m1", ""⟩) :: transactions 1 1
    (((server.run (server.run World.init opening) es').store.thread? "u").isSome ↔
      ((server.run World.init opening).store.thread? "u").isSome) := by
  intro es'
  have finished : ∀ f ∈ (server.run World.init opening).pool, f.Finished := by decide +kernel
  have sent : ∀ r ∈ arrivals es', Wrote (fun c => c = hostClient ⟨"b", rfl⟩) r := by
    intro r member
    rw [show arrivals es' = [.postMessage "t" (some "b") ⟨"hi", none⟩] by decide +kernel, List.mem_singleton] at member
    exact ⟨_, .chatSend "t" "hi" none, rfl, member ▸ by decide +kernel⟩
  exact ((writing_tools_footprint opening es' (fun f member => Or.inl (finished f member)) sent).1 "u").1

/-- An agent asks a peer. -/
theorem agents_footprint_of_question :
    let question : Request := .postThread (some "host") (questionBody "locks" "b" "why?")
    let es' := .arrive question :: .step 1 (.draw ⟨reading 1 0, "u", "m1"⟩) :: transactions 1 3
    ∃ row, (server.run (server.run World.init opening) es').store.thread? "u" = some row ∧
      ∃ topic : String, row.subject = s!"Design question: {topic}" := by
  intro question es'
  have finished : ∀ f ∈ (server.run World.init opening).pool, f.Finished := by decide +kernel
  have sent : ∀ r ∈ arrivals es', Asked (fun c => c = hostClient ⟨"host", rfl⟩) r := by
    intro r member
    rw [show arrivals es' = [question] by decide +kernel, List.mem_singleton] at member
    exact Or.inr ⟨_, "locks", "b", "why?", rfl, member ▸ by decide +kernel⟩
  obtain ⟨row, found⟩ : ∃ row, (server.run (server.run World.init opening) es').store.thread? "u" = some row :=
    Option.isSome_iff_exists.mp (by decide +kernel)
  have footprint := agents_footprint opening es' (fun f member => Or.inl (finished f member)) sent
  exact ⟨row, found, (footprint.1 "u" row found (by decide +kernel)).2⟩

end PbChatroom
