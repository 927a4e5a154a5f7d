import PbChatroom.Mcp.Agents

namespace PbChatroom
open Interleaving

/-- A tool with the arguments that it is called with. -/
inductive Called where
  | chatListThreads (toParticipant status : Option String)
  | chatReadThread (threadId : Option String)
  | writes (call : ToolCall)
  | chatAskPeer (topic targetParticipant body : String)
  deriving DecidableEq, Repr

/-- `call_tool` up to the call of the tool; `none` is the ValueError for a name that it
does not know. `chat_send` is always called without a type. -/
def callTool (name : String) (arguments : String → Option String) : Option Called :=
  match name with
  | "chat_list_threads" => some (.chatListThreads (arguments "to") (arguments "status"))
  | "chat_read_thread" => some (.chatReadThread (arguments "thread_id"))
  | "chat_send" =>
    some (.writes (.chatSend ((arguments "thread_id").getD "") ((arguments "body").getD "") none))
  | "chat_ack" => some (.writes (.chatAck ((arguments "thread_id").getD "") (arguments "body")))
  | "chat_claim" =>
    some (.writes (.chatClaim ((arguments "thread_id").getD "") ((arguments "scope").getD "")))
  | "chat_ask_peer" =>
    some (.chatAskPeer ((arguments "topic").getD "") ((arguments "target_participant").getD "")
      ((arguments "body").getD ""))
  | _ => none

/-- The write request that the server gets from a tool, if it gets one; the question of
`chat_ask_peer`, where graphiti does not answer. -/
def Called.request (c : Client) : Called → Option Request
  | .chatListThreads .. | .chatReadThread .. => none
  | .writes call => call.request c
  | .chatAskPeer topic targetParticipant body => c.question topic targetParticipant body

/-- A request from an agent, who can only name a tool and give it arguments. -/
def Dispatched (agents : Client → Prop) (r : Request) : Prop :=
  ∃ c name arguments called, agents c ∧ callTool name arguments = some called ∧ called.request c = some r

/-- Where questions are posted to the endpoint for new threads. -/
def Client.Routed (c : Client) : Prop := c.deliver "/api/threads" = .endpoint .threads

section Dispatch
variable {agents : Client → Prop} {c : Client} {r : Request}

theorem callTool_writes {name : String} {arguments : String → Option String} {call : ToolCall}
    (calls : callTool name arguments = some (.writes call)) : (∃ t body, call = .chatSend t body none) ∨
      (∃ t body, call = .chatAck t body) ∨ ∃ t scope, call = .chatClaim t scope := by
  unfold callTool at calls
  split at calls
  · cases calls
  · cases calls
  · cases calls
    exact Or.inl ⟨_, _, rfl⟩
  · cases calls
    exact Or.inr (Or.inl ⟨_, _, rfl⟩)
  · cases calls
    exact Or.inr (Or.inr ⟨_, _, rfl⟩)
  · cases calls
  · cases calls

/-- What a writing tool posts has a type only if it is called with one. -/
theorem callTool_untyped {name : String} {arguments : String → Option String} {call : ToolCall} {baseUrl : String}
    {posting : Posting} (calls : callTool name arguments = some (.writes call))
    (posts : call.posting baseUrl = .ok posting) : posting.json.discussionType = none := by
  rcases callTool_writes calls with ⟨t, body, rfl⟩ | ⟨t, body, rfl⟩ | ⟨t, scope, rfl⟩
  · simp only [ToolCall.posting, chatSend] at posts
    split at posts
    · cases posts
    · split at posts
      · cases posts
      · cases posts
        rfl
  · simp only [ToolCall.posting, chatAck] at posts
    split at posts
    · cases posts
    · cases posts
      rfl
  · simp only [ToolCall.posting, chatClaim] at posts
    split at posts
    · cases posts
    · split at posts
      · cases posts
      · cases posts
        rfl

theorem Endpoint.request_carries {endpoint : Endpoint} {json : JsonBody} {header : String}
    (taken : endpoint.request json header = .ok r) (untyped : json.discussionType = none) : r.carries = none := by
  unfold Endpoint.request at taken
  split at taken
  · cases taken
  · split at taken
    · cases taken
    · cases taken
      rw [Request.carries, untyped]
      rfl
  · split at taken <;> cases taken
    rfl
  · split at taken <;> cases taken
    rfl

/-- A request of an agent that carries a type is the question of a design. -/
theorem Dispatched.carries {discussionType : String} (dispatched : Dispatched agents r)
    (routed : ∀ c, agents c → c.Routed) (carries : r.carries = some discussionType) :
    ∃ c topic target body, agents c ∧ r = .postThread (some c.participant.id) (questionBody topic target body) := by
  obtain ⟨c, name, arguments, called, isAgent, calls, sends⟩ := dispatched
  cases called with
  | chatListThreads => cases sends
  | chatReadThread => cases sends
  | writes call =>
    rw [Called.request, ToolCall.request] at sends
    split at sends
    · cases sends
    · rename_i posting posts
      have untyped := callTool_untyped calls posts
      split at sends
      · rename_i endpoint _
        cases taken : endpoint.request posting.json c.participant.id with
        | error =>
          rw [taken] at sends
          cases sends
        | ok r' =>
          rw [taken] at sends
          cases sends
          rw [Endpoint.request_carries taken untyped] at carries
          cases carries
      · cases sends
  | chatAskPeer topic target body =>
    rw [Called.request, Client.question, routed c isAgent] at sends
    cases sends
    exact ⟨c, topic, target, body, isAgent, rfl⟩

end Dispatch

/-- While only agents are at work through `call_tool`, whatever tools they name and
whatever arguments they give, the one type that comes to be written is that of a
design question, and only on a thread that an agent has opened with one: no agent
can mark an escalation, and nobody's thread is given another type. -/
theorem agents_type_questions {agents : Client → Prop} (routed : ∀ c, agents c → c.Routed)
    (es es' : List (Event Request Input)) (live : World.Live (Dispatched agents) (server.run World.init es))
    (sent : ∀ r ∈ arrivals es', Dispatched agents r) :
    let db := (server.run World.init es).store
    let db' := (server.run (server.run World.init es) es').store
    ∀ t discussionType, db'.discussionType? t = some discussionType →
      db.discussionType? t = some discussionType ∨
        discussionType = "design_question" ∧ ∃ row', db'.thread? t = some row' ∧ Agent agents row'.createdBy ∧
          ∃ topic : String, row'.subject = s!"Design question: {topic}" := by
  intro db db' t discussionType typed
  have traced : db.Traced (Dispatched agents) db' := (live.run es es' sent).2
  refine (traced.types t discussionType typed).imp_right ?_
  rintro ⟨r, dispatched, isFor, carries⟩
  obtain ⟨c, topic, target, body, isAgent, rfl⟩ := dispatched.carries routed carries
  refine ⟨(Option.some.inj carries).symm, ?_⟩
  rcases isFor with addressed | ⟨row', found', sender, subject⟩
  · cases addressed
  · exact ⟨row', found', ⟨c, isAgent, (Option.some.inj sender).symm⟩, topic, subject.symm⟩

/-- An agent asks a peer through the server of the tools. -/
theorem agents_type_questions_of_question :
    let question : Request := .postThread (some "host") (questionBody "locks" "b" "why?")
    let es' := .arrive question :: .step 1 (.draw ⟨reading 1 0, "u", "m1"⟩) :: transactions 1 3
    (server.run (server.run World.init opening) es').store.discussionType? "u" = some "design_question" := by
  intro question es'
  let agents := fun c => c = hostClient ⟨"host", rfl⟩
  let arguments := fun
    | "topic" => some "locks"
    | "target_participant" => some "b"
    | "body" => some "why?"
    | _ => none
  have routed : ∀ c, agents c → c.Routed := by
    rintro _ rfl
    rfl
  have live : World.Live (Dispatched agents) (server.run World.init opening) := by
    have finished : ∀ f ∈ (server.run World.init opening).pool, f.Finished := by decide +kernel
    exact fun f member => Or.inl (finished f member)
  have sent : ∀ r ∈ arrivals es', Dispatched agents r := by
    intro r member
    rw [show arrivals es' = [question] by decide +kernel, List.mem_singleton] at member
    subst member
    refine ⟨hostClient ⟨"host", rfl⟩, "chat_ask_peer", arguments, .chatAskPeer "locks" "b" "why?", rfl, ?_, ?_⟩
    · decide +kernel
    · decide +kernel
  obtain ⟨discussionType, typed⟩ : ∃ discussionType,
      (server.run (server.run World.init opening) es').store.discussionType? "u" = some discussionType :=
    Option.isSome_iff_exists.mp (by decide +kernel)
  rcases agents_type_questions routed opening es' live sent "u" discussionType typed with before | ⟨rfl, _⟩
  · have untyped : (server.run World.init opening).store.discussionType? "u" = none := by decide +kernel
    rw [untyped] at before
    cases before
  · exact typed

end PbChatroom
