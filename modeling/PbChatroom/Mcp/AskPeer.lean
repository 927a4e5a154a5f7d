import Mathlib.Order.Defs.LinearOrder
import PbChatroom.Mcp.Tools

namespace PbChatroom
open Interleaving

section Groups

/-- `_derive_group_id` -/
def deriveGroupId (participant : String) : String :=
  if "container-".toList <+: participant.toList then
    let name := participant.toList.drop "container-".toList.length
    String.ofList (if "-auto".toList <:+ name then name.take (name.length - "-auto".toList.length) else name)
  else if "host".toList <+: participant.toList then "host"
  else participant

/-- The id of a container without the prefix. -/
theorem deriveGroupId_container (name : String) : deriveGroupId ("container-" ++ name) =
    if "-auto".toList <:+ name.toList then
      String.ofList (name.toList.take (name.toList.length - "-auto".toList.length))
    else name := by
  have split : ("container-" ++ name).toList = "container-".toList ++ name.toList := String.toList_append
  rw [deriveGroupId, split, if_pos (List.prefix_append ..), List.drop_left]
  dsimp only
  split
  · rfl
  · exact String.ofList_toList

/-- Which participants a group stands for: the container of its name, that
container's agent, and for `host` and ids that are no containers themselves. -/
theorem deriveGroupId_eq_iff {participant group : String} : deriveGroupId participant = group ↔
    participant = "container-" ++ group ∧ ¬"-auto".toList <:+ group.toList ∨
    participant = "container-" ++ (group ++ "-auto") ∨
    ¬"container-".toList <+: participant.toList ∧
      (if "host".toList <+: participant.toList then group = "host" else group = participant) := by
  by_cases container : "container-".toList <+: participant.toList
  · obtain ⟨rest, text⟩ := container
    obtain ⟨name, rfl⟩ : ∃ name, participant = "container-" ++ name := by
      refine ⟨String.ofList rest, String.toList_inj.mp ?_⟩
      rw [← text, String.toList_append, String.toList_ofList (l := rest)]
    have inj : ∀ {a b : String}, "container-" ++ a = "container-" ++ b ↔ a = b := by
      intro a b
      rw [← String.toList_inj, String.toList_append, String.toList_append, List.append_cancel_left_eq,
        String.toList_inj]
    rw [deriveGroupId_container, inj, inj, ← or_assoc, or_iff_left (fun other => other.1 ⟨rest, text⟩)]
    split
    · rename_i auto
      obtain ⟨stem, ends⟩ := auto
      have cut : name.toList.take (name.toList.length - "-auto".toList.length) = stem := by
        rw [← ends, List.length_append, Nat.add_sub_cancel, List.take_left]
      rw [cut]
      constructor
      · intro same
        refine Or.inr (String.toList_inj.mp ?_)
        rw [← same, String.toList_append, String.toList_ofList (l := stem), ends]
      · intro named
        rcases named with ⟨rfl, plain⟩ | rfl
        · exact absurd ⟨stem, ends⟩ plain
        · rw [String.toList_append, List.append_cancel_right_eq] at ends
          rw [ends, String.ofList_toList]
    · rename_i plain
      constructor
      · intro same
        exact Or.inl ⟨same, same ▸ plain⟩
      · intro named
        rcases named with ⟨same, _⟩ | rfl
        · exact same
        · exact absurd ⟨group.toList, String.toList_append.symm⟩ plain
  · have noContainer : ∀ rest, participant ≠ "container-" ++ rest := by
      rintro rest rfl
      exact container (by rw [String.toList_append]; exact List.prefix_append ..)
    rw [deriveGroupId, if_neg container, or_iff_right (fun same => noContainer _ same.1),
      or_iff_right (noContainer _), and_iff_right container]
    split
    · exact eq_comm
    · exact eq_comm

end Groups

section Facts
variable {σ : Type}

/-- An entry of what graphiti returns: a dict with a number under `score`, with
something else there or nothing at all; or no dict. -/
inductive Fact (σ : Type) where
  | scored (score : σ)
  | misscored
  | unscored
  | noDict
  deriving DecidableEq, Repr

/-- What `search_facts` raises or returns: a list, or other JSON, which `max` and
`get` raise on. -/
inductive Found (σ : Type) where
  | raised
  | list (facts : List (Fact σ))
  | other
  deriving DecidableEq, Repr

/-- `f.get('score', 0)`, where it is a number -/
def Fact.score (zero : σ) : Fact σ → Option σ
  | .scored score => some score
  | .unscored => some zero
  | .misscored | .noDict => none

/-- The keys that `max` compares. -/
def scores (zero : σ) : List (Fact σ) → Option (List σ)
  | [] => some []
  | f :: facts =>
    match f.score zero, scores zero facts with
    | some key, some keys => some (key :: keys)
    | _, _ => none

/-- The key that `max` ends with: the first of the largest. -/
def maxKey [LT σ] [DecidableLT σ] (best : σ) : List σ → σ
  | [] => best
  | key :: keys => maxKey (if best < key then key else best) keys

/-- Graphiti answers the question. A fact with no number for its score raises, if
not in `max` then in the comparison behind it. -/
def Found.answers [LT σ] [DecidableLT σ] [LE σ] [DecidableLE σ] (zero threshold : σ) : Found σ → Bool
  | .list facts =>
    match scores zero facts with
    | some (best :: keys) => decide (threshold ≤ maxKey best keys)
    | _ => false
  | _ => false

theorem scores_eq_some_iff {zero : σ} {facts : List (Fact σ)} {keys : List σ} :
    scores zero facts = some keys ↔ facts.map (Fact.score zero) = keys.map some := by
  induction facts generalizing keys with
  | nil => cases keys <;> simp [scores]
  | cons f facts ih =>
    rw [scores, List.map_cons]
    cases keys with
    | nil =>
      refine iff_of_false ?_ (List.cons_ne_nil _ _)
      split <;> exact fun same => nomatch same
    | cons key keys =>
      rw [List.map_cons, List.cons.injEq, ← ih]
      split
      · rename_i atKey atKeys
        rw [atKey, atKeys]
        simp
      · rename_i fails
        refine iff_of_false (fun same => nomatch same) fun same => ?_
        exact fails key keys same.1 same.2

theorem le_maxKey_iff [LinearOrder σ] {threshold best : σ} {keys : List σ} :
    threshold ≤ maxKey best keys ↔ ∃ key ∈ best :: keys, threshold ≤ key := by
  induction keys generalizing best with
  | nil => simp [maxKey]
  | cons key keys ih =>
    have larger : (if best < key then key else best) = max best key := (max_def_lt best key).symm
    rw [maxKey, larger, ih]
    simp only [List.mem_cons, exists_eq_or_imp, le_max_iff, or_assoc]

/-- All facts have to have a score, and one of them a relevant one. -/
theorem Found.answers_iff [LinearOrder σ] {zero threshold : σ} {found : Found σ} : found.answers zero threshold ↔
    ∃ facts, found = .list facts ∧ (∀ f ∈ facts, (f.score zero).isSome) ∧
      ∃ f ∈ facts, ∃ score ∈ f.score zero, threshold ≤ score := by
  cases found with
  | raised => simp [answers]
  | other => simp [answers]
  | list facts =>
    constructor
    · intro answers
      refine ⟨facts, rfl, ?_⟩
      rw [Found.answers] at answers
      split at answers
      · rename_i best keys atKeys
        have mapped := scores_eq_some_iff.mp atKeys
        obtain ⟨key, member, relevant⟩ := le_maxKey_iff.mp (of_decide_eq_true answers)
        constructor
        · intro f inFacts
          have inKeys : f.score zero ∈ (best :: keys).map some := mapped ▸ List.mem_map_of_mem inFacts
          obtain ⟨_, _, same⟩ := List.mem_map.mp inKeys
          rw [← same]
          rfl
        · have inScores : some key ∈ facts.map (Fact.score zero) := mapped ▸ List.mem_map_of_mem member
          obtain ⟨f, inFacts, same⟩ := List.mem_map.mp inScores
          exact ⟨f, inFacts, key, same, relevant⟩
      · cases answers
    · rintro ⟨_, same, all, f, inFacts, score, atScore, relevant⟩
      cases same
      have mapped : facts.map (Fact.score zero) = (facts.filterMap (Fact.score zero)).map some := by
        rw [List.map_filterMap, ← List.filterMap_eq_map]
        refine List.filterMap_congr fun g member => ?_
        obtain ⟨key, atKey⟩ := Option.isSome_iff_exists.mp (all g member)
        simp [atKey]
      have member : score ∈ facts.filterMap (Fact.score zero) := List.mem_filterMap.mpr ⟨f, inFacts, atScore⟩
      rw [Found.answers, scores_eq_some_iff.mpr mapped]
      cases keys : facts.filterMap (Fact.score zero) with
      | nil =>
        rw [keys] at member
        cases member
      | cons best rest => exact decide_eq_true (le_maxKey_iff.mpr ⟨score, keys ▸ member, relevant⟩)

end Facts

section Tool
variable {σ : Type}

/-- The JSON of `chat_ask_peer`. -/
def questionBody (topic target body : String) : ThreadCreateBody :=
  ⟨some target, [], s!"Design question: {topic}", body, some "design_question", none⟩

/-- What the server makes of that JSON, at any of its endpoints. -/
def Endpoint.asked (json : ThreadCreateBody) (header : String) : Endpoint → Except String Request
  | .threads => .ok (.postThread (some header) json)
  | .messages t => .ok (.postMessage t (some header) ⟨json.body, json.discussionType⟩)
  | .claim _ => .error "scope"
  | .ack t => .ok (.postAck t (some header) (some ⟨json.body, json.discussionType⟩))

/-- A POST with any JSON. -/
def Client.exchange (c : Client) (d d' : Draw) (db : Db) (path : String) (request : Endpoint → Except String Request) :
    Exchange :=
  match c.deliver path with
  | .endpoint endpoint =>
    match request endpoint with
    | .error field => ⟨db, none, .response 422 (some (.missing field))⟩
    | .ok request =>
      let served := request.receive.serve d d' db
      ⟨served.1, some served.2, served.2.reply⟩
  | .notFound => ⟨db, none, .response 404 (some (.error (.text "Not Found")))⟩
  | .methodNotAllowed => ⟨db, none, .response 405 (some (.error (.text "Method Not Allowed")))⟩
  | .redirected => ⟨db, none, .response 307 none⟩
  | .connectError => ⟨db, none, .connectError⟩
  | .unsent => ⟨db, none, .raised⟩

theorem Client.post_eq_exchange (c : Client) (d d' : Draw) (db : Db) (path : String) (json : JsonBody) :
    c.post d d' db path json = c.exchange d d' db path (Endpoint.request json c.participant.id) := by
  unfold post exchange
  rfl

/-- What `chat_ask_peer` returns, if it does not raise. -/
inductive AskResult (σ : Type) where
  | graphiti (facts : List (Fact σ))
  | dict (json : Json)
  | text (error : String)
  | raised

structure AskOutcome (σ : Type) where
  store : Db
  ran : Option Flight
  result : AskResult σ

/-- The second half of `chat_ask_peer`, which posts the question. -/
def postQuestion (c : Client) (topic target body : String) (d d' : Draw) (db : Db) : AskOutcome σ :=
  let exchange := c.exchange d d' db "/api/threads" (Endpoint.asked (questionBody topic target body) c.participant.id)
  { store := exchange.store
    ran := exchange.ran
    result :=
      match exchange.reply with
      | .response _ (some json) => .dict json
      | .response _ none => .raised
      | .connectError => .text s!"server unreachable at {c.baseUrl}"
      | .raised => .raised }

/-- `chat_ask_peer`; `search` is what graphiti finds for a query in a group. -/
def chatAskPeer [LT σ] [DecidableLT σ] [LE σ] [DecidableLE σ] (c : Client) (search : String → String → Found σ)
    (zero threshold : σ) (topic target body : String) (d d' : Draw) (db : Db) : AskOutcome σ :=
  match search topic (deriveGroupId target) with
  | .list facts =>
    if (Found.list facts).answers zero threshold then ⟨db, none, .graphiti facts⟩
    else postQuestion c topic target body d d' db
  | _ => postQuestion c topic target body d d' db

end Tool

section Serving
variable {d d' : Draw} {db : Db} {caller : Participant} {payload : ThreadCreate}

/-- A creating request with a type and one recipient that runs alone. -/
theorem serve_thread {discussionType : String} (typed : payload.discussionType = some discussionType)
    (nonempty : discussionType ≠ "") (single : payload.toParticipants = []) :
    (((db.thread? d.uuid).isSome ∨ db.MessageIdTaken d.uuid') →
      (Flight.postThread caller payload .start).serve d d' db =
        (db, .postThread caller payload (.done (.error internalServerError)))) ∧
    (¬((db.thread? d.uuid).isSome ∨ db.MessageIdTaken d.uuid') → ∃ created db₁ db₂,
      createThread db d.uuid d.uuid' d.now payload.subject caller.id payload.primary payload.body =
        .ok (created, db₁) ∧
      addRecipient (setDiscussionType db₁ created.id discussionType) created.id payload.primary = some db₂ ∧
      (Flight.postThread caller payload .start).serve d d' db = (db₂, .postThread caller payload (.done (.ok
        { created with discussionType := some discussionType, recipients := payload.allRecipients })))) := by
  have extras : payload.extras = [] := by rw [ThreadCreate.extras, single, List.drop_nil]
  have draws : server.step (.draw d) db (.postThread caller payload .start) =
      (db, .postThread caller payload (.creating d)) := rfl
  constructor
  · intro taken
    obtain ⟨e, failed⟩ : ∃ e, createThread db d.uuid d.uuid' d.now payload.subject caller.id payload.primary
        payload.body = .error e := createThread_of_taken taken
    have fails : server.step .transaction db (.postThread caller payload (.creating d)) =
        (db, .postThread caller payload (.done (.error internalServerError))) := by
      simp only [server, Flight.step, PostThread.step, failed]
    rw [Flight.serve, drive_succ (f := .postThread caller payload .start) draws,
      drive_succ (f := .postThread caller payload (.creating d)) fails]
    exact drive_done trivial
  · intro free
    obtain ⟨thread, message⟩ := not_or.mp free
    obtain ⟨created, db₁, create⟩ : ∃ result db', createThread db d.uuid d.uuid' d.now payload.subject caller.id
        payload.primary payload.body = .ok (result, db') := createThread_of_free thread message
    obtain ⟨rfl, creates⟩ := createThread_ok create
    let typedRow : ThreadRow := ⟨d.uuid, payload.subject, caller.id, .opened, nowUtc d.now, nowUtc d.now,
      some discussionType, ⟨none, none, none⟩⟩
    have found : (setDiscussionType db₁ d.uuid discussionType).thread? d.uuid = some typedRow := by
      rw [thread?_setDiscussionType, if_pos rfl, creates.threads, if_pos rfl]
      rfl
    obtain ⟨db₂, added⟩ : ∃ db₂, addRecipient (setDiscussionType db₁ d.uuid discussionType) d.uuid payload.primary =
        some db₂ := Db.insertOrIgnoreRecipient?_of_thread ⟨d.uuid, payload.primary, none⟩ found
    refine ⟨_, db₁, db₂, create, added, ?_⟩
    let created : CreatedThread := ⟨d.uuid, payload.subject, caller.id, .opened, nowUtc d.now, nowUtc d.now, none, []⟩
    let named : CreatedThread := { created with discussionType := some discussionType }
    have opens : server.step .transaction db (.postThread caller payload (.creating d)) =
        (db₁, .postThread caller payload (.typing created discussionType)) := by
      simp only [server, Flight.step, PostThread.step, create, typed, ne_eq, nonempty, not_false_eq_true, if_true]
      rfl
    have types : server.step .transaction db₁ (.postThread caller payload (.typing created discussionType)) =
        (setDiscussionType db₁ d.uuid discussionType,
          .postThread caller payload (.adding named payload.primary [])) := by
      simp only [server, Flight.step, PostThread.step, PostThread.beginAdding, extras]
      rfl
    have adds : server.step .transaction (setDiscussionType db₁ d.uuid discussionType)
        (.postThread caller payload (.adding named payload.primary [])) =
          (db₂, .postThread caller payload (.done (.ok { named with recipients := payload.allRecipients }))) := by
      simp only [server, Flight.step, PostThread.step, named, created, added]
    rw [Flight.serve, drive_succ (f := .postThread caller payload .start) draws,
      drive_succ (f := .postThread caller payload (.creating d)) opens,
      drive_succ (f := .postThread caller payload (.typing created discussionType)) types,
      drive_succ (f := .postThread caller payload (.adding named payload.primary [])) adds]
    exact drive_done trivial

end Serving

section Questions
variable {σ : Type} {topic target body : String}

/-- What the server asks of a question: the subject has seventeen characters of
its own. -/
def Askable (topic target body : String) : Prop :=
  target ≠ "" ∧ topic.length ≤ 183 ∧ 1 ≤ body.length ∧ body.length ≤ 10000

theorem questionBody_validate_iff :
    (∃ payload, ThreadCreate.validate (questionBody topic target body) = .ok payload) ↔ Askable topic target body := by
  have subject : (questionBody topic target body).subject.length = 17 + topic.length := by
    have text : (questionBody topic target body).subject = "Design question: " ++ topic := rfl
    rw [text, String.length_append]
    rfl
  have named : truthy (questionBody topic target body).toParticipant = true ↔ target ≠ "" := by
    simp [questionBody, truthy]
  have typed : truthy (questionBody topic target body).discussionType →
      (questionBody topic target body).discussionType ∈ discussionTypes.map some := by
    intro _
    exact List.mem_map_of_mem (show "design_question" ∈ discussionTypes by decide)
  constructor
  · rintro ⟨payload, accepted⟩
    have same := ThreadCreate.validate_eq accepted
    have length := payload.subjectLength
    have bodyLength := payload.bodyLength
    have recipient := payload.atLeastOneRecipient
    rw [same] at length bodyLength recipient
    rw [subject] at length
    refine ⟨named.mp (recipient.resolve_right fun nonempty => nonempty rfl), by omega, bodyLength⟩
  · rintro ⟨given, short, bodyLength⟩
    have subjectLength : 1 ≤ (questionBody topic target body).subject.length ∧
        (questionBody topic target body).subject.length ≤ 200 := by omega
    let payload : ThreadCreate :=
      ⟨questionBody topic target body, subjectLength, bodyLength, Or.inl (named.mpr given), typed⟩
    exact ⟨payload, payload.validate_body⟩

/-- The question is a thread of its own, which the caller has opened for the
target, and the tool returns it. -/
structure AskOutcome.Asks (db : Db) (caller topic target body : String) (d : Draw) (o : AskOutcome σ) : Prop where
  returned : ∃ result, o.result = .dict (.thread result) ∧ result.id = d.uuid ∧ result.recipients = [target]
  fresh : db.thread? d.uuid = none
  thread : o.store.thread? d.uuid = some ⟨d.uuid, s!"Design question: {topic}", caller, .opened, nowUtc d.now,
    nowUtc d.now, some "design_question", ⟨none, none, none⟩⟩
  messages : o.store.messagesOf d.uuid =
    [⟨d.uuid', d.uuid, caller, target, body, .message, "\x7b\x7d", nowUtc d.now⟩]
  recipients : o.store.recipientsOf d.uuid = [⟨d.uuid, target, none⟩]
  others : ∀ u, u ≠ d.uuid → db.SameThread u o.store

section Asking
variable {c : Client} {d d' : Draw} {db : Db}

theorem chatAskPeer_of_answers [LinearOrder σ] {search : String → String → Found σ} {zero threshold : σ}
    (relevant : (search topic (deriveGroupId target)).answers zero threshold) :
    ∃ facts, search topic (deriveGroupId target) = .list facts ∧
      chatAskPeer c search zero threshold topic target body d d' db = ⟨db, none, .graphiti facts⟩ := by
  rw [chatAskPeer]
  cases found : search topic (deriveGroupId target) with
  | list facts =>
    rw [found] at relevant
    exact ⟨facts, rfl, if_pos relevant⟩
  | raised | other =>
    rw [found] at relevant
    cases relevant

theorem chatAskPeer_of_thin [LinearOrder σ] {search : String → String → Found σ} {zero threshold : σ}
    (thin : ¬(search topic (deriveGroupId target)).answers zero threshold) :
    chatAskPeer c search zero threshold topic target body d d' db = postQuestion c topic target body d d' db := by
  rw [chatAskPeer]
  cases found : search topic (deriveGroupId target) with
  | list facts =>
    rw [found] at thin
    exact if_neg thin
  | raised | other => rfl

theorem postQuestion_result (facts : List (Fact σ)) :
    (postQuestion c topic target body d d' db : AskOutcome σ).result ≠ .graphiti facts := by
  rw [postQuestion]
  dsimp only
  split <;> exact fun same => nomatch same

/-- The question that the server does not take leaves no trace. -/
theorem postQuestion_of_refused (routes : c.deliver "/api/threads" = .endpoint .threads)
    (refused : ¬Askable topic target body) :
    ∃ detail, (postQuestion c topic target body d d' db : AskOutcome σ) =
      ⟨db, some (.refused (.postThread (some c.participant.id) (questionBody topic target body)) ⟨422, detail⟩),
        .dict (.error detail)⟩ := by
  cases accepted : ThreadCreate.validate (questionBody topic target body) with
  | ok payload => exact absurd (questionBody_validate_iff.mp ⟨payload, accepted⟩) refused
  | error e =>
    have received : (Request.postThread (some c.participant.id) (questionBody topic target body)).receive =
        .refused (.postThread (some c.participant.id) (questionBody topic target body)) (unprocessable e) := by
      simp only [Request.receive, accepted]
    refine ⟨.invalidBody e, ?_⟩
    simp only [postQuestion, Client.exchange, routes, Endpoint.asked, received, serve_refused]
    rfl

theorem postQuestion_of_askable (routes : c.deliver "/api/threads" = .endpoint .threads)
    (askable : Askable topic target body) : ∃ payload : ThreadCreate,
      payload.toThreadCreateBody = questionBody topic target body ∧
      (postQuestion c topic target body d d' db : AskOutcome σ).store =
        ((Flight.postThread c.participant payload .start).serve d d' db).1 ∧
      (postQuestion c topic target body d d' db : AskOutcome σ).result =
        match ((Flight.postThread c.participant payload .start).serve d d' db).2.reply with
        | .response _ (some json) => .dict json
        | .response _ none => .raised
        | .connectError => .text s!"server unreachable at {c.baseUrl}"
        | .raised => .raised := by
  obtain ⟨payload, accepted⟩ := questionBody_validate_iff.mpr askable
  have received : (Request.postThread (some c.participant.id) (questionBody topic target body)).receive =
      .postThread c.participant payload .start := by
    simp only [Request.receive, accepted, resolveParticipant_id]
  refine ⟨payload, ThreadCreate.validate_eq accepted, ?_, ?_⟩ <;>
    simp only [postQuestion, Client.exchange, routes, Endpoint.asked, received]

/-- What a question that the server takes becomes. -/
theorem postQuestion_cases (routes : c.deliver "/api/threads" = .endpoint .threads)
    (askable : Askable topic target body) :
    let o : AskOutcome σ := postQuestion c topic target body d d' db
    ((db.thread? d.uuid).isSome ∨ db.MessageIdTaken d.uuid') ∧ o.store = db ∧ o.result = .raised ∨
      ¬((db.thread? d.uuid).isSome ∨ db.MessageIdTaken d.uuid') ∧ o.Asks db c.participant.id topic target body d := by
  intro o
  obtain ⟨payload, same, store, result⟩ := postQuestion_of_askable (σ := σ) (d := d) routes askable
  have typed : payload.discussionType = some "design_question" := by rw [same]; rfl
  have single : payload.toParticipants = [] := by rw [same]; rfl
  have named : payload.toParticipant = some target := by rw [same]; rfl
  have isPrimary : payload.primary = target := by
    rw [ThreadCreate.primary, named]
    exact if_pos askable.1
  obtain ⟨clash, opens⟩ := serve_thread (d := d) typed (by decide) single
  by_cases taken : (db.thread? d.uuid).isSome ∨ db.MessageIdTaken d.uuid'
  · rw [clash taken] at store result
    exact Or.inl ⟨taken, store, result⟩
  · obtain ⟨created, db₁, db₂, create, added, served⟩ := opens taken
    obtain ⟨rfl, creates⟩ := createThread_ok create
    rw [served] at store result
    have typedHere := thread?_setDiscussionType db₁ d.uuid "design_question" d.uuid
    rw [if_pos rfl, creates.threads, if_pos rfl] at typedHere
    have absent : (setDiscussionType db₁ d.uuid "design_question").recipient? d.uuid payload.primary = none := by
      show db₁.recipient? d.uuid payload.primary = none
      rw [Db.recipient?, creates.recipients]
      exact Db.recipient?_eq_none creates.fresh _
    have noRecipients : (setDiscussionType db₁ d.uuid "design_question").recipientsOf d.uuid = [] := by
      show db₁.recipientsOf d.uuid = []
      rw [List.eq_nil_iff_forall_not_mem]
      intro r member
      rw [Db.mem_recipientsOf, Db.recipient?, creates.recipients] at member
      have unlisted := Db.recipient?_eq_none creates.fresh r.participantId
      rw [Db.recipient?, member] at unlisted
      cases unlisted
    refine Or.inr ⟨taken, ⟨⟨_, result, rfl, ?_⟩, creates.fresh, ?_, ?_, ?_, fun u other => ?_⟩⟩
    · rw [ThreadCreate.allRecipients, isPrimary, ThreadCreate.extras, single]
      rfl
    · rw [store, addRecipient_thread? added, typedHere, same]
      rfl
    · rw [store, Db.messagesOf_congr (addRecipient_messages added)]
      show db₁.messagesOf d.uuid = _
      rw [creates.messagesOf, if_pos rfl, Db.messagesOf_eq_nil creates.fresh, isPrimary, same]
      rfl
    · rw [store, addRecipient_recipientsOf added, noRecipients, if_pos ⟨rfl, absent⟩, isPrimary]
      rfl
    · rw [store]
      exact ((creates.sameThread rfl other).trans (Db.sameThread_updateThread other)).trans
        (addRecipient_sameThread added other)

end Asking

/-- When `chat_ask_peer` asks a peer: graphiti has to be silent, fail or have nothing
relevant, the question has to be one that the server takes, and its ids have to be
free. Else the store stays as it is, and the facts are returned exactly if graphiti
answers. -/
theorem ask_peer_iff [LinearOrder σ] {c : Client} (routes : c.deliver "/api/threads" = .endpoint .threads)
    (search : String → String → Found σ) (zero threshold : σ) (topic target body : String) (d d' : Draw) (db : Db) :
    let o := chatAskPeer c search zero threshold topic target body d d' db
    let found := search topic (deriveGroupId target)
    (o.Asks db c.participant.id topic target body d ↔ ¬found.answers zero threshold ∧ Askable topic target body ∧
      ¬((db.thread? d.uuid).isSome ∨ db.MessageIdTaken d.uuid')) ∧
    (¬o.Asks db c.participant.id topic target body d → o.store = db) ∧
    ∀ facts, o.result = .graphiti facts ↔ found = .list facts ∧ found.answers zero threshold := by
  intro o found
  by_cases relevant : found.answers zero threshold
  · obtain ⟨facts, here, same⟩ : ∃ facts, found = .list facts ∧ o = ⟨db, none, .graphiti facts⟩ :=
      chatAskPeer_of_answers relevant
    have silent : ¬o.Asks db c.participant.id topic target body d := by
      rintro ⟨⟨result, returned, _⟩, _⟩
      rw [same] at returned
      cases returned
    refine ⟨iff_of_false silent fun both => both.1 relevant, fun _ => by rw [same], fun facts' => ?_⟩
    rw [same, here, and_iff_left (here ▸ relevant)]
    constructor
    · intro returned
      cases returned
      rfl
    · intro found'
      cases found'
      rfl
  · have posts : o = postQuestion c topic target body d d' db := chatAskPeer_of_thin relevant
    have noFacts : ∀ facts, o.result = .graphiti facts ↔ found = .list facts ∧ found.answers zero threshold :=
      fun facts => iff_of_false (posts ▸ postQuestion_result facts) fun both => relevant both.2
    rw [and_iff_right relevant]
    by_cases askable : Askable topic target body
    · rw [and_iff_right askable]
      rcases postQuestion_cases (σ := σ) (d := d) routes askable with
        ⟨taken, store, raised⟩ | ⟨free, asks⟩
      · have silent : ¬o.Asks db c.participant.id topic target body d := by
          rintro ⟨⟨result, returned, _⟩, _⟩
          rw [posts, raised] at returned
          cases returned
        exact ⟨iff_of_false silent (not_not_intro taken), fun _ => posts ▸ store, noFacts⟩
      · rw [← posts] at asks
        exact ⟨iff_of_true asks free, fun silent => absurd asks silent, noFacts⟩
    · obtain ⟨detail, refused⟩ := postQuestion_of_refused (σ := σ) (d := d) routes askable
      have silent : ¬o.Asks db c.participant.id topic target body d := by
        rintro ⟨⟨result, returned, _⟩, _⟩
        rw [posts, refused] at returned
        cases returned
      exact ⟨iff_of_false silent fun both => askable both.1, fun _ => by rw [posts, refused], noFacts⟩

/-- Graphiti has a fact that is not relevant enough, and the peer is asked. -/
theorem ask_peer_of_thin :
    let c : Client := ⟨"http://127.0.0.1:7476", ⟨"host", rfl⟩, fun _ => .endpoint .threads⟩
    let search : String → String → Found Nat := fun _ _ => .list [.scored 3, .unscored]
    (chatAskPeer c search 0 6 "locks" "container-acme" "why?" ⟨reading 0 1, "t", "m0"⟩ ⟨reading 0 2, "", ""⟩
      Db.empty).Asks Db.empty "host" "locks" "container-acme" "why?" ⟨reading 0 1, "t", "m0"⟩ := by
  intro c search
  have asks := ask_peer_iff (c := c) rfl search 0 6 "locks" "container-acme" "why?" ⟨reading 0 1, "t", "m0"⟩
    ⟨reading 0 2, "", ""⟩ Db.empty
  exact asks.1.mpr ⟨by decide, ⟨by decide, by decide, by decide, by decide⟩, by decide⟩

end Questions

end PbChatroom
