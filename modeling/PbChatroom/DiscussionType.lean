import PbChatroom.MessageLog

namespace PbChatroom
open Interleaving Relational

/-- The non-empty `discussion_type` in the body of the request. The handler of
an ack does not look at it. -/
def Request.carries : Request → Option String
  | .postThread _ body => body.discussionType.filter (· ≠ "")
  | .postMessage _ _ body => body.discussionType.filter (· ≠ "")
  | .postClaim .. | .postAck .. => none

/-- The type that the next transaction of the request writes to `t`. -/
def Flight.typing (t : Uuid) : Flight → Option String
  | .postThread _ _ (.typing result discussionType) => if result.id = t then some discussionType else none
  | .postMessage u _ _ (.typing _ discussionType) => if u = t then some discussionType else none
  | _ => none

/-- The message by which the request has brought the thread `t` from `db` to
`db'`, with the request. -/
def Flight.posts (t : Uuid) (db db' : Db) (f : Flight) : Option (Message × Request) :=
  (f.writing.filter fun m => m.threadId = t ∧ db'.messages.rows = db.messages.rows ++ [m]).map fun m => (m, f.request)

/-- The request, if it has a type to write to `t`. -/
def Flight.typist (t : Uuid) (f : Flight) : Option Request := (f.typing t).map fun _ => f.request

/-- The column `discussion_type` of the thread. -/
def Db.discussionType? (db : Db) (t : Uuid) : Option String := (db.column ThreadRow.discussionType t).join

theorem Flight.posts_of_same {t : Uuid} {db db' : Db} (f : Flight) (same : db'.messages.rows = db.messages.rows) :
    f.posts t db db' = none := by
  rw [posts, Option.map_eq_none_iff, Option.filter_eq_none_iff]
  intro m _ noted
  have grows := (of_decide_eq_true noted).2
  rw [same] at grows
  simp at grows

theorem Flight.posts_of_added {t : Uuid} {db db' : Db} {f : Flight} {m : Message} (writing : f.writing = some m)
    (added : db'.messages.rows = db.messages.rows ++ [m]) :
    f.posts t db db' = if m.threadId = t then some (m, f.request) else none := by
  rw [posts, writing, added, Option.filter_some]
  by_cases here : m.threadId = t <;> simp [here]

/-- The log gets the messages that are noted, and no others. -/
theorem Flight.Commits.messagesOf {db db' : Db} {f : Flight} (commits : Commits db f db') (t : Uuid) :
    db'.messagesOf t = db.messagesOf t ++ ((f.posts t db db').map Prod.fst).toList := by
  rw [Db.messagesOf, Db.messagesOf]
  rcases commits.messages with same | ⟨m, writing, added⟩
  · rw [f.posts_of_same same, same]
    simp
  · rw [posts_of_added writing added, added, List.filter_append]
    by_cases here : m.threadId = t <;> simp [here]

theorem Flight.typing_eq_some {t : Uuid} {f : Flight} {discussionType : String}
    (typing : f.typing t = some discussionType) :
    (∃ caller payload result, f = .postThread caller payload (.typing result discussionType) ∧ result.id = t) ∨
      ∃ caller payload result, f = .postMessage t caller payload (.typing result discussionType) := by
  unfold Flight.typing at typing
  split at typing
  · split at typing
    · cases typing
      exact Or.inl ⟨_, _, _, rfl, by assumption⟩
    · cases typing
  · split at typing
    · rename_i here
      cases typing
      subst here
      exact Or.inr ⟨_, _, _, rfl⟩
    · cases typing
  · cases typing

/-- Nothing but the two calls of `set_discussion_type` writes the column. -/
theorem Flight.Commits.discussionType? {db db' : Db} {f : Flight} (commits : Commits db f db') {t : Uuid}
    (untyped : f.typing t = none) : db'.discussionType? t = db.discussionType? t := by
  have of_column : db'.column ThreadRow.discussionType t = db.column ThreadRow.discussionType t →
      db'.discussionType? t = db.discussionType? t := congrArg Option.join
  cases commits with
  | nothing => rfl
  | @opens caller payload d seed _ _ created =>
    by_cases here : t = d.uuid
    · have absent : db.thread? t = none := here ▸ created.fresh
      rw [Db.discussionType?, Db.discussionType?, Db.column, Db.column, created.threads, if_pos here, absent]
      rfl
    · exact of_column (created.column here)
  | typesOpening caller payload result discussionType =>
    have other : ¬t = result.id := by
      rintro rfl
      simp [typing] at untyped
    apply of_column
    rw [Db.column, thread?_setDiscussionType, if_neg other, Db.column]
  | types u caller payload result discussionType =>
    have other : ¬t = u := by
      rintro rfl
      simp [typing] at untyped
    apply of_column
    rw [Db.column, thread?_setDiscussionType, if_neg other, Db.column]
  | posts _ appended | inserts _ appended | closes _ appended => exact of_column (appended.column t fun _ _ => rfl)
  | adds added => exact of_column (addRecipient_column added _ t)
  | claims => exact of_column (setClaim_column (fun _ _ => rfl) ..)
  | flips =>
    refine of_column (Db.column_updateThread ?_ t)
    exact fun _ => rfl
  | marks => rfl

theorem Flight.discussionType?_typing {db : Db} {f : Flight} (placed : f.Placed db) {t : Uuid} {discussionType : String}
    (typing : f.typing t = some discussionType) :
    (server.step .transaction db f).1.discussionType? t = some discussionType := by
  have writes : ∀ {row : ThreadRow}, db.thread? t = some row →
      (setDiscussionType db t discussionType).discussionType? t = some discussionType := by
    intro row found
    rw [Db.discussionType?, Db.column, thread?_setDiscussionType, if_pos rfl, found]
    rfl
  rcases typing_eq_some typing with ⟨caller, payload, result, rfl, rfl⟩ | ⟨caller, payload, result, rfl⟩
  · obtain ⟨row, _, found, _⟩ := placed
    exact writes found
  · obtain ⟨stored, inThread, _⟩ := placed
    obtain ⟨row, found⟩ := Option.isSome_iff_exists.mp (db.messages_thread result stored)
    exact writes (inThread ▸ found)

theorem carries_eq_some {discussionType : Option String} {type : String} (given : discussionType = some type)
    (nonempty : type ≠ "") : discussionType.filter (· ≠ "") = some type := by
  rw [given, Option.filter_some, if_pos (decide_eq_true nonempty)]

theorem carries_eq_none {discussionType : Option String} (untyped : ¬truthy discussionType) :
    discussionType.filter (· ≠ "") = none := by
  rw [Option.filter_eq_none_iff]
  intro type given nonempty
  exact untyped (truthy_iff.mpr ⟨type, given, of_decide_eq_true nonempty⟩)

/-- A request comes to have a type to write by the commit of its message, and
the type is the one that it carries. -/
theorem Flight.Moves.typing {db db' : Db} {f f' : Flight} (moves : Moves db f db' f') {t : Uuid}
    (untyped : f.typing t = none) : (f.posts t db db').bind (fun entry => entry.2.carries) = f'.typing t := by
  have quiet : db'.messages.rows = db.messages.rows → f'.typing t = none →
      (f.posts t db db').bind (fun entry => entry.2.carries) = f'.typing t := by
    intro same none
    rw [f.posts_of_same same, none, Option.bind_none]
  have posted : ∀ {m : Message}, f.writing = some m → db'.messages.rows = db.messages.rows ++ [m] →
      (f.posts t db db').bind (fun entry => entry.2.carries) = if m.threadId = t then f.request.carries else none := by
    intro m writing added
    rw [posts_of_added writing added]
    split <;> rfl
  cases moves with
  | refused => exact quiet rfl rfl
  | postThread move =>
    cases move with
    | idle => exact quiet rfl untyped
    | createsTyped d created given nonempty =>
      obtain ⟨rfl, create⟩ := createThread_ok created
      rw [posted rfl create.messages, Flight.request, Request.carries, carries_eq_some given nonempty]
      rfl
    | creates d created none =>
      obtain ⟨rfl, create⟩ := createThread_ok created
      rw [posted rfl create.messages, Flight.request, Request.carries, carries_eq_none none, ite_self]
      rfl
    | adds added | finishes added => exact quiet (congrArg _ (addRecipient_messages added)) rfl
    | _ => exact quiet rfl rfl
  | postMessage move =>
    cases move with
    | idle => exact quiet rfl untyped
    | appendsTyped append given nonempty =>
      obtain ⟨rfl, appended⟩ := appendMessage_ok append
      rw [posted rfl appended.messages, Flight.request, Request.carries, carries_eq_some given nonempty]
      rfl
    | appends append none =>
      obtain ⟨rfl, appended⟩ := appendMessage_ok append
      rw [posted rfl appended.messages, Flight.request, Request.carries, carries_eq_none none, ite_self]
      rfl
    | _ => exact quiet rfl rfl
  | postClaim move =>
    cases move with
    | claims => exact quiet (congrArg _ (setClaim_messages ..)) rfl
    | _ => exact quiet rfl rfl
  | postAck move =>
    cases move with
    | inserts inserted =>
      rw [posted rfl (PostAck.insertAck_ok inserted).messages, Flight.request, Request.carries, ite_self]
      rfl
    | closes append =>
      obtain ⟨rfl, appended⟩ := appendAck_ok append
      rw [posted rfl appended.messages, Flight.request, Request.carries, ite_self]
      rfl
    | _ => exact quiet rfl rfl

theorem Flight.typing_draw (t : Uuid) (d : Draw) (db : Db) (f : Flight) :
    (server.step (.draw d) db f).2.typing t = f.typing t := by
  cases f with
  | refused => rfl
  | postThread caller payload pc => cases pc <;> rfl
  | postMessage u caller payload pc => cases pc <;> rfl
  | postClaim u caller payload pc => cases pc <;> rfl
  | postAck u caller payload pc => cases pc <;> rfl

/-- The write of the type takes the type from the request. -/
theorem Flight.typing_done {t : Uuid} {f : Flight} {discussionType : String} (typing : f.typing t = some discussionType)
    (db : Db) : f.posts t db (server.step .transaction db f).1 = none ∧
      (server.step .transaction db f).2.typing t = none := by
  rcases typing_eq_some typing with ⟨caller, payload, result, rfl, rfl⟩ | ⟨caller, payload, result, rfl⟩
  · exact ⟨rfl, rfl⟩
  · exact ⟨rfl, rfl⟩

/-- The type to be written is the one in the body of the request. -/
def Flight.Faithful (t : Uuid) (f : Flight) : Prop :=
  ∀ discussionType, f.typing t = some discussionType → f.request.carries = some discussionType

theorem Flight.posts_request {t : Uuid} {db db' : Db} {f : Flight} {entry : Message × Request}
    (posts : f.posts t db db' = some entry) : entry.2 = f.request := by
  obtain ⟨m, _, rfl⟩ := Option.map_eq_some_iff.mp posts
  rfl

theorem Flight.Fresh.typing {f : Flight} (fresh : f.Fresh) (t : Uuid) : f.typing t = none := by
  cases fresh <;> rfl

theorem Flight.Finished.typing {f : Flight} (finished : f.Finished) (t : Uuid) : f.typing t = none := by
  unfold Finished at finished
  split at finished
  · rfl
  · rfl
  · rfl
  · rfl
  · rfl
  · exact finished.elim

theorem Flight.Faithful.step {t : Uuid} {f : Flight} (faithful : f.Faithful t) (x : Input) (db : Db) :
    (server.step x db f).2.Faithful t := by
  have moves := f.step_moves x db
  have same : (server.step x db f).2.request = f.request := moves.request
  intro discussionType typing'
  rw [same]
  cases x with
  | draw d => exact faithful discussionType (f.typing_draw t d db ▸ typing')
  | transaction =>
    cases typing : f.typing t with
    | none =>
      have noted := moves.typing typing
      rw [show (f.step .transaction db).2.typing t = some discussionType from typing'] at noted
      obtain ⟨entry, posts, carries⟩ := Option.bind_eq_some_iff.mp noted
      rwa [posts_request posts] at carries
    | some type =>
      rw [(f.typing_done typing db).2] at typing'
      cases typing'

/-- The request whose step writes its type to `t`. -/
def Flight.types (t : Uuid) : Input → Flight → Option Request
  | .transaction, f => f.typist t
  | .draw _, _ => none

/-- A request owes its type from the commit of its message to its own write. -/
theorem Flight.owes_step (t : Uuid) (x : Input) (db : Db) (f : Flight) :
    (((f.posts t db (server.step x db f).1).map Prod.snd).filter fun r => r.carries.isSome).toList ++
        (f.typist t).toList = (f.types t x).toList ++ ((server.step x db f).2.typist t).toList := by
  have moves := f.step_moves x db
  have same : (server.step x db f).2.request = f.request := moves.request
  cases x with
  | draw d =>
    rw [f.step_draw, f.posts_of_same rfl, typist, typist, f.typing_draw, same]
    rfl
  | transaction =>
    rw [types, typist, typist, same]
    cases typing : f.typing t with
    | some discussionType =>
      obtain ⟨posts, typing'⟩ := f.typing_done typing db
      rw [posts, typing']
      rfl
    | none =>
      have noted : (f.posts t db (server.step .transaction db f).1).bind (fun entry => entry.2.carries) =
        (server.step .transaction db f).2.typing t := moves.typing typing
      rw [← noted, Option.map_none, Option.toList_none, List.append_nil, List.nil_append]
      cases posts : f.posts t db (server.step .transaction db f).1 with
      | none => rfl
      | some entry =>
        rw [Option.map_some, posts_request posts, Option.filter_some, Option.bind_some, posts_request posts]
        cases f.request.carries <;> rfl

/-- The column holds what the last writer has written, and a step without a write
leaves it alone. -/
theorem Flight.column_step {t : Uuid} {f : Flight} {db : Db} {writers : List Request} (x : Input) (placed : f.Placed db)
    (faithful : f.Faithful t) (column : db.discussionType? t = writers.getLast?.bind Request.carries) :
    (server.step x db f).1.discussionType? t =
      (writers ++ (f.types t x).toList).getLast?.bind Request.carries := by
  have last : ∀ o : Option Request, o.toList.getLast? = o := fun o => by cases o <;> rfl
  rw [List.getLast?_append, last]
  cases x with
  | draw d =>
    rw [f.step_draw, types, Option.none_or]
    exact column
  | transaction =>
    cases writes : f.types t .transaction with
    | none =>
      rw [(f.step_commits .transaction db).discussionType? (Option.map_eq_none_iff.mp writes), column, Option.none_or]
    | some r =>
      obtain ⟨discussionType, typing, rfl⟩ := Option.map_eq_some_iff.mp writes
      rw [Flight.discussionType?_typing placed typing, Option.some_or, Option.bind_some, faithful discussionType typing]

/-- The message that the event commits to `t`, with its request. -/
def World.posts (t : Uuid) (w : World) : Event Request Input → Option (Message × Request)
  | .arrive _ => none
  | .step i x => (w.pool[i]?).bind fun f => f.posts t w.store (server.step x w.store f).1

/-- The request that writes its type to `t` with the event. -/
def World.types (t : Uuid) (w : World) : Event Request Input → Option Request
  | .arrive _ => none
  | .step i x => (w.pool[i]?).bind (Flight.types t x)

/-- The thread as its history tells it: `log` is what its messages are, with
their requests, and `writers` are the requests that have written their type. -/
structure World.Told (t : Uuid) (w : World) (log : List (Message × Request)) (writers : List Request) : Prop where
  sound : w.Sound
  faithful : ∀ f ∈ w.pool, f.Faithful t
  messages : w.store.messagesOf t = log.map Prod.fst
  column : w.store.discussionType? t = writers.getLast?.bind Request.carries
  owed : ((log.map Prod.snd).filter fun r => r.carries.isSome).Perm (writers ++ w.pool.filterMap (Flight.typist t))

theorem World.Told.exec {t : Uuid} {w : World} {log : List (Message × Request)} {writers : List Request}
    (told : w.Told t log writers) (e : Event Request Input) :
    World.Told t (server.exec w e) (log ++ (w.posts t e).toList) (writers ++ (w.types t e).toList) := by
  have sound := told.sound.exec e
  cases e with
  | arrive request =>
    have fresh : (server.receive request).typing t = none := request.receive_fresh.typing t
    have pool : (w.pool ++ [server.receive request]).filterMap (Flight.typist t) =
        w.pool.filterMap (Flight.typist t) := by
      rw [Machine.filterMap_split, Flight.typist, fresh, Option.map_none, Option.toList_none, List.filterMap_nil,
        List.append_nil, List.append_nil]
    rw [posts, types, Option.toList_none, List.append_nil, Option.toList_none, List.append_nil]
    refine ⟨sound, fun f member => ?_, told.messages, told.column, pool ▸ told.owed⟩
    rcases List.mem_append.mp member with old | new
    · exact told.faithful f old
    · intro discussionType typing
      rw [List.mem_singleton.mp new, fresh] at typing
      cases typing
  | step i x =>
    rw [posts, types]
    cases at_i : w.pool[i]? with
    | none =>
      rw [Option.bind_none, Option.bind_none, Option.toList_none, List.append_nil, Option.toList_none, List.append_nil]
      rwa [server.exec_idle x at_i]
    | some f =>
      rw [server.exec_step x at_i] at sound ⊢
      rw [Option.bind_some, Option.bind_some]
      have inPool := List.mem_of_getElem? at_i
      have commits := f.step_commits x w.store
      refine ⟨sound, fun g member => ?_, ?_, ?_, ?_⟩
      · rcases Machine.mem_pool_set member with rfl | old
        · exact (told.faithful f inPool).step x w.store
        · exact told.faithful g old
      · rw [commits.messagesOf t, told.messages, List.map_append, Option.toList_map]
      · exact Flight.column_step x (told.sound.2 f inPool) (told.faithful f inPool) told.column
      · have exchanged := Machine.filterMap_set (Flight.typist t) at_i (server.step x w.store f).2
        have balanced := f.owes_step t x w.store
        rw [List.perm_iff_count]
        intro r
        have owed := told.owed.count_eq r
        have exchanged := exchanged.count_eq r
        have balanced := congrArg (List.count r) balanced
        rw [List.map_append, List.filter_append]
        simp only [List.count_append, Option.toList_map, Option.toList_filter] at owed exchanged balanced ⊢
        omega

theorem World.told (t : Uuid) (es : List (Event Request Input)) :
    World.Told t (server.run World.init es) (server.observe (World.posts t) World.init es)
      (server.observe (World.types t) World.init es) := by
  refine server.run_history (H := fun w es => World.Told t w (server.observe (World.posts t) World.init es)
    (server.observe (World.types t) World.init es)) ?_ ?_ es
  · exact ⟨.init, fun _ member => (nomatch member), rfl, rfl, List.Perm.refl []⟩
  · intro es e told
    rw [server.observe_concat, server.observe_concat]
    exact told.exec e

/-- `log` are the messages of a thread with their requests, in the order of the
commits, and `writers` the requests in the order in which they have written their
type; once all requests are answered, each that carries a type has written it
once. The type of the thread is that of its latest message with a type exactly
if the last request to write carries the type of that message. -/
theorem discussion_type_iff (t : Uuid) (es : List (Event Request Input)) :
    let w := server.run World.init es
    let log := server.observe (World.posts t) World.init es
    let writers := server.observe (World.types t) World.init es
    w.store.messagesOf t = log.map Prod.fst ∧
    ((∀ f ∈ w.pool, f.Finished) → writers.Perm ((log.map Prod.snd).filter fun r => r.carries.isSome)) ∧
    (w.store.discussionType? t = (log.filterMap fun entry => entry.2.carries).getLast? ↔
      writers.getLast?.bind Request.carries = (log.filterMap fun entry => entry.2.carries).getLast?) := by
  intro w log writers
  have told := World.told t es
  refine ⟨told.messages, fun finished => ?_, by rw [told.column]⟩
  have settled : w.pool.filterMap (Flight.typist t) = [] := by
    refine List.filterMap_eq_nil_iff.mpr fun f member => ?_
    rw [Flight.typist, (finished f member).typing t, Option.map_none]
  have owed := told.owed
  rw [settled, List.append_nil] at owed
  exact owed.symm

/-- The escalation of `b` is committed after the message of `a` and writes its
type first: when both are answered, the thread is a design question. -/
theorem escalation_overwritten :
    let es := [.arrive (.postThread (some "a") ⟨some "b", [], "s", "hello", none, none⟩),
        .step 0 (.draw ⟨reading 0 1, "t", "m0"⟩)] ++ transactions 0 2 ++
      .arrive (.postMessage "t" (some "a") ⟨"how?", some "design_question"⟩) :: transactions 1 2 ++
      .step 1 (.draw ⟨reading 1 0, "m1", ""⟩) :: transactions 1 1 ++
      .arrive (.postMessage "t" (some "b") ⟨"not mine to decide", some "escalation"⟩) :: transactions 2 2 ++
      .step 2 (.draw ⟨reading 2 0, "m2", ""⟩) :: transactions 2 2 ++ transactions 1 1
    (∀ f ∈ (server.run World.init es).pool, f.Finished) ∧
      ((server.observe (World.posts "t") World.init es).filterMap fun entry => entry.2.carries).getLast? =
        some "escalation" ∧
      (server.run World.init es).store.discussionType? "t" = some "design_question" := by
  decide

end PbChatroom
