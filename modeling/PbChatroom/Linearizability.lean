import PbChatroom.Lib.Reduction
import PbChatroom.ReplyRouting
import PbChatroom.Sequential
import PbChatroom.Statements

namespace PbChatroom
open Interleaving Relational

/-- The requests that write in one transaction: a message that sets no type, and
a claim. -/
def Flight.WritesOnce : Flight → Prop
  | .postMessage _ _ payload _ => ¬truthy payload.discussionType
  | .postClaim .. => True
  | _ => False

instance : DecidablePred Flight.WritesOnce
  | .postMessage _ _ payload _ => inferInstanceAs (Decidable (¬truthy payload.discussionType))
  | .postClaim .. => isTrue trivial
  | .refused .. | .postThread .. | .postAck .. => isFalse id

/-- The server that answers such a request at once, with all it reads and writes,
at the moment at which it gives it an id and a time. -/
def serial : Machine Db Request Flight Input where
  receive := Request.receive
  step x db f :=
    if f.WritesOnce then
      match x with
      | .transaction => (db, f)
      | .draw d => f.serve d d db
    else f.step x db

/-- As the rows stand, the caller may write in the thread and writes to `recipient`. -/
def Db.MayReply (db : Db) (t : Uuid) (caller recipient : String) : Prop :=
  ∃ creator primary, db.OpenedFor t creator primary ∧
    (caller = creator ∧ recipient = primary ∨ caller ≠ creator ∧
      (caller = primary ∨ caller ∈ (listRecipients db t).map RecipientRow.participantId) ∧ recipient = creator)

/-- A request between its transactions, and the same request of the server that
answers it at once: there it waits until the other has decided. -/
inductive Flight.Waits (db : Db) : Flight → Flight → Prop
  | alike {f} : (f.WritesOnce → f.Fresh ∨ f.Finished) → Waits db f f
  | listing {t caller payload thread creator primary} : ¬truthy payload.discussionType →
      db.OpenedFor t creator primary → thread.thread.createdBy = creator →
      thread.messages.head?.map Message.toParticipant = some primary →
      Waits db (.postMessage t caller payload (.listing thread)) (.postMessage t caller payload .start)
  | drawing {t caller payload recipient} : ¬truthy payload.discussionType → db.MayReply t caller.id recipient →
      Waits db (.postMessage t caller payload (.drawing recipient)) (.postMessage t caller payload .start)
  | appending {t caller payload recipient d} : ¬truthy payload.discussionType → db.MayReply t caller.id recipient →
      Waits db (.postMessage t caller payload (.appending recipient d)) (.postMessage t caller payload .start)
  | claiming t caller payload now :
      Waits db (.postClaim t caller payload (.claiming now)) (.postClaim t caller payload .start)

section Decision
variable {db db' : Db} {t : Uuid}

theorem Db.MayReply.later {caller recipient : String} (may : db.MayReply t caller recipient) (later : db.Later db') :
    db'.MayReply t caller recipient := by
  obtain ⟨creator, primary, opened, creates | ⟨other, member, same⟩⟩ := may
  · exact ⟨creator, primary, opened.later later, Or.inl creates⟩
  · refine ⟨creator, primary, opened.later later, Or.inr ⟨other, member.imp_right fun listed => ?_, same⟩⟩
    have before := Db.mem_recipientsOf_iff_exists.mp listed
    exact Db.mem_recipientsOf_iff_exists.mpr (later.listed before)

/-- What the check of a thread says that was read straight. -/
theorem resolveParticipants_ok_iff_mayReply {thread : ThreadWithMessages} {caller recipient creator primary : String}
    (opened : db.OpenedFor t creator primary) (byCreator : thread.thread.createdBy = creator)
    (forPrimary : thread.messages.head?.map Message.toParticipant = some primary) :
    resolveParticipants thread caller ((listRecipients db t).map RecipientRow.participantId) = .ok recipient ↔
      db.MayReply t caller recipient := by
  obtain ⟨seed, atHead, toPrimary⟩ := Option.map_eq_some_iff.mp forPrimary
  obtain ⟨rest, messages⟩ := List.head?_eq_some_iff.mp atHead
  rw [resolveParticipants_ok_iff]
  constructor
  · rintro ⟨seed', rest', messages', outcome⟩
    obtain ⟨rfl, _⟩ := List.cons.inj (messages.symm.trans messages')
    rw [byCreator, toPrimary] at outcome
    exact ⟨creator, primary, opened, outcome⟩
  · rintro ⟨creator', primary', opened', outcome⟩
    obtain ⟨rfl, rfl⟩ := opened.unique opened'
    refine ⟨seed, rest, messages, ?_⟩
    rw [byCreator, toPrimary]
    exact outcome

/-- Two straight reads of a thread decide alike. -/
theorem resolveParticipants_straight {thread thread' : ThreadWithMessages} {creator primary : String}
    (byCreator : thread.thread.createdBy = creator) (byCreator' : thread'.thread.createdBy = creator)
    (forPrimary : thread.messages.head?.map Message.toParticipant = some primary)
    (forPrimary' : thread'.messages.head?.map Message.toParticipant = some primary)
    (caller : String) (extra : List String) :
    resolveParticipants thread' caller extra = resolveParticipants thread caller extra := by
  obtain ⟨seed, atHead, toPrimary⟩ := Option.map_eq_some_iff.mp forPrimary
  obtain ⟨rest, messages⟩ := List.head?_eq_some_iff.mp atHead
  obtain ⟨seed', atHead', toPrimary'⟩ := Option.map_eq_some_iff.mp forPrimary'
  obtain ⟨rest', messages'⟩ := List.head?_eq_some_iff.mp atHead'
  unfold resolveParticipants
  rw [messages, messages']
  dsimp only
  rw [byCreator, byCreator', toPrimary, toPrimary']

end Decision

theorem serial_draw {db : Db} {f : Flight} (once : f.WritesOnce) (d : Draw) :
    serial.step (.draw d) db f = f.serve d d db := if_pos once

theorem serial_step {db : Db} {f : Flight} (more : ¬f.WritesOnce) (x : Input) :
    serial.step x db f = server.step x db f := if_neg more

section Calls
variable {db : Db} {t : Uuid} {caller : Participant} {d : Draw}

theorem serial_message {payload : MessageCreate} (untyped : ¬truthy payload.discussionType) :
    serial.step (.draw d) db (.postMessage t caller payload .start) =
      ((PostMessage.call t caller payload d db).1,
        .postMessage t caller payload (.done (PostMessage.call t caller payload d db).2)) := by
  have once : (Flight.postMessage t caller payload .start).WritesOnce := untyped
  rw [serial_draw once, serve_message]

theorem serial_claim {payload : ClaimRequest} : serial.step (.draw d) db (.postClaim t caller payload .start) =
    ((PostClaim.call t caller payload d db).1,
      .postClaim t caller payload (.done (PostClaim.call t caller payload d db).2)) := by
  have once : (Flight.postClaim t caller payload .start).WritesOnce := trivial
  rw [serial_draw once, serve_claim]

variable {payload : MessageCreate} {thread : ThreadWithMessages}

theorem PostMessage.call_absent (absent : getThreadWithMessages db t = none) :
    PostMessage.call t caller payload d db = (db, .error threadNotFound) := by
  rw [PostMessage.call, absent]

theorem PostMessage.call_refused {e : HTTPException} (read : getThreadWithMessages db t = some thread)
    (check : resolveParticipants thread caller.id ((listRecipients db t).map RecipientRow.participantId) = .error e) :
    PostMessage.call t caller payload d db = (db, .error e) := by
  rw [PostMessage.call, read]
  dsimp only
  rw [check]

/-- The last transaction of an untyped message is the call, if the check still
finds the recipient that it has found. -/
theorem PostMessage.call_appends {recipient : String} (untyped : ¬truthy payload.discussionType)
    (read : getThreadWithMessages db t = some thread) (check : resolveParticipants thread caller.id
      ((listRecipients db t).map RecipientRow.participantId) = .ok recipient) :
    PostMessage.step t caller payload .transaction db (.appending recipient d) =
      ((PostMessage.call t caller payload d db).1, .done (PostMessage.call t caller payload d db).2) := by
  rw [PostMessage.call, read]
  dsimp only
  rw [check]
  dsimp only [PostMessage.step]
  cases append : appendMessage db d.uuid t d.now caller.id recipient payload.body with
  | error e => cases e <;> rfl
  | ok appended =>
    obtain ⟨m, db'⟩ := appended
    cases given : payload.discussionType with
    | none => rfl
    | some discussionType =>
      have empty : ¬discussionType ≠ "" := fun nonempty => untyped (truthy_iff.mpr ⟨discussionType, given, nonempty⟩)
      dsimp only
      rw [if_neg empty, if_neg empty]

end Calls

/-- The store of a run in which all replies of all threads outlast the seed. -/
def Db.Straight (db : Db) : Prop := db.Sound ∧ ∀ t, db.SeedFirst t

theorem Db.Straight.read {db : Db} (straight : db.Straight) {t : Uuid} {creator primary : String}
    (opened : db.OpenedFor t creator primary) : ∃ thread, getThreadWithMessages db t = some thread ∧
      thread.thread.createdBy = creator ∧ thread.messages.head?.map Message.toParticipant = some primary := by
  obtain ⟨row, _, found, _⟩ := id opened
  obtain ⟨thread, read⟩ : ∃ thread, getThreadWithMessages db t = some thread :=
    ⟨_, by rw [getThreadWithMessages, found, Option.map_some]⟩
  obtain ⟨creator', primary', opened', facts⟩ := straight.1.straight_read (straight.2 t) read
  obtain ⟨rfl, rfl⟩ := opened.unique opened'
  exact ⟨thread, read, facts⟩

namespace Flight.Waits
variable {db db' : Db} {f f' : Flight}

theorem later (waits : f.Waits db f') (later : db.Later db') : f.Waits db' f' := by
  cases waits with
  | alike apart => exact .alike apart
  | listing untyped opened byCreator forPrimary => exact .listing untyped (opened.later later) byCreator forPrimary
  | drawing untyped may => exact .drawing untyped (may.later later)
  | appending untyped may => exact .appending untyped (may.later later)
  | claiming => exact .claiming ..

theorem eq_of_finished (waits : f.Waits db f') (finished : f.Finished) : f' = f := by
  cases waits with
  | alike => rfl
  | _ => exact finished.elim

/-- What one step has to show: it is a step of the partner too, or only the
request has moved on. -/
def Follows (db : Db) (f' : Flight) (after : Db × Flight) : Prop :=
  (∃ x', (serial.step x' db f').1 = after.1 ∧ Waits after.1 after.2 (serial.step x' db f').2) ∨
    after.1 = db ∧ Waits db after.2 f'

section Steps
variable {t : Uuid} {caller : Participant} {payload : MessageCreate} {d : Draw}

/-- The message is answered as it would be if nothing had happened meanwhile. -/
theorem follows_message (db : Db) (t : Uuid) (caller : Participant) (d : Draw)
    (untyped : ¬truthy payload.discussionType) : Follows db (.postMessage t caller payload .start)
      ((PostMessage.call t caller payload d db).1,
        .postMessage t caller payload (.done (PostMessage.call t caller payload d db).2)) := by
  refine Or.inl ⟨.draw d, ?_⟩
  rw [serial_message untyped]
  exact ⟨rfl, .alike fun _ => Or.inr trivial⟩

theorem follows_start (untyped : ¬truthy payload.discussionType) (straight : db.Straight) (x : Input) :
    Follows db (.postMessage t caller payload .start) (server.step x db (.postMessage t caller payload .start)) := by
  cases x with
  | draw d => exact Or.inr ⟨rfl, .alike fun _ => Or.inl (.postMessage ..)⟩
  | transaction =>
    cases read : getThreadWithMessages db t with
    | none =>
      have step : server.step .transaction db (.postMessage t caller payload .start) =
          (db, .postMessage t caller payload (.done (.error threadNotFound))) := by
        simp only [server, Flight.step, PostMessage.step, read]
      have answer := follows_message db t caller ⟨PbChatroom.reading 0 0, "", ""⟩ untyped
      rw [PostMessage.call_absent read] at answer
      rwa [step]
    | some thread =>
      have step : server.step .transaction db (.postMessage t caller payload .start) =
          (db, .postMessage t caller payload (.listing thread)) := by
        simp only [server, Flight.step, PostMessage.step, read]
      obtain ⟨creator, primary, opened, byCreator, forPrimary⟩ := straight.1.straight_read (straight.2 t) read
      rw [step]
      exact Or.inr ⟨rfl, .listing untyped opened byCreator forPrimary⟩

/-- The check looks at the thread as it was read and at the recipients as they
are now, and says what it would say of the thread as it is now. -/
theorem follows_listing {thread : ThreadWithMessages} {creator primary : String}
    (untyped : ¬truthy payload.discussionType) (straight : db.Straight) (opened : db.OpenedFor t creator primary)
    (byCreator : thread.thread.createdBy = creator)
    (forPrimary : thread.messages.head?.map Message.toParticipant = some primary) (x : Input) :
    Follows db (.postMessage t caller payload .start)
      (server.step x db (.postMessage t caller payload (.listing thread))) := by
  cases x with
  | draw d => exact Or.inr ⟨rfl, .listing untyped opened byCreator forPrimary⟩
  | transaction =>
    cases check : resolveParticipants thread caller.id ((listRecipients db t).map RecipientRow.participantId) with
    | error e =>
      have step : server.step .transaction db (.postMessage t caller payload (.listing thread)) =
          (db, .postMessage t caller payload (.done (.error e))) := by
        simp only [server, Flight.step, PostMessage.step, check]
      obtain ⟨now, read, byCreator', forPrimary'⟩ := straight.read opened
      rw [← resolveParticipants_straight byCreator byCreator' forPrimary forPrimary'] at check
      have answer := follows_message db t caller ⟨PbChatroom.reading 0 0, "", ""⟩ untyped
      rw [PostMessage.call_refused read check] at answer
      rwa [step]
    | ok recipient =>
      have step : server.step .transaction db (.postMessage t caller payload (.listing thread)) =
          (db, .postMessage t caller payload (.drawing recipient)) := by
        simp only [server, Flight.step, PostMessage.step, check]
      rw [step]
      exact Or.inr ⟨rfl, .drawing untyped ((resolveParticipants_ok_iff_mayReply opened byCreator forPrimary).mp check)⟩

theorem follows_drawing {recipient : String} (untyped : ¬truthy payload.discussionType)
    (may : db.MayReply t caller.id recipient) (x : Input) : Follows db (.postMessage t caller payload .start)
      (server.step x db (.postMessage t caller payload (.drawing recipient))) := by
  cases x with
  | draw d => exact Or.inr ⟨rfl, .appending untyped may⟩
  | transaction => exact Or.inr ⟨rfl, .drawing untyped may⟩

/-- Here the message takes effect: whoever might reply when the check was made
still may, and to the same recipient. -/
theorem follows_appending {recipient : String} (untyped : ¬truthy payload.discussionType) (straight : db.Straight)
    (may : db.MayReply t caller.id recipient) (x : Input) : Follows db (.postMessage t caller payload .start)
      (server.step x db (.postMessage t caller payload (.appending recipient d))) := by
  cases x with
  | draw _ => exact Or.inr ⟨rfl, .appending untyped may⟩
  | transaction =>
    obtain ⟨creator, primary, opened, _⟩ := id may
    obtain ⟨now, read, byCreator, forPrimary⟩ := straight.read opened
    have check := (resolveParticipants_ok_iff_mayReply opened byCreator forPrimary).mpr may
    have step : server.step .transaction db (.postMessage t caller payload (.appending recipient d)) =
        ((PostMessage.call t caller payload d db).1,
          .postMessage t caller payload (.done (PostMessage.call t caller payload d db).2)) := by
      simp only [server, Flight.step, PostMessage.call_appends untyped read check]
    rw [step]
    exact follows_message db t caller d untyped

theorem follows_claim {claim : ClaimRequest} {pc : PostClaim}
    (waits : Waits db (.postClaim t caller claim pc) (.postClaim t caller claim .start)) (x : Input) :
    Follows db (.postClaim t caller claim .start) (server.step x db (.postClaim t caller claim pc)) := by
  cases pc with
  | start =>
    cases x with
    | draw d => exact Or.inr ⟨rfl, .claiming ..⟩
    | transaction => exact Or.inr ⟨rfl, waits⟩
  | claiming now =>
    cases x with
    | draw d => exact Or.inr ⟨rfl, waits⟩
    | transaction =>
      refine Or.inl ⟨.draw ⟨now, "", ""⟩, ?_⟩
      rw [serial_claim]
      exact ⟨rfl, .alike fun _ => Or.inr trivial⟩
  | done => exact Or.inr ⟨rfl, waits⟩

end Steps

theorem writesOnce_step (x : Input) (db : Db) (f : Flight) : (server.step x db f).2.WritesOnce ↔ f.WritesOnce := by
  cases f <;> exact Iff.rfl

/-- Every step of a request is a step of its partner or takes effect later. -/
theorem step (waits : f.Waits db f') (straight : db.Straight) (x : Input) : Follows db f' (server.step x db f) := by
  cases waits with
  | alike apart =>
    by_cases once : f.WritesOnce
    · rcases apart once with fresh | finished
      · cases fresh with
        | postMessage => exact follows_start once straight x
        | postClaim => exact follows_claim (.alike apart) x
        | _ => exact absurd once id
      · rw [finished_absorbing x db f finished]
        exact Or.inr ⟨rfl, .alike apart⟩
    · refine Or.inl ⟨x, ?_⟩
      rw [serial_step once]
      exact ⟨rfl, .alike fun still => absurd ((writesOnce_step x db f).mp still) once⟩
  | listing untyped opened byCreator forPrimary =>
    exact follows_listing untyped straight opened byCreator forPrimary x
  | drawing untyped may => exact follows_drawing untyped may x
  | appending untyped may => exact follows_appending untyped straight may x
  | claiming => exact follows_claim (.claiming ..) x

end Flight.Waits

/-- A request of the server with statements and its partner in the serial server:
in the server with transactions there is one that stands for the first and waits
like the second. -/
def Call.Serialized (db : Db) (c : Call) (f' : Flight) : Prop := ∃ f, c.Stands db f ∧ f.Waits db f'

namespace Call.Serialized
variable {db : Db} {c : Call} {f' : Flight}

/-- An answered request changes nothing; every other statement is a step of the
partner too, or only the request has moved on. -/
theorem step (serialized : c.Serialized db f') (straight : db.Straight) (x : Input) :
    (¬c.flight.Finished ∧ ∃ x', (serial.step x' db f').1 = (statements.step x db c).1 ∧
      Serialized (statements.step x db c).1 (statements.step x db c).2 (serial.step x' db f').2) ∨
      (statements.step x db c).1 = db ∧ Serialized db (statements.step x db c).2 f' := by
  obtain ⟨f, stands, waits⟩ := serialized
  rcases stands.step x with ⟨store, after⟩ | ⟨_, same, after⟩
  · by_cases finished : c.flight.Finished
    · rw [← stands.finished finished] at finished
      have idle : f.step x db = (db, f) := finished_absorbing x db f finished
      have same : (c.step x db).1 = db := by rw [← store, idle]
      rw [idle, same] at after
      exact Or.inr ⟨same, f, after, waits⟩
    · rcases waits.step straight x with ⟨x', moved, waiting⟩ | ⟨idle, waiting⟩
      · rw [show (server.step x db f).1 = (c.step x db).1 from store] at moved waiting
        exact Or.inl ⟨finished, x', moved, (f.step x db).2, after, waiting⟩
      · have same : (c.step x db).1 = db := store.symm.trans idle
        rw [same] at after
        exact Or.inr ⟨same, (f.step x db).2, after, waiting⟩
  · exact Or.inr ⟨same, f, after, waits⟩

/-- The other requests notice of a statement that rows have been added. -/
theorem stable {x : Input} {other : Call} {g' : Flight} (serialized : c.Serialized db f')
    (waiting : other.Serialized db g') : other.Serialized (statements.step x db c).1 g' := by
  obtain ⟨f, stands, _⟩ := serialized
  obtain ⟨g, standing, waits⟩ := waiting
  have later : db.Later (statements.step x db c).1 := stands_step_later x stands
  exact ⟨g, standing.later later, waits.later later⟩

end Call.Serialized

/-- While all replies outlast the seed of their thread, the store is straight at
every moment of the run. -/
theorem Db.Straight.throughout {es : List (Event Request Input)}
    (outlast : ∀ t, (statements.run Calls.init es).store.RepliesOutlast t) :
    statements.Throughout (fun c => c.store.Straight) Calls.init es := by
  rw [Machine.throughout_iff]
  rintro before after rfl
  obtain ⟨before', _, here⟩ := statements_simulated Calls.simulated_init before
  obtain ⟨after', _, there⟩ := statements_simulated here after
  have later := run_later (server.run World.init before') after'
  rw [there.store, here.store, ← statements.run_append] at later
  rw [← here.store] at later ⊢
  refine ⟨(World.Straight.reachable "" before').sound.1, fun t => ?_⟩
  have reached := World.Straight.reachable t before'
  exact (reached.sound.1.seedFirst_iff reached.stamped).mpr ((outlast t).of_later later)

/-- Untyped messages and claims take effect at once: whatever other statements come
between those of their handlers, the run has the store and the answers of a run in
which each of them is served from beginning to end at one of its own moments between
its arrival and its answer. Only, no reply may be stored whose timestamp does not
outlast the seed of its thread. -/
theorem replies_linearizable {es : List (Event Request Input)}
    (outlast : ∀ t, (statements.run Calls.init es).store.RepliesOutlast t) :
    ∃ es', statements.Retimed (fun c => c.flight.Finished) Calls.init es es' ∧
      (serial.run World.init es').store = (statements.run Calls.init es).store ∧
      ∀ (i : Nat) c, (statements.run Calls.init es).pool[i]? = some c → c.flight.Finished →
        (serial.run World.init es').pool[i]? = some c.flight := by
  have start : Machine.Simulated Call.Serialized Calls.init World.init := ⟨rfl, rfl, fun _ _ at_i => nomatch at_i⟩
  have fresh : ∀ db request, Call.Serialized db (statements.receive request) (serial.receive request) :=
    fun db request => ⟨request.receive, .refl _, .alike fun _ => Or.inl request.receive_fresh⟩
  obtain ⟨es', retimed, same⟩ := Machine.reduces fresh
    (fun x db c f' straight serialized => serialized.step straight x)
    (fun x db c f' other g' serialized waiting => serialized.stable waiting) es start (Db.Straight.throughout outlast)
  refine ⟨es', retimed, same.store, fun i c at_i finished => ?_⟩
  obtain ⟨f', at_i', f, stands, waits⟩ := same.each i c at_i
  have answered : f = c.flight := stands.finished finished
  rw [← answered] at finished
  rwa [waits.eq_of_finished finished, answered] at at_i'

/-- While `b` is between the check and the write of a reply, `a` claims the thread
and writes in it. -/
def crossing : List (Event Request Input) :=
  .arrive (.postThread (some "a") ⟨some "b", [], "s", "hello", none, none⟩) ::
    .step 0 (.draw ⟨reading 0 1, "t", "m0"⟩) :: transactions 0 2 ++
    .arrive (.postMessage "t" (some "b") ⟨"hi", none⟩) :: transactions 1 4 ++
    .arrive (.postClaim "t" (some "a") "all") :: .step 2 (.draw ⟨reading 0 2, "", ""⟩) :: transactions 2 1 ++
    .arrive (.postMessage "t" (some "a") ⟨"and?", none⟩) :: transactions 3 4 ++
    .step 3 (.draw ⟨reading 1 0, "m2", ""⟩) :: .step 1 (.draw ⟨reading 2 0, "m1", ""⟩) ::
    transactions 1 1 ++ transactions 3 2 ++ transactions 1 1

theorem replies_linearizable_of_crossing : ∃ es',
    statements.Retimed (fun c => c.flight.Finished) Calls.init crossing es' ∧
    (serial.run World.init es').pool[1]?.bind (Flight.responded "t") =
      some ⟨"m1", "t", "b", "a", "hi", .message, "\x7b\x7d", nowIso (reading 2 0)⟩ := by
  have outlast : ∀ t, (statements.run Calls.init crossing).store.RepliesOutlast t := by
    intro t seed atSeed m member
    have one : ∀ m ∈ (statements.run Calls.init crossing).store.messages.rows, m.threadId = "t" := by decide
    obtain ⟨stored, rfl⟩ := Db.mem_messagesOf.mp (List.mem_of_mem_tail member)
    have here : ∀ seed ∈ (statements.run Calls.init crossing).store.seed? "t",
        ∀ m ∈ (statements.run Calls.init crossing).store.repliesOf "t",
          Db.Outlasts seed.createdAt.instant m.createdAt.instant := by decide
    rw [one m stored] at atSeed member
    exact here seed atSeed m member
  obtain ⟨es', retimed, _, answers⟩ := replies_linearizable outlast
  have answered :
      ((statements.run Calls.init crossing).pool[1]?.map fun c => decide c.flight.Finished) = some true := by
    decide
  obtain ⟨c, at_1, finished⟩ := Option.map_eq_some_iff.mp answered
  have response : ((statements.run Calls.init crossing).pool[1]?.bind fun c => c.flight.responded "t") =
      some ⟨"m1", "t", "b", "a", "hi", .message, "\x7b\x7d", nowIso (reading 2 0)⟩ := by decide
  rw [at_1] at response
  refine ⟨es', retimed, ?_⟩
  rw [answers 1 c at_1 (of_decide_eq_true finished)]
  exact response

end PbChatroom
