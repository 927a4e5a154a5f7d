import PbChatroom.Lib.Projection
import PbChatroom.Requests
import PbChatroom.Soundness
import PbChatroom.ThreadView

namespace PbChatroom
open Interleaving

/-- The thread in the path of a request. -/
def Request.addressed : Request → Option Uuid
  | .postThread .. => none
  | .postMessage t _ _ | .postClaim t _ _ | .postAck t _ _ => some t

/-- The request is addressed to the thread, or has created it. -/
def Flight.concerns (t : Uuid) (f : Flight) : Bool := f.request.addressed = some t ∨ f.creates = some t

theorem Flight.concerns_iff {t : Uuid} {f : Flight} :
    f.concerns t ↔ f.request.addressed = some t ∨ f.creates = some t := decide_eq_true_iff

section Elsewhere
variable {db db' : Db} {f f' : Flight} {t u : Uuid}

/-- A request that is addressed to one thread leaves all others. -/
theorem Flight.Commits.sameThread_of_addressed (commits : Commits db f db') (addressed : f.request.addressed = some t)
    (other : u ≠ t) : db.SameThread u db' := by
  cases commits with
  | nothing => exact .refl u db
  | opens => cases addressed
  | typesOpening => cases addressed
  | adds => cases addressed
  | posts writes appended | inserts writes appended | closes writes appended =>
    cases addressed
    cases writes
    exact appended.sameThread other
  | types =>
    cases addressed
    exact Db.sameThread_updateThread other
  | claims =>
    cases addressed
    exact setClaim_sameThread other
  | marks =>
    cases addressed
    exact Db.sameThread_updateRecipient other
  | flips =>
    cases addressed
    exact Db.sameThread_updateThread other

theorem Flight.Commits.sameThread (commits : Commits db f db') {row : ThreadRow} (found : db.thread? u = some row)
    (unconcerned : ¬f.concerns u) : db.SameThread u db' := by
  rw [Flight.concerns_iff, not_or] at unconcerned
  obtain ⟨notAddressed, notCreates⟩ := unconcerned
  cases addressed : f.request.addressed with
  | some t =>
    refine commits.sameThread_of_addressed addressed fun same => notAddressed ?_
    rw [addressed, same]
  | none =>
    cases commits with
    | nothing => exact .refl u db
    | opens writes created =>
      cases writes
      refine created.sameThread rfl fun same => ?_
      have free := created.fresh
      rw [← same, found] at free
      cases free
    | typesOpening => exact Db.sameThread_updateThread fun same => notCreates (congrArg some same.symm)
    | adds added => exact addRecipient_sameThread added fun same => notCreates (congrArg some same.symm)
    | _ => cases addressed

end Elsewhere

/-- Both transactions fail with the same error, or both succeed with related
results. -/
inductive Alike {α : Type} (R : α → α → Prop) : Except StoreError α → Except StoreError α → Prop
  | error e : Alike R (.error e) (.error e)
  | ok {a a'} : R a a' → Alike R (.ok a) (.ok a')

section Here
variable {db db' : Db} {t id : Uuid} (covers : db.Covers t db')
  (apart : ∀ old ∈ db.messages.rows, old.id = id → old.threadId = t)
include covers apart

theorem insertMsg_covers (sender receiver text : String) (kind : Kind) (metadata : String) (time : Timestamp) :
    Option.Rel (Db.Covers t) (insertMsg db id t sender receiver text kind metadata time)
      (insertMsg db' id t sender receiver text kind metadata time) :=
  Db.Covers.insertMessage? (m := ⟨id, t, sender, receiver, text, kind, metadata, time⟩) covers apart

/-- What the transactions that insert a message have in common. -/
theorem inserting_covers {α : Type} {R : α → α → Prop} (sender receiver text : String) (kind : Kind) (time : Timestamp)
    (finish : Db → α) (finishes : ∀ {here there : Db}, here.Covers t there → R (finish here) (finish there)) :
    Alike R
      (match db.thread? t with
        | none => .error (.threadNotFound t)
        | some _ =>
          match insertMsg db id t sender receiver text kind "\x7b\x7d" time with
          | none => .error .integrity
          | some here => .ok (finish here))
      (match db'.thread? t with
        | none => .error (.threadNotFound t)
        | some _ =>
          match insertMsg db' id t sender receiver text kind "\x7b\x7d" time with
          | none => .error .integrity
          | some there => .ok (finish there)) := by
  rw [covers.same.thread]
  cases db.thread? t with
  | none => exact .error _
  | some row =>
    dsimp only
    have inserts := insertMsg_covers covers apart sender receiver text kind "\x7b\x7d" time
    generalize insertMsg db id t sender receiver text kind "\x7b\x7d" time = here at inserts ⊢
    generalize insertMsg db' id t sender receiver text kind "\x7b\x7d" time = there at inserts ⊢
    cases inserts with
    | none => exact .error _
    | some inserted => exact .ok (finishes inserted)

theorem appendMessage_covers (now : DateTime) (sender receiver text : String) :
    Alike (fun a a' => a'.1 = a.1 ∧ a.2.Covers t a'.2) (appendMessage db id t now sender receiver text)
      (appendMessage db' id t now sender receiver text) :=
  inserting_covers covers apart sender receiver text .message (nowIso now) _ fun inserted =>
    ⟨rfl, inserted.updateThread⟩

theorem appendAck_covers (now : DateTime) (sender receiver text : String) :
    Alike (fun a a' => a'.1 = a.1 ∧ a.2.Covers t a'.2) (appendAck db id t now sender receiver text)
      (appendAck db' id t now sender receiver text) :=
  inserting_covers covers apart sender receiver text .ack (nowIso now) _ fun inserted =>
    ⟨rfl, inserted.updateThread⟩

end Here

theorem insertAck_covers {db db' : Db} {t : Uuid} {d : Draw} (covers : db.Covers t db')
    (apart : ∀ old ∈ db.messages.rows, old.id = d.uuid → old.threadId = t) (caller receiver text : String) :
    Alike (Db.Covers t) (PostAck.insertAck db t caller receiver text d)
      (PostAck.insertAck db' t caller receiver text d) :=
  inserting_covers covers apart caller receiver text .ack (nowIso d.now) _ fun inserted => inserted.updateThread

section Handlers
variable {db db' : Db} {t : Uuid} (covers : db.Covers t db') (caller : Participant)
include covers

/-- A call moves alike on both stores, if the id that it has drawn for its
message is not that of a message of some other thread. -/
theorem PostMessage.step_covers (payload : MessageCreate) (x : Input) (pc : PostMessage)
    (apart : ∀ recipient d, pc = .appending recipient d →
      ∀ old ∈ db.messages.rows, old.id = d.uuid → old.threadId = t) :
    (step t caller payload x db' pc).2 = (step t caller payload x db pc).2 ∧
      (step t caller payload x db pc).1.Covers t (step t caller payload x db' pc).1 := by
  cases x with
  | draw => cases pc <;> exact ⟨rfl, covers⟩
  | transaction =>
    cases pc with
    | start =>
      simp only [step, covers.same.getThreadWithMessages]
      split <;> exact ⟨rfl, covers⟩
    | listing thread =>
      simp only [step, listRecipients, covers.same.recipients]
      split <;> exact ⟨rfl, covers⟩
    | drawing => exact ⟨rfl, covers⟩
    | appending recipient d =>
      have appends := appendMessage_covers covers (apart recipient d rfl) d.now caller.id recipient payload.body
      simp only [step]
      generalize appendMessage db d.uuid t d.now caller.id recipient payload.body = here at appends ⊢
      generalize appendMessage db' d.uuid t d.now caller.id recipient payload.body = there at appends ⊢
      cases appends with
      | error e => cases e <;> exact ⟨rfl, covers⟩
      | @ok a a' both =>
        obtain ⟨result, here⟩ := a
        obtain ⟨result', there⟩ := a'
        obtain ⟨same, inserted⟩ := both
        cases same
        dsimp only
        split
        · exact ⟨rfl, inserted⟩
        · split <;> exact ⟨rfl, inserted⟩
    | typing => exact ⟨rfl, covers.updateThread⟩
    | done => exact ⟨rfl, covers⟩

theorem PostClaim.step_covers (payload : ClaimRequest) (x : Input) (pc : PostClaim) :
    (step t caller payload x db' pc).2 = (step t caller payload x db pc).2 ∧
      (step t caller payload x db pc).1.Covers t (step t caller payload x db' pc).1 := by
  cases x with
  | draw => cases pc <;> exact ⟨rfl, covers⟩
  | transaction =>
    cases pc with
    | start => exact ⟨rfl, covers⟩
    | claiming now =>
      obtain ⟨same, claimed⟩ := setClaim_covers covers caller.id payload.scope now
      exact ⟨congrArg (fun result => PostClaim.done (answer result)) same, claimed⟩
    | done => exact ⟨rfl, covers⟩

theorem PostAck.step_covers (payload : Option MessageCreate) (x : Input) (pc : PostAck)
    (apart : ∀ path recipient d, pc = .appending path recipient d →
      ∀ old ∈ db.messages.rows, old.id = d.uuid → old.threadId = t) :
    (step t caller payload x db' pc).2 = (step t caller payload x db pc).2 ∧
      (step t caller payload x db pc).1.Covers t (step t caller payload x db' pc).1 := by
  cases x with
  | draw => cases pc <;> exact ⟨rfl, covers⟩
  | transaction =>
    cases pc with
    | start =>
      simp only [step, covers.same.getThreadWithMessages]
      split <;> exact ⟨rfl, covers⟩
    | listing thread =>
      simp only [step, listRecipients, covers.same.recipients]
      split <;> exact ⟨rfl, covers⟩
    | drawing => exact ⟨rfl, covers⟩
    | appending path recipient d =>
      have free := apart path recipient d rfl
      cases path with
      | recipient =>
        have inserts := insertAck_covers covers free caller.id recipient (body payload)
        simp only [step]
        generalize insertAck db t caller.id recipient (body payload) d = here at inserts ⊢
        generalize insertAck db' t caller.id recipient (body payload) d = there at inserts ⊢
        cases inserts with
        | error => exact ⟨rfl, covers⟩
        | ok inserted => exact ⟨rfl, inserted⟩
      | closing =>
        have appends := appendAck_covers covers free d.now caller.id recipient (body payload)
        simp only [step]
        generalize appendAck db d.uuid t d.now caller.id recipient (body payload) = here at appends ⊢
        generalize appendAck db' d.uuid t d.now caller.id recipient (body payload) = there at appends ⊢
        cases appends with
        | error e => cases e <;> exact ⟨rfl, covers⟩
        | @ok a a' both =>
          obtain ⟨result, here⟩ := a
          obtain ⟨result', there⟩ := a'
          obtain ⟨same, inserted⟩ := both
          cases same
          exact ⟨rfl, inserted⟩
    | stamping => exact ⟨rfl, covers⟩
    | marking recipient d now => exact ⟨rfl, covers.updateRecipient caller.id (nowUtc now)⟩
    | checking =>
      simp only [step, covers.same.allRecipientsAcked]
      split <;> exact ⟨rfl, covers⟩
    | flipping => exact ⟨rfl, covers.updateThread⟩
    | done => exact ⟨rfl, covers⟩

theorem PostThread.step_covers (payload : ThreadCreate) (x : Input) (pc : PostThread)
    (creates : (Flight.postThread caller payload pc).creates = some t) :
    (step caller payload x db' pc).2 = (step caller payload x db pc).2 ∧
      (step caller payload x db pc).1.Covers t (step caller payload x db' pc).1 := by
  cases x with
  | draw => cases pc <;> exact ⟨rfl, covers⟩
  | transaction =>
    cases pc with
    | typing result discussionType =>
      cases creates
      exact ⟨rfl, covers.updateThread⟩
    | adding result recipient rest =>
      cases creates
      have adds := addRecipient_covers covers recipient
      simp only [step]
      generalize addRecipient db result.id recipient = here at adds ⊢
      generalize addRecipient db' result.id recipient = there at adds ⊢
      cases adds with
      | none => exact ⟨rfl, covers⟩
      | some added => cases rest <;> exact ⟨rfl, added⟩
    | done => exact ⟨rfl, covers⟩
    | _ => cases creates

end Handlers

/-- The next transaction of the request adds no message to the thread under the
id of a message of some other thread. -/
def Flight.IdApart (t : Uuid) (db : Db) (f : Flight) : Prop :=
  f.request.addressed = some t → ∀ m, f.writing = some m → ∀ old ∈ db.messages.rows, old.id = m.id → old.threadId = t

instance (t : Uuid) (db : Db) : DecidablePred (Flight.IdApart t db) := fun f =>
  inferInstanceAs (Decidable (f.request.addressed = some t →
    ∀ m ∈ f.writing, ∀ old ∈ db.messages.rows, old.id = m.id → old.threadId = t))

/-- A request that concerns the thread moves alike on both stores. -/
theorem Flight.step_covers {db db' : Db} {t : Uuid} {f : Flight} (covers : db.Covers t db') (concerned : f.concerns t)
    (apart : f.IdApart t db) (x : Input) : (server.step x db' f).2 = (server.step x db f).2 ∧
      (server.step x db f).1.Covers t (server.step x db' f).1 := by
  rw [Flight.concerns_iff] at concerned
  cases f with
  | refused => exact ⟨rfl, covers⟩
  | postThread caller payload pc =>
    have creates := concerned.resolve_left fun addressed => by cases addressed
    obtain ⟨same, covers'⟩ := PostThread.step_covers covers caller payload x pc creates
    exact ⟨congrArg (Flight.postThread caller payload) same, covers'⟩
  | postMessage u caller payload pc =>
    have addressed := concerned.resolve_right fun creates => by cases creates
    cases addressed
    obtain ⟨same, covers'⟩ := PostMessage.step_covers covers caller payload x pc fun recipient d here => by
      subst here
      exact apart rfl _ rfl
    exact ⟨congrArg (Flight.postMessage t caller payload) same, covers'⟩
  | postClaim u caller payload pc =>
    have addressed := concerned.resolve_right fun creates => by cases creates
    cases addressed
    obtain ⟨same, covers'⟩ := PostClaim.step_covers covers caller payload x pc
    exact ⟨congrArg (Flight.postClaim t caller payload) same, covers'⟩
  | postAck u caller payload pc =>
    have addressed := concerned.resolve_right fun creates => by cases creates
    cases addressed
    obtain ⟨same, covers'⟩ := PostAck.step_covers covers caller payload x pc fun path recipient d here => by
      subst here
      exact apart rfl _ rfl
    exact ⟨congrArg (Flight.postAck t caller payload) same, covers'⟩

theorem Flight.concerns_step {db : Db} {t : Uuid} {row : ThreadRow} {f : Flight} (found : db.thread? t = some row)
    (placed : f.Placed db) (x : Input) : (server.step x db f).2.concerns t = f.concerns t := by
  have moves := f.step_moves x db
  have sent : (server.step x db f).2.request = f.request := moves.request
  rw [Bool.eq_iff_iff, Flight.concerns_iff, Flight.concerns_iff, sent]
  refine or_congr_right ⟨fun creates => ?_, moves.creates_stays placed⟩
  rcases moves.creates_of creates with before | absent
  · exact before
  · rw [found] at absent
    cases absent

/-- No id drawn for a message of the thread is that of a message elsewhere. -/
def World.IdsApart (t : Uuid) (w : World) : Event Request Input → Prop
  | .arrive _ => True
  | .step i _ => ∀ f, w.pool[i]? = some f → f.IdApart t w.store

instance (t : Uuid) (w : World) : DecidablePred (World.IdsApart t w)
  | .arrive _ => isTrue trivial
  | .step i _ => inferInstanceAs (Decidable (∀ f ∈ w.pool[i]?, f.IdApart t w.store))

/-- What the requests on a thread do, and how they are answered, is what they do
and are answered where no other requests are. -/
theorem own_run {w : World} (sound : w.Sound) {t : Uuid} {row : ThreadRow} (found : w.store.thread? t = some row)
    {es : List (Event Request Input)} (apart : server.Along (World.IdsApart t) w es) :
    Machine.Agree (Flight.concerns t) (Db.Covers t) (server.run w es)
      (server.run (Machine.own (Flight.concerns t) w) (server.ownRun (Flight.concerns t) w es)) := by
  refine Machine.agree_ownRun (I := fun v => World.Sound v ∧ ∃ row, v.store.thread? t = some row) ?_ ?_ ?_ ?_
    ⟨sound, row, found⟩ apart ⟨.refl t _, rfl⟩
  · rintro v e ⟨sound, row, found⟩
    obtain ⟨row', found', _⟩ := (run_later v [e]).thread? found
    exact ⟨sound.exec e, row', found'⟩
  · rintro v i f x ⟨sound, row, found⟩ at_i
    exact f.concerns_step found (sound.2 f (List.mem_of_getElem? at_i)) x
  · rintro v i f x db' ⟨_, row, found⟩ _ unconcerned covers
    have same := (f.step_commits x v.store).sameThread found unconcerned
    exact ⟨same.symm.trans covers.same, fun id taken => (step_later x v.store f).messageIdTaken (covers.taken id taken)⟩
  · rintro v i f x db' _ apart at_i concerned covers
    exact Flight.step_covers covers concerned (apart f at_i) x

/-- The error that a request is answered with. -/
def Flight.refusal : Flight → Option HTTPException
  | .refused _ e | .postThread _ _ (.done (.error e)) | .postMessage _ _ _ (.done (.error e))
  | .postClaim _ _ _ (.done (.error e)) | .postAck _ _ _ (.done (.error e)) => some e
  | _ => none

/-- The request has written nothing yet, and may still be refused. -/
def Flight.Unwritten : Flight → Prop
  | .postThread .. => False
  | .postMessage _ _ _ (.typing ..) | .postMessage _ _ _ (.done (.ok _)) => False
  | .postClaim _ _ _ (.done (.ok _)) => False
  | .postAck _ _ _ (.stamping ..) | .postAck _ _ _ (.marking ..) | .postAck _ _ _ (.checking ..)
  | .postAck _ _ _ (.flipping ..) | .postAck _ _ _ (.done (.ok _)) => False
  | _ => True

theorem setClaim_of_error {db : Db} {t : Uuid} {p scope : String} {now : DateTime} {e : StoreError}
    (refused : (setClaim db t p scope now).1 = .error e) : (setClaim db t p scope now).2 = db := by
  unfold setClaim at refused ⊢
  dsimp only at refused ⊢
  split
  · split
    · rfl
    · split <;> rfl
  · rename_i free
    rw [if_neg free] at refused
    cases refused

/-- A request that may still be refused has not written, and does not write in
a step after which it still may be. -/
theorem Flight.Moves.unwritten {db db' : Db} {f f' : Flight} (moves : Moves db f db' f') (unwritten : f'.Unwritten) :
    f.Unwritten ∧ db' = db := by
  cases moves with
  | refused => exact ⟨trivial, rfl⟩
  | postThread => exact unwritten.elim
  | postMessage move =>
    cases move with
    | idle => exact ⟨unwritten, rfl⟩
    | appendsTyped | appends | types => exact unwritten.elim
    | _ => exact ⟨trivial, rfl⟩
  | @postClaim t caller payload pc _ _ move =>
    cases move with
    | idle => exact ⟨unwritten, rfl⟩
    | draws => exact ⟨trivial, rfl⟩
    | claims now =>
      cases claimed : (setClaim db t caller.id payload.scope now).1 with
      | ok claim =>
        rw [claimed] at unwritten
        exact unwritten.elim
      | error e => exact ⟨trivial, setClaim_of_error claimed⟩
  | postAck move =>
    cases move with
    | idle => exact ⟨unwritten, rfl⟩
    | inserts | closes | stamps | marks | completes | leavesOpen | flips => exact unwritten.elim
    | _ => exact ⟨trivial, rfl⟩

theorem Flight.unwritten_of_refusal {f : Flight} {t : Uuid} {e : HTTPException}
    (addressed : f.request.addressed = some t) (refused : f.refusal = some e) : f.Unwritten := by
  unfold Flight.refusal at refused
  split at refused
  · trivial
  · cases addressed
  · trivial
  · trivial
  · trivial
  · cases refused

/-- If the event is a step of the request at `i`, it leaves the store as it is. -/
def World.Untouched (i : Nat) (w : World) (e : Event Request Input) : Prop :=
  ∀ x, e = .step i x → (server.exec w e).store = w.store

/-- What a request has done that has not written yet: nothing. -/
theorem unwritten_untouched (i : Nat) (es : List (Event Request Input))
    (unwritten : ∀ f, (server.run World.init es).pool[i]? = some f → f.Unwritten) :
    server.Along (World.Untouched i) World.init es := by
  refine server.run_history (H := fun w es => (∀ f, w.pool[i]? = some f → f.Unwritten) →
    server.Along (World.Untouched i) World.init es) (fun _ => trivial) ?_ es unwritten
  intro es e before unwritten
  rw [Machine.along_append]
  generalize server.run World.init es = w at before unwritten ⊢
  cases e with
  | arrive request =>
    refine ⟨before fun f at_i => unwritten f ?_, fun _ same => (by cases same), trivial⟩
    exact (List.getElem?_append_left (List.getElem?_eq_some_iff.mp at_i).1).trans at_i
  | step j x =>
    cases at_j : w.pool[j]? with
    | none =>
      rw [server.exec_idle x at_j] at unwritten
      exact ⟨before unwritten, fun _ _ => congrArg Config.store (server.exec_idle x at_j), trivial⟩
    | some g =>
      rw [server.exec_step x at_j] at unwritten
      by_cases same : i = j
      · subst same
        have bound : i < w.pool.length := (List.getElem?_eq_some_iff.mp at_j).1
        have after := unwritten (server.step x w.store g).2 (by rw [List.getElem?_set_self bound])
        obtain ⟨here, kept⟩ := (g.step_moves x w.store).unwritten after
        refine ⟨before fun f at_i => ?_, fun _ _ => ?_, trivial⟩
        · cases Option.some.inj (at_j.symm.trans at_i)
          exact here
        · rw [server.exec_step x at_j]
          exact kept
      · refine ⟨before fun f at_i => unwritten f ?_, fun x' isStep => ?_, trivial⟩
        · exact (List.getElem?_set_ne (Ne.symm same)).trans at_i
        · cases isStep
          exact absurd rfl same

/-- Threads are isolated. A request addressed to one thread leaves all others as
they are; how the requests on a thread are answered and what becomes of the
thread is what it would be with no other requests in the server; and a request
that is refused has at no point changed the store. -/
theorem thread_isolation (es : List (Event Request Input)) :
    (∀ (f : Flight) (x : Input) (t u : Uuid), f.request.addressed = some t → u ≠ t →
      (server.run World.init es).store.SameThread u (server.step x (server.run World.init es).store f).1) ∧
    (∀ (t : Uuid) (row : ThreadRow) (es' : List (Event Request Input)),
      (server.run World.init es).store.thread? t = some row →
      server.Along (World.IdsApart t) (server.run World.init es) es' →
      let all := server.run (server.run World.init es) es'
      let own := server.run (Machine.own (Flight.concerns t) (server.run World.init es))
        (server.ownRun (Flight.concerns t) (server.run World.init es) es')
      own.pool = all.pool.filter (Flight.concerns t) ∧ all.store.SameThread t own.store) ∧
    ∀ (i : Nat) (f : Flight) (t : Uuid) (e : HTTPException), (server.run World.init es).pool[i]? = some f →
      f.request.addressed = some t → f.refusal = some e → server.Along (World.Untouched i) World.init es := by
  refine ⟨?_, ?_, ?_⟩
  · intro f x t u addressed other
    exact (f.step_commits x _).sameThread_of_addressed addressed other
  · intro t row es' found apart
    have agree := own_run (.reachable es) found apart
    exact ⟨agree.pool, agree.store.same⟩
  · intro i f t e at_i addressed refused
    refine unwritten_untouched i es fun g at_i' => ?_
    cases Option.some.inj (at_i.symm.trans at_i')
    exact Flight.unwritten_of_refusal addressed refused

/-- While a reply is written in one thread, the other one is acked. -/
theorem thread_isolation_of_two :
    let creation : Request := .postThread (some "a") ⟨some "b", [], "s", "hello", none, none⟩
    let es := [.arrive creation, .arrive creation, .step 0 (.draw ⟨reading 0 1, "t", "m0"⟩),
      .step 1 (.draw ⟨reading 0 2, "u", "m1"⟩)] ++ transactions 0 2 ++ transactions 1 2
    let es' := [.arrive (.postMessage "t" (some "b") ⟨"hi", none⟩), .arrive (.postAck "u" (some "b") none),
      .step 2 .transaction, .step 3 .transaction, .step 3 .transaction, .step 2 .transaction,
      .step 3 (.draw ⟨reading 1 0, "m2", ""⟩), .step 2 (.draw ⟨reading 1 1, "m3", ""⟩), .step 3 .transaction,
      .step 2 .transaction, .step 3 (.draw ⟨reading 1 2, "", ""⟩)] ++ transactions 3 3
    let w := server.run World.init es
    let own := server.run (Machine.own (Flight.concerns "t") w) (server.ownRun (Flight.concerns "t") w es')
    (own.store.messagesOf "t").map Message.body = ["hello", "hi"] ∧ own.pool.length = 2 := by
  intro creation es es' w own
  obtain ⟨row, found⟩ := Option.isSome_iff_exists.mp (show (w.store.thread? "t").isSome by decide +kernel)
  have apart : server.Along (World.IdsApart "t") w es' := by decide +kernel
  obtain ⟨pool, same⟩ := (thread_isolation es).2.1 "t" row es' found apart
  rw [pool, same.messages]
  decide +kernel

end PbChatroom
