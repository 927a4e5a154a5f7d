import PbChatroom.AccessControl
import PbChatroom.Atomicity
import PbChatroom.Isolation
import PbChatroom.Lib.Progress

namespace PbChatroom
open Interleaving

section Turns

/-- The request reads the clock and draws its ids next. -/
def Flight.awaitsDraw : Flight → Bool
  | .postThread _ _ .start | .postMessage _ _ _ (.drawing _) | .postClaim _ _ _ .start | .postAck _ _ _ (.drawing ..)
  | .postAck _ _ _ (.stamping ..) => true
  | _ => false

/-- The input is the one that the request waits for. -/
def Flight.Fits : Input → Flight → Prop
  | .draw _, f => f.awaitsDraw = true
  | .transaction, f => f.awaitsDraw = false

instance (x : Input) (f : Flight) : Decidable (f.Fits x) :=
  match x with
  | .draw _ => inferInstanceAs (Decidable (f.awaitsDraw = true))
  | .transaction => inferInstanceAs (Decidable (f.awaitsDraw = false))

def PostThread.remaining (payload : ThreadCreate) : PostThread → Nat
  | .start => 4 + payload.extras.length
  | .creating _ => 3 + payload.extras.length
  | .typing .. => 2 + payload.extras.length
  | .adding _ _ rest => 1 + rest.length
  | .done _ => 0

def PostMessage.remaining : PostMessage → Nat
  | .start => 5
  | .listing _ => 4
  | .drawing _ => 3
  | .appending .. => 2
  | .typing .. => 1
  | .done _ => 0

def PostClaim.remaining : PostClaim → Nat
  | .start => 2
  | .claiming _ => 1
  | .done _ => 0

def PostAck.remaining : PostAck → Nat
  | .start => 8
  | .listing _ => 7
  | .drawing .. => 6
  | .appending .. => 5
  | .stamping .. => 4
  | .marking .. => 3
  | .checking .. => 2
  | .flipping .. => 1
  | .done _ => 0

/-- How many steps a request is away from its answer at most. -/
def Flight.remaining : Flight → Nat
  | .refused .. => 0
  | .postThread _ payload pc => pc.remaining payload
  | .postMessage _ _ _ pc => pc.remaining
  | .postClaim _ _ _ pc => pc.remaining
  | .postAck _ _ _ pc => pc.remaining

/-- How many steps a request takes at most. -/
def Request.steps : Request → Nat
  | .postThread _ body => 4 + (body.toParticipants.drop 1).length
  | .postMessage .. => 5
  | .postClaim .. => 2
  | .postAck .. => 8

theorem Flight.finished_iff_remaining {f : Flight} : f.Finished ↔ f.remaining = 0 := by
  cases f with
  | refused => exact iff_of_true trivial rfl
  | postThread caller payload pc => cases pc <;> simp [Finished, remaining, PostThread.remaining]
  | postMessage t caller payload pc => cases pc <;> simp [Finished, remaining, PostMessage.remaining]
  | postClaim t caller payload pc => cases pc <;> simp [Finished, remaining, PostClaim.remaining]
  | postAck t caller payload pc => cases pc <;> simp [Finished, remaining, PostAck.remaining]

theorem Flight.Fresh.remaining {f : Flight} (fresh : f.Fresh) : f.remaining ≤ f.request.steps := by
  cases fresh with
  | refused => exact Nat.zero_le _
  | _ => exact Nat.le_refl _

section Steps
variable {db : Db} {t : Uuid} {caller : Participant} {x : Input}

theorem PostThread.step_remaining {payload : ThreadCreate} {pc : PostThread} :
    (step caller payload x db pc).2.remaining payload ≤ pc.remaining payload ∧
      ((Flight.postThread caller payload pc).Fits x →
        (step caller payload x db pc).2.remaining payload ≤ pc.remaining payload - 1) := by
  cases pc with
  | start => cases x <;> simp [step, remaining, Flight.Fits, Flight.awaitsDraw]
  | creating d =>
    cases x with
    | draw => simp [step, remaining, Flight.Fits, Flight.awaitsDraw]
    | transaction =>
      have nearer : (step caller payload .transaction db (.creating d)).2.remaining payload ≤
          2 + payload.extras.length := by
        simp only [step]
        split
        · exact Nat.zero_le _
        · have adding : ∀ result, (beginAdding payload result).remaining payload = 1 + payload.extras.length :=
            fun _ => rfl
          split
          · rw [adding]
            omega
          · split
            · exact Nat.le_refl _
            · rw [adding]
              omega
      rw [show (creating d).remaining payload = 3 + payload.extras.length from rfl]
      omega
  | typing result discussionType =>
    cases x <;> simp [step, remaining, beginAdding, Flight.Fits, Flight.awaitsDraw]
  | adding result recipient rest =>
    cases x with
    | draw => simp [step, remaining, Flight.Fits, Flight.awaitsDraw]
    | transaction =>
      have nearer : (step caller payload .transaction db (.adding result recipient rest)).2.remaining payload ≤
          rest.length := by
        simp only [step]
        split
        · exact Nat.zero_le _
        · cases rest with
          | nil => exact Nat.le_refl _
          | cons next rest =>
            rw [List.length_cons]
            exact (Nat.add_comm 1 rest.length).le
      rw [show (adding result recipient rest).remaining payload = 1 + rest.length from rfl]
      omega
  | done => simp [step, remaining]

theorem PostMessage.step_remaining {payload : MessageCreate} {pc : PostMessage} :
    (step t caller payload x db pc).2.remaining ≤ pc.remaining ∧
      ((Flight.postMessage t caller payload pc).Fits x →
        (step t caller payload x db pc).2.remaining ≤ pc.remaining - 1) := by
  cases pc with
  | start =>
    cases x <;> simp only [step]
    · split <;> simp [remaining]
    · simp [remaining, Flight.Fits, Flight.awaitsDraw]
  | listing thread =>
    cases x <;> simp only [step]
    · split <;> simp [remaining]
    · simp [remaining, Flight.Fits, Flight.awaitsDraw]
  | drawing recipient => cases x <;> simp [step, remaining, Flight.Fits, Flight.awaitsDraw]
  | appending recipient d =>
    cases x <;> simp only [step]
    · split
      · simp [remaining]
      · simp [remaining]
      · split
        · simp [remaining]
        · split <;> simp [remaining]
    · simp [remaining, Flight.Fits, Flight.awaitsDraw]
  | typing result discussionType => cases x <;> simp [step, remaining, Flight.Fits, Flight.awaitsDraw]
  | done => simp [step, remaining]

theorem PostClaim.step_remaining {payload : ClaimRequest} {pc : PostClaim} :
    (step t caller payload x db pc).2.remaining ≤ pc.remaining ∧
      ((Flight.postClaim t caller payload pc).Fits x →
        (step t caller payload x db pc).2.remaining ≤ pc.remaining - 1) := by
  cases pc with
  | start => cases x <;> simp [step, remaining, Flight.Fits, Flight.awaitsDraw]
  | claiming now => cases x <;> simp [step, remaining, Flight.Fits, Flight.awaitsDraw]
  | done => simp [step, remaining]

theorem PostAck.step_remaining {payload : Option MessageCreate} {pc : PostAck} :
    (step t caller payload x db pc).2.remaining ≤ pc.remaining ∧
      ((Flight.postAck t caller payload pc).Fits x →
        (step t caller payload x db pc).2.remaining ≤ pc.remaining - 1) := by
  cases pc with
  | start =>
    cases x <;> simp only [step]
    · split <;> simp [remaining]
    · simp [remaining, Flight.Fits, Flight.awaitsDraw]
  | listing thread =>
    cases x <;> simp only [step]
    · split <;> simp [remaining]
    · simp [remaining, Flight.Fits, Flight.awaitsDraw]
  | drawing path recipient => cases x <;> simp [step, remaining, Flight.Fits, Flight.awaitsDraw]
  | appending path recipient d =>
    cases x <;> simp only [step]
    · cases path with
      | recipient => dsimp only; split <;> simp [remaining]
      | closing => dsimp only; split <;> simp [remaining]
    · simp [remaining, Flight.Fits, Flight.awaitsDraw]
  | stamping recipient d => cases x <;> simp [step, remaining, Flight.Fits, Flight.awaitsDraw]
  | marking recipient d now => cases x <;> simp [step, remaining, Flight.Fits, Flight.awaitsDraw]
  | checking recipient d =>
    cases x <;> simp only [step]
    · split <;> simp [remaining]
    · simp [remaining, Flight.Fits, Flight.awaitsDraw]
  | flipping recipient d => cases x <;> simp [step, remaining, Flight.Fits, Flight.awaitsDraw]
  | done => simp [step, remaining]

theorem Flight.step_remaining {f : Flight} :
    (f.step x db).2.remaining ≤ f.remaining ∧ (f.Fits x → (f.step x db).2.remaining ≤ f.remaining - 1) := by
  cases f with
  | refused => exact ⟨Nat.le_refl _, fun _ => Nat.le_refl _⟩
  | postThread => exact PostThread.step_remaining
  | postMessage => exact PostMessage.step_remaining
  | postClaim => exact PostClaim.step_remaining
  | postAck => exact PostAck.step_remaining

end Steps

/-- Requests do not wait for each other: whatever the store holds and however the
others move, a request that has come in is answered after at most its own number
of steps. -/
theorem answered_in_turns (w : World) (request : Request) (es : List (Event Request Input)) :
    let arrived := server.exec w (.arrive request)
    request.steps ≤ server.turns Flight.Fits w.pool.length arrived es →
      ∃ f, (server.run arrived es).pool[w.pool.length]? = some f ∧ f.Finished ∧ f.request = request := by
  intro arrived enough
  have at_i : arrived.pool[w.pool.length]? = some request.receive := List.getElem?_concat_length ..
  have never : ∀ x db f, (server.step x db f).2.remaining ≤ f.remaining := fun _ _ _ => Flight.step_remaining.1
  have nearer : ∀ x db f, f.Fits x → (server.step x db f).2.remaining ≤ f.remaining - 1 :=
    fun _ _ _ => Flight.step_remaining.2
  obtain ⟨f, reached, rest⟩ := Machine.rank_run never nearer es at_i
  have bound := request.receive_fresh.remaining
  rw [request.receive_request] at bound
  refine ⟨f, reached, Flight.finished_iff_remaining.mpr (by omega), ?_⟩
  have requests := pool_requests arrived es
  have here := congrArg (fun l => l[w.pool.length]?) requests
  rw [List.getElem?_map, reached, List.getElem?_append_left, List.getElem?_map, at_i] at here
  · exact (Option.some.inj here).trans request.receive_request
  · rw [List.length_map]
    exact (List.getElem?_eq_some_iff.mp at_i).1

/-- A claim is answered while another request does not move at all. -/
theorem answered_in_turns_of_claim :
    let w : World := server.run World.init [.arrive (.postMessage "t" (some "b") ⟨"hi", none⟩)]
    let es := [.step 1 (.draw ⟨reading 0 1, "", ""⟩), .step 0 .transaction, .step 1 .transaction]
    ∃ f, (server.run (server.exec w (.arrive (.postClaim "t" (some "a") "s"))) es).pool[1]? = some f ∧ f.Finished := by
  intro w es
  obtain ⟨f, reached, finished, _⟩ := answered_in_turns w (.postClaim "t" (some "a") "s") es (by decide +kernel)
  exact ⟨f, reached, finished⟩

end Turns

section Errors

/-- The transaction that the request has before it inserts an id that is taken. -/
def Flight.Collides (db : Db) : Flight → Prop
  | .postThread _ _ (.creating d) => (db.thread? d.uuid).isSome ∨ db.MessageIdTaken d.uuid'
  | .postMessage _ _ _ (.appending _ d) | .postAck _ _ _ (.appending _ _ d) => db.MessageIdTaken d.uuid
  | _ => False

/-- If the event is a transaction of the request at `i`, the ids that it inserts are
free. -/
def World.IdsFree (i : Nat) (w : World) : Event Request Input → Prop
  | .step j .transaction => j = i → ∀ f, w.pool[i]? = some f → ¬f.Collides w.store
  | _ => True

/-- The body and the header of a request are refused with 422 and 400. -/
theorem Request.receive_refusal (request : Request) : request.receive.refusal ≠ some internalServerError := by
  have refused : ∀ {header : Option String} {e : HTTPException}, resolveParticipant header = .error e →
      e ≠ internalServerError := by
    intro header e refused same
    subst same
    unfold resolveParticipant at refused
    split at refused
    · cases refused
    · split at refused
      · cases refused
      · split at refused <;> cases refused
  unfold receive
  cases request <;> dsimp only <;> split
  all_goals
    intro same
    first
    | exact refused (by assumption) (Option.some.inj same)
    | cases same

section Steps
variable {db : Db} {t : Uuid} {caller : Participant}

/-- What a thread that has been read lacks is no message. -/
theorem Snapshot.refusal {thread : ThreadWithMessages} (snapshot : Snapshot db t thread) {p : String}
    {extra : List String} {e : HTTPException} (refused : resolveParticipants thread p extra = .error e) :
    e ≠ internalServerError := by
  rw [resolveParticipants_error refused snapshot.nonempty]
  decide

theorem Db.Party.thread {p : String} (party : db.Party t p) : ∃ row, db.thread? t = some row := by
  obtain ⟨_, _, ⟨row, _, found, _⟩, _⟩ := party
  exact ⟨row, found⟩

/-- How an attempt to insert a row is answered. -/
theorem refusal_iff {answer before : Option HTTPException} {Taken : Prop} (unanswered : before = none)
    (fails : Taken → answer = some internalServerError) (goesOn : ¬Taken → answer = none) :
    answer = some internalServerError ↔
      before = some internalServerError ∨ Input.transaction = Input.transaction ∧ Taken := by
  by_cases taken : Taken
  · exact iff_of_true (fails taken) (Or.inr ⟨rfl, taken⟩)
  · rw [goesOn taken, unanswered]
    refine iff_of_false (fun same => nomatch same) ?_
    rintro (same | ⟨_, same⟩)
    · cases same
    · exact taken same

theorem PostThread.step_refusal {payload : ThreadCreate} {pc : PostThread} (placed : pc.Placed caller payload db)
    (x : Input) : (Flight.step x db (.postThread caller payload pc)).2.refusal = some internalServerError ↔
      (Flight.postThread caller payload pc).refusal = some internalServerError ∨
        x = .transaction ∧ (Flight.postThread caller payload pc).Collides db := by
  have added : ∀ (result : CreatedThread) (p : String), db.OpenedFor result.id caller.id payload.primary →
      ∃ db', addRecipient db result.id p = some db' := by
    intro result p opened
    obtain ⟨row, _, found, _⟩ := opened
    exact Db.insertOrIgnoreRecipient?_of_thread ⟨result.id, p, none⟩ found
  cases pc with
  | start => cases x <;> simp [Flight.step, step, Flight.refusal, Flight.Collides]
  | creating d =>
    cases x with
    | draw => simp [Flight.step, step, Flight.refusal]
    | transaction =>
      have goesOn : ∀ result, (Flight.postThread caller payload (beginAdding payload result)).refusal = none :=
        fun _ => rfl
      refine refusal_iff rfl (fun taken => ?_) fun free => ?_
      · obtain ⟨e, failed⟩ : ∃ e, createThread db d.uuid d.uuid' d.now payload.subject caller.id payload.primary
            payload.body = .error e := createThread_of_taken taken
        simp only [Flight.step, step, failed]
        rfl
      · obtain ⟨thread, message⟩ := not_or.mp free
        obtain ⟨result, db', created⟩ : ∃ result db', createThread db d.uuid d.uuid' d.now payload.subject caller.id
            payload.primary payload.body = .ok (result, db') := createThread_of_free thread message
        simp only [Flight.step, step, created]
        split
        · exact goesOn result
        · split
          · rfl
          · exact goesOn result
  | typing result discussionType => cases x <;> simp [Flight.step, step, Flight.refusal, Flight.Collides, beginAdding]
  | adding result recipient rest =>
    cases x with
    | draw => simp [Flight.step, step, Flight.refusal]
    | transaction =>
      obtain ⟨db', adds⟩ := added result recipient placed
      cases rest <;> simp [Flight.step, step, adds, Flight.refusal, Flight.Collides]
  | done answer => simp [Flight.step, step, Flight.Collides]

theorem PostMessage.step_refusal {payload : MessageCreate} {pc : PostMessage} (placed : pc.Placed t caller db)
    (x : Input) : (Flight.step x db (.postMessage t caller payload pc)).2.refusal = some internalServerError ↔
      (Flight.postMessage t caller payload pc).refusal = some internalServerError ∨
        x = .transaction ∧ (Flight.postMessage t caller payload pc).Collides db := by
  cases pc with
  | start =>
    cases x with
    | draw => simp [Flight.step, step, Flight.refusal]
    | transaction =>
      simp only [Flight.step, step]
      split <;> simp [Flight.refusal, Flight.Collides, threadNotFound, internalServerError]
  | listing thread =>
    cases x with
    | draw => simp [Flight.step, step, Flight.refusal]
    | transaction =>
      simp only [Flight.step, step]
      split
      · rename_i e refused
        have other : e ≠ internalServerError := Snapshot.refusal placed refused
        simp [Flight.refusal, Flight.Collides, other]
      · simp [Flight.refusal, Flight.Collides]
  | drawing recipient => cases x <;> simp [Flight.step, step, Flight.refusal, Flight.Collides]
  | appending recipient d =>
    cases x with
    | draw => simp [Flight.step, step, Flight.refusal]
    | transaction =>
      obtain ⟨row, found⟩ := placed.1.thread
      refine refusal_iff rfl (fun taken => ?_) fun free => ?_
      · simp only [Flight.step, step, appendMessage_of_taken found taken]
        rfl
      · obtain ⟨m, db', appended⟩ : ∃ m db', appendMessage db d.uuid t d.now caller.id recipient payload.body =
            .ok (m, db') := appendMessage_of_free found free
        simp only [Flight.step, step, appended]
        split
        · rfl
        · split <;> rfl
  | typing result discussionType => cases x <;> simp [Flight.step, step, Flight.refusal, Flight.Collides]
  | done answer => simp [Flight.step, step, Flight.Collides]

theorem PostClaim.step_refusal {payload : ClaimRequest} {pc : PostClaim} (x : Input) :
    (Flight.step x db (.postClaim t caller payload pc)).2.refusal = some internalServerError ↔
      (Flight.postClaim t caller payload pc).refusal = some internalServerError ∨
        x = .transaction ∧ (Flight.postClaim t caller payload pc).Collides db := by
  cases pc with
  | start => cases x <;> simp [Flight.step, step, Flight.refusal, Flight.Collides]
  | claiming now =>
    cases x with
    | draw => simp [Flight.step, step, Flight.refusal]
    | transaction =>
      have answers : (setClaim db t caller.id payload.scope now).1 ≠ .error .integrity := by
        unfold setClaim
        dsimp only
        split
        · split
          · simp
          · split <;> simp
        · simp
      simp only [Flight.step, step]
      generalize (setClaim db t caller.id payload.scope now).1 = outcome at answers
      cases outcome with
      | ok claim => simp [answer, Flight.refusal, Flight.Collides]
      | error e =>
        cases e with
        | integrity => exact absurd rfl answers
        | threadNotFound => simp [answer, Flight.refusal, Flight.Collides, threadNotFound, internalServerError]
        | claimConflict => simp [answer, Flight.refusal, Flight.Collides, internalServerError]
  | done a => simp [Flight.step, step, Flight.Collides]

theorem PostAck.step_refusal {payload : Option MessageCreate} {pc : PostAck} (placed : pc.Placed t caller payload db)
    (x : Input) : (Flight.step x db (.postAck t caller payload pc)).2.refusal = some internalServerError ↔
      (Flight.postAck t caller payload pc).refusal = some internalServerError ∨
        x = .transaction ∧ (Flight.postAck t caller payload pc).Collides db := by
  cases pc with
  | start =>
    cases x with
    | draw => simp [Flight.step, step, Flight.refusal]
    | transaction =>
      simp only [Flight.step, step]
      split <;> simp [Flight.refusal, Flight.Collides, threadNotFound, internalServerError]
  | listing thread =>
    cases x with
    | draw => simp [Flight.step, step, Flight.refusal]
    | transaction =>
      simp only [Flight.step, step]
      split
      · rename_i e refused
        have other : e ≠ internalServerError := Snapshot.refusal placed refused
        simp [Flight.refusal, Flight.Collides, other]
      · simp [Flight.refusal, Flight.Collides]
  | drawing path recipient => cases x <;> simp [Flight.step, step, Flight.refusal, Flight.Collides]
  | appending path recipient d =>
    cases x with
    | draw => simp [Flight.step, step, Flight.refusal]
    | transaction =>
      obtain ⟨row, found⟩ := placed.1.thread
      refine refusal_iff rfl (fun taken => ?_) fun free => ?_
      · cases path with
        | recipient =>
          simp only [Flight.step, step, insertAck_of_taken found taken]
          rfl
        | closing =>
          simp only [Flight.step, step, appendAck_of_taken found taken]
          rfl
      · cases path with
        | recipient =>
          obtain ⟨db', inserted⟩ : ∃ db', insertAck db t caller.id recipient (body payload) d = .ok db' :=
            insertAck_of_free found free
          simp only [Flight.step, step, inserted]
          rfl
        | closing =>
          obtain ⟨m, db', appended⟩ : ∃ m db', appendAck db d.uuid t d.now caller.id recipient (body payload) =
              .ok (m, db') := appendAck_of_free found free
          simp only [Flight.step, step, appended]
          rfl
  | stamping recipient d => cases x <;> simp [Flight.step, step, Flight.refusal, Flight.Collides]
  | marking recipient d now => cases x <;> simp [Flight.step, step, Flight.refusal, Flight.Collides]
  | checking recipient d =>
    cases x with
    | draw => simp [Flight.step, step, Flight.refusal]
    | transaction =>
      simp only [Flight.step, step]
      split <;> simp [Flight.refusal, Flight.Collides]
  | flipping recipient d => cases x <;> simp [Flight.step, step, Flight.refusal, Flight.Collides]
  | done answer => simp [Flight.step, step, Flight.Collides]

/-- A step fails exactly if it is a transaction that inserts an id that is taken. -/
theorem Flight.step_refusal {f : Flight} (placed : f.Placed db) (x : Input) :
    (f.step x db).2.refusal = some internalServerError ↔
      f.refusal = some internalServerError ∨ x = .transaction ∧ f.Collides db := by
  cases f with
  | refused request answer => simp [step, Collides]
  | postThread caller payload pc => exact PostThread.step_refusal placed x
  | postMessage t caller payload pc => exact PostMessage.step_refusal placed x
  | postClaim t caller payload pc => exact PostClaim.step_refusal x
  | postAck t caller payload pc => exact PostAck.step_refusal placed x

end Steps

/-- The request at `i`, if it is there, has not been answered 500. -/
def World.Unfailed (i : Nat) (w : World) : Prop := ∀ f, w.pool[i]? = some f → f.refusal ≠ some internalServerError

theorem World.unfailed_exec {w : World} (sound : w.Sound) (i : Nat) (e : Event Request Input) :
    World.Unfailed i (server.exec w e) ↔ World.Unfailed i w ∧ World.IdsFree i w e := by
  cases e with
  | arrive request =>
    refine Iff.trans ⟨?_, ?_⟩ (and_iff_left trivial).symm
    · intro unfailed f at_i
      exact unfailed f ((List.getElem?_append_left (List.getElem?_eq_some_iff.mp at_i).1).trans at_i)
    · intro unfailed f at_i
      rcases Machine.getElem?_pool_append at_i with ⟨_, rfl⟩ | old
      · exact request.receive_refusal
      · exact unfailed f old
  | step j x =>
    cases at_j : w.pool[j]? with
    | none =>
      rw [server.exec_idle x at_j]
      refine (and_iff_left ?_).symm
      cases x with
      | draw => trivial
      | transaction =>
        rintro rfl f at_i
        rw [at_j] at at_i
        cases at_i
    | some g =>
      rw [server.exec_step x at_j]
      have bound : j < w.pool.length := (List.getElem?_eq_some_iff.mp at_j).1
      by_cases same : j = i
      · subst same
        have step := Flight.step_refusal (sound.2 g (List.mem_of_getElem? at_j)) x
        have before : World.Unfailed j w ↔ g.refusal ≠ some internalServerError := by
          simp [Unfailed, at_j]
        have after : (∀ f, (w.pool.set j (server.step x w.store g).2)[j]? = some f →
            f.refusal ≠ some internalServerError) ↔
            (g.step x w.store).2.refusal ≠ some internalServerError := by
          simp [List.getElem?_set_self bound, server]
        have free : World.IdsFree j w (.step j x) ↔ ¬(x = .transaction ∧ g.Collides w.store) := by
          cases x <;> simp [IdsFree, at_j]
        rw [Unfailed, after, before, free, ← not_or]
        exact not_congr step
      · have here : ∀ p, (w.pool.set j p)[i]? = w.pool[i]? := fun p => List.getElem?_set_ne same
        have free : World.IdsFree i w (.step j x) := by
          cases x with
          | draw => trivial
          | transaction => exact fun own => absurd own same
        rw [Unfailed, here]
        exact (and_iff_left free).symm

/-- A request is answered 500 exactly if one of its transactions has inserted an id
that was taken when it ran. No other transaction of it fails, and none of the
lists that it reads the first element of is empty. -/
theorem internal_error_iff (es : List (Event Request Input)) (i : Nat) :
    (∃ f, (server.run World.init es).pool[i]? = some f ∧ f.refusal = some internalServerError) ↔
      ¬server.Along (World.IdsFree i) World.init es := by
  have along : World.Unfailed i (server.run World.init es) ↔ server.Along (World.IdsFree i) World.init es := by
    refine server.run_history (H := fun w es => World.Unfailed i w ↔ server.Along (World.IdsFree i) World.init es)
      (iff_of_true (fun f at_i => ?_) trivial) ?_ es
    · cases at_i
    intro es e before
    rw [World.unfailed_exec (.reachable es), before, Machine.along_append, Machine.Along, Machine.Along, and_true]
  rw [← along, World.Unfailed]
  push Not
  exact Iff.rfl

end Errors

end PbChatroom
