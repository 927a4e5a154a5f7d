import PbChatroom.Creation
import PbChatroom.Requests

namespace PbChatroom
open Interleaving Relational

/-- A message or ack request of `caller` on `t`. -/
def Flight.Writes (t : Uuid) (caller : String) : Flight → Prop
  | .postMessage u c _ _ | .postAck u c _ _ => u = t ∧ c.id = caller
  | _ => False

/-- The request has read the thread and its participant check comes next. -/
def Flight.AtCheck : Flight → Prop
  | .postMessage _ _ _ (.listing _) | .postAck _ _ _ (.listing _) => True
  | _ => False

def Flight.Unchecked : Flight → Prop
  | .postMessage _ _ _ .start | .postAck _ _ _ .start => True
  | f => f.AtCheck

/-- The request has passed its participant check. -/
def Flight.Admitted : Flight → Prop
  | .postMessage _ _ _ (.drawing _) | .postAck _ _ _ (.drawing ..) => True
  | _ => False

def Flight.Forbidden : Flight → Prop
  | .postMessage _ _ _ (.done (.error e)) | .postAck _ _ _ (.done (.error e)) => e = notAParticipant
  | _ => False

/-- Who may write in a thread: its creator and its recipients. -/
def ThreadCreate.Member (payload : ThreadCreate) (creator : Participant) (caller : String) : Prop :=
  caller = creator.id ∨ caller ∈ payload.allRecipients

instance (payload : ThreadCreate) (creator : Participant) : DecidablePred (payload.Member creator) :=
  fun caller => inferInstanceAs (Decidable (caller = creator.id ∨ caller ∈ payload.allRecipients))

theorem resolveParticipants_error {thread : ThreadWithMessages} {caller : String} {extra : List String}
    {e : HTTPException} (refused : resolveParticipants thread caller extra = .error e)
    (nonempty : thread.messages ≠ []) : e = notAParticipant := by
  unfold resolveParticipants at refused
  split at refused
  · exact absurd (by assumption) nonempty
  · split at refused
    · cases refused
    · split at refused
      · cases refused
      · split at refused
        · cases refused
        · exact (Except.error.inj refused).symm

section Check
variable {t : Uuid} {creator : Participant} {payload : ThreadCreate} {w : World}

theorem World.Complete.member_iff (complete : w.Complete t creator payload) {caller : String} :
    w.store.Party t caller ↔ payload.Member creator caller := by
  have primary : payload.primary ∈ payload.allRecipients := List.mem_cons_self ..
  constructor
  · rintro ⟨creator', primary', opened, party⟩
    obtain ⟨rfl, rfl⟩ := complete.opened.unique opened
    rcases party with isCreator | rfl | listed
    · exact Or.inl isCreator
    · exact Or.inr primary
    · exact Or.inr ((complete.listed caller).mp listed)
  · rintro (isCreator | listed)
    · exact ⟨_, _, complete.opened, Or.inl isCreator⟩
    · exact ⟨_, _, complete.opened, Or.inr (Or.inr ((complete.listed caller).mpr listed))⟩

/-- The participant check of a complete thread lets in its members, whatever
message has come to be the first of the list that was read. -/
theorem World.Complete.check (complete : w.Complete t creator payload) {thread : ThreadWithMessages}
    (snapshot : Snapshot w.store t thread) (caller : String) :
    (∃ recipient, resolveParticipants thread caller
      ((listRecipients w.store t).map RecipientRow.participantId) = .ok recipient) ↔ payload.Member creator caller := by
  constructor
  · rintro ⟨recipient, accepted⟩
    exact complete.member_iff.mp (snapshot.resolve accepted).1
  · intro member
    obtain ⟨creator', _, opened, byCreator, first, rest, messages, _⟩ := snapshot
    obtain ⟨rfl, _⟩ := complete.opened.unique opened
    by_cases isCreator : caller = creator.id
    · exact ⟨first.toParticipant,
        resolveParticipants_ok_iff.mpr ⟨first, rest, messages, Or.inl ⟨isCreator.trans byCreator.symm, rfl⟩⟩⟩
    · have listed : caller ∈ (listRecipients w.store t).map RecipientRow.participantId :=
        Db.mem_recipientsOf_iff_exists.mpr ((complete.listed caller).mpr (member.resolve_left isCreator))
      refine ⟨thread.thread.createdBy, resolveParticipants_ok_iff.mpr ⟨first, rest, messages, Or.inr ⟨?_, ?_, rfl⟩⟩⟩
      · rwa [byCreator]
      · exact Or.inr listed

theorem World.Complete.refused (complete : w.Complete t creator payload) {thread : ThreadWithMessages}
    (snapshot : Snapshot w.store t thread) {caller : String} {e : HTTPException}
    (refused : resolveParticipants thread caller ((listRecipients w.store t).map RecipientRow.participantId) =
      .error e) : e = notAParticipant ∧ ¬payload.Member creator caller := by
  refine ⟨?_, fun member => ?_⟩
  · obtain ⟨_, _, _, _, first, rest, messages, _⟩ := snapshot
    exact resolveParticipants_error refused (by rw [messages]; exact List.cons_ne_nil first rest)
  · obtain ⟨recipient, accepted⟩ := (complete.check snapshot caller).mpr member
    rw [refused] at accepted
    cases accepted

/-- What the check makes of a request that has reached it. -/
theorem World.Complete.step_atCheck (complete : w.Complete t creator payload) {f : Flight} (placed : f.Placed w.store)
    {caller : String} (writes : f.Writes t caller) (atCheck : f.AtCheck) :
    (server.step .transaction w.store f).1 = w.store ∧
      (payload.Member creator caller → (server.step .transaction w.store f).2.Admitted) ∧
      (¬payload.Member creator caller → (server.step .transaction w.store f).2.Forbidden) := by
  unfold Flight.AtCheck at atCheck
  split at atCheck
  · rename_i u c body thread
    obtain ⟨rfl, rfl⟩ := writes
    cases outcome : resolveParticipants thread c.id ((listRecipients w.store u).map RecipientRow.participantId) with
    | ok recipient =>
      have member := (complete.check placed c.id).mp ⟨recipient, outcome⟩
      simp only [server, Flight.step, PostMessage.step, outcome]
      exact ⟨trivial, fun _ => trivial, fun outside => absurd member outside⟩
    | error e =>
      obtain ⟨rfl, outside⟩ := complete.refused placed outcome
      simp only [server, Flight.step, PostMessage.step, outcome]
      exact ⟨trivial, fun member => absurd member outside, fun _ => rfl⟩
  · rename_i u c body thread
    obtain ⟨rfl, rfl⟩ := writes
    cases outcome : resolveParticipants thread c.id ((listRecipients w.store u).map RecipientRow.participantId) with
    | ok recipient =>
      have member := (complete.check placed c.id).mp ⟨recipient, outcome⟩
      simp only [server, Flight.step, PostAck.step, outcome]
      exact ⟨trivial, fun _ => trivial, fun outside => absurd member outside⟩
    | error e =>
      obtain ⟨rfl, outside⟩ := complete.refused placed outcome
      simp only [server, Flight.step, PostAck.step, outcome]
      exact ⟨trivial, fun member => absurd member outside, fun _ => rfl⟩
  · exact atCheck.elim

/-- A message or ack request that has come in is at its check after one transaction. -/
theorem World.Complete.step_fresh (complete : w.Complete t creator payload) {f : Flight} (fresh : f.Fresh)
    {caller : String} (writes : f.Writes t caller) :
    (server.step .transaction w.store f).1 = w.store ∧ (server.step .transaction w.store f).2.AtCheck := by
  obtain ⟨row, found⟩ := complete.isSealed.1
  have read : ∃ thread, getThreadWithMessages w.store t = some thread := ⟨_, by rw [getThreadWithMessages, found]; rfl⟩
  obtain ⟨thread, read⟩ := read
  cases fresh with
  | postMessage =>
    obtain ⟨rfl, _⟩ := writes
    simp only [server, Flight.step, PostMessage.step, read]
    exact ⟨trivial, trivial⟩
  | postAck =>
    obtain ⟨rfl, _⟩ := writes
    simp only [server, Flight.step, PostAck.step, read]
    exact ⟨trivial, trivial⟩
  | _ => exact writes.elim

/-- No request of a member is answered 403, and no request of an outsider gets
past the participant check. -/
def Flight.Screened (t : Uuid) (creator : Participant) (payload : ThreadCreate) (f : Flight) : Prop :=
  ∀ caller, f.Writes t caller → (payload.Member creator caller → ¬f.Forbidden) ∧
    (¬payload.Member creator caller → f.Unchecked ∨ f.Forbidden)

theorem Flight.Fresh.screened {f : Flight} (fresh : f.Fresh) : f.Screened t creator payload := by
  cases fresh with
  | postMessage => exact fun _ _ => ⟨fun _ => id, fun _ => Or.inl trivial⟩
  | postAck => exact fun _ _ => ⟨fun _ => id, fun _ => Or.inl trivial⟩
  | _ => exact fun _ writes => writes.elim

theorem Flight.Commits.of_outside {db db' : Db} {f : Flight} (commits : Commits db f db')
    (outside : f.Unchecked ∨ f.Forbidden) : db' = db := by
  cases commits with
  | nothing => rfl
  | _ => rcases outside with unchecked | forbidden <;> contradiction

theorem World.Complete.exists_thread (complete : w.Complete t creator payload) : w.store.thread? t ≠ none := by
  obtain ⟨row, found⟩ := complete.isSealed.1
  rw [found]
  exact Option.some_ne_none row

theorem World.Complete.screened (complete : w.Complete t creator payload) {f f' : Flight} {db' : Db}
    (moves : f.Moves w.store db' f') (placed : f.Placed w.store) (screened : f.Screened t creator payload) :
    f'.Screened t creator payload := by
  have internal : internalServerError ≠ notAParticipant := by decide
  cases moves with
  | refused => exact screened
  | postThread => exact fun _ writes => writes.elim
  | postClaim => exact fun _ writes => writes.elim
  | postMessage move =>
    rintro caller ⟨rfl, rfl⟩
    have before := screened _ ⟨rfl, rfl⟩
    cases move with
    | idle => exact before
    | notFound absent => exact absurd absent complete.exists_thread
    | reads => exact ⟨fun _ => id, fun _ => Or.inl trivial⟩
    | refused failed =>
      obtain ⟨rfl, outside⟩ := complete.refused placed failed
      exact ⟨fun member => absurd member outside, fun _ => Or.inr rfl⟩
    | resolves accepted =>
      have member := (complete.check placed _).mp ⟨_, accepted⟩
      exact ⟨fun _ => id, fun outside => absurd member outside⟩
    | appendFails _ _ failed =>
      obtain rfl := failed.resolve_left complete.exists_thread
      exact ⟨fun _ => internal, fun outside => (or_self_iff.mp (before.2 outside)).elim⟩
    | _ => exact ⟨fun _ => id, fun outside => (or_self_iff.mp (before.2 outside)).elim⟩
  | postAck move =>
    rintro caller ⟨rfl, rfl⟩
    have before := screened _ ⟨rfl, rfl⟩
    cases move with
    | idle => exact before
    | notFound absent => exact absurd absent complete.exists_thread
    | reads => exact ⟨fun _ => id, fun _ => Or.inl trivial⟩
    | refused failed =>
      obtain ⟨rfl, outside⟩ := complete.refused placed failed
      exact ⟨fun member => absurd member outside, fun _ => Or.inr rfl⟩
    | resolves accepted =>
      have member := (complete.check placed _).mp ⟨_, accepted⟩
      exact ⟨fun _ => id, fun outside => absurd member outside⟩
    | appendFails _ _ _ failed =>
      obtain rfl := failed.resolve_left complete.exists_thread
      exact ⟨fun _ => internal, fun outside => (or_self_iff.mp (before.2 outside)).elim⟩
    | _ => exact ⟨fun _ => id, fun outside => (or_self_iff.mp (before.2 outside)).elim⟩

/-- The requests that come in behind the first `n` are screened for good. -/
theorem World.Complete.run_screened (complete : w.Complete t creator payload) (es : List (Event Request Input))
    {i : Nat} {f : Flight} (late : w.pool.length ≤ i) (at_i : (server.run w es).pool[i]? = some f) :
    f.Screened t creator payload := by
  have holds := server.run_preserves (I := fun v => World.Complete t creator payload v ∧
    ∀ j g, w.pool.length ≤ j → v.pool[j]? = some g → g.Screened t creator payload) ?_ es ⟨complete, ?_⟩
  · exact holds.2 i f late at_i
  · rintro v e ⟨here, screened⟩
    refine ⟨here.exec e, ?_⟩
    cases e with
    | arrive request =>
      intro j g late at_j
      rcases Machine.getElem?_pool_append at_j with ⟨_, rfl⟩ | old
      · exact request.receive_fresh.screened
      · exact screened j g late old
    | step k x =>
      cases at_k : v.pool[k]? with
      | none => rwa [server.exec_idle x at_k]
      | some h =>
        rw [server.exec_step x at_k]
        intro j g late at_j
        rcases Machine.getElem?_pool_set at_k at_j with ⟨rfl, rfl⟩ | ⟨_, old⟩
        · have placed := here.accounted.sound.2 h (List.mem_of_getElem? at_k)
          exact here.screened (h.step_moves x v.store) placed (screened k h late at_k)
        · exact screened j g late old
  · intro j g late at_j
    have bound := (List.getElem?_eq_some_iff.mp at_j).1
    omega

end Check

/-- Access to a thread is fixed when its creation is over: in every later state
the participant check lets in the creator and the recipients and nobody else,
an outsider is answered 403 without any effect, and all messages are from
members, to the creator or the primary recipient. A request with a valid header
and body is not refused earlier: it gets to the check. -/
theorem access_fixed_at_creation {es : List (Event Request Input)} {i : Nat} {creator : Participant}
    {payload : ThreadCreate} {created : CreatedThread}
    (answered : (server.run World.init es).pool[i]? = some (.postThread creator payload (.done (.ok created))))
    (es' : List (Event Request Input)) :
    let w := server.run World.init es
    let w' := server.run w es'
    (∀ p, (∃ r, w'.store.recipient? created.id p = some r) ↔ p ∈ payload.allRecipients) ∧
    (∀ f ∈ w'.pool, ∀ caller, f.Writes created.id caller → f.AtCheck →
      (server.step .transaction w'.store f).1 = w'.store ∧
        (payload.Member creator caller → (server.step .transaction w'.store f).2.Admitted) ∧
        (¬payload.Member creator caller → (server.step .transaction w'.store f).2.Forbidden)) ∧
    (∀ (j : Nat) f caller, w.pool.length ≤ j → w'.pool[j]? = some f → f.Writes created.id caller →
      (payload.Member creator caller → ¬f.Forbidden) ∧
        (¬payload.Member creator caller →
          (f.Unchecked ∨ f.Forbidden) ∧ ∀ x, (server.step x w'.store f).1 = w'.store)) ∧
    (∀ m ∈ w'.store.messagesOf created.id, payload.Member creator m.fromParticipant ∧
      (m.toParticipant = creator.id ∨ m.toParticipant = payload.primary)) ∧
    (∀ caller body, server.receive (.postMessage created.id (some caller.id) (MessageCreate.toMessageCreateBody body)) =
      .postMessage created.id caller body .start) ∧
    (∀ caller body, server.receive (.postAck created.id (some caller.id) (body.map MessageCreate.toMessageCreateBody)) =
      .postAck created.id caller body .start) ∧
    ∀ f caller, f.Fresh → f.Writes created.id caller →
      (server.step .transaction w'.store f).1 = w'.store ∧ (server.step .transaction w'.store f).2.AtCheck := by
  intro w w'
  have before : World.Complete created.id creator payload w := .of_answered answered
  have complete : World.Complete created.id creator payload w' := before.run es'
  have sound := complete.accounted.sound
  refine ⟨complete.listed, ?_, ?_, ?_, fun caller body => ?_, fun caller body => ?_,
    fun f caller fresh writes => complete.step_fresh fresh writes⟩
  · intro f member caller writes atCheck
    exact complete.step_atCheck (sound.2 f member) writes atCheck
  · intro j f caller late at_j writes
    obtain ⟨inside, outside⟩ := before.run_screened es' late at_j caller writes
    refine ⟨inside, fun outsider => ⟨outside outsider, fun x => ?_⟩⟩
    exact (f.step_commits x w'.store).of_outside (outside outsider)
  · intro m member
    obtain ⟨stored, inThread⟩ := Db.mem_messagesOf.mp member
    have party : w'.store.Party created.id m.fromParticipant := inThread ▸ sound.1.sent m stored
    obtain ⟨_, _, opened, addressee⟩ := inThread ▸ sound.1.addressed m stored
    obtain ⟨rfl, rfl⟩ := complete.opened.unique opened
    exact ⟨complete.member_iff.mp party, addressee⟩
  · have fresh : (Flight.postMessage created.id caller body .start).Fresh := .postMessage ..
    exact fresh.receive nofun
  · have fresh : (Flight.postAck created.id caller body .start).Fresh := .postAck ..
    exact fresh.receive nofun

/-- A recipient has replied, and a third participant gets nowhere. -/
theorem access_fixed_for_outsider :
    let es := .arrive (.postThread (some "a") ⟨some "b", [], "s", "hello", none, none⟩) ::
      .step 0 (.draw ⟨reading 0 1, "t", "m0"⟩) :: transactions 0 2
    let es' := .arrive (.postMessage "t" (some "b") ⟨"hi", none⟩) :: transactions 1 2 ++
      .step 1 (.draw ⟨reading 1 0, "m1", ""⟩) :: transactions 1 1 ++
      .arrive (.postMessage "t" (some "c") ⟨"me too", none⟩) :: transactions 2 2
    ∀ f, (server.run (server.run World.init es) es').pool[2]? = some f → f.Writes "t" "c" →
      f.Unchecked ∨ f.Forbidden := by
  intro es es' f at_2 writes
  have answered : (server.run World.init es).pool[0]? = some (.postThread ⟨"a", rfl⟩
      ⟨⟨some "b", [], "s", "hello", none, none⟩, by decide, by decide, by decide, by decide⟩
      (.done (.ok ⟨"t", "s", "a", .opened, nowUtc (reading 0 1), nowUtc (reading 0 1), none, ["b"]⟩))) := rfl
  obtain ⟨_, _, screened, _⟩ := access_fixed_at_creation answered es'
  exact ((screened 2 f "c" (by decide) at_2 writes).2 (by decide)).1

end PbChatroom
