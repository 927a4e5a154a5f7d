import PbChatroom.Atomicity

namespace PbChatroom
open Interleaving Relational

/-- `post_message` from its first line to its last, with nothing in between. -/
def PostMessage.call (threadId : Uuid) (caller : Participant) (payload : MessageCreate) (d : Draw) (db : Db) :
    Db × Except HTTPException Message :=
  match getThreadWithMessages db threadId with
  | none => (db, .error threadNotFound)
  | some thread =>
    match resolveParticipants thread caller.id ((listRecipients db threadId).map RecipientRow.participantId) with
    | .error e => (db, .error e)
    | .ok recipient =>
      match appendMessage db d.uuid threadId d.now caller.id recipient payload.body with
      | .error (.threadNotFound _) => (db, .error threadNotFound)
      | .error _ => (db, .error internalServerError)
      | .ok (result, db') =>
        match payload.discussionType with
        | none => (db', .ok result)
        | some discussionType =>
          (if discussionType ≠ "" then setDiscussionType db' threadId discussionType else db', .ok result)

/-- `post_claim` from its first line to its last. -/
def PostClaim.call (threadId : Uuid) (caller : Participant) (payload : ClaimRequest) (d : Draw) (db : Db) :
    Db × Except HTTPException Claim :=
  ((setClaim db threadId caller.id payload.scope d.now).2,
    answer (setClaim db threadId caller.id payload.scope d.now).1)

/-- `post_ack` from its first line to its last: `d` is drawn for the ack row and
`d'` for the mark. -/
def PostAck.call (threadId : Uuid) (caller : Participant) (payload : Option MessageCreate) (d d' : Draw) (db : Db) :
    Db × Except HTTPException Message :=
  match getThreadWithMessages db threadId with
  | none => (db, .error threadNotFound)
  | some thread =>
    let extraIds := (listRecipients db threadId).map RecipientRow.participantId
    match resolveParticipants thread caller.id extraIds with
    | .error e => (db, .error e)
    | .ok recipient =>
      if caller.id ∈ extraIds then
        match insertAck db threadId caller.id recipient (body payload) d with
        | .error _ => (db, .error internalServerError)
        | .ok db' =>
          let marked := markRecipientAcked db' threadId caller.id d'.now
          (if allRecipientsAcked marked threadId then updateThreadStatus marked threadId .acked else marked,
            .ok (response threadId caller.id recipient (body payload) d))
      else
        match appendAck db d.uuid threadId d.now caller.id recipient (body payload) with
        | .error (.threadNotFound _) => (db, .error threadNotFound)
        | .error _ => (db, .error internalServerError)
        | .ok (result, db') => (db', .ok result)

/-- A message, claim or ack request that runs alone until it is answered. -/
def Flight.serve (d d' : Draw) (db : Db) (f : Flight) : Db × Flight := server.drive (Flight.next d d') 8 (db, f)

section Serving
variable {d d' : Draw} {db : Db} {t : Uuid} {caller : Participant}

theorem drive_succ {n : Nat} {db db' : Db} {f f' : Flight}
    (step : server.step (f.next d d') db f = (db', f')) :
    server.drive (Flight.next d d') (n + 1) (db, f) = server.drive (Flight.next d d') n (db', f') := by
  rw [Machine.drive, step]

theorem drive_done {n : Nat} {db : Db} {f : Flight} (finished : f.Finished) :
    server.drive (Flight.next d d') n (db, f) = (db, f) :=
  Machine.drive_of_finished finished_absorbing finished n

theorem serve_refused (request : Request) (answer : HTTPException) :
    (Flight.refused request answer).serve d d' db = (db, .refused request answer) :=
  drive_done trivial

/-- The steps of a message request that runs alone are the call. -/
theorem serve_message (payload : MessageCreate) : (Flight.postMessage t caller payload .start).serve d d' db =
    ((PostMessage.call t caller payload d db).1,
      .postMessage t caller payload (.done (PostMessage.call t caller payload d db).2)) := by
  rw [Flight.serve, PostMessage.call]
  cases read : getThreadWithMessages db t with
  | none =>
    rw [drive_succ (by simp only [server, Flight.step, Flight.next, PostMessage.step, read]; rfl)]
    exact drive_done trivial
  | some thread =>
    rw [drive_succ (by simp only [server, Flight.step, Flight.next, PostMessage.step, read]; rfl)]
    dsimp only
    cases check : resolveParticipants thread caller.id ((listRecipients db t).map RecipientRow.participantId) with
    | error e =>
      rw [drive_succ (by simp only [server, Flight.step, Flight.next, PostMessage.step, check]; rfl)]
      exact drive_done trivial
    | ok recipient =>
      rw [drive_succ (by simp only [server, Flight.step, Flight.next, PostMessage.step, check]; rfl)]
      rw [drive_succ (by simp only [server, Flight.step, Flight.next, PostMessage.step]; rfl)]
      dsimp only
      cases append : appendMessage db d.uuid t d.now caller.id recipient payload.body with
      | error e =>
        rw [drive_succ (by simp only [server, Flight.step, Flight.next, PostMessage.step, append]; rfl)]
        cases e <;> exact drive_done trivial
      | ok appended =>
        obtain ⟨m, db'⟩ := appended
        cases given : payload.discussionType with
        | none =>
          rw [drive_succ (by simp only [server, Flight.step, Flight.next, PostMessage.step, append, given]; rfl)]
          exact drive_done trivial
        | some discussionType =>
          dsimp only
          by_cases empty : discussionType = ""
          · rw [drive_succ (by
              simp only [server, Flight.step, Flight.next, PostMessage.step, append, given, empty, ne_eq,
                not_true_eq_false, if_false]
              rfl), if_neg (not_not_intro empty)]
            exact drive_done trivial
          · rw [drive_succ (by
              simp only [server, Flight.step, Flight.next, PostMessage.step, append, given, ne_eq, empty,
                not_false_eq_true, if_true]
              rfl), if_pos empty]
            rw [drive_succ (by simp only [server, Flight.step, Flight.next, PostMessage.step]; rfl)]
            exact drive_done trivial

/-- The steps of a claim that runs alone are the call. -/
theorem serve_claim (payload : ClaimRequest) : (Flight.postClaim t caller payload .start).serve d d' db =
    ((PostClaim.call t caller payload d db).1,
      .postClaim t caller payload (.done (PostClaim.call t caller payload d db).2)) := by
  rw [Flight.serve]
  rw [drive_succ (by simp only [server, Flight.step, Flight.next, PostClaim.step]; rfl)]
  rw [drive_succ (by simp only [server, Flight.step, Flight.next, PostClaim.step]; rfl)]
  exact drive_done trivial

/-- The steps of an ack that runs alone are the call. -/
theorem serve_ack (payload : Option MessageCreate) : (Flight.postAck t caller payload .start).serve d d' db =
    ((PostAck.call t caller payload d d' db).1,
      .postAck t caller payload (.done (PostAck.call t caller payload d d' db).2)) := by
  rw [Flight.serve, PostAck.call]
  cases read : getThreadWithMessages db t with
  | none =>
    rw [drive_succ (by simp only [server, Flight.step, Flight.next, PostAck.step, read]; rfl)]
    exact drive_done trivial
  | some thread =>
    rw [drive_succ (by simp only [server, Flight.step, Flight.next, PostAck.step, read]; rfl)]
    dsimp only
    cases check : resolveParticipants thread caller.id ((listRecipients db t).map RecipientRow.participantId) with
    | error e =>
      rw [drive_succ (by simp only [server, Flight.step, Flight.next, PostAck.step, check]; rfl)]
      exact drive_done trivial
    | ok recipient =>
      rw [drive_succ (by simp only [server, Flight.step, Flight.next, PostAck.step, check]; rfl)]
      rw [drive_succ (by simp only [server, Flight.step, Flight.next, PostAck.step]; rfl)]
      dsimp only
      by_cases listed : caller.id ∈ (listRecipients db t).map RecipientRow.participantId
      · rw [if_pos listed, if_pos listed]
        cases insert : PostAck.insertAck db t caller.id recipient (PostAck.body payload) d with
        | error e =>
          rw [drive_succ (by simp only [server, Flight.step, Flight.next, PostAck.step, insert]; rfl)]
          exact drive_done trivial
        | ok db' =>
          rw [drive_succ (by simp only [server, Flight.step, Flight.next, PostAck.step, insert]; rfl)]
          rw [drive_succ (by simp only [server, Flight.step, Flight.next, PostAck.step]; rfl)]
          rw [drive_succ (by simp only [server, Flight.step, Flight.next, PostAck.step]; rfl)]
          dsimp only
          by_cases all : allRecipientsAcked (markRecipientAcked db' t caller.id d'.now) t
          · rw [drive_succ (by simp only [server, Flight.step, Flight.next, PostAck.step, all, if_true]; rfl),
              if_pos all]
            rw [drive_succ (by simp only [server, Flight.step, Flight.next, PostAck.step]; rfl)]
            rfl
          · rw [drive_succ (by simp only [server, Flight.step, Flight.next, PostAck.step, if_neg all]; rfl), if_neg all]
            exact drive_done trivial
      · rw [if_neg listed, if_neg listed]
        cases append : appendAck db d.uuid t d.now caller.id recipient (PostAck.body payload) with
        | error e =>
          rw [drive_succ (by simp only [server, Flight.step, Flight.next, PostAck.step, append]; rfl)]
          cases e <;> exact drive_done trivial
        | ok appended =>
          rw [drive_succ (by simp only [server, Flight.step, Flight.next, PostAck.step, append]; rfl)]
          exact drive_done trivial

end Serving

end PbChatroom
