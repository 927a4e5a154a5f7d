import PbChatroom.Soundness

namespace PbChatroom
open Interleaving Relational

/-- What a call of `post_thread` relies on between its transactions. -/
def PostThread.Placed (caller : Participant) (payload : ThreadCreate) (db : Db) : PostThread → Prop
  | .typing result _ | .adding result _ _ | .done (.ok result) =>
    db.OpenedFor result.id caller.id payload.primary
  | _ => True

/-- What a call of `post_message` relies on between its transactions. -/
def PostMessage.Placed (t : Uuid) (caller : Participant) (db : Db) : PostMessage → Prop
  | .listing thread => Snapshot db t thread
  | .drawing recipient | .appending recipient _ => db.Party t caller.id ∧ db.Addressee t recipient
  | .typing result _ | .done (.ok result) =>
    result ∈ db.messages.rows ∧ result.threadId = t ∧ result.fromParticipant = caller.id ∧ result.kind = .message
  | _ => True

/-- What a call of `post_ack` relies on between its transactions. -/
def PostAck.Placed (t : Uuid) (caller : Participant) (payload : Option MessageCreate) (db : Db) : PostAck → Prop
  | .listing thread => Snapshot db t thread
  | .drawing _ recipient | .appending _ recipient _ => db.Party t caller.id ∧ db.Addressee t recipient
  | .stamping recipient d | .marking recipient d _ | .checking recipient d | .flipping recipient d =>
    response t caller.id recipient (body payload) d ∈ db.messages.rows
  | .done (.ok result) =>
    result ∈ db.messages.rows ∧ result.threadId = t ∧ result.fromParticipant = caller.id ∧ result.kind = .ack
  | _ => True

def Flight.Placed (db : Db) : Flight → Prop
  | .postThread caller payload pc => pc.Placed caller payload db
  | .postMessage t caller _ pc => pc.Placed t caller db
  | .postAck t caller payload pc => pc.Placed t caller payload db
  | _ => True

theorem Flight.Fresh.placed {f : Flight} (fresh : f.Fresh) (db : Db) : f.Placed db := by
  cases fresh <;> trivial

/-- Other requests do not invalidate what a request relies on. -/
theorem Flight.Placed.later {db db' : Db} {f : Flight} (placed : f.Placed db) (later : db.Later db') :
    f.Placed db' := by
  cases f with
  | refused => trivial
  | postClaim => trivial
  | postThread caller payload pc =>
    cases pc with
    | typing => exact Db.OpenedFor.later placed later
    | adding => exact Db.OpenedFor.later placed later
    | done answer =>
      cases answer with
      | error => trivial
      | ok => exact Db.OpenedFor.later placed later
    | _ => trivial
  | postMessage t caller payload pc =>
    cases pc with
    | listing => exact Snapshot.later placed later
    | drawing => exact ⟨placed.1.later later, placed.2.later later⟩
    | appending => exact ⟨placed.1.later later, placed.2.later later⟩
    | typing => exact ⟨later.messages.subset placed.1, placed.2⟩
    | done answer =>
      cases answer with
      | error => trivial
      | ok => exact ⟨later.messages.subset placed.1, placed.2⟩
    | _ => trivial
  | postAck t caller payload pc =>
    cases pc with
    | listing => exact Snapshot.later placed later
    | drawing => exact ⟨placed.1.later later, placed.2.later later⟩
    | appending => exact ⟨placed.1.later later, placed.2.later later⟩
    | stamping => exact later.messages.subset placed
    | marking => exact later.messages.subset placed
    | checking => exact later.messages.subset placed
    | flipping => exact later.messages.subset placed
    | done answer =>
      cases answer with
      | error => trivial
      | ok => exact ⟨later.messages.subset placed.1, placed.2⟩
    | _ => trivial

theorem PostThread.Moves.keeps {caller : Participant} {payload : ThreadCreate} {db db' : Db} {pc pc' : PostThread}
    (move : PostThread.Moves caller payload db pc db' pc') (sound : db.Sound) (placed : pc.Placed caller payload db) :
    db'.Sound ∧ pc'.Placed caller payload db' := by
  cases move with
  | idle => exact ⟨sound, placed⟩
  | draws => exact ⟨sound, trivial⟩
  | createFails => exact ⟨sound, trivial⟩
  | createsTyped _ created =>
    obtain ⟨rfl, creates⟩ := createThread_ok created
    exact ⟨creates.sound sound rfl rfl rfl rfl, creates.openedFor rfl⟩
  | creates _ created =>
    obtain ⟨rfl, creates⟩ := createThread_ok created
    exact ⟨creates.sound sound rfl rfl rfl rfl, creates.openedFor rfl⟩
  | types result discussionType =>
    have later := setDiscussionType_later db result.id discussionType
    exact ⟨sound.of_later later rfl Db.thread?_of_updateThread, Db.OpenedFor.later placed later⟩
  | addFails => exact ⟨sound, trivial⟩
  | adds added =>
    have later := addRecipient_later added
    obtain ⟨threads, messages, _⟩ := Db.insertOrIgnoreRecipient?_eq_some added
    refine ⟨sound.of_later later messages fun t row found => ⟨row, ?_⟩, Db.OpenedFor.later placed later⟩
    rwa [Db.thread?, ← threads]
  | finishes added =>
    have later := addRecipient_later added
    obtain ⟨threads, messages, _⟩ := Db.insertOrIgnoreRecipient?_eq_some added
    refine ⟨sound.of_later later messages fun t row found => ⟨row, ?_⟩, Db.OpenedFor.later placed later⟩
    rwa [Db.thread?, ← threads]

theorem PostMessage.Moves.keeps {t : Uuid} {caller : Participant} {payload : MessageCreate} {db db' : Db}
    {pc pc' : PostMessage} (move : PostMessage.Moves t caller payload db pc db' pc') (sound : db.Sound)
    (placed : pc.Placed t caller db) : db'.Sound ∧ pc'.Placed t caller db' := by
  cases move with
  | idle => exact ⟨sound, placed⟩
  | notFound => exact ⟨sound, trivial⟩
  | reads read => exact ⟨sound, sound.snapshot read⟩
  | refused => exact ⟨sound, trivial⟩
  | resolves accepted => exact ⟨sound, Snapshot.resolve placed accepted⟩
  | draws => exact ⟨sound, placed⟩
  | appendFails => exact ⟨sound, trivial⟩
  | appendsTyped append =>
    obtain ⟨rfl, appended⟩ := appendMessage_ok append
    refine ⟨appended.sound (fun _ => ⟨rfl, rfl, rfl, rfl, id, fun _ => rfl⟩) sound placed.1 placed.2, ?_, rfl, rfl, rfl⟩
    simp [appended.messages]
  | appends append =>
    obtain ⟨rfl, appended⟩ := appendMessage_ok append
    refine ⟨appended.sound (fun _ => ⟨rfl, rfl, rfl, rfl, id, fun _ => rfl⟩) sound placed.1 placed.2, ?_, rfl, rfl, rfl⟩
    simp [appended.messages]
  | types result discussionType =>
    exact ⟨sound.of_later (setDiscussionType_later ..) rfl Db.thread?_of_updateThread, placed⟩

theorem PostClaim.Moves.keeps {t : Uuid} {caller : Participant} {payload : ClaimRequest} {db db' : Db}
    {pc pc' : PostClaim} (move : PostClaim.Moves t caller payload db pc db' pc') (sound : db.Sound) : db'.Sound := by
  cases move with
  | idle => exact sound
  | draws => exact sound
  | claims now =>
    refine sound.of_later (setClaim_later ..) ?_ ?_
    · unfold setClaim
      dsimp only
      split
      · split
        · rfl
        · split <;> rfl
      · rfl
    · intro u row' found
      unfold setClaim at found
      dsimp only at found
      split at found
      · split at found
        · exact ⟨row', found⟩
        · split at found <;> exact ⟨row', found⟩
      · exact Db.thread?_of_updateThread u row' found

theorem PostAck.Moves.keeps {t : Uuid} {caller : Participant} {payload : Option MessageCreate} {db db' : Db}
    {pc pc' : PostAck} (move : PostAck.Moves t caller payload db pc db' pc') (sound : db.Sound)
    (placed : pc.Placed t caller payload db) : db'.Sound ∧ pc'.Placed t caller payload db' := by
  cases move with
  | idle => exact ⟨sound, placed⟩
  | notFound => exact ⟨sound, trivial⟩
  | reads read => exact ⟨sound, sound.snapshot read⟩
  | refused => exact ⟨sound, trivial⟩
  | resolves accepted => exact ⟨sound, Snapshot.resolve placed accepted⟩
  | draws => exact ⟨sound, placed⟩
  | appendFails => exact ⟨sound, trivial⟩
  | inserts inserted =>
    have appended := insertAck_ok inserted
    refine ⟨appended.sound (fun _ => ⟨rfl, rfl, rfl, rfl, id, fun _ => rfl⟩) sound placed.1 placed.2, ?_⟩
    show response t caller.id _ _ _ ∈ db'.messages.rows
    simp [appended.messages]
  | closes append =>
    obtain ⟨rfl, appended⟩ := appendAck_ok append
    refine ⟨appended.sound (fun _ => ⟨rfl, rfl, rfl, rfl, fun _ => rfl, fun _ => rfl⟩) sound placed.1 placed.2, ?_, rfl,
      rfl, rfl⟩
    simp [appended.messages]
  | stamps => exact ⟨sound, placed⟩
  | marks => exact ⟨sound.of_later (markRecipientAcked_later ..) rfl fun _ row found => ⟨row, found⟩, placed⟩
  | completes => exact ⟨sound, placed⟩
  | leavesOpen => exact ⟨sound, placed, rfl, rfl, rfl⟩
  | flips =>
    exact ⟨sound.of_later (updateThreadStatus_later ..) rfl Db.thread?_of_updateThread, placed, rfl, rfl, rfl⟩

theorem Flight.Moves.keeps {db db' : Db} {f f' : Flight} (moves : Moves db f db' f') (sound : db.Sound)
    (placed : f.Placed db) : db'.Sound ∧ f'.Placed db' := by
  cases moves with
  | refused => exact ⟨sound, trivial⟩
  | postThread move => exact move.keeps sound placed
  | postMessage move => exact move.keeps sound placed
  | postClaim move => exact ⟨move.keeps sound, trivial⟩
  | postAck move => exact move.keeps sound placed

/-- The invariant of the whole server: a sound store, and every request placed
where its handler may rely on what it has read. -/
abbrev World.Sound (w : World) : Prop := Machine.Annotated Db.Sound Flight.Placed w

theorem World.Sound.exec {w : World} (sound : w.Sound) (e : Event Request Input) : World.Sound (server.exec w e) :=
  server.annotated_exec (R := Db.Later) (fun _ request _ => request.receive_fresh.placed _)
    (fun x db f sound placed => (f.step_moves x db).keeps sound placed) step_later
    (fun _ _ _ later placed => placed.later later) w e sound

theorem World.Sound.run {w : World} (sound : w.Sound) (es : List (Event Request Input)) :
    World.Sound (server.run w es) :=
  server.run_preserves (show ∀ v e, World.Sound v → World.Sound (server.exec v e) from fun _ e holds => holds.exec e) es
    sound

theorem World.Sound.init : World.init.Sound := ⟨.empty, fun _ member => nomatch member⟩

/-- Every reachable world is sound. -/
theorem World.Sound.reachable (es : List (Event Request Input)) : World.Sound (server.run World.init es) :=
  World.Sound.init.run es

end PbChatroom
