import PbChatroom.AckProgress

namespace PbChatroom
open Interleaving Relational

/-- The participant has an ack stored in the thread. -/
def Db.HasAcked (db : Db) (t : Uuid) (p : String) : Prop :=
  ∃ m ∈ db.messagesOf t, m.kind = .ack ∧ m.fromParticipant = p

instance (db : Db) (t : Uuid) (p : String) : Decidable (db.HasAcked t p) :=
  inferInstanceAs (Decidable (∃ m ∈ db.messagesOf t, m.kind = .ack ∧ m.fromParticipant = p))

theorem Db.HasAcked.later {db db' : Db} {t : Uuid} {p : String} (acked : db.HasAcked t p) (later : db.Later db') :
    db'.HasAcked t p := by
  obtain ⟨m, member, facts⟩ := acked
  exact ⟨m, (later.messagesOf t).subset member, facts⟩

/-- The recipients that the body of a POST /api/threads request names. -/
def Flight.named : Flight → List String
  | .postThread _ payload _ => payload.allRecipients
  | _ => []

/-- No thread is acked while a recipient that its creator has named has not
acked. -/
def World.NoPrematureClose (w : World) : Prop :=
  ∀ f ∈ w.pool, ∀ t ∈ f.creates, ∀ row ∈ w.store.thread? t, row.status = .acked → ∀ p ∈ f.named, w.store.HasAcked t p

instance : DecidablePred World.NoPrematureClose := fun w =>
  inferInstanceAs (Decidable (∀ f ∈ w.pool, ∀ t ∈ f.creates, ∀ row ∈ w.store.thread? t, row.status = .acked →
    ∀ p ∈ f.named, w.store.HasAcked t p))

/-- What an ack needs to be in time: `append_ack` closes the thread only after
all recipients but the caller have acked, and `all_recipients_acked` is not true
of the stored rows while a recipient who has not acked is still to be added. -/
def PostAck.InTime (t : Uuid) (caller : Participant) (recipients : List String) (db : Db) : PostAck → Prop
  | .appending .closing _ _ => ∀ p ∈ recipients, p ≠ caller.id → db.HasAcked t p
  | .checking _ _ => allRecipientsAcked db t → ∀ p ∈ recipients, (db.recipient? t p).isSome ∨ db.HasAcked t p
  | _ => True

instance (t : Uuid) (caller : Participant) (recipients : List String) (db : Db) :
    DecidablePred (PostAck.InTime t caller recipients db)
  | .appending .closing _ _ => inferInstanceAs (Decidable (∀ p ∈ recipients, p ≠ caller.id → db.HasAcked t p))
  | .checking _ _ => inferInstanceAs (Decidable (allRecipientsAcked db t →
      ∀ p ∈ recipients, (db.recipient? t p).isSome ∨ db.HasAcked t p))
  | .start | .listing _ | .drawing _ _ | .appending .recipient _ _ | .stamping _ _ | .marking _ _ _ | .flipping _ _
  | .done _ => isTrue trivial

/-- The next transaction is not that of an ack that overtakes the creation of
its thread. -/
def World.InTime (w : World) : Event Request Input → Prop
  | .step i .transaction =>
    match w.pool[i]? with
    | some (.postAck t caller _ pc) => ∀ g ∈ w.pool, g.creates = some t → pc.InTime t caller g.named w.store
    | _ => True
  | _ => True

instance (w : World) : DecidablePred w.InTime
  | .step i .transaction => by
    unfold World.InTime
    dsimp only
    split <;> infer_instance
  | .step _ (.draw _) | .arrive _ => isTrue trivial

theorem World.InTime.ack {w : World} {i : Nat} (inTime : w.InTime (.step i .transaction)) {t : Uuid}
    {caller : Participant} {body : Option MessageCreate} {pc : PostAck}
    (at_i : w.pool[i]? = some (.postAck t caller body pc)) {g : Flight} (member : g ∈ w.pool)
    (creates : g.creates = some t) : pc.InTime t caller g.named w.store := by
  simp only [InTime, at_i] at inTime
  exact inTime g member creates

/-- Every recipient marked as acked has its ack stored. -/
def Db.Marked (db : Db) : Prop := ∀ t p r, db.recipient? t p = some r → r.ackedAt.isSome → db.HasAcked t p

theorem Flight.Moves.marked {db db' : Db} {f f' : Flight} (moves : Moves db f db' f') (placed : f.Placed db)
    (marked : db.Marked) : db'.Marked := by
  intro t p r' found acked
  rcases moves.commits.ackedAt found acked with ⟨r, atRow, old⟩ | ⟨_, _, _, _, _, rfl, rfl⟩
  · exact (marked t p r atRow old).later moves.later
  · exact Db.HasAcked.later ⟨_, Db.mem_messagesOf.mpr ⟨placed, rfl⟩, rfl, rfl⟩ moves.later

/-- The request is about to close `t`. -/
def Flight.Flipping (t : Uuid) : Flight → Prop
  | .postAck u _ _ (.flipping ..) => u = t
  | _ => False

/-- An ack is admitted to threads that exist only. -/
theorem Flight.Placed.thread_of_ackAdmitted {t : Uuid} {f : Flight} {db : Db} (placed : f.Placed db)
    (admitted : f.AckAdmitted t) : ∃ row, db.thread? t = some row := by
  have of_party : ∀ p, db.Party t p → ∃ row, db.thread? t = some row :=
    fun p ⟨_, _, ⟨row, _, found, _⟩, _⟩ => ⟨row, found⟩
  have of_message : ∀ m ∈ db.messages.rows, m.threadId = t → ∃ row, db.thread? t = some row := by
    rintro m stored rfl
    exact Option.isSome_iff_exists.mp (db.messages_thread m stored)
  unfold AckAdmitted AckWritten at admitted
  split at admitted
  · subst admitted
    exact of_party _ placed.1
  · subst admitted
    exact of_party _ placed.1
  · split at admitted
    · exact of_message _ placed admitted
    · exact of_message _ placed admitted
    · exact of_message _ placed admitted
    · exact of_message _ placed admitted
    · exact of_message _ placed.1 (placed.2.1.trans admitted)
    · exact admitted.elim

theorem Flight.Flipping.admitted {t : Uuid} {f : Flight} (flipping : f.Flipping t) : f.AckAdmitted t := by
  unfold Flipping at flipping
  split at flipping
  · exact flipping
  · exact flipping.elim

theorem Flight.Fresh.notFlipping {f : Flight} (fresh : f.Fresh) (t : Uuid) : ¬f.Flipping t := by
  cases fresh <;> exact id

theorem Flight.Moves.flipping_of {db db' : Db} {f f' : Flight} (moves : Moves db f db' f') {t : Uuid}
    (flipping : f'.Flipping t) : f.Flipping t ∨ ∃ caller body recipient d,
      f = .postAck t caller body (.checking recipient d) ∧ allRecipientsAcked db t := by
  cases moves with
  | postAck move =>
    cases move with
    | idle => exact Or.inl flipping
    | completes recipient d all =>
      obtain rfl : _ = t := flipping
      exact Or.inr ⟨_, _, _, _, rfl, all⟩
    | _ => exact flipping.elim
  | _ => exact flipping.elim

theorem Flight.Moves.named {db db' : Db} {f f' : Flight} (moves : Moves db f db' f') : f'.named = f.named := by
  cases moves <;> rfl

/-- The closing of a thread, done or decided, has all recipients behind it. -/
structure World.Paced (w : World) : Prop where
  accounted : w.Accounted
  marked : w.store.Marked
  acked : ∀ f ∈ w.pool, ∀ t, f.creates = some t →
    (∃ row, w.store.thread? t = some row ∧ row.status = .acked) ∨ (∃ g ∈ w.pool, g.Flipping t) →
      ∀ p ∈ f.named, w.store.HasAcked t p

theorem World.Paced.init : World.init.Paced where
  accounted := .init
  marked _ _ _ found := nomatch found
  acked _ member := nomatch member

/-- Whoever is closing the thread after the step was in time before it. -/
theorem World.Paced.step {w : World} (paced : w.Paced) {i : Nat} {f : Flight} {x : Input}
    (at_i : w.pool[i]? = some f) (inTime : w.InTime (.step i x)) {o : Flight} {t : Uuid} (opened : o ∈ w.pool)
    (creates : o.creates = some t)
    (closing : (∃ row, (server.step x w.store f).1.thread? t = some row ∧ row.status = .acked) ∨
      ∃ g ∈ w.pool.set i (server.step x w.store f).2, g.Flipping t) {p : String} (named : p ∈ o.named) :
    (server.step x w.store f).1.HasAcked t p := by
  have inPool := List.mem_of_getElem? at_i
  have moves := f.step_moves x w.store
  have before : (∃ row, w.store.thread? t = some row ∧ row.status = .acked) ∨ (∃ g ∈ w.pool, g.Flipping t) →
      (server.step x w.store f).1.HasAcked t p :=
    fun closed => (paced.acked o opened t creates closed p named).later (step_later x w.store f)
  rcases closing with ⟨row', found, acked⟩ | ⟨g, member, flipping⟩
  · rcases moves.commits.acked found acked with old | ⟨caller, body, recipient, d, rfl, stored⟩ | ⟨_, _, _, _, rfl⟩
    · exact before (Or.inl old)
    · cases x with
      | draw => exact before (Or.inl ⟨row', found, acked⟩)
      | transaction =>
        by_cases self : p = caller.id
        · exact ⟨_, Db.mem_messagesOf.mpr ⟨stored, rfl⟩, rfl, self.symm⟩
        · exact (inTime.ack at_i opened creates p named self).later (step_later _ w.store _)
    · exact before (Or.inr ⟨_, inPool, rfl⟩)
  · rcases Machine.mem_pool_set member with rfl | old
    · rcases moves.flipping_of flipping with still | ⟨caller, body, recipient, d, rfl, all⟩
      · exact before (Or.inr ⟨f, inPool, still⟩)
      · cases x with
        | draw => exact flipping.elim
        | transaction =>
          rcases inTime.ack at_i opened creates all p named with listed | acked
          · obtain ⟨r, found⟩ := Option.isSome_iff_exists.mp listed
            exact (paced.marked t p r found (allRecipientsAcked_iff.mp all p r found)).later (step_later _ w.store _)
          · exact acked.later (step_later _ w.store _)
    · exact before (Or.inr ⟨g, old, flipping⟩)

/-- Nobody closes a thread in the step that creates it. -/
theorem World.Paced.fresh {w : World} (paced : w.Paced) {i : Nat} {f : Flight} {x : Input}
    (at_i : w.pool[i]? = some f) {t : Uuid} (absent : w.store.thread? t = none) :
    ¬((∃ row, (server.step x w.store f).1.thread? t = some row ∧ row.status = .acked) ∨
      ∃ g ∈ w.pool.set i (server.step x w.store f).2, g.Flipping t) := by
  have notAdmitted : ∀ g ∈ w.pool, ¬g.AckAdmitted t := by
    intro g member admitted
    obtain ⟨row, found⟩ := (paced.accounted.sound.2 g member).thread_of_ackAdmitted admitted
    rw [absent] at found
    cases found
  have inPool := List.mem_of_getElem? at_i
  have moves := f.step_moves x w.store
  rintro (⟨row', found, acked⟩ | ⟨g, member, flipping⟩)
  · rcases moves.commits.acked found acked with ⟨row, old, _⟩ | ⟨_, _, _, _, rfl, _⟩ | ⟨_, _, _, _, rfl⟩
    · rw [absent] at old
      cases old
    · exact notAdmitted _ inPool rfl
    · exact notAdmitted _ inPool rfl
  · rcases Machine.mem_pool_set member with rfl | old
    · rcases moves.flipping_of flipping with still | ⟨_, _, _, _, rfl, _⟩
      · exact notAdmitted f inPool still.admitted
      · exact notAdmitted _ inPool rfl
    · exact notAdmitted g old flipping.admitted

theorem World.Paced.exec (w : World) (e : Event Request Input) (paced : w.Paced) (inTime : w.InTime e) :
    World.Paced (server.exec w e) := by
  have accounted := paced.accounted.exec e
  cases e with
  | arrive request =>
    have fresh := request.receive_fresh
    refine ⟨accounted, paced.marked, fun f member t creates closing => ?_⟩
    rcases List.mem_append.mp member with old | new
    · refine paced.acked f old t creates (closing.imp_right fun ⟨g, member, flipping⟩ => ?_)
      rcases List.mem_append.mp member with old | new
      · exact ⟨g, old, flipping⟩
      · rw [List.mem_singleton.mp new] at flipping
        exact absurd flipping (fresh.notFlipping t)
    · rw [List.mem_singleton.mp new, show (server.receive request).creates = none from fresh.creates] at creates
      cases creates
  | step i x =>
    cases at_i : w.pool[i]? with
    | none => rwa [server.exec_idle x at_i]
    | some f =>
      rw [server.exec_step x at_i] at accounted ⊢
      have inPool := List.mem_of_getElem? at_i
      have moves := f.step_moves x w.store
      refine ⟨accounted, moves.marked (paced.accounted.sound.2 f inPool) paced.marked,
        fun o member t creates closing p named => ?_⟩
      rcases Machine.mem_pool_set member with rfl | old
      · rcases moves.creates_of creates with before | absent
        · exact paced.step at_i inTime inPool before closing (moves.named ▸ named)
        · exact absurd closing (paced.fresh at_i absent)
      · exact paced.step at_i inTime old creates closing named

/-- As long as no ack overtakes the creation of its thread, no state of the run
has a thread closed over the head of a recipient. -/
theorem no_premature_close (es : List (Event Request Input)) (inTime : server.Along World.InTime World.init es) :
    server.Throughout World.NoPrematureClose World.init es :=
  (Machine.Along.throughout World.Paced.exec .init inTime).imp fun _ paced f member t creates row found acked =>
    paced.acked f member t creates (Or.inl ⟨row, found, acked⟩)

/-- Two recipients who ack while the creator's request is still at work, one
after its own row is in, wait for each other. -/
theorem no_premature_close_of_two : server.Throughout World.NoPrematureClose World.init
    ([.arrive (.postThread (some "a") ⟨none, ["b", "c"], "s", "hello", none, none⟩),
      .step 0 (.draw ⟨reading 0 1, "t", "m0"⟩)] ++ transactions 0 2 ++
      .arrive (.postAck "t" (some "b") none) :: transactions 1 2 ++ .step 1 (.draw ⟨reading 1 0, "m1", ""⟩) ::
      transactions 1 1 ++ .step 1 (.draw ⟨reading 1 1, "", ""⟩) :: transactions 0 1 ++ transactions 1 2 ++
      .arrive (.postAck "t" (some "c") none) :: transactions 2 2 ++ .step 2 (.draw ⟨reading 2 0, "m2", ""⟩) ::
      transactions 2 1 ++ .step 2 (.draw ⟨reading 2 1, "", ""⟩) :: transactions 2 3) :=
  no_premature_close _ (by decide)

/-- The thread is in the inbox of `b` before any recipient row is there: its
ack takes the path of `append_ack` and closes the thread, with `c` not asked. -/
theorem premature_close : ¬World.NoPrematureClose (server.run World.init
    ([.arrive (.postThread (some "a") ⟨none, ["b", "c"], "s", "hello", none, none⟩),
      .step 0 (.draw ⟨reading 0 1, "t", "m0"⟩)] ++ transactions 0 1 ++
      .arrive (.postAck "t" (some "b") none) :: transactions 1 2 ++ .step 1 (.draw ⟨reading 1 0, "m1", ""⟩) ::
      transactions 1 1)) := by
  decide

end PbChatroom
