import PbChatroom.Commits
import PbChatroom.Placement

namespace PbChatroom
open Interleaving Relational

/-- The thread that a request has committed. -/
def Flight.creates : Flight → Option Uuid
  | .postThread _ _ (.typing result _) | .postThread _ _ (.adding result _ _)
  | .postThread _ _ (.done (.ok result)) => some result.id
  | _ => none

/-- The request has committed the thread and not yet all of its recipients. -/
def Flight.Building (t : Uuid) : Flight → Prop
  | .postThread _ _ (.typing result _) | .postThread _ _ (.adding result _ _) => result.id = t
  | _ => False

theorem Flight.Building.creates {t : Uuid} {f : Flight} (building : f.Building t) : f.creates = some t := by
  unfold Building at building
  split at building
  · exact congrArg some building
  · exact congrArg some building
  · exact building.elim

/-- Which recipients a thread has while its request is adding them. -/
def PostThread.Built (payload : ThreadCreate) (db : Db) : PostThread → Prop
  | .typing result _ => ∀ p, db.recipient? result.id p = none
  | .adding result recipient rest => ∃ added, payload.allRecipients = added ++ recipient :: rest ∧
      ∀ p, (∃ r, db.recipient? result.id p = some r) ↔ p ∈ added
  | .done (.ok result) => ∀ p, (∃ r, db.recipient? result.id p = some r) ↔ p ∈ payload.allRecipients
  | _ => True

def Flight.Built (db : Db) : Flight → Prop
  | .postThread _ payload pc => pc.Built payload db
  | _ => True

/-- The recipients of a thread, acked or not, are the same in both stores. -/
def Db.SameRecipients (t : Uuid) (db db' : Db) : Prop :=
  ∀ p, (∃ r, db'.recipient? t p = some r) ↔ ∃ r, db.recipient? t p = some r

theorem Db.SameRecipients.of_eq {t : Uuid} {db db' : Db} (same : db'.threadRecipients = db.threadRecipients) :
    db.SameRecipients t db' := by
  intro p
  rw [Db.recipient?, Db.recipient?, same]

theorem markRecipientAcked_sameRecipients (db : Db) (t u : Uuid) (p : String) (now : DateTime) :
    db.SameRecipients t (markRecipientAcked db u p now) := by
  intro q
  rw [markRecipientAcked, Db.recipient?_updateRecipient]
  split <;> simp

theorem addRecipient_recipient? {db db' : Db} {t : Uuid} {p : String} (added : addRecipient db t p = some db')
    (u : Uuid) (q : String) :
    (∃ r, db'.recipient? u q = some r) ↔ (∃ r, db.recipient? u q = some r) ∨ u = t ∧ q = p := by
  obtain ⟨_, _, recipients⟩ := Db.insertOrIgnoreRecipient?_eq_some added
  rw [Db.recipient?, recipients, Table.get?_insertOrIgnore]
  simp only [RecipientRow.key, Prod.mk.injEq]
  split
  · rename_i same
    simp [same]
  · rename_i other
    simp [Db.recipient?, other]

/-- Only the request that builds a thread changes who its recipients are. -/
theorem Flight.Moves.sameRecipients {db db' : Db} {f f' : Flight} (moves : Moves db f db' f') {t : Uuid}
    (notBuilding : ¬f.Building t) : db.SameRecipients t db' := by
  have refl : db.SameRecipients t db := fun _ => Iff.rfl
  cases moves with
  | refused => exact refl
  | postThread move =>
    cases move with
    | createsTyped _ created => exact .of_eq (createThread_ok created).2.recipients
    | creates _ created => exact .of_eq (createThread_ok created).2.recipients
    | types => exact .of_eq rfl
    | adds added | finishes added =>
      intro p
      rw [addRecipient_recipient? added]
      exact or_iff_left fun same => notBuilding same.1.symm
    | _ => exact refl
  | postMessage move =>
    cases move with
    | appendsTyped appended => exact .of_eq (appendMessage_ok appended).2.recipients
    | appends appended => exact .of_eq (appendMessage_ok appended).2.recipients
    | types => exact .of_eq rfl
    | _ => exact refl
  | postClaim move =>
    cases move with
    | claims => exact .of_eq (setClaim_recipients ..)
    | _ => exact refl
  | postAck move =>
    cases move with
    | inserts inserted => exact .of_eq (PostAck.insertAck_ok inserted).recipients
    | closes appended => exact .of_eq (appendAck_ok appended).2.recipients
    | marks => exact markRecipientAcked_sameRecipients db t _ _ _
    | flips => exact .of_eq rfl
    | _ => exact refl

theorem PostThread.Moves.built {caller : Participant} {payload : ThreadCreate} {db db' : Db} {pc pc' : PostThread}
    (move : PostThread.Moves caller payload db pc db' pc') (built : pc.Built payload db) : pc'.Built payload db' := by
  have unlisted : ∀ {d : Draw} {db' : Db} {result : CreatedThread},
      createThread db d.uuid d.uuid' d.now payload.subject caller.id payload.primary payload.body = .ok (result, db') →
      ∀ p, db'.recipient? result.id p = .none := by
    intro d db' result created p
    obtain ⟨rfl, creates⟩ := createThread_ok created
    rw [Db.recipient?, creates.recipients]
    exact Db.recipient?_eq_none creates.fresh p
  have begins : ∀ (db : Db) (result : CreatedThread), (∀ p, db.recipient? result.id p = .none) →
      (beginAdding payload result).Built payload db := by
    intro db result absent
    exact ⟨[], rfl, fun p => by simp [absent]⟩
  cases move with
  | idle => exact built
  | draws => trivial
  | createFails => trivial
  | createsTyped _ created => exact unlisted created
  | creates _ created => exact begins _ _ (unlisted created)
  | types result discussionType => exact begins _ { result with discussionType := some discussionType } built
  | addFails => trivial
  | adds added =>
    obtain ⟨before, listed, recipients⟩ := built
    refine ⟨before ++ [_], by rw [listed, List.append_assoc]; rfl, fun p => ?_⟩
    rw [addRecipient_recipient? added, recipients]
    simp
  | finishes added =>
    obtain ⟨before, listed, recipients⟩ := built
    intro p
    show (∃ r, db'.recipient? _ p = some r) ↔ _
    rw [addRecipient_recipient? added, recipients, listed]
    simp

theorem Flight.Moves.built {db db' : Db} {f f' : Flight} (moves : Moves db f db' f') (built : f.Built db) :
    f'.Built db' := by
  cases moves with
  | postThread move => exact move.built built
  | _ => trivial

theorem Flight.Built.same {db db' : Db} {f : Flight} (built : f.Built db)
    (same : ∀ t, f.creates = some t → db.SameRecipients t db') : f.Built db' := by
  cases f with
  | postThread caller payload pc =>
    cases pc with
    | typing result discussionType =>
      intro p
      have absent : db.recipient? result.id p = none := built p
      have iff := same result.id rfl p
      rw [absent] at iff
      exact Option.eq_none_iff_forall_ne_some.mpr fun r found => by simpa using iff.mp ⟨r, found⟩
    | adding result recipient rest =>
      obtain ⟨added, listed, recipients⟩ := built
      exact ⟨added, listed, fun p => (same result.id rfl p).trans (recipients p)⟩
    | done answer =>
      cases answer with
      | error => trivial
      | ok result => exact fun p => (same result.id rfl p).trans (built p)
    | _ => trivial
  | _ => trivial

/-- A request comes to own a thread only by creating it, under an id that was
free. -/
theorem Flight.Moves.creates_of {db db' : Db} {f f' : Flight} (moves : Moves db f db' f') {t : Uuid}
    (creates : f'.creates = some t) : f.creates = some t ∨ db.thread? t = none := by
  cases moves with
  | refused => exact Or.inl creates
  | postMessage => cases creates
  | postClaim => cases creates
  | postAck => cases creates
  | postThread move =>
    cases move with
    | idle => exact Or.inl creates
    | draws => cases creates
    | createFails => cases creates
    | createsTyped _ created | creates _ created =>
      obtain ⟨rfl, create⟩ := createThread_ok created
      cases Option.some.inj creates
      exact Or.inr create.fresh
    | types => exact Or.inl creates
    | addFails => cases creates
    | adds => exact Or.inl creates
    | finishes => exact Or.inl creates

theorem Flight.Placed.creates {db : Db} {f : Flight} (placed : f.Placed db) {t : Uuid}
    (creates : f.creates = some t) : ∃ creator primary, db.OpenedFor t creator primary := by
  unfold Flight.creates at creates
  split at creates <;> cases creates <;> exact ⟨_, _, placed⟩

/-- Two requests never create one thread. -/
def Flight.Apart (f g : Flight) : Prop := ∀ t, f.creates = some t → g.creates ≠ some t

/-- Soundness, with the recipients of every thread accounted for by the one
request that created it. -/
def World.Accounted (w : World) : Prop :=
  Machine.Annotated Db.Sound (fun db f => f.Placed db ∧ f.Built db) w ∧ Machine.Separate Flight.Apart w

theorem Flight.Fresh.creates {f : Flight} (fresh : f.Fresh) : f.creates = none := by
  cases fresh <;> rfl

theorem Flight.Fresh.built {f : Flight} (fresh : f.Fresh) (db : Db) : f.Built db := by
  cases fresh <;> trivial

theorem World.Accounted.exec {w : World} (accounted : w.Accounted) (e : Event Request Input) :
    World.Accounted (server.exec w e) := by
  refine server.outline_exec ?_ ?_ ?_ ?_ ?_ ?_ w e accounted
  · exact fun f g apart t gCreates fCreates => apart t fCreates gCreates
  · exact fun db request _ => ⟨request.receive_fresh.placed db, request.receive_fresh.built db⟩
  · intro request g t creates
    rw [show (server.receive request).creates = none from request.receive_fresh.creates] at creates
    cases creates
  · rintro x db f sound ⟨placed, built⟩
    have moves := f.step_moves x db
    obtain ⟨sound', placed'⟩ := moves.keeps sound placed
    exact ⟨sound', placed', moves.built built⟩
  · rintro x db f g _ _ ⟨placed, _⟩ apart t creates creates'
    rcases (f.step_moves x db).creates_of creates with before | fresh
    · exact apart t before creates'
    · obtain ⟨_, _, row, _, found, _⟩ := placed.creates creates'
      rw [fresh] at found
      cases found
  · rintro x db f g _ _ ⟨placed, built⟩ apart
    exact ⟨placed.later (step_later x db f), built.same fun t creates =>
      (f.step_moves x db).sameRecipients fun building => apart t building.creates creates⟩

theorem World.Accounted.run {w : World} (accounted : w.Accounted) (es : List (Event Request Input)) :
    World.Accounted (server.run w es) :=
  server.run_preserves (show ∀ v e, World.Accounted v → World.Accounted (server.exec v e) from
    fun _ e holds => holds.exec e) es accounted

theorem World.Accounted.init : World.init.Accounted :=
  ⟨⟨.empty, fun _ member => nomatch member⟩, fun i _ _ _ _ at_i _ => by simp [World.init] at at_i⟩

theorem World.Accounted.reachable (es : List (Event Request Input)) :
    World.Accounted (server.run World.init es) :=
  World.Accounted.init.run es

theorem World.Accounted.sound {w : World} (accounted : w.Accounted) : w.Sound :=
  ⟨accounted.1.1, fun f member => (accounted.1.2 f member).1⟩

/-- The creation of the thread is over: no request adds recipients any more. -/
def World.Sealed (t : Uuid) (w : World) : Prop :=
  (∃ row, w.store.thread? t = some row) ∧ ∀ f ∈ w.pool, ¬f.Building t

theorem Flight.Moves.building_of {db db' : Db} {f f' : Flight} (moves : Moves db f db' f') {t : Uuid}
    (building : f'.Building t) : f.Building t ∨ db.thread? t = none := by
  rcases moves.creates_of building.creates with before | fresh
  · left
    cases moves with
    | refused => exact building
    | postMessage => exact building
    | postClaim => exact building
    | postAck => exact building
    | postThread move =>
      cases move with
      | idle => exact building
      | createsTyped => cases before
      | creates => cases before
      | types => exact building
      | adds => exact building
      | _ => exact building.elim
  · exact Or.inr fresh

theorem World.Sealed.exec {t : Uuid} : ∀ (w : World) (e : Event Request Input),
    w.Sealed t → World.Sealed t (server.exec w e) := by
  refine server.exec_preserves ?_ ?_
  · rintro w request ⟨found, unbuilding⟩
    refine ⟨found, fun f member building => ?_⟩
    rcases List.mem_append.mp member with old | new
    · exact unbuilding f old building
    · rw [List.mem_singleton.mp new] at building
      have creates := building.creates
      rw [show (server.receive request).creates = .none from request.receive_fresh.creates] at creates
      cases creates
  · rintro w i f x at_i ⟨⟨row, found⟩, unbuilding⟩
    obtain ⟨row', found', _⟩ := (step_later x w.store f).thread? found
    refine ⟨⟨row', found'⟩, fun g member building => ?_⟩
    rcases Machine.mem_pool_set member with rfl | old
    · rcases (f.step_moves x w.store).building_of building with before | fresh
      · exact unbuilding f (List.mem_of_getElem? at_i) before
      · rw [found] at fresh
        cases fresh
    · exact unbuilding g old building

/-- Once the creating request is answered, its thread is sealed. -/
theorem World.Accounted.sealed {w : World} (accounted : w.Accounted) {i : Nat} {caller : Participant}
    {payload : ThreadCreate} {result : CreatedThread}
    (answered : w.pool[i]? = some (.postThread caller payload (.done (.ok result)))) : w.Sealed result.id := by
  have placed := (accounted.1.2 _ (List.mem_of_getElem? answered)).1
  obtain ⟨row, _, found, _⟩ := placed
  refine ⟨⟨row, found⟩, fun f member building => ?_⟩
  obtain ⟨j, at_j⟩ := List.mem_iff_getElem?.mp member
  by_cases same : i = j
  · subst same
    cases Option.some.inj (answered.symm.trans at_j)
    exact building.elim
  · exact accounted.2 i j _ _ same answered at_j result.id rfl building.creates

/-- A sealed thread keeps its recipients. -/
theorem World.Sealed.sameRecipients {t : Uuid} {w : World} (isSealed : w.Sealed t) (es : List (Event Request Input)) :
    World.Sealed t (server.run w es) ∧ w.store.SameRecipients t (server.run w es).store := by
  refine server.run_preserves (I := fun v => World.Sealed t v ∧ w.store.SameRecipients t v.store) ?_ es
    ⟨isSealed, fun _ => Iff.rfl⟩
  rintro v e ⟨here, same⟩
  refine ⟨here.exec v e, ?_⟩
  cases e with
  | arrive => exact same
  | step i x =>
    cases at_i : v.pool[i]? with
    | none => rwa [server.exec_idle x at_i]
    | some f =>
      rw [server.exec_step x at_i]
      exact fun p => ((f.step_moves x v.store).sameRecipients (here.2 f (List.mem_of_getElem? at_i)) p).trans (same p)

/-- The creation of the thread is over, and its recipients are those that the
body of the creating request names. -/
structure World.Complete (t : Uuid) (creator : Participant) (payload : ThreadCreate) (w : World) : Prop where
  accounted : w.Accounted
  isSealed : w.Sealed t
  opened : w.store.OpenedFor t creator.id payload.primary
  listed : ∀ p, (∃ r, w.store.recipient? t p = some r) ↔ p ∈ payload.allRecipients

theorem World.Complete.of_answered {es : List (Event Request Input)} {i : Nat} {creator : Participant}
    {payload : ThreadCreate} {created : CreatedThread}
    (answered : (server.run World.init es).pool[i]? = some (.postThread creator payload (.done (.ok created)))) :
    World.Complete created.id creator payload (server.run World.init es) := by
  have accounted := World.Accounted.reachable es
  obtain ⟨placed, built⟩ := accounted.1.2 _ (List.mem_of_getElem? answered)
  exact ⟨accounted, accounted.sealed answered, placed, built⟩

theorem World.Complete.run {t : Uuid} {creator : Participant} {payload : ThreadCreate} {w : World}
    (complete : w.Complete t creator payload) (es : List (Event Request Input)) :
    World.Complete t creator payload (server.run w es) := by
  obtain ⟨isSealed, same⟩ := complete.isSealed.sameRecipients es
  exact ⟨complete.accounted.run es, isSealed, complete.opened.later (run_later w es),
    fun p => (same p).trans (complete.listed p)⟩

theorem World.Complete.exec {t : Uuid} {creator : Participant} {payload : ThreadCreate} {w : World}
    (complete : w.Complete t creator payload) (e : Event Request Input) :
    World.Complete t creator payload (server.exec w e) :=
  complete.run [e]

/-- A request keeps the thread that it has created: with the thread there, the
insertion of a recipient does not fail. -/
theorem Flight.Moves.creates_stays {db db' : Db} {f f' : Flight} (moves : Moves db f db' f') (placed : f.Placed db)
    {t : Uuid} (creates : f.creates = some t) : f'.creates = some t := by
  cases moves with
  | postThread move =>
    cases move with
    | idle => exact creates
    | types => exact creates
    | adds => exact creates
    | finishes => exact creates
    | addFails result recipient rest failed =>
      obtain ⟨row, _, found, _⟩ := placed
      obtain ⟨db', added⟩ := Db.insertOrIgnoreRecipient?_of_thread ⟨result.id, recipient, none⟩ found
      rw [addRecipient, added] at failed
      cases failed
    | _ => cases creates
  | _ => cases creates

theorem Flight.Moves.creates_new {db db' : Db} {caller : Participant} {payload : ThreadCreate} {d : Draw} {f' : Flight}
    (moves : Moves db (.postThread caller payload (.creating d)) db' f') :
    db' = db ∨ f'.creates = some d.uuid := by
  cases moves with
  | postThread move =>
    cases move with
    | idle => exact Or.inl rfl
    | createFails => exact Or.inl rfl
    | createsTyped _ created | creates _ created =>
      obtain ⟨rfl, _⟩ := createThread_ok created
      exact Or.inr rfl

/-- Every thread has the request that created it. -/
def World.Created (w : World) : Prop := ∀ t row, w.store.thread? t = some row → ∃ f ∈ w.pool, f.creates = some t

theorem World.Created.exec (w : World) (e : Event Request Input) (holds : w.Sound ∧ w.Created) :
    World.Sound (server.exec w e) ∧ World.Created (server.exec w e) := by
  obtain ⟨sound, created⟩ := holds
  refine ⟨sound.exec e, ?_⟩
  cases e with
  | arrive request =>
    intro t row found
    obtain ⟨f, member, creates⟩ := created t row found
    exact ⟨f, List.mem_append_left _ member, creates⟩
  | step i x =>
    cases at_i : w.pool[i]? with
    | none => rwa [server.exec_idle x at_i]
    | some f =>
      rw [server.exec_step x at_i]
      have bound : i < w.pool.length := (List.getElem?_eq_some_iff.mp at_i).1
      have moves := f.step_moves x w.store
      have placed := sound.2 f (List.mem_of_getElem? at_i)
      have old : ∀ t row, w.store.thread? t = some row →
          ∃ g ∈ w.pool.set i (server.step x w.store f).2, g.creates = some t := by
        intro t row found
        obtain ⟨g, member, creates⟩ := created t row found
        obtain ⟨j, at_j⟩ := List.mem_iff_getElem?.mp member
        by_cases self : i = j
        · subst self
          cases Option.some.inj (at_i.symm.trans at_j)
          exact ⟨_, List.mem_set bound _, moves.creates_stays placed creates⟩
        · exact ⟨g, List.mem_iff_getElem?.mpr ⟨j, (List.getElem?_set_ne self).trans at_j⟩, creates⟩
      intro t row' found
      rcases moves.commits.thread_of found with ⟨row, before⟩ | ⟨caller, payload, d, rfl, rfl⟩
      · exact old t row before
      · rcases moves.creates_new with same | creates
        · exact old _ row' (same ▸ found)
        · exact ⟨_, List.mem_set bound _, creates⟩

theorem World.Created.reachable (es : List (Event Request Input)) : World.Created (server.run World.init es) := by
  have empty : World.Created World.init := fun _ _ found => nomatch found
  exact (server.run_preserves (I := fun w => World.Sound w ∧ World.Created w) World.Created.exec es
    ⟨World.Sound.init, empty⟩).2

end PbChatroom
