import PbChatroom.Statements

namespace PbChatroom
open Interleaving Relational

/-- `get_thread_with_messages` where its three SELECTs find three stores. -/
def readThread (db db' db'' : Db) (threadId : Uuid) : Option ThreadWithMessages :=
  (db.thread? threadId).map fun thread =>
    { thread
      messages := selectMessages db' threadId
      recipients := selectParticipantIds db'' threadId }

/-- What one read of a thread shows is still there in another: its messages in the
same order, its recipients, and all of the row that never changes. -/
structure ThreadWithMessages.Earlier (read read' : ThreadWithMessages) : Prop where
  thread : read.thread.Later read'.thread
  messages : read.messages.Sublist read'.messages
  recipients : ∀ p ∈ read.recipients, p ∈ read'.recipients

section Later
variable {db db' : Db} {t : Uuid}

theorem Db.Later.selectMessages (later : db.Later db') (t : Uuid) :
    (selectMessages db t).Sublist (PbChatroom.selectMessages db' t) :=
  orderBy_sublist createdNoLater (later.messagesOf t).sublist

theorem Db.Later.selectParticipantIds (later : db.Later db') {p : String} (listed : p ∈ selectParticipantIds db t) :
    p ∈ PbChatroom.selectParticipantIds db' t := by
  have before := Db.mem_recipientsOf_iff_exists.mp listed
  exact Db.mem_recipientsOf_iff_exists.mpr (later.listed before)

/-- A read whose SELECTs come later shows more. -/
theorem readThread_earlier {a b c a' b' c' : Db} {read : ThreadWithMessages} (first : a.Later a') (second : b.Later b')
    (third : c.Later c') (here : readThread a b c t = some read) :
    ∃ read', readThread a' b' c' t = some read' ∧ read.Earlier read' := by
  obtain ⟨row, found, rfl⟩ := Option.map_eq_some_iff.mp here
  obtain ⟨row', found', step⟩ := first.thread? found
  refine ⟨_, by rw [readThread, found', Option.map_some], step, second.selectMessages t, fun p listed => ?_⟩
  exact third.selectParticipantIds listed

end Later

/-- A request that has been answered with a message has it in the database. -/
theorem responded_stored {w : World} (sound : w.Sound) {f : Flight} (member : f ∈ w.pool) {t : Uuid} {m : Message}
    (responded : f.responded t = some m) : m ∈ w.store.messagesOf t := by
  have placed := sound.2 f member
  unfold Flight.responded at responded
  split at responded
  · split at responded
    · rename_i same
      subst same
      cases Option.some.inj responded
      exact Db.mem_messagesOf.mpr ⟨placed.1, placed.2.1⟩
    · cases responded
  · split at responded
    · rename_i same
      subst same
      cases Option.some.inj responded
      exact Db.mem_messagesOf.mpr ⟨placed.1, placed.2.1⟩
    · cases responded
  · cases responded

/-- Reads of a thread, however other requests commit between their SELECTs. A read
fails only if the thread was not there when it began; it shows all that was there
then, and nothing that is not there when it ends; all that was answered before it
is in it; and a read that begins later shows at least as much, in the same order. -/
theorem reads_in_session (t : Uuid) (es es₁ es₂ : List (Event Request Input)) :
    let w := server.run World.init es
    let w₁ := server.run w es₁
    let w₂ := server.run w₁ es₂
    (readThread w.store w₁.store w₂.store t = none ↔ w.store.thread? t = none) ∧
    ∀ read, readThread w.store w₁.store w₂.store t = some read →
      (∃ before after, getThreadWithMessages w.store t = some before ∧ getThreadWithMessages w₂.store t = some after ∧
        before.Earlier read ∧ read.Earlier after) ∧
      (∃ seed ∈ read.messages, w.store.seed? t = some seed) ∧
      (∀ f ∈ w.pool, ∀ m, f.responded t = some m → m ∈ read.messages) ∧
      ∀ es₃ es₄ es₅, ∃ read', readThread (server.run w₂ es₃).store (server.run (server.run w₂ es₃) es₄).store
        (server.run (server.run (server.run w₂ es₃) es₄) es₅).store t = some read' ∧ read.Earlier read' := by
  intro w w₁ w₂
  have first : w.store.Later w₁.store := run_later w es₁
  have second : w₁.store.Later w₂.store := run_later w₁ es₂
  refine ⟨Option.map_eq_none_iff, fun read here => ⟨?_, ?_, ?_, ?_⟩⟩
  · obtain ⟨row, found, _⟩ := Option.map_eq_some_iff.mp here
    have whole : ∀ db : Db, readThread db db db t = getThreadWithMessages db t := fun _ => rfl
    obtain ⟨before, isBefore⟩ : ∃ before, getThreadWithMessages w.store t = some before :=
      ⟨_, by rw [getThreadWithMessages, found, Option.map_some]⟩
    obtain ⟨read', here', earlier⟩ := readThread_earlier (.refl _) first (first.trans second) (whole w.store ▸ isBefore)
    cases Option.some.inj (here.symm.trans here')
    obtain ⟨after, isAfter, later⟩ := readThread_earlier (first.trans second) second (.refl _) here
    exact ⟨before, after, isBefore, whole w₂.store ▸ isAfter, earlier, later⟩
  · obtain ⟨row, found, rfl⟩ := Option.map_eq_some_iff.mp here
    obtain ⟨seed, atSeed, _⟩ := (World.Sound.reachable es).1.seeded t row found
    refine ⟨seed, (mem_orderBy createdNoLater).mpr ?_, atSeed⟩
    exact (first.messagesOf t).subset (List.mem_of_mem_head? atSeed)
  · intro f member m responded
    obtain ⟨row, found, rfl⟩ := Option.map_eq_some_iff.mp here
    have stored := responded_stored (World.Sound.reachable es) member responded
    exact (mem_orderBy createdNoLater).mpr ((first.messagesOf t).subset stored)
  · intro es₃ es₄ es₅
    have third := run_later w₂ es₃
    have fourth := run_later (server.run w₂ es₃) es₄
    have fifth := run_later (server.run (server.run w₂ es₃) es₄) es₅
    exact readThread_earlier ((first.trans second).trans third) ((second.trans third).trans fourth)
      ((third.trans fourth).trans fifth) here

end PbChatroom
