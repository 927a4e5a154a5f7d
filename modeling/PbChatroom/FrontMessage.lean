import PbChatroom.ReplyRouting

namespace PbChatroom
open Interleaving Relational

namespace Db

instance (db : Db) (t : Uuid) : Decidable (db.RepliesOutlast t) :=
  inferInstanceAs (Decidable (∀ seed ∈ db.seed? t, ∀ m ∈ db.repliesOf t,
    Outlasts seed.createdAt.instant m.createdAt.instant))

/-- The message of the thread that all reads return first, by the readings of
the clock: the seed if all replies outlast it, else the earliest reply. -/
def front? (db : Db) (t : Uuid) : Option Message :=
  if db.RepliesOutlast t then db.seed? t
  else (orderBy (fun m n => m.createdAt.instant ≤ n.createdAt.instant) (db.repliesOf t)).head?

theorem createdNoLater_iff_le {m n : Message} (byIso : m.createdAt.writer = .nowIso)
    (byIso' : n.createdAt.writer = .nowIso) :
    createdNoLater m n ↔ m.createdAt.instant ≤ n.createdAt.instant := by
  have text : m.createdAt = nowIso m.createdAt.instant := by rw [nowIso, ← byIso]
  have text' : n.createdAt = nowIso n.createdAt.instant := by rw [nowIso, ← byIso']
  rw [createdNoLater, text, text', Timestamp.nowIso_text_lt_iff, not_lt]
  exact Iff.rfl

/-- The text order of the column puts the front message first. -/
theorem Sound.head?_messages {db : Db} (sound : db.Sound) {t : Uuid} (stamped : db.Stamped t) :
    (orderBy createdNoLater (db.messagesOf t)).head? = db.front? t := by
  cases found : db.thread? t with
  | none =>
    have empty := messagesOf_eq_nil found
    rw [front?, repliesOf, seed?, empty]
    split <;> rfl
  | some row =>
    obtain ⟨seed, atSeed, messages⟩ := sound.messagesOf_eq found
    have bySeed := stamped.1 seed atSeed
    have outlast_iff : db.RepliesOutlast t ↔ ∀ m ∈ db.repliesOf t, createdNoLater seed m := by
      simp only [RepliesOutlast, atSeed, Option.mem_def, Option.some.injEq, forall_eq']
      exact forall₂_congr fun m member => (createdNoLater_iff_outlasts bySeed (stamped.2 m member)).symm
    rw [front?, messages]
    split
    · rename_i outlast
      rw [atSeed, head?_orderBy_cons]
      exact outlast_iff.mp outlast
    · rename_i overtaken
      rw [head?_orderBy_cons_of_not createdNoLater fun least => overtaken (outlast_iff.mpr least),
        orderBy_congr createdNoLater fun m member n member' =>
          createdNoLater_iff_le (stamped.2 m member) (stamped.2 n member')]

end Db

/-- Every reachable store is read with the front message first. -/
theorem front_reachable (es : List (Event Request Input)) (t : Uuid) :
    (orderBy createdNoLater ((server.run World.init es).store.messagesOf t)).head? =
      (server.run World.init es).store.front? t := by
  have straight := World.Straight.reachable t es
  exact straight.sound.1.head?_messages straight.stamped

end PbChatroom
