import PbChatroom.Creation

namespace PbChatroom
open Interleaving Relational

/-- Two stores have the same thread `t`: its row, its messages and its
recipients. -/
structure Db.SameThread (t : Uuid) (db db' : Db) : Prop where
  thread : db'.thread? t = db.thread? t
  messages : db'.messagesOf t = db.messagesOf t
  recipients : db'.recipientsOf t = db.recipientsOf t

namespace Db.SameThread
variable {t : Uuid} {db db' db'' : Db}

theorem refl (t : Uuid) (db : Db) : db.SameThread t db := ⟨rfl, rfl, rfl⟩

theorem trans (first : db.SameThread t db') (second : db'.SameThread t db'') : db.SameThread t db'' where
  thread := second.thread.trans first.thread
  messages := second.messages.trans first.messages
  recipients := second.recipients.trans first.recipients

theorem symm (same : db.SameThread t db') : db'.SameThread t db where
  thread := same.thread.symm
  messages := same.messages.symm
  recipients := same.recipients.symm

theorem getThreadWithMessages (same : db.SameThread t db') :
    PbChatroom.getThreadWithMessages db' t = PbChatroom.getThreadWithMessages db t := by
  rw [PbChatroom.getThreadWithMessages, PbChatroom.getThreadWithMessages, same.thread, same.messages, same.recipients]

theorem recipient? (same : db.SameThread t db') (p : String) : db'.recipient? t p = db.recipient? t p := by
  have member : ∀ r, db'.recipient? t p = some r ↔ db.recipient? t p = some r := by
    intro r
    have spec : ∀ {d : Db}, d.recipient? t p = some r ↔ r ∈ d.recipientsOf t ∧ r.participantId = p := by
      intro d
      rw [Db.mem_recipientsOf]
      constructor
      · intro found
        have isP := (Db.recipient?_spec found).2.2
        exact ⟨isP ▸ found, isP⟩
      · rintro ⟨found, rfl⟩
        exact found
    rw [spec, spec, same.recipients]
  exact Option.ext member

theorem allRecipientsAcked (same : db.SameThread t db') :
    PbChatroom.allRecipientsAcked db' t = PbChatroom.allRecipientsAcked db t := by
  have iff : PbChatroom.allRecipientsAcked db' t ↔ PbChatroom.allRecipientsAcked db t := by
    simp only [allRecipientsAcked_iff, same.recipient?]
  exact Bool.eq_iff_iff.mpr iff

end Db.SameThread

section Elsewhere
variable {t u : Uuid} {db db' : Db}

theorem Db.recipientsOf_updateRecipient (db : Db) (t u : Uuid) (p : String) (time : Timestamp) :
    (db.updateRecipient t p time).recipientsOf u =
      (db.recipientsOf u).map fun r => if r.key = (t, p) then { r with ackedAt := some time } else r :=
  db.threadRecipients.filter_update (t, p) (fun r => { r with ackedAt := some time }) (fun _ => rfl) fun _ => rfl

theorem addRecipient_recipientsOf {p : String} (added : addRecipient db t p = some db') (u : Uuid) :
    db'.recipientsOf u = db.recipientsOf u ++ if u = t ∧ db.recipient? t p = none then [⟨t, p, none⟩] else [] := by
  obtain ⟨_, _, recipients⟩ := Db.insertOrIgnoreRecipient?_eq_some added
  have absent : db.threadRecipients.get? (RecipientRow.key ⟨t, p, none⟩) = db.recipient? t p := rfl
  rw [Db.recipientsOf, recipients, Table.rows_insertOrIgnore, List.filter_append, ← Db.recipientsOf, absent]
  congr 1
  by_cases new : db.recipient? t p = none
  · by_cases here : u = t
    · simp [new, here]
    · simp [new, here, Ne.symm here]
  · simp [new]

/-- An update of one thread leaves all others. -/
theorem Db.sameThread_updateThread {set : ThreadRow → ThreadRow} {keeps : ∀ row, (set row).id = row.id}
    (other : u ≠ t) : db.SameThread u (db.updateThread t set keeps) :=
  ⟨by rw [Db.thread?_updateThread, if_neg other], rfl, rfl⟩

theorem Db.sameThread_updateRecipient {p : String} {time : Timestamp} (other : u ≠ t) :
    db.SameThread u (db.updateRecipient t p time) := by
  refine ⟨rfl, rfl, ?_⟩
  rw [Db.recipientsOf_updateRecipient]
  calc (db.recipientsOf u).map (fun r => if r.key = (t, p) then { r with ackedAt := some time } else r)
      = (db.recipientsOf u).map id := by
        refine List.map_congr_left fun r member => if_neg fun same => other ?_
        exact (of_decide_eq_true (List.mem_filter.mp member).2).symm.trans (congrArg Prod.fst same)
    _ = db.recipientsOf u := List.map_id _

theorem Appended.sameThread {set : ThreadRow → ThreadRow} {m : Message} (appended : Appended set db m db')
    (other : u ≠ m.threadId) : db.SameThread u db' where
  thread := by rw [appended.threads, if_neg other]
  messages := by rw [appended.messagesOf, if_neg (Ne.symm other), List.append_nil]
  recipients := by rw [Db.recipientsOf, Db.recipientsOf, appended.recipients]

theorem Created.sameThread {row : ThreadRow} {seed : Message} (created : Created db row seed db')
    (inThread : seed.threadId = row.id) (other : u ≠ row.id) : db.SameThread u db' where
  thread := by rw [created.threads, if_neg other]
  messages := by rw [created.messagesOf, if_neg (fun same => other (same.symm.trans inThread)), List.append_nil]
  recipients := by rw [Db.recipientsOf, Db.recipientsOf, created.recipients]

theorem addRecipient_sameThread {p : String} (added : addRecipient db t p = some db') (other : u ≠ t) :
    db.SameThread u db' where
  thread := by rw [Db.thread?, Db.thread?, (Db.insertOrIgnoreRecipient?_eq_some added).1]
  messages := Db.messagesOf_congr (Db.insertOrIgnoreRecipient?_eq_some added).2.1 u
  recipients := by rw [addRecipient_recipientsOf added, if_neg fun same => other same.1, List.append_nil]

theorem setClaim_sameThread {p scope : String} {now : DateTime} (other : u ≠ t) :
    db.SameThread u (setClaim db t p scope now).2 := by
  unfold setClaim
  dsimp only
  split
  · split
    · exact .refl u db
    · split <;> exact .refl u db
  · exact Db.sameThread_updateThread other

end Elsewhere

/-- The first store has the second one's thread `t`, and all its message ids:
what a transaction on `t` does in the second it does in the first, too. -/
structure Db.Covers (t : Uuid) (db db' : Db) : Prop where
  same : db.SameThread t db'
  taken : ∀ id, db'.MessageIdTaken id → db.MessageIdTaken id

section Here
variable {t : Uuid} {db db' : Db}

theorem Db.Covers.refl (t : Uuid) (db : Db) : db.Covers t db := ⟨.refl t db, fun _ => id⟩

theorem Db.Covers.updateThread {set : ThreadRow → ThreadRow} {keeps : ∀ row, (set row).id = row.id}
    (covers : db.Covers t db') : (db.updateThread t set keeps).Covers t (db'.updateThread t set keeps) := by
  refine ⟨⟨?_, covers.same.messages, covers.same.recipients⟩, covers.taken⟩
  rw [Db.thread?_updateThread, Db.thread?_updateThread, covers.same.thread]

theorem Db.Covers.updateRecipient (covers : db.Covers t db') (p : String) (time : Timestamp) :
    (db.updateRecipient t p time).Covers t (db'.updateRecipient t p time) := by
  refine ⟨⟨covers.same.thread, covers.same.messages, ?_⟩, covers.taken⟩
  rw [Db.recipientsOf_updateRecipient, Db.recipientsOf_updateRecipient, covers.same.recipients]

theorem addRecipient_covers (covers : db.Covers t db') (p : String) :
    Option.Rel (Db.Covers t) (addRecipient db t p) (addRecipient db' t p) := by
  cases found : db.thread? t with
  | none =>
    have absent := covers.same.thread.trans found
    rw [PbChatroom.addRecipient, PbChatroom.addRecipient, Db.insertOrIgnoreRecipient?_of_absent _ found,
      Db.insertOrIgnoreRecipient?_of_absent _ absent]
    exact .none
  | some row =>
    obtain ⟨here, added⟩ := Db.insertOrIgnoreRecipient?_of_thread ⟨t, p, none⟩ found
    obtain ⟨here', added'⟩ := Db.insertOrIgnoreRecipient?_of_thread ⟨t, p, none⟩ (covers.same.thread.trans found)
    have rows := addRecipient_recipientsOf added t
    have rows' := addRecipient_recipientsOf added' t
    obtain ⟨threads, messages, _⟩ := Db.insertOrIgnoreRecipient?_eq_some added
    obtain ⟨threads', messages', _⟩ := Db.insertOrIgnoreRecipient?_eq_some added'
    rw [PbChatroom.addRecipient, PbChatroom.addRecipient, added, added']
    refine .some ⟨⟨?_, ?_, ?_⟩, fun id taken => ?_⟩
    · rw [Db.thread?, threads', ← Db.thread?, covers.same.thread, Db.thread?, Db.thread?, threads]
    · rw [Db.messagesOf_congr messages', Db.messagesOf_congr messages, covers.same.messages]
    · rw [rows, rows', covers.same.recipients, covers.same.recipient?]
    · rw [Db.MessageIdTaken, messages'] at taken
      rw [Db.MessageIdTaken, messages]
      exact covers.taken id taken

theorem Db.Covers.taken_iff {id : Uuid} (covers : db.Covers t db')
    (apart : ∀ old ∈ db.messages.rows, old.id = id → old.threadId = t) :
    db'.MessageIdTaken id ↔ db.MessageIdTaken id := by
  refine ⟨covers.taken id, fun taken => ?_⟩
  obtain ⟨old, found⟩ := Option.isSome_iff_exists.mp taken
  obtain ⟨member, isId⟩ := Table.get?_eq_some_iff.mp found
  have here : old ∈ db.messagesOf t := List.mem_filter.mpr ⟨member, decide_eq_true (apart old member isId)⟩
  rw [← covers.same.messages] at here
  exact Option.isSome_iff_exists.mpr ⟨old, Table.get?_eq_some_iff.mpr ⟨(List.mem_filter.mp here).1, isId⟩⟩

/-- A message is inserted in both stores or in neither, if its id is not that of
a message of some other thread. -/
theorem Db.Covers.insertMessage? {m : Message} (covers : db.Covers m.threadId db')
    (apart : ∀ old ∈ db.messages.rows, old.id = m.id → old.threadId = m.threadId) :
    Option.Rel (Db.Covers m.threadId) (db.insertMessage? m) (db'.insertMessage? m) := by
  cases found : db.thread? m.threadId with
  | none =>
    rw [Db.insertMessage?_of_absent m found, Db.insertMessage?_of_absent m (covers.same.thread.trans found)]
    exact .none
  | some row =>
    have none_iff := Db.insertMessage?_eq_none_iff m (covers.same.thread.trans found)
    rw [covers.taken_iff apart, ← Db.insertMessage?_eq_none_iff m found] at none_iff
    cases inserted : db.insertMessage? m with
    | none =>
      rw [none_iff.mpr inserted]
      exact .none
    | some here =>
      cases inserted' : db'.insertMessage? m with
      | none =>
        rw [none_iff.mp inserted'] at inserted
        cases inserted
      | some here' =>
        obtain ⟨threads, messages, recipients⟩ := Db.insertMessage?_eq_some inserted
        obtain ⟨threads', messages', recipients'⟩ := Db.insertMessage?_eq_some inserted'
        refine .some ⟨⟨?_, ?_, ?_⟩, fun id taken => ?_⟩
        · rw [Db.thread?, threads', ← Db.thread?, covers.same.thread, Db.thread?, Db.thread?, threads]
        · rw [Db.messagesOf, Db.insertMessage?_rows inserted', List.filter_append, ← Db.messagesOf,
            covers.same.messages, Db.messagesOf, Db.messagesOf, Db.insertMessage?_rows inserted, List.filter_append]
        · rw [Db.recipientsOf, recipients', ← Db.recipientsOf, covers.same.recipients, Db.recipientsOf,
            Db.recipientsOf, recipients]
        · rw [Db.MessageIdTaken, Table.get?_of_insert? messages'] at taken
          rw [Db.MessageIdTaken, Table.get?_of_insert? messages]
          split
          · rfl
          · rename_i other
            rw [if_neg other] at taken
            exact covers.taken id taken

theorem Db.SameThread.claimRowcount (same : db.SameThread t db') :
    claimRowcount db' t = 0 ↔ claimRowcount db t = 0 := by
  rw [claimRowcount_eq_zero_iff, claimRowcount_eq_zero_iff, same.thread]

theorem setClaim_covers (covers : db.Covers t db') (p scope : String) (now : DateTime) :
    (setClaim db' t p scope now).1 = (setClaim db t p scope now).1 ∧
      (setClaim db t p scope now).2.Covers t (setClaim db' t p scope now).2 := by
  unfold PbChatroom.setClaim
  simp only [covers.same.claimRowcount, covers.same.thread]
  split
  · split
    · exact ⟨rfl, covers⟩
    · split <;> exact ⟨rfl, covers⟩
  · exact ⟨rfl, covers.updateThread⟩

end Here

end PbChatroom
