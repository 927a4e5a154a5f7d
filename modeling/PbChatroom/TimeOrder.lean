import PbChatroom.Inbox
import PbChatroom.LastActivity

namespace PbChatroom
open Interleaving Relational TextOrder

/-- The one timestamp is a whole second and `_now_utc` wrote it, so its text has
no fraction, and the other lies behind it in that second. -/
def Timestamp.Overtaken (t u : Timestamp) : Prop :=
  t.writer = .nowUtc ∧ t.instant.microsecond.val = 0 ∧ t.instant.toSecond = u.instant.toSecond ∧
    u.instant.microsecond.val ≠ 0

instance (t u : Timestamp) : Decidable (t.Overtaken u) := inferInstanceAs (Decidable (_ ∧ _))

theorem Timestamp.Overtaken.lt {t u : Timestamp} (overtaken : t.Overtaken u) : t.instant < u.instant := by
  obtain ⟨_, whole, second, later⟩ := overtaken
  exact DateTime.lt_iff.mpr (Or.inr ⟨second, by omega⟩)

/-- Within one second the fractions of a time and of a later one are misjudged
only if the first has none. -/
theorem Timestamp.misjudged_iff {t u : Timestamp} (later : t.instant.microsecond.val < u.instant.microsecond.val) :
    Misjudged t.fraction t.suffix u.fraction u.suffix ↔ t.writer = .nowUtc ∧ t.instant.microsecond.val = 0 := by
  have right : u.fraction = padded 6 u.instant.microsecond := if_neg fun whole => by omega
  have value := decimal_padded u.instant.microsecond_lt
  by_cases left : t.writer = .nowUtc ∧ t.instant.microsecond.val = 0
  · have noFraction : t.fraction = [] := if_pos left
    have nonempty : [] ≠ u.fraction := by
      rw [right]
      exact fun same => by simpa using congrArg List.length same
    have zulu : t.suffix = .zulu := by rw [Timestamp.suffix, left.1]
    rw [noFraction, Misjudged, if_neg nonempty, if_pos List.nil_prefix, zulu, List.length_nil, List.drop_zero, right,
      value]
    simp [left, Nat.ne_of_gt (Nat.zero_lt_of_lt later)]
  · have full : t.fraction = padded 6 t.instant.microsecond := if_neg left
    have apart : t.fraction ≠ u.fraction := by
      rw [full, right, Ne, padded_inj t.instant.microsecond_lt u.instant.microsecond_lt]
      exact Nat.ne_of_lt later
    have length : t.fraction.length = u.fraction.length := by rw [full, right, padded_length, padded_length]
    rw [Misjudged, if_neg apart, if_neg fun first => apart (first.eq_of_length length)]
    exact iff_of_false (fun back => apart (back.1.eq_of_length length.symm).symm) left

/-- Texts of timestamps are ordered as their instants, unless the earlier one is
overtaken. -/
theorem Timestamp.text_lt_iff {t u : Timestamp} (earlier : t.instant < u.instant) :
    t.text < u.text ↔ ¬t.Overtaken u := by
  rw [t.text_eq, u.text_eq, DateTime.dateAndTime_append_lt_iff, fractionText_lt_iff t.fraction_digits u.fraction_digits]
  rcases DateTime.lt_iff.mp earlier with second | ⟨second, micro⟩
  · exact iff_of_true (Or.inl second) fun overtaken => second.ne overtaken.2.2.1
  · have fractionLess := fraction_lt_iff (s := t.suffix) (t := u.suffix) t.fraction_digits u.fraction_digits
    have right : u.fraction = padded 6 u.instant.microsecond := if_neg fun whole => by omega
    have above : ¬FractionLe u.fraction t.fraction := by
      rw [Timestamp.fractionLe_fraction_iff, right, decimal_padded u.instant.microsecond_lt, padded_length]
      omega
    rw [iff_true_right above, Timestamp.misjudged_iff micro] at fractionLess
    have nonzero : u.instant.microsecond.val ≠ 0 := by omega
    simp only [second, lt_irrefl, false_or, true_and, fractionLess, Timestamp.Overtaken, ne_eq, nonzero,
      not_false_eq_true, and_true]

/-- The order of the texts of two timestamps is the order of their instants,
unless one of them is overtaken by the other. -/
theorem Timestamp.le_of_not_lt_text_iff {t u : Timestamp} :
    (¬u.text < t.text → t.instant ≤ u.instant) ↔ ¬u.Overtaken t := by
  constructor
  · intro ordered overtaken
    have above : ¬u.text < t.text := fun less => (Timestamp.text_lt_iff overtaken.lt).mp less overtaken
    exact absurd overtaken.lt (not_lt.mpr (ordered above))
  · intro fair above
    by_contra later
    exact above ((Timestamp.text_lt_iff (not_le.mp later)).mpr fair)

theorem Timestamp.instant_le_of_ties {t u : Timestamp} (le : ¬u.text < t.text) (ge : ¬t.text < u.text) :
    t.instant ≤ u.instant := by
  rw [Timestamp.text_injective (le_antisymm (not_lt.mp le) (not_lt.mp ge))]

theorem listedNoLater_iff {t u : ThreadRow} : listedNoLater t u ↔
    t.status = .opened ∧ u.status = .acked ∨ t.status = u.status ∧ u.lastMessageAt.text ≤ t.lastMessageAt.text := by
  rw [listedNoLater, not_lt]

instance : Std.Total listedNoLater where
  total t u := by
    rw [listedNoLater_iff, listedNoLater_iff]
    have texts := le_total t.lastMessageAt.text u.lastMessageAt.text
    cases t.status <;> cases u.status <;> simp [texts, or_comm]

instance : IsTrans ThreadRow listedNoLater where
  trans t u v first second := by
    rw [listedNoLater_iff] at first second ⊢
    rcases first with ⟨isOpen, isAcked⟩ | ⟨same, later⟩
    · rcases second with ⟨isOpen', _⟩ | ⟨same', _⟩
      · exact absurd (isAcked.symm.trans isOpen') (by decide)
      · exact Or.inl ⟨isOpen, same'.symm.trans isAcked⟩
    · rcases second with ⟨isOpen, isAcked⟩ | ⟨same', later'⟩
      · exact Or.inl ⟨same.trans isOpen, isAcked⟩
      · exact Or.inr ⟨same.trans same', le_trans later' later⟩

/-- Oldest first. -/
def InTimeOrder (messages : List Message) : Prop :=
  messages.Pairwise fun m n => m.createdAt.instant ≤ n.createdAt.instant

/-- Open threads first, and in each group the latest activity first. -/
def MostRecentFirst (threads : List ThreadSummary) : Prop :=
  threads.Pairwise fun t u => t.status = .opened ∧ u.status = .acked ∨
    t.status = u.status ∧ u.lastMessageAt.instant ≤ t.lastMessageAt.instant

instance (messages : List Message) : Decidable (InTimeOrder messages) := inferInstanceAs (Decidable (List.Pairwise _ _))

instance (threads : List ThreadSummary) : Decidable (MostRecentFirst threads) :=
  inferInstanceAs (Decidable (List.Pairwise _ _))

theorem listMessages_inTimeOrder_iff (db : Db) (t : Uuid) :
    InTimeOrder (listMessages db t) ↔
      ∀ m ∈ db.messagesOf t, ∀ n ∈ db.messagesOf t, ¬m.createdAt.Overtaken n.createdAt := by
  rw [InTimeOrder, listMessages, pairwise_orderBy_iff createdNoLater fun m n => Timestamp.instant_le_of_ties]
  simp only [createdNoLater, Timestamp.le_of_not_lt_text_iff]
  exact ⟨fun fair m member n member' => fair n member' m member, fun fair m member n member' => fair n member' m member⟩

theorem mostRecentFirst_iff (db : Db) (f : ThreadFilter) :
    MostRecentFirst (listThreads db f) ↔
      ∀ row ∈ db.threads.rows, ∀ other ∈ db.threads.rows, f.matches db row → f.matches db other →
        row.status = other.status → ¬row.lastMessageAt.Overtaken other.lastMessageAt := by
  have pair : ∀ row other : ThreadRow, (listedNoLater row other →
      row.status = .opened ∧ other.status = .acked ∨
        row.status = other.status ∧ other.lastMessageAt.instant ≤ row.lastMessageAt.instant) ↔
      (row.status = other.status → ¬row.lastMessageAt.Overtaken other.lastMessageAt) := by
    intro row other
    rw [← Timestamp.le_of_not_lt_text_iff, listedNoLater]
    cases row.status <;> cases other.status <;> simp
  rw [MostRecentFirst, listThreads, List.pairwise_map, pairwise_orderBy_iff listedNoLater]
  · simp only [List.mem_filter, summarize, pair]
    exact ⟨fun fair row member other member' matched matched' => fair row ⟨member, matched⟩ other ⟨member', matched'⟩,
      fun fair row member other member' => fair row member.1 other member'.1 member.2 member'.2⟩
  · rintro row other (⟨isOpen, isAcked⟩ | ⟨same, later⟩) (⟨isOpen', isAcked'⟩ | ⟨_, later'⟩)
    · exact absurd (isOpen.symm.trans isAcked') (by decide)
    · exact Or.inl ⟨isOpen, isAcked⟩
    · exact absurd (isOpen'.symm.trans (same.symm.trans isAcked')) (by decide)
    · exact Or.inr ⟨same, Timestamp.instant_le_of_ties later later'⟩

theorem listThreads_nodup (db : Db) (f : ThreadFilter) : ((listThreads db f).map ThreadSummary.id).Nodup := by
  have summary : ThreadSummary.id ∘ summarize db = ThreadRow.id := rfl
  have perm := (List.perm_insertionSort listedNoLater (db.threads.rows.filter (f.matches db))).map ThreadRow.id
  rw [listThreads, List.map_map, summary, orderBy, perm.nodup_iff]
  exact db.threads.unique.sublist (List.filter_sublist.map _)

/-- In every reachable store the messages of a thread are returned oldest first
exactly if none of them is a seed on a whole second that another of them follows
in that second. The threads are listed once each, open ones first and the latest
activity first, exactly if of no two of one status one was opened on a whole
second, and not written to since, and the other was active later in that second. -/
theorem time_order_iff (es : List (Event Request Input)) :
    let w : World := server.run World.init es
    (∀ t, ((∀ found ∈ getThreadWithMessages w.store t, InTimeOrder found.messages) ∧
        InTimeOrder (listMessages w.store t) ↔
      ∀ m ∈ w.store.messagesOf t, ∀ n ∈ w.store.messagesOf t, ¬m.createdAt.Overtaken n.createdAt)) ∧
    ∀ f, (((listThreads w.store f).map ThreadSummary.id).Nodup ∧
        (∀ t, t ∈ (listThreads w.store f).map ThreadSummary.id ↔
          ∃ row, w.store.thread? t = some row ∧ f.matches w.store row) ∧
        MostRecentFirst (listThreads w.store f) ↔
      ∀ row ∈ w.store.threads.rows, ∀ other ∈ w.store.threads.rows, f.matches w.store row →
        f.matches w.store other → row.status = other.status → ¬row.lastMessageAt.Overtaken other.lastMessageAt) := by
  intro w
  refine ⟨fun t => ?_, fun f => ?_⟩
  · rw [← listMessages_inTimeOrder_iff, and_iff_right_iff_imp]
    intro ordered found isFound
    obtain ⟨row, _, rfl⟩ := Option.map_eq_some_iff.mp isFound
    exact ordered
  · rw [← mostRecentFirst_iff]
    exact ⟨fun listed => listed.2.2, fun recent => ⟨listThreads_nodup .., fun t => mem_listThreads, recent⟩⟩

/-- The clock reads a whole second when `a` opens the thread and half a second
more when `b` replies: the reply is returned before the seed. -/
theorem reply_before_seed :
    let es := .arrive (.postThread (some "a") ⟨some "b", [], "s", "hello", none, none⟩) ::
      .step 0 (.draw ⟨reading 1 0, "t", "m0"⟩) :: transactions 0 2 ++
      .arrive (.postMessage "t" (some "b") ⟨"hi", none⟩) :: transactions 1 2 ++
      .step 1 (.draw ⟨reading 1 500000, "m1", ""⟩) :: transactions 1 1
    (readings es).Pairwise (· < ·) ∧
      (listMessages (server.run World.init es).store "t").map Message.id = ["m1", "m0"] ∧
      ¬InTimeOrder (listMessages (server.run World.init es).store "t") := by
  decide

end PbChatroom
