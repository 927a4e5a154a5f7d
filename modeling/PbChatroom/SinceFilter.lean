import PbChatroom.Inbox

namespace PbChatroom
open Interleaving Relational TextOrder

/-- A time in UTC as ISO 8601 writes it: to the second, with any digits behind
the point or none, and with one of the two suffixes. -/
structure IsoText where
  second : DateTime
  whole : second.microsecond = 0
  fraction : List Char
  digits : IsDigits fraction
  suffix : Suffix

namespace IsoText

def text (s : IsoText) : List Char := s.second.dateAndTime ++ fractionText s.fraction s.suffix

/-- The time written down is no later than the instant. -/
def NoLater (s : IsoText) (d : DateTime) : Prop :=
  s.second.toSecond < d.toSecond ∨
    s.second.toSecond = d.toSecond ∧ decimal s.fraction * 10 ^ 6 ≤ d.microsecond.val * 10 ^ s.fraction.length

instance (s : IsoText) (d : DateTime) : Decidable (s.NoLater d) := inferInstanceAs (Decidable (_ ∨ _))

/-- The time lies in the same second as the timestamp, and the texts of the two
fractions compare the other way than the fractions. -/
def Misread (s : IsoText) (t : Timestamp) : Prop :=
  t.instant.toSecond = s.second.toSecond ∧ Misjudged t.fraction t.suffix s.fraction s.suffix

instance (s : IsoText) (t : Timestamp) : Decidable (s.Misread t) := inferInstanceAs (Decidable (_ ∧ _))

/-- The text comparison of SQL is the comparison of the instants, except for
the timestamps that are misread. -/
theorem not_lt_text_iff {s : IsoText} {t : Timestamp} :
    (¬t.text < s.text ↔ s.NoLater t.instant) ↔ ¬s.Misread t := by
  rw [t.text_eq, text, DateTime.dateAndTime_append_lt_iff, fractionText_lt_iff t.fraction_digits s.digits, NoLater,
    ← Timestamp.fractionLe_fraction_iff, Misread, not_and, ← fraction_lt_iff t.fraction_digits s.digits]
  rcases lt_trichotomy t.instant.toSecond s.second.toSecond with earlier | same | later
  · simp [earlier, earlier.ne, lt_asymm earlier, earlier.ne']
  · simp only [same, lt_irrefl, false_or, true_and, true_implies]
    tauto
  · simp [later, later.ne, lt_asymm later, later.ne']

end IsoText

/-- How a UTC datetime of a response is serialised. -/
def DateTime.served (d : DateTime) : IsoText where
  second := { d with microsecond := ⟨0, Nat.zero_lt_succ _⟩ }
  whole := rfl
  fraction := if d.microsecond.val = 0 then [] else padded 6 d.microsecond
  digits := by
    split
    · intro c member
      cases member
    · exact isDigits_padded _ _
  suffix := .zulu

theorem ThreadFilter.matches_since {f : ThreadFilter} {db : Db} {row : ThreadRow} {since : List Char} :
    { f with since := some since }.matches db row = true ↔
      { f with since := none }.matches db row = true ∧ ¬row.lastMessageAt.text < since := by
  simp [ThreadFilter.matches]

/-- The `since` filter finds exactly the matching threads with a last activity no
earlier than the time given, if and only if it misreads the last activity of no
matching thread. -/
theorem since_filter_iff (es : List (Event Request Input)) (f : ThreadFilter) (s : IsoText) :
    let w : World := server.run World.init es
    (∀ t, t ∈ (listThreads w.store { f with since := some s.text }).map ThreadSummary.id ↔
      ∃ row, w.store.thread? t = some row ∧ { f with since := none }.matches w.store row ∧
        s.NoLater row.lastMessageAt.instant) ↔
      ∀ row ∈ w.store.threads.rows, { f with since := none }.matches w.store row → ¬s.Misread row.lastMessageAt := by
  intro w
  simp only [mem_listThreads, ThreadFilter.matches_since, ← IsoText.not_lt_text_iff]
  constructor
  · intro asInTime row member matched
    have found : w.store.thread? row.id = some row := Table.get?_eq_some_iff.mpr ⟨member, rfl⟩
    have newIff := asInTime row.id
    simpa [found, matched] using newIff
  · intro sound t
    refine exists_congr fun row => and_congr_right fun found => and_congr_right fun matched => ?_
    exact sound row (Table.get?_mem found) matched

/-- The time of the last reply, as the API serves it, does not find the thread
of that reply: its column ends in `+00:00`, which sorts before `Z`. -/
theorem served_activity_misses_thread :
    let d := reading 1 500000
    let es := .arrive (.postThread (some "a") ⟨some "b", [], "s", "hello", none, none⟩) ::
      .step 0 (.draw ⟨reading 0 1, "t", "m0"⟩) :: transactions 0 2 ++
      .arrive (.postMessage "t" (some "b") ⟨"hi", none⟩) :: transactions 1 2 ++
      .step 1 (.draw ⟨d, "m1", ""⟩) :: transactions 1 1
    let w : World := server.run World.init es
    (w.store.thread? "t").map (fun row => row.lastMessageAt.instant) = some d ∧ d.served.NoLater d ∧
      String.ofList d.served.text = "2026-06-26T08:00:01.500000Z" ∧
      "t" ∉ (listThreads w.store ⟨none, none, none, some d.served.text⟩).map ThreadSummary.id := by
  decide

end PbChatroom
