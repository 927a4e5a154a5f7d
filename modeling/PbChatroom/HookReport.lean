import PbChatroom.Hook
import PbChatroom.Listing
import PbChatroom.SinceFilter

namespace PbChatroom
open Interleaving Relational TextOrder Shell

namespace Hook

/-- `data[:cap]`, which counts from the end where the cap is negative -/
def sliceTo {α : Type} (data : List α) (cap : Int) : List α :=
  data.take (if 0 ≤ cap then cap.toNat else (data.length + cap).toNat)

section Report
variable (quote : String → String)

/-- The line of one thread, where `quote` is Python's `repr`. -/
def threadLine (t : ThreadSummary) : String :=
  let tid := String.ofList (t.id.toList.take 8)
  let oneLine := (orDefault (some t.subject) "(no subject)").toList.map fun c => if c = '\n' then ' ' else c
  let subj := String.ofList ((strip (String.ofList oneLine)).toList.take 80)
  let sender := orDefault (some t.createdBy) "?"
  let last := String.ofList t.lastMessageAt.instant.served.text
  "  - [" ++ tid ++ "] from=" ++ sender ++ " subject=" ++ quote subj ++ " last=" ++ last

def overflowLines (overflow : Int) : List String :=
  if 0 < overflow then ["  ... +" ++ overflow.repr ++ " more open thread(s)"] else []

def lines (data : List ThreadSummary) (cap : Int) : List String :=
  (sliceTo data cap).map (threadLine quote) ++ overflowLines (data.length - cap)

/-- `FORMATTED`: what Python prints, without the newlines that end it. -/
def formatted (data : List ThreadSummary) (cap : Int) : String :=
  String.ofList (substitution ((String.intercalate "\n" (lines quote data cap)).toList ++ ['\n']))

/-- What the block says, apart from the text that is the same in each. -/
structure Block where
  count : Nat
  participant : String
  formatted : String
  deriving DecidableEq, Repr

/-- The output of the script for a response with these threads. A cap that is no
integer, `none` here, fails the command that formats, and the script with it. -/
def report (participant : String) (cap : Option Int) (data : List ThreadSummary) : Option Block :=
  if data.length = 0 then none
  else
    match cap with
    | none => none
    | some cap =>
      if formatted quote data cap = "" then none else some ⟨data.length, participant, formatted quote data cap⟩

end Report

/-- The lines of a text, as its reader sees them. -/
def linesOf (text : String) : List String := (text.toList.splitOn '\n').map String.ofList

section Lines
variable {quote : String → String}

/-- Joined lines are read as they were joined if and only if none of them breaks. -/
theorem linesOf_join_iff {ls : List String} (nonempty : ls ≠ []) :
    linesOf (String.intercalate "\n" ls) = ls ↔ ∀ l ∈ ls, '\n' ∉ l.toList := by
  constructor
  · intro same l member
    rw [← same] at member
    obtain ⟨chars, inSplit, rfl⟩ := List.mem_map.mp member
    rw [String.toList_ofList]
    exact not_mem_of_mem_splitOn inSplit
  · intro unbroken
    have plain : ∀ chars ∈ ls.map String.toList, '\n' ∉ chars := by
      intro chars member
      obtain ⟨l, inLines, rfl⟩ := List.mem_map.mp member
      exact unbroken l inLines
    rw [linesOf, String.toList_intercalate, show ("\n" : String).toList = ['\n'] from rfl,
      List.splitOn_intercalate '\n' plain (by simpa using nonempty), List.map_map]
    simp [Function.comp_def]

theorem newline_not_mem_repr (n : Nat) : '\n' ∉ n.repr.toList := by
  intro member
  rw [Nat.repr_eq_ofList_toDigits, String.toList_ofList] at member
  have isDigit := Nat.isDigit_of_mem_toDigits (by decide) (by decide) member
  exact absurd isDigit (by decide)

theorem newline_not_mem_served (d : DateTime) : '\n' ∉ d.served.text := by
  have digits : ∀ k : Fin 10, '\n' ≠ digit k.val := by decide
  have fraction : '\n' ∉ padded 6 d.microsecond.val := by
    intro member
    obtain ⟨k, bound, same⟩ := mem_padded member
    exact digits ⟨k, bound⟩ same
  intro member
  rw [IsoText.text, fractionText] at member
  rcases List.mem_append.mp member with inDate | behind
  · rcases mem_render inDate with ⟨k, bound, same⟩ | ⟨field, inLayout, inSeparator⟩
    · exact digits ⟨k, bound⟩ same
    · have separators : ∀ field ∈ DateTime.layout, '\n' ∉ field.2 := by decide
      exact separators field inLayout inSeparator
  · rcases List.mem_append.mp behind with inDigits | zulu
    · split at inDigits
      · cases inDigits
      · rename_i nonzero
        rcases List.mem_cons.mp inDigits with dot | inFraction
        · exact absurd dot (by decide)
        · change '\n' ∈ (if d.microsecond.val = 0 then [] else padded 6 d.microsecond) at inFraction
          split at inFraction
          · cases inFraction
          · exact fraction inFraction
    · exact absurd zulu (show '\n' ∉ ['Z'] by decide)

theorem newline_not_mem_threadLine_iff (quotes : ∀ text, '\n' ∉ (quote text).toList) {t : ThreadSummary} :
    '\n' ∉ (threadLine quote t).toList ↔ '\n' ∉ t.id.toList.take 8 ∧ '\n' ∉ t.createdBy.toList := by
  have sender : '\n' ∉ (orDefault (some t.createdBy) "?").toList ↔ '\n' ∉ t.createdBy.toList := by
    rw [orDefault]
    by_cases empty : t.createdBy = ""
    · rw [if_pos empty, empty]
      decide
    · rw [if_neg empty]
  have literals : '\n' ∉ "  - [".toList ∧ '\n' ∉ "] from=".toList ∧ '\n' ∉ " subject=".toList ∧
      '\n' ∉ " last=".toList := by decide
  have served := newline_not_mem_served t.lastMessageAt.instant
  simp only [threadLine, String.toList_append, List.mem_append, not_or, String.toList_ofList, literals, quotes, sender,
    served, not_false_eq_true, true_and, and_true]

theorem newline_not_mem_overflowLines {overflow : Int} : ∀ l ∈ overflowLines overflow, '\n' ∉ l.toList := by
  intro l member
  rw [overflowLines] at member
  split at member
  · rename_i positive
    rw [List.mem_singleton.mp member]
    obtain ⟨n, rfl⟩ := Int.eq_ofNat_of_zero_le positive.le
    have literals : '\n' ∉ "  ... +".toList ∧ '\n' ∉ " more open thread(s)".toList := by decide
    have number : '\n' ∉ (n : Int).repr.toList := newline_not_mem_repr n
    simp only [String.toList_append, List.mem_append, literals, number, or_false, not_false_eq_true]
  · cases member

/-- The text ends in a character that is no newline. -/
def Closed (text : String) : Prop := ∃ body c, text.toList = body ++ [c] ∧ c ≠ '\n'

theorem Closed.append (before : String) {text : String} (closed : Closed text) : Closed (before ++ text) := by
  obtain ⟨body, c, whole, other⟩ := closed
  exact ⟨before.toList ++ body, c, by rw [String.toList_append, whole, List.append_assoc], other⟩

theorem Closed.join {ls : List String} (nonempty : ls ≠ []) (closed : ∀ l ∈ ls, Closed l) :
    Closed (String.intercalate "\n" ls) := by
  induction ls with
  | nil => exact absurd rfl nonempty
  | cons l rest ih =>
    cases rest with
    | nil =>
      rw [String.intercalate_singleton]
      exact closed l (List.mem_singleton_self l)
    | cons next rest =>
      rw [String.intercalate_cons_cons]
      exact (ih (by simp) fun m member => closed m (List.mem_cons_of_mem l member)).append _

theorem closed_threadLine (t : ThreadSummary) : Closed (threadLine quote t) := by
  refine .append _ ⟨(t.lastMessageAt.instant.served.text).dropLast, 'Z', ?_, by decide⟩
  rw [String.toList_ofList]
  refine (List.dropLast_append_getLast? 'Z' ?_).symm
  rw [IsoText.text, fractionText, List.getLast?_append, List.getLast?_append]
  rfl

theorem closed_of_mem_lines {data : List ThreadSummary} {cap : Int} : ∀ l ∈ lines quote data cap, Closed l := by
  intro l member
  rcases List.mem_append.mp member with ofThread | ofOverflow
  · obtain ⟨t, _, rfl⟩ := List.mem_map.mp ofThread
    exact closed_threadLine t
  · rw [overflowLines] at ofOverflow
    split at ofOverflow
    · rw [List.mem_singleton.mp ofOverflow]
      exact .append _ ⟨" more open thread(s".toList, ')', rfl, by decide⟩
    · cases ofOverflow

/-- There is a line for each thread, or one for what is left out. -/
theorem lines_ne_nil {data : List ThreadSummary} (nonempty : data ≠ []) (cap : Int) : lines quote data cap ≠ [] := by
  intro empty
  obtain ⟨noThread, noOverflow⟩ := List.append_eq_nil_iff.mp empty
  have positive : 0 < data.length := List.length_pos_iff.mpr nonempty
  rw [overflowLines] at noOverflow
  split at noOverflow
  · cases noOverflow
  · rename_i within
    have shown := congrArg List.length (List.map_eq_nil_iff.mp noThread)
    rw [sliceTo, List.length_take, List.length_nil, if_pos (by omega)] at shown
    omega

theorem closed_lines {data : List ThreadSummary} (nonempty : data ≠ []) (cap : Int) :
    Closed (String.intercalate "\n" (lines quote data cap)) :=
  .join (lines_ne_nil nonempty cap) closed_of_mem_lines

theorem formatted_eq {data : List ThreadSummary} (nonempty : data ≠ []) (cap : Int) :
    formatted quote data cap = String.intercalate "\n" (lines quote data cap) := by
  obtain ⟨body, c, whole, other⟩ : Closed (String.intercalate "\n" (lines quote data cap)) := closed_lines nonempty cap
  rw [formatted, substitution, List.rdropWhile_concat_pos _ _ _ (by simp), whole,
    List.rdropWhile_concat_neg _ _ _ (by simpa using other), ← whole, String.ofList_toList]

theorem report_eq_none_iff {participant : String} {cap : Int} {data : List ThreadSummary} :
    report quote participant (some cap) data = none ↔ data = [] := by
  by_cases empty : data = []
  · simp [report, empty]
  · obtain ⟨body, c, whole, _⟩ : Closed (String.intercalate "\n" (lines quote data cap)) := closed_lines empty cap
    have printed : formatted quote data cap ≠ "" := by
      rw [formatted_eq empty, ← String.toList_inj.ne, whole]
      simp
    simp [report, empty, printed]

theorem report_eq_some {participant : String} {cap : Int} {data : List ThreadSummary} {block : Block}
    (reported : report quote participant (some cap) data = some block) :
    data ≠ [] ∧ block = ⟨data.length, participant, String.intercalate "\n" (lines quote data cap)⟩ := by
  have nonempty : data ≠ [] := fun empty => by
    rw [report_eq_none_iff.mpr empty] at reported
    cases reported
  rw [report, if_neg (by simpa using nonempty)] at reported
  split at reported
  · cases reported
  · rw [formatted_eq nonempty] at reported
    exact ⟨nonempty, (Option.some.inj reported).symm⟩

end Lines

section Slices
variable {α : Type} {data : List α}

/-- What is shown and what is said to be left out are all there is, unless the cap is
negative. -/
theorem shown_and_overflow_iff (nonempty : data ≠ []) {cap : Int} :
    (sliceTo data cap).length + max 0 (data.length - cap) = data.length ↔ 0 ≤ cap := by
  have positive : 0 < data.length := List.length_pos_iff.mpr nonempty
  rw [sliceTo, List.length_take]
  split <;> omega

theorem slice_append (data : List α) (cap : Int) : sliceTo data cap ++ data.drop (sliceTo data cap).length = data := by
  have whole : sliceTo data cap <+: data := List.take_prefix ..
  nth_rewrite 1 [List.prefix_iff_eq_take.mp whole]
  exact List.take_append_drop ..

end Slices

end Hook

/-- Who has opened a thread is a participant. -/
theorem creator_participant (es : List (Event Request Input)) {t : Uuid} {row : ThreadRow}
    (found : (server.run World.init es).store.thread? t = some row) : ∃ p : Participant, row.createdBy = p.id := by
  obtain ⟨f, member, creates⟩ := World.Created.reachable es t row found
  have header := ((World.Sound.reachable es).2 f member).creator creates found
  unfold Flight.creates at creates
  split at creates
  · exact ⟨_, (Option.some.inj header).symm⟩
  · exact ⟨_, (Option.some.inj header).symm⟩
  · exact ⟨_, (Option.some.inj header).symm⟩
  · cases creates

theorem Participant.newline_not_mem_iff (p : Participant) : '\n' ∉ p.id.toList ↔ Documented p.id := by
  rcases (validate_ok_iff.mp p.valid).2 with documented | behind
  · refine iff_of_true (fun member => ?_) documented
    exact absurd (documented.characters '\n' member) (by decide)
  · refine iff_of_false (not_not_intro ?_) behind.not_documented
    obtain ⟨core, text, _⟩ := behind
    rw [text, String.toList_append]
    exact List.mem_append_right _ (List.mem_singleton_self '\n')

/-- An inbox has the latest activity first, by the texts. -/
theorem UpToTies.pairwise {db : Db} {participant : String} {data : List ThreadSummary}
    (returned : UpToTies (inbox db participant) data) :
    data.Pairwise fun t u => u.lastMessageAt.text ≤ t.lastMessageAt.text := by
  refine returned.inOrder.imp_of_mem fun {t u} _ member precedes => ?_
  obtain ⟨row, _, matched, rfl⟩ := mem_listThreads_iff.mp (returned.perm.mem_iff.mp member)
  simp only [ThreadFilter.matches, Bool.and_eq_true, decide_eq_true_eq] at matched
  rcases precedes with ⟨_, isAcked⟩ | ⟨_, later⟩
  · exact absurd (matched.1.1.2.symm.trans isAcked) (by decide)
  · exact later

open Hook in
/-- What a session is told is its inbox, in any order that the query may return, with every
open thread in it that has a message for the participant, and nothing else can be in it. It
is silent on the empty inbox only. Else it says how many threads there are, shows the first
of them, and says how many it leaves out, which adds up unless the cap is negative. Those
shown are the latest by the texts, and so by the time, except where one that was opened on a
full second, and not written to since, is shown for one that was active later in that
second. And whatever the subjects are, the lines are those of the threads shown, except
where the id of a creator ends in a newline. -/
theorem hook_report {quote : String → String} (quotes : ∀ text, '\n' ∉ (quote text).toList)
    (es : List (Event Request Input)) (participant : String) (cap : Int) {data : List ThreadSummary}
    (returned : UpToTies (inbox (server.run World.init es).store participant) data) :
    let db := (server.run World.init es).store
    let shown := sliceTo data cap
    (∀ m ∈ db.messages.rows, m.toParticipant = participant →
      (db.thread? m.threadId).map ThreadRow.status = some .opened → m.threadId ∈ data.map ThreadSummary.id) ∧
    (report quote participant (some cap) data = none ↔ data = []) ∧
    ∀ block ∈ report quote participant (some cap) data,
      block.count = data.length ∧
      (linesOf block.formatted = shown.map (threadLine quote) ++ overflowLines (data.length - cap) ↔
        ∀ t ∈ shown, Documented t.createdBy ∧ '\n' ∉ t.id.toList.take 8) ∧
      (shown.length + max 0 (data.length - cap) = data.length ↔ 0 ≤ cap) ∧
      ∀ t ∈ shown, ∀ u ∈ data.drop shown.length, u.lastMessageAt.text ≤ t.lastMessageAt.text ∧
        (u.lastMessageAt.instant ≤ t.lastMessageAt.instant ↔ ¬t.lastMessageAt.Overtaken u.lastMessageAt) := by
  intro db shown
  have cut : shown ++ data.drop shown.length = data := slice_append data cap
  refine ⟨fun m stored isFor isOpen => ?_, report_eq_none_iff, fun block reported => ?_⟩
  · obtain ⟨row, found, status⟩ := Option.map_eq_some_iff.mp isOpen
    subst isFor
    exact (returned.perm.map ThreadSummary.id).mem_iff.mpr ((mem_inbox_iff stored).mpr ⟨row, found, status⟩)
  obtain ⟨nonempty, rfl⟩ := report_eq_some reported
  refine ⟨rfl, ?_, shown_and_overflow_iff nonempty, fun t isShown u isLeft => ?_⟩
  · have creator : ∀ t ∈ shown, ('\n' ∉ t.createdBy.toList ↔ Documented t.createdBy) := by
      intro t member
      have listed : t ∈ inbox db participant :=
        returned.perm.mem_iff.mp (cut ▸ List.mem_append_left _ member)
      obtain ⟨row, found, _, rfl⟩ := mem_listThreads_iff.mp listed
      obtain ⟨p, isCreator⟩ := creator_participant es found
      change '\n' ∉ row.createdBy.toList ↔ Documented row.createdBy
      rw [isCreator]
      exact p.newline_not_mem_iff
    change linesOf (String.intercalate "\n" (lines quote data cap)) = lines quote data cap ↔ _
    rw [linesOf_join_iff (lines_ne_nil nonempty cap), lines, List.forall_mem_append, List.forall_mem_map,
      and_iff_left newline_not_mem_overflowLines]
    refine forall₂_congr fun t member => ?_
    rw [newline_not_mem_threadLine_iff quotes, creator t member, and_comm]
  · have ordered := returned.pairwise
    rw [← cut, List.pairwise_append] at ordered
    have texts : u.lastMessageAt.text ≤ t.lastMessageAt.text := ordered.2.2 t isShown u isLeft
    refine ⟨texts, ?_⟩
    rw [← Timestamp.le_of_not_lt_text_iff]
    exact ⟨fun earlier _ => earlier, fun timely => timely (not_lt.mpr texts)⟩

open Hook in
/-- `b` has two open threads, is shown one of them, and the line break in its subject
makes no line. -/
theorem hook_report_of_two :
    let quote (text : String) :=
      "'" ++ String.ofList (text.toList.flatMap fun c => if c = '\n' then ['\\', 'n'] else [c]) ++ "'"
    let es := .arrive (.postThread (some "a") ⟨some "b", [], "first", "hello", none, none⟩) ::
      .step 0 (.draw ⟨reading 0 1, "t", "m0"⟩) :: transactions 0 2 ++
      .arrive (.postThread (some "a") ⟨some "b", [], "second\nhalf", "hello", none, none⟩) ::
      .step 1 (.draw ⟨reading 1 1, "u", "m1"⟩) :: transactions 1 2
    let data := inbox (server.run World.init es).store "b"
    ∃ block, report quote "b" (some 1) data = some block ∧ block.count = 2 ∧
      linesOf block.formatted = ["  - [u] from=a subject='second half' last=2026-06-26T08:00:01.000001Z",
        "  ... +1 more open thread(s)"] := by
  intro quote es data
  have quotes : ∀ text, '\n' ∉ (quote text).toList := by
    intro text member
    simp only [quote, String.toList_append, String.toList_ofList, List.mem_append, List.mem_flatMap] at member
    rcases member with (opening | ⟨c, _, escaped⟩) | closing
    · exact absurd opening (by decide)
    · split at escaped
      · exact absurd escaped (by decide)
      · rename_i other
        exact other (List.mem_singleton.mp escaped).symm
    · exact absurd closing (by decide)
  have returned : UpToTies (inbox (server.run World.init es).store "b") data := ⟨.refl _, listThreads_inOrder ..⟩
  obtain ⟨_, silent, told⟩ := hook_report quotes es "b" 1 returned
  have nonempty : data ≠ [] := by decide
  obtain ⟨block, reported⟩ := Option.ne_none_iff_exists'.mp fun absent => nonempty (silent.mp absent)
  obtain ⟨count, unbroken_iff, _⟩ := told block reported
  have unbroken : ∀ t ∈ sliceTo data 1, t.createdBy = "a" ∧ '\n' ∉ t.id.toList.take 8 := by decide
  have documented : Documented "a" := ⟨List.all_eq_true.mp (by decide), by decide, by decide⟩
  refine ⟨block, reported, count, (unbroken_iff.mpr fun t member => ?_).trans ?_⟩
  · exact ⟨(unbroken t member).1 ▸ documented, (unbroken t member).2⟩
  · decide

end PbChatroom
