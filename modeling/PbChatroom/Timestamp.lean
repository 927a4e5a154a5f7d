import Mathlib.Order.Lattice
import PbChatroom.Lib.Fraction

namespace PbChatroom
open TextOrder

/-- A `datetime` in UTC, field by field. -/
structure DateTime where
  year : Fin 10000
  month : Fin 13
  day : Fin 32
  hour : Fin 24
  minute : Fin 60
  second : Fin 60
  microsecond : Fin 1000000
  deriving DecidableEq, Repr

namespace DateTime

/-- The fields down to the second. -/
def toSecond (d : DateTime) : List Nat :=
  [d.year, d.month, d.day, d.hour, d.minute, d.second]

/-- All fields, in the order in which two datetimes of one zone compare. -/
def fields (d : DateTime) : List Nat := d.toSecond ++ [d.microsecond.val]

def layout : List (Nat × List Char) :=
  [(4, ['-']), (2, ['-']), (2, ['T']), (2, [':']), (2, [':']), (2, [])]

def dateAndTime (d : DateTime) : List Char := render layout d.toSecond

/-- `isoformat(timespec='microseconds')` -/
def isoformatMicroseconds (d : DateTime) : List Char :=
  d.dateAndTime ++ ('.' :: padded 6 d.microsecond) ++ ['+', '0', '0', ':', '0', '0']

/-- `isoformat()`: the fraction is left out when it is zero. -/
def isoformat (d : DateTime) : List Char :=
  d.dateAndTime ++ (if d.microsecond.val = 0 then [] else '.' :: padded 6 d.microsecond) ++
    ['+', '0', '0', ':', '0', '0']

end DateTime

/-- `str.replace('+00:00', 'Z')`, scanning from the left. -/
def replaceOffset : List Char → List Char
  | '+' :: '0' :: '0' :: ':' :: '0' :: '0' :: rest => 'Z' :: replaceOffset rest
  | c :: rest => c :: replaceOffset rest
  | [] => []

/-- The two functions of the store that write a timestamp. -/
inductive Writer where
  | nowUtc
  | nowIso
  deriving DecidableEq, Repr

/-- A timestamp column. Only `_now_utc` and `_now_iso` write one, so the
column holds the reading of a clock and the function that rendered it. -/
structure Timestamp where
  instant : DateTime
  writer : Writer
  deriving DecidableEq, Repr

/-- The text the column holds, and the text that SQL compares. -/
def Timestamp.text (t : Timestamp) : List Char :=
  match t.writer with
  | .nowUtc => replaceOffset t.instant.isoformat
  | .nowIso => t.instant.isoformatMicroseconds

def nowUtc (now : DateTime) : Timestamp := ⟨now, .nowUtc⟩

def nowIso (now : DateTime) : Timestamp := ⟨now, .nowIso⟩

/-- The digits of the fraction of a second in the text; only `_now_utc` leaves
it out. -/
def Timestamp.fraction (t : Timestamp) : List Char :=
  if t.writer = .nowUtc ∧ t.instant.microsecond.val = 0 then [] else padded 6 t.instant.microsecond

def Timestamp.suffix (t : Timestamp) : Suffix :=
  match t.writer with
  | .nowUtc => .zulu
  | .nowIso => .offset

namespace DateTime

theorem toSecond_fits (d : DateTime) : Fits layout d.toSecond :=
  ⟨d.year.isLt, by have := d.month.isLt; omega, by have := d.day.isLt; omega, by have := d.hour.isLt; omega,
    by have := d.minute.isLt; omega, by have := d.second.isLt; omega, trivial⟩

theorem microsecond_lt (d : DateTime) : d.microsecond.val < 10 ^ 6 := d.microsecond.isLt

theorem dateAndTime_length (d e : DateTime) : d.dateAndTime.length = e.dateAndTime.length :=
  render_length d.toSecond_fits e.toSecond_fits

/-- The date and the time of day decide, and behind them the rest of two texts. -/
theorem dateAndTime_append_lt_iff {d e : DateTime} {as bs : List Char} :
    d.dateAndTime ++ as < e.dateAndTime ++ bs ↔ d.toSecond < e.toSecond ∨ d.toSecond = e.toSecond ∧ as < bs := by
  rw [append_lt_append_iff (dateAndTime_length d e), dateAndTime, dateAndTime,
    render_lt_iff d.toSecond_fits e.toSecond_fits, render_inj d.toSecond_fits e.toSecond_fits]

theorem fields_injective : Function.Injective fields := by
  intro d e same
  cases d
  cases e
  simp only [fields, toSecond, List.cons_append, List.nil_append, List.cons.injEq, Fin.val_inj, and_true] at same
  simp_all

instance : LinearOrder DateTime := LinearOrder.lift' fields fields_injective

theorem lt_iff {d e : DateTime} :
    d < e ↔ d.toSecond < e.toSecond ∨ d.toSecond = e.toSecond ∧ d.microsecond.val < e.microsecond.val := by
  have byFields : d < e ↔ d.fields < e.fields := Iff.rfl
  rw [byFields, fields, fields, append_lt_append_iff (show d.toSecond.length = e.toSecond.length from rfl)]
  simp [List.cons_lt_cons_iff]

theorem eq_iff {d e : DateTime} : d = e ↔ d.toSecond = e.toSecond ∧ d.microsecond.val = e.microsecond.val := by
  constructor
  · rintro rfl
    exact ⟨rfl, rfl⟩
  · rintro ⟨second, micro⟩
    exact fields_injective (by rw [fields, fields, second, micro])

theorem no_plus_dateAndTime (d : DateTime) : '+' ∉ d.dateAndTime := by
  intro member
  have digits : ∀ k : Fin 10, '+' ≠ digit k.val := by decide
  rcases mem_render member with ⟨k, bound, same⟩ | ⟨field, inLayout, inSeparator⟩
  · exact digits ⟨k, bound⟩ same
  · have separators : ∀ field ∈ layout, '+' ∉ field.2 := by decide
    exact separators field inLayout inSeparator

theorem no_plus_fraction (d : DateTime) : '+' ∉ '.' :: padded 6 d.microsecond.val := by
  intro member
  have digits : ∀ k : Fin 10, '+' ≠ digit k.val := by decide
  rcases List.mem_cons.mp member with dot | digit
  · cases dot
  · obtain ⟨k, bound, same⟩ := mem_padded digit
    exact digits ⟨k, bound⟩ same

end DateTime

theorem replaceOffset_append {text : List Char} (noPlus : '+' ∉ text) :
    replaceOffset (text ++ ['+', '0', '0', ':', '0', '0']) = text ++ ['Z'] := by
  induction text with
  | nil => rfl
  | cons c rest ih =>
    have here : c ≠ '+' := fun same => noPlus (same ▸ List.mem_cons_self ..)
    have later : '+' ∉ rest := fun member => noPlus (List.mem_cons_of_mem _ member)
    rw [List.cons_append, replaceOffset]
    · rw [ih later, List.cons_append]
    · intro tail same
      exact absurd same here

namespace Timestamp
open DateTime

theorem text_nowUtc (d : DateTime) : (nowUtc d).text =
    d.dateAndTime ++ ((if d.microsecond.val = 0 then [] else '.' :: padded 6 d.microsecond.val) ++ ['Z']) := by
  have noPlus : '+' ∉ d.dateAndTime ++ (if d.microsecond.val = 0 then [] else '.' :: padded 6 d.microsecond.val) := by
    intro member
    rcases List.mem_append.mp member with inDate | inFraction
    · exact d.no_plus_dateAndTime inDate
    · split at inFraction
      · cases inFraction
      · exact d.no_plus_fraction inFraction
  rw [Timestamp.text, nowUtc, isoformat]
  dsimp only
  rw [replaceOffset_append noPlus, List.append_assoc]

theorem text_nowIso (d : DateTime) : (nowIso d).text =
    d.dateAndTime ++ ('.' :: (padded 6 d.microsecond.val ++ ['+', '0', '0', ':', '0', '0'])) := by
  simp [Timestamp.text, nowIso, isoformatMicroseconds]

/-- Timestamps that `_now_iso` wrote are ordered as the instants. -/
theorem nowIso_text_lt_iff {d e : DateTime} : (nowIso d).text < (nowIso e).text ↔ d < e := by
  rw [text_nowIso, text_nowIso, dateAndTime_append_lt_iff, DateTime.lt_iff]
  simp [append_lt_append_iff, padded_lt_iff d.microsecond_lt e.microsecond_lt]

/-- The text of a `_now_iso` reading sorts before the text of a `_now_utc`
reading not only when its instant is earlier: the offset `+` sorts before `Z`
at one instant, and the dot of a fraction before the `Z` of a whole second. -/
theorem nowIso_text_lt_nowUtc_iff {d e : DateTime} :
    (nowIso e).text < (nowUtc d).text ↔ e ≤ d ∨ d.microsecond.val = 0 ∧ e.toSecond = d.toSecond := by
  rw [text_nowIso, text_nowUtc, dateAndTime_append_lt_iff, le_iff_lt_or_eq, DateTime.lt_iff, DateTime.eq_iff]
  by_cases whole : d.microsecond.val = 0
  · have dot : '.' < 'Z' := by decide
    simp only [whole, if_true, List.nil_append, List.cons_lt_cons_iff, dot, true_or, and_true, true_and,
      Nat.not_lt_zero, and_false, or_false]
    tauto
  · have plus : ['+', '0', '0', ':', '0', '0'] < ['Z'] := by decide
    simp only [whole, if_false, List.cons_append, List.cons_lt_cons_iff, Char.lt_irrefl, true_and, false_or, false_and,
      or_false]
    rw [append_lt_append_iff (by simp), padded_lt_iff e.microsecond_lt d.microsecond_lt,
      padded_inj e.microsecond_lt d.microsecond_lt]
    simp only [plus, and_true]
    tauto

theorem text_eq (t : Timestamp) : t.text = t.instant.dateAndTime ++ fractionText t.fraction t.suffix := by
  have digits : ∀ n, padded 6 n ≠ [] := fun n same => by simpa using congrArg List.length same
  obtain ⟨d, writer⟩ := t
  cases writer with
  | nowUtc =>
    rw [show Timestamp.mk d .nowUtc = nowUtc d from rfl, text_nowUtc]
    by_cases whole : d.microsecond.val = 0
    · simp [fractionText, fraction, suffix, nowUtc, whole, Suffix.text]
    · simp [fractionText, fraction, suffix, nowUtc, whole, Suffix.text, digits]
  | nowIso =>
    rw [show Timestamp.mk d .nowIso = nowIso d from rfl, text_nowIso]
    simp [fractionText, fraction, suffix, nowIso, Suffix.text, digits]

theorem fraction_digits (t : Timestamp) : IsDigits t.fraction := by
  unfold fraction
  split
  · intro c member
    cases member
  · exact isDigits_padded _ _

/-- The fraction in the text is the number of microseconds. -/
theorem fractionLe_fraction_iff {t : Timestamp} {gs : List Char} :
    FractionLe gs t.fraction ↔ decimal gs * 10 ^ 6 ≤ t.instant.microsecond.val * 10 ^ gs.length := by
  unfold fraction
  split
  · rename_i whole
    rw [fractionLe_nil_iff, whole.2]
    omega
  · rw [FractionLe, decimal_padded t.instant.microsecond_lt, padded_length]

theorem text_injective : Function.Injective text := by
  have sameSecond : ∀ {d e : DateTime} {as bs : List Char},
      d.dateAndTime ++ as = e.dateAndTime ++ bs → d.toSecond = e.toSecond ∧ as = bs := by
    intro d e as bs same
    obtain ⟨date, rest⟩ := List.append_inj same (dateAndTime_length d e)
    exact ⟨(render_inj d.toSecond_fits e.toSecond_fits).mp date, rest⟩
  have mixed : ∀ d e : DateTime, (nowUtc d).text ≠ (nowIso e).text := by
    intro d e same
    rw [text_nowUtc, text_nowIso] at same
    have rest := (sameSecond same).2
    split at rest
    · simp at rest
    · simp only [List.cons_append, List.cons.injEq, true_and] at rest
      have tails := (List.append_inj rest (by simp)).2
      simp at tails
  rintro ⟨d, writer⟩ ⟨e, writer'⟩ same
  cases writer <;> cases writer'
  · have texts : (nowUtc d).text = (nowUtc e).text := same
    rw [text_nowUtc, text_nowUtc] at texts
    obtain ⟨second, rest⟩ := sameSecond texts
    have micro : d.microsecond.val = e.microsecond.val := by
      split at rest <;> split at rest
      · omega
      · simp at rest
      · simp at rest
      · simp only [List.cons_append, List.cons.injEq, true_and] at rest
        exact (padded_inj d.microsecond_lt e.microsecond_lt).mp (List.append_inj rest (by simp)).1
    rw [DateTime.eq_iff.mpr ⟨second, micro⟩]
  · exact absurd same (mixed d e)
  · exact absurd same.symm (mixed e d)
  · have texts : (nowIso d).text = (nowIso e).text := same
    rw [text_nowIso, text_nowIso] at texts
    obtain ⟨second, rest⟩ := sameSecond texts
    simp only [List.cons.injEq, true_and] at rest
    have micro := (padded_inj d.microsecond_lt e.microsecond_lt).mp (List.append_inj rest (by simp)).1
    rw [DateTime.eq_iff.mpr ⟨second, micro⟩]

end Timestamp

end PbChatroom
