import Mathlib.Data.List.Basic

namespace Regex

/-- Patterns with the anchors `^` and `$`. -/
inductive Pattern where
  | caret
  | dollar
  | one (p : Char → Bool)
  | plus (r : Pattern)
  | seq (r s : Pattern)

/-- A place in a subject: the text behind it, last character first, and the text
ahead. -/
structure Place where
  behind : List Char
  ahead : List Char

/-- How a pattern can go from place to place. Without flags the caret stands at
the start only; the dollar stands at the end, and before a newline that ends the
subject. -/
inductive Pattern.Goes : Pattern → Place → Place → Prop
  | caret ahead : Goes .caret ⟨[], ahead⟩ ⟨[], ahead⟩
  | dollar behind : Goes .dollar ⟨behind, []⟩ ⟨behind, []⟩
  | dollarNewline behind : Goes .dollar ⟨behind, ['\n']⟩ ⟨behind, ['\n']⟩
  | one {p c} behind ahead : p c = true → Goes (.one p) ⟨behind, c :: ahead⟩ ⟨c :: behind, ahead⟩
  | once {r a b} : Goes r a b → Goes (.plus r) a b
  | again {r a b c} : Goes r a b → Goes (.plus r) b c → Goes (.plus r) a c
  | seq {r s a b c} : Goes r a b → Goes s b c → Goes (.seq r s) a c

/-- `re.match` finds a match, which starts at the start and may end anywhere. -/
def Pattern.Match (r : Pattern) (subject : List Char) : Prop := ∃ place, r.Goes ⟨[], subject⟩ place

namespace Pattern

theorem goes_caret_iff {a b : Place} : Goes .caret a b ↔ a.behind = [] ∧ b = a := by
  constructor
  · intro goes
    cases goes
    exact ⟨rfl, rfl⟩
  · obtain ⟨behind, ahead⟩ := a
    rintro ⟨rfl, rfl⟩
    exact .caret ahead

theorem goes_dollar_iff {a b : Place} : Goes .dollar a b ↔ (a.ahead = [] ∨ a.ahead = ['\n']) ∧ b = a := by
  constructor
  · intro goes
    cases goes with
    | dollar => exact ⟨Or.inl rfl, rfl⟩
    | dollarNewline => exact ⟨Or.inr rfl, rfl⟩
  · obtain ⟨behind, ahead⟩ := a
    rintro ⟨rfl | rfl, rfl⟩
    · exact .dollar behind
    · exact .dollarNewline behind

theorem goes_seq_iff {r s : Pattern} {a c : Place} : Goes (.seq r s) a c ↔ ∃ b, Goes r a b ∧ Goes s b c := by
  constructor
  · intro goes
    cases goes with
    | seq first second => exact ⟨_, first, second⟩
  · rintro ⟨b, first, second⟩
    exact .seq first second

/-- A repeated class goes over any text of the class, of one character or more. -/
theorem goes_plus_one_iff {p : Char → Bool} {a b : Place} : Goes (.plus (.one p)) a b ↔
    ∃ cs, cs ≠ [] ∧ (∀ c ∈ cs, p c) ∧ a.ahead = cs ++ b.ahead ∧ b.behind = cs.reverse ++ a.behind := by
  constructor
  · intro goes
    generalize same : plus (one p) = r at goes
    induction goes with
    | once first =>
      cases same
      cases first with
      | @one _ c _ _ ofClass => exact ⟨[c], by simp, by simpa using ofClass, rfl, rfl⟩
    | again first _ _ ih =>
      cases same
      cases first with
      | @one _ c _ _ ofClass =>
        obtain ⟨cs, _, ofClass', ahead, behind⟩ := ih rfl
        refine ⟨c :: cs, by simp, ?_, congrArg (c :: ·) ahead, by simpa using behind⟩
        intro d member
        rcases List.mem_cons.mp member with rfl | later
        · exact ofClass
        · exact ofClass' d later
    | _ => cases same
  · rintro ⟨cs, nonempty, ofClass, ahead, behind⟩
    obtain ⟨behindA, aheadA⟩ := a
    obtain ⟨behindB, aheadB⟩ := b
    dsimp only at ahead behind
    subst ahead behind
    induction cs generalizing behindA with
    | nil => exact absurd rfl nonempty
    | cons c cs ih =>
      have first := Goes.one behindA (cs ++ aheadB) (ofClass c (List.mem_cons_self ..))
      cases cs with
      | nil => exact .once first
      | cons d cs =>
        have rest := ih (by simp) (fun e member => ofClass e (List.mem_cons_of_mem _ member)) (c :: behindA)
        rw [List.reverse_cons, List.append_assoc]
        exact .again first rest

/-- `^[…]+$` matches the texts of the class, with or without a newline behind. -/
theorem match_line_iff {p : Char → Bool} {subject : List Char} :
    (seq caret (seq (plus (one p)) dollar)).Match subject ↔
      ∃ cs, cs ≠ [] ∧ (∀ c ∈ cs, p c) ∧ (subject = cs ∨ subject = cs ++ ['\n']) := by
  constructor
  · rintro ⟨place, goes⟩
    obtain ⟨_, start, rest⟩ := goes_seq_iff.mp goes
    obtain ⟨_, rfl⟩ := goes_caret_iff.mp start
    obtain ⟨b, body, stop⟩ := goes_seq_iff.mp rest
    obtain ⟨cs, nonempty, ofClass, ahead, _⟩ := goes_plus_one_iff.mp body
    refine ⟨cs, nonempty, ofClass, ?_⟩
    dsimp only at ahead
    rcases (goes_dollar_iff.mp stop).1 with final | newline
    · exact Or.inl (by rw [ahead, final, List.append_nil])
    · exact Or.inr (by rw [ahead, newline])
  · rintro ⟨cs, nonempty, ofClass, ends⟩
    have body : ∀ ahead, (plus (one p)).Goes ⟨[], cs ++ ahead⟩ ⟨cs.reverse, ahead⟩ := fun ahead =>
      goes_plus_one_iff.mpr ⟨cs, nonempty, ofClass, rfl, (List.append_nil _).symm⟩
    rcases ends with rfl | rfl
    · have body := body []
      rw [List.append_nil] at body
      exact ⟨_, .seq (.caret _) (.seq body (.dollar _))⟩
    · exact ⟨_, .seq (.caret _) (.seq (body ['\n']) (.dollarNewline _))⟩

end Pattern

end Regex
