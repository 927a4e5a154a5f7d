import Mathlib

namespace Shell

/-- `${x:-word}`: the word stands in for a variable that is unset or empty. -/
def orDefault (x : Option String) (word : String) : String :=
  match x with
  | some value => if value = "" then word else value
  | none => word

/-- `${x:+word}`: nothing for a variable that is unset or empty, else the word. -/
def ifSet (x : Option String) (word : String → String) : String :=
  match x with
  | some value => if value = "" then "" else word value
  | none => ""

/-- The builtin `echo` takes an argument of this form for options. -/
def isEchoOption : List Char → Bool
  | '-' :: letter :: letters => (letter :: letters).all fun c => c == 'n' || c == 'e' || c == 'E'
  | _ => false

/-- The output of bash's `echo "$x"`. -/
def echo (argument : List Char) : List Char :=
  if isEchoOption argument then if 'n' ∈ argument then [] else ['\n'] else argument ++ ['\n']

/-- `tr 'A-Z' 'a-z'` -/
def trLower (text : List Char) : List Char := text.map Char.toLower

/-- `$(…)` drops all newlines that end the output. -/
def substitution (output : List Char) : List Char := output.rdropWhile (· = '\n')

theorem toLower_eq_self_iff {c : Char} : c.toLower = c ↔ ¬c.isUpper := by
  constructor
  · intro same
    rw [← same, Char.isUpper_toLower_eq_false]
    exact Bool.false_ne_true
  · exact Char.toLower_eq_of_not_isUpper

/-- No letter is lowered to a newline. -/
theorem toLower_eq_newline_iff {c : Char} : c.toLower = '\n' ↔ c = '\n' := by
  by_cases upper : c.isUpper
  · have letter : c.toLower.isLower := by rw [Char.isLower_toLower_eq_isAlpha, Char.isAlpha, upper, Bool.true_or]
    refine iff_of_false (fun newline => ?_) (fun newline => ?_)
    · rw [newline] at letter
      exact absurd letter (by decide)
    · rw [newline] at upper
      exact absurd upper (by decide)
  · rw [toLower_eq_self_iff.mpr upper]

theorem trLower_eq_self_iff {text : List Char} : trLower text = text ↔ ∀ c ∈ text, ¬c.isUpper := by
  induction text with
  | nil => simp [trLower]
  | cons c text ih =>
    rw [trLower, List.map_cons, List.cons.injEq, toLower_eq_self_iff, ← trLower, ih, List.forall_mem_cons]

theorem trLower_append (as bs : List Char) : trLower (as ++ bs) = trLower as ++ trLower bs := List.map_append

/-- Nothing is left of an option. -/
theorem substitution_echo_option {text : List Char} (option : isEchoOption text) :
    substitution (trLower (echo text)) = [] := by
  rw [echo, if_pos option]
  split <;> rfl

/-- A substituted `echo` of a text that is no option gives the text without its
last newlines. -/
theorem substitution_echo_eq_iff {text : List Char} (plain : ¬isEchoOption text) :
    substitution (trLower (echo text)) = trLower text ↔ text.getLast? ≠ some '\n' := by
  rw [echo, if_neg plain, trLower_append, substitution]
  have last : trLower ['\n'] = ['\n'] := rfl
  rw [last, List.rdropWhile_concat_pos _ _ _ (by decide), List.rdropWhile_eq_self_iff]
  rcases List.eq_nil_or_concat text with rfl | ⟨front, c, rfl⟩
  · simp [trLower]
  · simp [trLower, toLower_eq_newline_iff]

end Shell
