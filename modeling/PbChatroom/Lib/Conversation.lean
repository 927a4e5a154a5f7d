import Mathlib.Data.Set.Insert
import Mathlib.Logic.Relation
import Mathlib.Tactic.Common

universe u v

/-- One entry of a conversation. -/
structure Utterance (P : Type u) (α : Type v) where
  sender : P
  addressee : P
  isAck : Prop
  text : α

/-- A conversation that one participant opens for another: what was said, who was
asked in, whose part is done, whether all is done, and who has taken it on. -/
@[ext] structure Conversation (P : Type u) (α : Type v) where
  creator : P
  primary : P
  log : List (Utterance P α)
  invited : Set P
  acked : Set P
  closed : Prop
  holder : Option P

namespace Conversation
variable {P : Type u} {α : Type v}

/-- Those who may speak. -/
def party (c : Conversation P α) : Set P := insert c.creator (insert c.primary c.invited)

/-- Those who may be spoken to. -/
def addressees (c : Conversation P α) : Set P := {c.creator, c.primary}

def opened (creator primary : P) (text : α) : Conversation P α where
  creator
  primary
  log := [⟨creator, primary, False, text⟩]
  invited := ∅
  acked := ∅
  closed := False
  holder := none

/-- What can happen to a conversation, or to the place where there is none yet. -/
inductive Step : Option (Conversation P α) → Option (Conversation P α) → Prop
  | opens creator primary text : Step none (some (opened creator primary text))
  | invites c p : Step (some c) (some { c with invited := insert p c.invited })
  | speaks c u : u.sender ∈ c.party → u.addressee ∈ c.addressees → Step (some c) (some { c with log := c.log ++ [u] })
  | concludes c u : u.sender ∈ c.party → u.addressee ∈ c.addressees → u.isAck →
      Step (some c) (some { c with log := c.log ++ [u], closed := True })
  | marks c p : p ∈ c.invited → (∃ u ∈ c.log, u.isAck ∧ u.sender = p) →
      Step (some c) (some { c with acked := insert p c.acked })
  | closes c p : p ∈ c.acked → Step (some c) (some { c with closed := True })
  | holds c p : c.holder = none → Step (some c) (some { c with holder := some p })

/-- Any number of steps. -/
abbrev Steps : Option (Conversation P α) → Option (Conversation P α) → Prop := Relation.ReflTransGen Step

/-- What holds of every conversation: it begins with the creator, nobody speaks or
is spoken to who has no part in it, and no part is done without an ack. -/
structure Sound (c : Conversation P α) : Prop where
  seed : ∃ text rest, c.log = ⟨c.creator, c.primary, False, text⟩ :: rest
  sent : ∀ u ∈ c.log, u.sender ∈ c.party
  addressed : ∀ u ∈ c.log, u.addressee ∈ c.addressees
  acked_invited : c.acked ⊆ c.invited
  acked_said : ∀ p ∈ c.acked, ∃ u ∈ c.log, u.isAck ∧ u.sender = p
  closed_said : c.closed → ∃ u ∈ c.log, u.isAck

/-- How a conversation goes on: with nothing taken back. -/
structure Later (c c' : Conversation P α) : Prop where
  creator : c'.creator = c.creator
  primary : c'.primary = c.primary
  log : c.log <+: c'.log
  invited : c.invited ⊆ c'.invited
  acked : c.acked ⊆ c'.acked
  closed : c.closed → c'.closed
  holder : ∀ p, c.holder = some p → c'.holder = some p

theorem Later.refl (c : Conversation P α) : c.Later c :=
  ⟨rfl, rfl, List.prefix_rfl, subset_rfl, subset_rfl, id, fun _ => id⟩

theorem Later.trans {a b c : Conversation P α} (first : a.Later b) (second : b.Later c) : a.Later c where
  creator := second.creator.trans first.creator
  primary := second.primary.trans first.primary
  log := first.log.trans second.log
  invited := first.invited.trans second.invited
  acked := first.acked.trans second.acked
  closed := second.closed ∘ first.closed
  holder p held := second.holder p (first.holder p held)

theorem opened_sound (creator primary : P) (text : α) : (opened creator primary text).Sound where
  seed := ⟨text, [], rfl⟩
  sent u member := by
    rw [opened, List.mem_singleton] at member
    subst member
    exact Set.mem_insert ..
  addressed u member := by
    rw [opened, List.mem_singleton] at member
    subst member
    exact Set.mem_insert_of_mem _ rfl
  acked_invited := subset_rfl
  acked_said _ member := member.elim
  closed_said isClosed := isClosed.elim

/-- One more entry by somebody who may speak. -/
theorem Sound.speaks {c : Conversation P α} (sound : c.Sound) {u : Utterance P α} (sender : u.sender ∈ c.party)
    (addressee : u.addressee ∈ c.addressees) {isClosed : Prop} (reason : isClosed → c.closed ∨ u.isAck) :
    Sound { c with log := c.log ++ [u], closed := isClosed } where
  seed := by
    obtain ⟨text, rest, log⟩ := sound.seed
    exact ⟨text, rest ++ [u], by rw [log, List.cons_append]⟩
  sent v member := by
    rcases List.mem_append.mp member with old | new
    · exact sound.sent v old
    · rwa [List.mem_singleton.mp new]
  addressed v member := by
    rcases List.mem_append.mp member with old | new
    · exact sound.addressed v old
    · rwa [List.mem_singleton.mp new]
  acked_invited := sound.acked_invited
  acked_said p member := by
    obtain ⟨v, said, facts⟩ := sound.acked_said p member
    exact ⟨v, List.mem_append_left _ said, facts⟩
  closed_said holds := by
    rcases reason holds with before | isAck
    · obtain ⟨v, said, facts⟩ := sound.closed_said before
      exact ⟨v, List.mem_append_left _ said, facts⟩
    · exact ⟨u, List.mem_append_right _ (List.mem_singleton_self u), isAck⟩

/-- Every step of a conversation keeps it sound and takes nothing back. -/
theorem Step.sound {s : Option (Conversation P α)} {c' : Conversation P α} (step : Step s (some c'))
    (sound : ∀ c, s = some c → c.Sound) : c'.Sound ∧ ∀ c, s = some c → c.Later c' := by
  have later : ∀ {c c' : Conversation P α}, c.Later c' → ∀ d, some c = some d → d.Later c' := by
    rintro c c' here _ ⟨⟩
    exact here
  cases step with
  | opens creator primary text => exact ⟨opened_sound creator primary text, fun _ same => nomatch same⟩
  | invites c p =>
    have before := sound c rfl
    have grows : c.invited ⊆ insert p c.invited := Set.subset_insert p _
    refine ⟨⟨before.seed, fun u member => ?_, before.addressed, before.acked_invited.trans grows, before.acked_said,
      before.closed_said⟩, later ⟨rfl, rfl, List.prefix_rfl, grows, subset_rfl, id, fun _ => id⟩⟩
    exact Set.insert_subset_insert (Set.insert_subset_insert grows) (before.sent u member)
  | speaks c u sender addressee =>
    exact ⟨(sound c rfl).speaks sender addressee Or.inl,
      later ⟨rfl, rfl, List.prefix_append _ _, subset_rfl, subset_rfl, id, fun _ => id⟩⟩
  | concludes c u sender addressee isAck =>
    exact ⟨(sound c rfl).speaks sender addressee fun _ => Or.inr isAck,
      later ⟨rfl, rfl, List.prefix_append _ _, subset_rfl, subset_rfl, fun _ => trivial, fun _ => id⟩⟩
  | marks c p isInvited said =>
    have before := sound c rfl
    refine ⟨⟨before.seed, before.sent, before.addressed, Set.insert_subset isInvited before.acked_invited,
      fun q member => ?_, before.closed_said⟩,
      later ⟨rfl, rfl, List.prefix_rfl, subset_rfl, Set.subset_insert p _, id, fun _ => id⟩⟩
    rcases member with rfl | old
    · exact said
    · exact before.acked_said q old
  | closes c p isAcked =>
    have before := sound c rfl
    refine ⟨⟨before.seed, before.sent, before.addressed, before.acked_invited, before.acked_said, fun _ => ?_⟩,
      later ⟨rfl, rfl, List.prefix_rfl, subset_rfl, subset_rfl, fun _ => trivial, fun _ => id⟩⟩
    obtain ⟨u, said, isAck, _⟩ := before.acked_said p isAcked
    exact ⟨u, said, isAck⟩
  | holds c p free =>
    have before := sound c rfl
    refine ⟨⟨before.seed, before.sent, before.addressed, before.acked_invited, before.acked_said, before.closed_said⟩,
      later ⟨rfl, rfl, List.prefix_rfl, subset_rfl, subset_rfl, id, fun q held => ?_⟩⟩
    rw [free] at held
    cases held

/-- A conversation once opened stays one. -/
theorem Steps.isSome {s s' : Option (Conversation P α)} (steps : Steps s s') (there : s.isSome) : s'.isSome := by
  induction steps with
  | refl => exact there
  | tail _ step _ => cases step <;> rfl

/-- The invariant over whole histories. -/
theorem Steps.sound {s s' : Option (Conversation P α)} (steps : Steps s s') (sound : ∀ c, s = some c → c.Sound)
    {c' : Conversation P α} (ends : s' = some c') : c'.Sound ∧ ∀ c, s = some c → c.Later c' := by
  induction steps generalizing c' with
  | refl =>
    subst ends
    refine ⟨sound c' rfl, ?_⟩
    rintro _ ⟨⟩
    exact .refl c'
  | @tail m s' before step ih =>
    subst ends
    have sound' : ∀ d, m = some d → d.Sound := fun d here => (ih here).1
    obtain ⟨isSound, later⟩ := step.sound sound'
    refine ⟨isSound, ?_⟩
    rintro c rfl
    obtain ⟨d, rfl⟩ := Option.isSome_iff_exists.mp (Steps.isSome before rfl)
    exact ((ih rfl).2 c rfl).trans (later d rfl)

end Conversation
