import Mathlib.Data.List.Induction

/-! Runs of a deterministic system, and properties of every state they reach. -/
namespace ControlCenter.RunLogic

variable {S E : Type} (step : S → E → S)

def reach (s : S) (events : List E) : S := events.foldl step s

theorem reachAppend (s : S) (front back : List E) :
    reach step s (front ++ back) = reach step (reach step s front) back := List.foldl_append

theorem reachLast (s : S) (front : List E) (e : E) :
    reach step s (front ++ [e]) = step (reach step s front) e := by
  rw [reachAppend]
  rfl

theorem reachKept {I : S → Prop} (kept : ∀ s e, I s → I (step s e)) {s : S} (start : I s)
    (events : List E) : I (reach step s events) := by
  induction events generalizing s with
  | nil => exact start
  | cons e rest ih => exact ih (kept s e start)

theorem beganAt {P : S → Prop} {s : S} {events : List E} (before : ¬P s)
    (after : P (reach step s events)) : ∃ front e back, events = front ++ e::back ∧
      ¬P (reach step s front) ∧ P (reach step s (front ++ [e])) := by
  induction events generalizing s with
  | nil => exact absurd after before
  | cons e rest ih =>
    by_cases now : P (step s e)
    · exact ⟨[],e,rest,rfl,before,now⟩
    · obtain ⟨front,e',back,rfl,notYet,then_⟩ := ih now after
      exact ⟨e::front,e',back,rfl,notYet,then_⟩

theorem everyPrefix {I J : S → Prop} {D : S → E → Prop} (kept : ∀ s e, J s → J (step s e))
    (each : ∀ s e, J s → I s → (I (step s e) ↔ D s e)) {s : S} (known : J s) (start : I s)
    (events : List E) :
    (∀ front back, events = front ++ back → I (reach step s front)) ↔
      ∀ front e back, events = front ++ e::back → D (reach step s front) e := by
  have knows (front : List E) := reachKept step kept known front
  constructor
  · intro holds front e back split
    have last := holds (front ++ [e]) back (by rw [split,List.append_assoc]; rfl)
    rw [reachLast] at last
    exact (each _ e (knows front) (holds front (e::back) split)).mp last
  · intro meets front
    induction front using List.reverseRecOn with
    | nil => exact fun _ _ => start
    | append_singleton front e ih =>
      intro back split
      rw [List.append_assoc] at split
      rw [reachLast]
      exact (each _ e (knows front) (ih _ split)).mpr (meets front e back split)

theorem reachMet {I : S → Prop} {D : S → E → Prop} (kept : ∀ s e, I s → D s e → I (step s e))
    {s : S} (start : I s) {events : List E}
    (meets : ∀ front e back, events = front ++ e::back → D (reach step s front) e)
    (front back : List E) (split : events = front ++ back) : I (reach step s front) := by
  induction front using List.reverseRecOn generalizing back with
  | nil => exact start
  | append_singleton front e ih =>
    rw [List.append_assoc] at split
    rw [reachLast]
    exact kept _ e (ih _ split) (meets front e back split)

def SomeStep (P : S → E → Prop) (s : S) (events : List E) : Prop :=
  ∃ front e back, events = front ++ e::back ∧ P (reach step s front) e

theorem noStep (P : S → E → Prop) (s : S) : ¬ SomeStep step P s [] := by
  rintro ⟨front,e,back,split,-⟩
  cases front <;> cases split

theorem someStepLast (P : S → E → Prop) (s : S) (events : List E) (e : E) :
    SomeStep step P s (events ++ [e]) ↔ SomeStep step P s events ∨ P (reach step s events) e := by
  constructor
  · rintro ⟨front,e',back,split,met⟩
    rcases List.eq_nil_or_concat back with rfl | ⟨back,last,rfl⟩
    · obtain ⟨rfl,same⟩ := List.append_inj' split rfl
      cases same
      exact .inr met
    · rw [List.concat_eq_append,← List.cons_append,← List.append_assoc] at split
      obtain ⟨rfl,-⟩ := List.append_inj' split rfl
      exact .inl ⟨front,e',back,rfl,met⟩
  · rintro (⟨front,e',back,rfl,met⟩ | met)
    · exact ⟨front,e',back ++ [e],by simp,met⟩
    · exact ⟨events,e,[],rfl,met⟩

def everyStep (check : S → E → Bool) : S → List E → Bool
  | _,[] => true
  | s,e::rest => check s e && everyStep check (step s e) rest

theorem everyStepSource {check : S → E → Bool} {s : S} {events front back : List E} {e : E}
    (checked : everyStep step check s events = true) (split : events = front ++ e::back) :
    check (reach step s front) e = true := by
  subst split
  induction front generalizing s with
  | nil => exact (Bool.and_eq_true _ _ ▸ checked).1
  | cons first rest ih => exact ih (Bool.and_eq_true _ _ ▸ checked).2

end ControlCenter.RunLogic
