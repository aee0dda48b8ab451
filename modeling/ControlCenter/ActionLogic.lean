import Mathlib.Init

/-! Weakest preconditions and frames for actions that read and replace a state and may
throw. A thrown error keeps the state reached. An excused error promises nothing. -/
namespace ControlCenter.ActionLogic

abbrev Action (ε σ α : Type) := ExceptT ε (StateM σ) α

variable {ε σ α β : Type}

def wp (m : Action ε σ α) (Q : α → σ → Prop) (E : ε → σ → Prop) (s : σ) : Prop :=
  match m s with
  | (.ok a,t) => Q a t
  | (.error e,t) => E e t

theorem wpOk {m : Action ε σ α} {Q : α → σ → Prop} {E : ε → σ → Prop} {s t : σ} {a : α}
    (h : wp m Q E s) (run : m s = (.ok a,t)) : Q a t := by
  simpa only [wp,run] using h

theorem wpError {m : Action ε σ α} {Q : α → σ → Prop} {E : ε → σ → Prop} {s t : σ} {e : ε}
    (h : wp m Q E s) (run : m s = (.error e,t)) : E e t := by
  simpa only [wp,run] using h

theorem wpIntro {m : Action ε σ α} {Q : α → σ → Prop} {E : ε → σ → Prop} {s : σ}
    (ok : ∀ a t, m s = (.ok a,t) → Q a t) (error : ∀ e t, m s = (.error e,t) → E e t) :
    wp m Q E s := by
  unfold wp
  split
  · exact ok _ _ ‹_›
  · exact error _ _ ‹_›

theorem wpSame {m m' : Action ε σ α} {Q : α → σ → Prop} {E : ε → σ → Prop} {s s' : σ}
    (same : m s = m' s') (h : wp m' Q E s') : wp m Q E s := by
  unfold wp at *
  rwa [same]

theorem wpMono {m : Action ε σ α} {Q Q' : α → σ → Prop} {E E' : ε → σ → Prop} {s : σ}
    (h : wp m Q E s) (ok : ∀ a t, Q a t → Q' a t) (error : ∀ e t, E e t → E' e t) :
    wp m Q' E' s :=
  wpIntro (fun a t run => ok a t (wpOk h run)) fun e t run => error e t (wpError h run)

@[simp] theorem wpPure (a : α) (Q : α → σ → Prop) (E : ε → σ → Prop) (s : σ) :
    wp (pure a : Action ε σ α) Q E s ↔ Q a s := Iff.rfl

@[simp] theorem wpThrow (e : ε) (Q : α → σ → Prop) (E : ε → σ → Prop) (s : σ) :
    wp (throw e : Action ε σ α) Q E s ↔ E e s := Iff.rfl

@[simp] theorem wpGet (Q : σ → σ → Prop) (E : ε → σ → Prop) (s : σ) :
    wp (get : Action ε σ σ) Q E s ↔ Q s s := Iff.rfl

@[simp] theorem wpModify (f : σ → σ) (Q : Unit → σ → Prop) (E : ε → σ → Prop) (s : σ) :
    wp (modify f : Action ε σ Unit) Q E s ↔ Q () (f s) := Iff.rfl

@[simp] theorem wpBind (m : Action ε σ α) (f : α → Action ε σ β) (Q : β → σ → Prop)
    (E : ε → σ → Prop) (s : σ) :
    wp (m >>= f) Q E s ↔ wp m (fun a t => wp (f a) Q E t) E s := by
  unfold wp
  simp only [bind,ExceptT.bind,ExceptT.mk,StateT.bind]
  rcases h : m s with ⟨a | a,t⟩ <;> rfl

theorem runOk {m : Action ε σ α} {f : α → Action ε σ β} {s t : σ} {a : α}
    (run : m s = (.ok a,t)) : (m >>= f) s = f a t := by
  simp only [bind,ExceptT.bind,ExceptT.mk,StateT.bind,run]
  rfl

theorem runError {m : Action ε σ α} {f : α → Action ε σ β} {s t : σ} {e : ε}
    (run : m s = (.error e,t)) : (m >>= f) s = (.error e,t) := by
  simp only [bind,ExceptT.bind,ExceptT.mk,StateT.bind,run]
  rfl

section Frames
variable (excused : ε → Prop)

def Frame (R : σ → σ → Prop) (m : Action ε σ α) : Prop :=
  ∀ s, wp m (fun _ t => R s t) (fun e t => ¬excused e → R s t) s

variable {excused} {R S T : σ → σ → Prop} {m : Action ε σ α} {f : α → Action ε σ β}

theorem Frame.ok (frame : Frame excused R m) {s t : σ} {a : α} (run : m s = (.ok a,t)) :
    R s t := wpOk (Q := fun _ t => R s t) (frame s) run

theorem Frame.error (frame : Frame excused R m) {s t : σ} {e : ε} (run : m s = (.error e,t))
    (unexcused : ¬excused e) : R s t :=
  wpError (E := fun e t => ¬excused e → R s t) (frame s) run unexcused

theorem Frame.always {m : Action ε σ α} (frame : Frame (fun _ => False) R m) (s : σ) :
    R s (m s).2 := by
  rcases run : m s with ⟨a | a,t⟩
  · exact frame.error run not_false
  · exact frame.ok run

theorem Frame.mono (frame : Frame excused R m) (weaker : ∀ s t, R s t → S s t) :
    Frame excused S m := fun s =>
  wpMono (frame s) (fun _ t => weaker s t) fun _ t h unexcused => weaker s t (h unexcused)

theorem framePure (a : α) (refl : ∀ s, R s s) : Frame excused R (pure a : Action ε σ α) :=
  fun s => refl s

theorem frameThrow (e : ε) (refl : ∀ s, R s s) : Frame excused R (throw e : Action ε σ α) :=
  fun s _ => refl s

theorem frameGet (refl : ∀ s, R s s) : Frame excused R (get : Action ε σ σ) := fun s => refl s

theorem frameModify {f : σ → σ} (each : ∀ s, R s (f s)) :
    Frame excused R (modify f : Action ε σ Unit) := fun s => each s

theorem frameBind (first : Frame excused R m) (second : ∀ a, Frame excused S (f a))
    (alone : ∀ s t, R s t → T s t) (both : ∀ s t u, R s t → S t u → T s u) :
    Frame excused T (m >>= f) := fun s => by
  rw [wpBind]
  apply wpIntro
  · intro a t run
    have step := first.ok run
    exact wpMono (second a t) (fun _ u => both s t u step)
      fun _ u h unexcused => both s t u step (h unexcused)
  · intro e t run unexcused
    exact alone s t (first.error run unexcused)

theorem frameSeq (trans : ∀ s t u, R s t → R t u → R s u) (first : Frame excused R m)
    (second : ∀ a, Frame excused R (f a)) : Frame excused R (m >>= f) :=
  frameBind first second (fun _ _ h => h) trans

end Frames

end ControlCenter.ActionLogic
