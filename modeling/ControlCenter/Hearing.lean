import ControlCenter.Reliance

/-! A script seen by what it has heard. An ear says what an answer adds, what may be asked
then and which answers there are. Where what was heard describes a world that others move,
a script that heeds its ear is safe among them. -/
namespace ControlCenter.Hearing
open Dialogue Reliance

structure Ear (Q : Type) (A : Q → Type) (H : Type) where
  hears : H → (q : Q) → Except String (A q) → H
  may : H → Q → Prop
  plain : (q : Q) → Except String (A q) → Prop

section
variable {Q : Type} {A : Q → Type} {H α β : Type} {e : Ear Q A H} {s : H}

def Heard (e : Ear Q A H) : Script Q A α → (Except String α → H → Prop) → H → Prop
  | .done a,post,s => post (.ok a) s
  | .fail error,post,s => post (.error error) s
  | .ask q next,post,s =>
      e.may s q ∧ ∀ r, e.plain q r → Heard e (next r) post (e.hears s q r)

theorem heardBind {p : Script Q A α} {f : α → Script Q A β} {post : Except String β → H → Prop}
    (heard : Heard e p (fun r after => match r with
      | .ok a => Heard e (f a) post after
      | .error error => post (.error error) after) s) : Heard e (p >>= f) post s := by
  induction p generalizing s with
  | done a => exact heard
  | fail error => exact heard
  | ask q next ih => exact ⟨heard.1,fun r plain => ih r (heard.2 r plain)⟩

theorem heardAttempt {p : Script Q A α} {post : Except String (Except String α) → H → Prop}
    (heard : Heard e p (fun r => post (.ok r)) s) : Heard e p.attempt post s := by
  induction p generalizing s with
  | done a => exact heard
  | fail error => exact heard
  | ask q next ih => exact ⟨heard.1,fun r plain => ih r (heard.2 r plain)⟩

theorem heardMono {p : Script Q A α} {post post' : Except String α → H → Prop}
    (weaker : ∀ r after, post r after → post' r after) (heard : Heard e p post s) :
    Heard e p post' s := by
  induction p generalizing s with
  | done a => exact weaker _ _ heard
  | fail error => exact weaker _ _ heard
  | ask q next ih => exact ⟨heard.1,fun r plain => ih r (heard.2 r plain)⟩

theorem heardCall {q : Q} {post : Except String (A q) → H → Prop} (may : e.may s q)
    (rest : ∀ r, e.plain q r → post r (e.hears s q r)) : Heard e (Script.call q) post s := by
  refine ⟨may,fun r plain => ?_⟩
  cases r with
  | ok a => exact rest (.ok a) plain
  | error error => exact rest (.error error) plain

theorem heardAsks {may : Q → Prop} {P : H → Prop} (keeps : ∀ q, may q → ∀ now, P now →
      e.may now q ∧ ∀ r, e.plain q r → P (e.hears now q r))
    {p : Script Q A α} (asks : Asks may p) (held : P s) : Heard e p (fun _ => P) s := by
  induction p generalizing s with
  | done a => exact held
  | fail error => exact held
  | ask q next ih =>
    obtain ⟨may,kept⟩ := keeps q asks.1 s held
    exact ⟨may,fun r plain => ih r (asks.2 r) (kept r plain)⟩

variable {W ν κ : Type} {S : Setting Q A W ν κ} {who : Actor ν κ → Prop} {i : Actor ν κ}

/-- What was heard describes the world: nobody else spoils that, and where it does, a
question the ear permits is allowed and its answer is plain and described again. -/
structure Describes (e : Ear Q A H) (S : Setting Q A W ν κ) (who : Actor ν κ → Prop)
    (i : Actor ν κ) (R : H → W → Prop) : Prop where
  stays : ∀ s, Stable S who (R s)
  may : ∀ {s q w}, R s w → e.may s q → S.allowed i q w
  follows : ∀ {s q w r after}, R s w → e.may s q → S.answers i q w r after →
    e.plain q r ∧ R (e.hears s q r) after

theorem heardSafe {R : H → W → Prop} (describes : Describes e S who i R) {p : Script Q A α}
    {post : Except String α → H → Prop} (heard : Heard e p post s) {w : W} (related : R s w) :
    Safe S who i p (fun r after => ∃ last, R last after ∧ post r last) w := by
  induction p generalizing s w with
  | done a => exact safeDone (describes.stays s) (fun after related => ⟨s,related,heard⟩) related
  | fail error =>
    exact safeFail (describes.stays s) (fun after related => ⟨s,related,heard⟩) related
  | ask q next ih =>
    refine safeAsk (describes.stays s) (fun now related => describes.may related heard.1)
      (fun now r after related answered => ?_) related
    obtain ⟨plain,related⟩ := describes.follows related heard.1 answered
    exact ih r (heard.2 r plain) related

end

end ControlCenter.Hearing
