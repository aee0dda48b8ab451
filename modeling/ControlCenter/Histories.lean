import ControlCenter.ScriptRuns

/-! Scripts whose questions depend on what was asked and answered before: a rule for each way
to put scripts together, and what it says of their runs. -/
namespace ControlCenter.Histories
open Dialogue ScriptRuns

abbrev Exchange (Q : Type) (A : Q → Type) := (q : Q) × Except String (A q)

section
variable {Q : Type} {A : Q → Type} {W α β : Type}

def Heeds (may : List (Exchange Q A) → Q → Prop)
    (post : Except String α → List (Exchange Q A) → Prop) :
    List (Exchange Q A) → Script Q A α → Prop
  | past,.done a => post (.ok a) past
  | past,.fail error => post (.error error) past
  | past,.ask q next => may past q ∧ ∀ r, Heeds may post (past ++ [⟨q,r⟩]) (next r)

variable {may : List (Exchange Q A) → Q → Prop} {past : List (Exchange Q A)}

theorem heedsBind {p : Script Q A α} {f : α → Script Q A β}
    {post : Except String β → List (Exchange Q A) → Prop}
    (first : Heeds may (fun r later => match r with
      | .ok a => Heeds may post later (f a)
      | .error error => post (.error error) later) past p) : Heeds may post past (p >>= f) := by
  induction p generalizing past with
  | done a => exact first
  | fail error => exact first
  | ask q next ih => exact ⟨first.1,fun r => ih r (first.2 r)⟩

theorem heedsAttempt {p : Script Q A α}
    {post : Except String (Except String α) → List (Exchange Q A) → Prop}
    (first : Heeds may (fun r => post (.ok r)) past p) : Heeds may post past p.attempt := by
  induction p generalizing past with
  | done a => exact first
  | fail error => exact first
  | ask q next ih => exact ⟨first.1,fun r => ih r (first.2 r)⟩

theorem heedsCall {q : Q} {post : Except String (A q) → List (Exchange Q A) → Prop}
    (now : may past q) (rest : ∀ r, post r (past ++ [⟨q,r⟩])) :
    Heeds may post past (Script.call q) := by
  refine ⟨now,fun r => ?_⟩
  cases r with
  | ok a => exact rest (.ok a)
  | error error => exact rest (.error error)

theorem heedsMono {p : Script Q A α} {post post' : Except String α → List (Exchange Q A) → Prop}
    (weaker : ∀ r later, post r later → post' r later) (first : Heeds may post past p) :
    Heeds may post' past p := by
  induction p generalizing past with
  | done a => exact weaker _ _ first
  | fail error => exact weaker _ _ first
  | ask q next ih => exact ⟨first.1,fun r => ih r (first.2 r)⟩

def exchange (e : Entry Q A W) : Exchange Q A := ⟨e.question,e.answer⟩

def talk (log : List (Entry Q A W)) : List (Exchange Q A) := log.map exchange

def Proper (may : List (Exchange Q A) → Q → Prop) (past log : List (Exchange Q A)) : Prop :=
  ∀ front x back, log = front ++ x::back → may (past ++ front) x.1

theorem properNil : Proper may past [] := fun front x back same => by simp at same

theorem properCons {x : Exchange Q A} {rest : List (Exchange Q A)} (now : may past x.1)
    (later : Proper may (past ++ [x]) rest) : Proper may past (x::rest) := by
  intro front y back same
  cases front with
  | nil =>
    cases (List.cons.inj same).1
    rw [List.append_nil]
    exact now
  | cons z front =>
    obtain ⟨rfl,tail⟩ := List.cons.inj same
    have held := later front y back tail
    rwa [List.append_assoc,List.singleton_append] at held

theorem runHeeds {E : Environment Q A W} {p : Script Q A α} {w last : W}
    {log : List (Entry Q A W)} {outcome : Option (Except String α)}
    {post : Except String α → List (Exchange Q A) → Prop} (run : Run E p w log outcome last)
    (heeds : Heeds may post past p) : Proper may past (talk log) ∧
      ∀ r, outcome = some r → post r (past ++ talk log) := by
  induction run generalizing past with
  | left p w => exact ⟨properNil,fun r same => by cases same⟩
  | done a w =>
    refine ⟨properNil,fun r same => ?_⟩
    cases Option.some.inj same
    rw [talk,List.map_nil,List.append_nil]
    exact heeds
  | fail error w =>
    refine ⟨properNil,fun r same => ?_⟩
    cases Option.some.inj same
    rw [talk,List.map_nil,List.append_nil]
    exact heeds
  | ask moved answered rest ih =>
    obtain ⟨proper,ends⟩ := ih (heeds.2 _)
    refine ⟨properCons heeds.1 proper,fun r same => ?_⟩
    have held := ends r same
    rwa [List.append_assoc,List.singleton_append] at held

def played (reply : (q : Q) → Except String (A q)) :
    Script Q A α → List (Entry Q A Unit) × Except String α
  | .done a => ([],.ok a)
  | .fail error => ([],.error error)
  | .ask q next =>
      let rest := played reply (next (reply q))
      (⟨(),q,reply q⟩::rest.1,rest.2)

def answering (reply : (q : Q) → Except String (A q)) : Environment Q A Unit :=
  ⟨fun _ _ => True,fun q _ r _ => r = reply q⟩

theorem playedRun (reply : (q : Q) → Except String (A q)) (p : Script Q A α) :
    Run (answering reply) p () (played reply p).1 (some (played reply p).2) () := by
  induction p with
  | done a => exact .done a ()
  | fail error => exact .fail error ()
  | ask q next ih => exact .ask True.intro rfl (ih (reply q))

end

end ControlCenter.Histories
