import Mathlib.Logic.Relation
import Mathlib.Data.List.Forall2

/-! Programs as dialogues: a script asks a question, waits for the answer and goes on; an
answer may be an error, which the script can attempt to survive. A crew is a script that
can also run keyed scripts together and wait for all of them. A thread is a crew in
progress, with the members it abandoned when one of their group failed. -/
namespace ControlCenter.Dialogue

inductive Script (Q : Type) (A : Q → Type) (α : Type) : Type where
  | done (a : α)
  | fail (error : String)
  | ask (q : Q) (next : Except String (A q) → Script Q A α)

section
variable {Q : Type} {A : Q → Type} {α β : Type}

namespace Script

def bind : Script Q A α → (α → Script Q A β) → Script Q A β
  | .done a,f => f a
  | .fail error,_ => .fail error
  | .ask q next,f => .ask q fun r => (next r).bind f

-- The outcome of the script as a value: try and catch, or a swallowed rejection.
def attempt : Script Q A α → Script Q A (Except String α)
  | .done a => .done (.ok a)
  | .fail error => .done (.error error)
  | .ask q next => .ask q fun r => (next r).attempt

def ofExcept : Except String α → Script Q A α
  | .ok a => .done a
  | .error error => .fail error

def call (q : Q) : Script Q A (A q) := .ask q ofExcept

instance : Monad (Script Q A) where
  pure := .done
  bind := .bind

end Script

@[simp] theorem bindDone (a : α) (f : α → Script Q A β) : (Script.done a >>= f) = f a := rfl
@[simp] theorem bindFail (error : String) (f : α → Script Q A β) :
    (Script.fail error >>= f) = .fail error := rfl

end

section
variable (Q : Type) (A : Q → Type) (κ ρ : Type)

abbrev Member := κ × Script Q A ρ

abbrev Joint := Q ⊕ List (Member Q A κ ρ)

def JointAnswer : Joint Q A κ ρ → Type
  | .inl q => A q
  | .inr _ => List ρ

abbrev Crew (α : Type) := Script (Joint Q A κ ρ) (JointAnswer Q A κ ρ) α

structure Thread where
  main : Crew Q A κ ρ Unit
  orphans : List (Member Q A κ ρ)

end

section
variable {Q : Type} {A : Q → Type} {κ ρ α W : Type}

def Script.alone : Script Q A α → Crew Q A κ ρ α
  | .done a => .done a
  | .fail error => .fail error
  | .ask q next => .ask (.inl q) fun r => (next r).alone

-- Promise.all: the results in order, or the error of a member that failed.
def together (members : List (Member Q A κ ρ)) : Crew Q A κ ρ (List ρ) :=
  .ask (.inr members) fun r => match r with
    | .ok results => .done results
    | .error error => .fail error

def Thread.start (main : Crew Q A κ ρ Unit) : Thread Q A κ ρ := ⟨main,[]⟩

inductive Pick (κ : Type) where
  | main
  | member (key : κ)
  | join
  | reject (key : κ)
  | orphan (key : κ)
  deriving DecidableEq, Repr

def results : List (Member Q A κ ρ) → Option (List ρ)
  | [] => some []
  | (_,.done a)::rest => (results rest).map (a :: ·)
  | _::_ => none

abbrev Respond (Q : Type) (A : Q → Type) (W : Type) := (q : Q) → W → Except String (A q) × W

def Script.advance (respond : Respond Q A W) : Script Q A α → W → Option (Script Q A α × W)
  | .ask q next,w => let (r,after) := respond q w; some (next r,after)
  | _,_ => none

variable [DecidableEq κ]

def member (key : κ) : List (Member Q A κ ρ) → Option (Script Q A ρ)
  | [] => none
  | (k,c)::rest => if k = key then some c else member key rest

def replace (key : κ) (c : Script Q A ρ) : List (Member Q A κ ρ) → List (Member Q A κ ρ)
  | [] => []
  | (k,old)::rest => if k = key then (k,c)::rest else (k,old) :: replace key c rest

def Thread.advance (respond : Option κ → Respond Q A W) :
    Pick κ → Thread Q A κ ρ → W → Option (Thread Q A κ ρ × W)
  | .main,⟨.ask (.inl q) next,orphans⟩,w =>
      let (r,after) := respond none q w
      some (⟨next r,orphans⟩,after)
  | .member key,⟨.ask (.inr members) next,orphans⟩,w => do
      let c ← Dialogue.member key members
      let (c,after) ← c.advance (respond (some key)) w
      some (⟨.ask (.inr (replace key c members)) next,orphans⟩,after)
  | .join,⟨.ask (.inr members) next,orphans⟩,w => do
      let all ← results members
      some (⟨next (.ok all),orphans⟩,w)
  | .reject key,⟨.ask (.inr members) next,orphans⟩,w => match Dialogue.member key members with
      | some (.fail error) =>
          some (⟨next (.error error),orphans ++ members.filter fun m => m.1 ≠ key⟩,w)
      | _ => none
  | .orphan key,⟨main,orphans⟩,w => do
      let c ← Dialogue.member key orphans
      let (c,after) ← c.advance (respond (some key)) w
      some (⟨main,replace key c orphans⟩,after)
  | _,_,_ => none

inductive Moved (respond : Option κ → Respond Q A W) (w : W) :
    Pick κ → Thread Q A κ ρ → Thread Q A κ ρ → W → Prop
  | main {q : Q} {next : Except String (A q) → Crew Q A κ ρ Unit}
      {orphans : List (Member Q A κ ρ)} :
      Moved respond w .main ⟨.ask (.inl q) next,orphans⟩
        ⟨next (respond none q w).1,orphans⟩ (respond none q w).2
  | member {key : κ} {members orphans : List (Member Q A κ ρ)} {q : Q}
      {next : Except String (List ρ) → Crew Q A κ ρ Unit}
      {rest : Except String (A q) → Script Q A ρ}
      (found : Dialogue.member key members = some (.ask q rest)) :
      Moved respond w (.member key) ⟨.ask (.inr members) next,orphans⟩
        ⟨.ask (.inr (replace key (rest (respond (some key) q w).1) members)) next,orphans⟩
        (respond (some key) q w).2
  | join {members orphans : List (Member Q A κ ρ)} {all : List ρ}
      {next : Except String (List ρ) → Crew Q A κ ρ Unit} (joined : results members = some all) :
      Moved respond w .join ⟨.ask (.inr members) next,orphans⟩ ⟨next (.ok all),orphans⟩ w
  | reject {key : κ} {members orphans : List (Member Q A κ ρ)} {error : String}
      {next : Except String (List ρ) → Crew Q A κ ρ Unit}
      (failed : Dialogue.member key members = some (.fail error)) :
      Moved respond w (.reject key) ⟨.ask (.inr members) next,orphans⟩
        ⟨next (.error error),orphans ++ members.filter fun m => m.1 ≠ key⟩ w
  | orphan {key : κ} {main : Crew Q A κ ρ Unit} {orphans : List (Member Q A κ ρ)} {q : Q}
      {rest : Except String (A q) → Script Q A ρ}
      (found : Dialogue.member key orphans = some (.ask q rest)) :
      Moved respond w (.orphan key) ⟨main,orphans⟩
        ⟨main,replace key (rest (respond (some key) q w).1) orphans⟩ (respond (some key) q w).2

theorem scriptAdvanced {respond : Respond Q A W} {p c : Script Q A α} {w after : W}
    (h : p.advance respond w = some (c,after)) : ∃ q rest, p = .ask q rest ∧
      c = rest (respond q w).1 ∧ after = (respond q w).2 := by
  cases p with
  | ask q next =>
    cases Option.some.inj h
    exact ⟨q,next,rfl,rfl,rfl⟩
  | done a => contradiction
  | fail error => contradiction

theorem advanceMoved {respond : Option κ → Respond Q A W} {pick : Pick κ}
    {t next : Thread Q A κ ρ} {w after : W} (h : t.advance respond pick w = some (next,after)) :
    Moved respond w pick t next after := by
  unfold Thread.advance at h
  split at h
  · cases Option.some.inj h
    exact .main
  · simp only [bind,Option.bind_eq_some_iff] at h
    obtain ⟨c,found,⟨c',after'⟩,advanced,last⟩ := h
    cases Option.some.inj last
    obtain ⟨q,rest,rfl,rfl,rfl⟩ := scriptAdvanced advanced
    exact .member found
  · simp only [bind,Option.bind_eq_some_iff] at h
    obtain ⟨all,joined,last⟩ := h
    cases Option.some.inj last
    exact .join joined
  · split at h
    next failed =>
      cases Option.some.inj h
      exact .reject failed
    next => contradiction
  · simp only [bind,Option.bind_eq_some_iff] at h
    obtain ⟨c,found,⟨c',after'⟩,advanced,last⟩ := h
    cases Option.some.inj last
    obtain ⟨q,rest,rfl,rfl,rfl⟩ := scriptAdvanced advanced
    exact .orphan found
  · contradiction

theorem memberListed {key : κ} {members : List (Member Q A κ ρ)} {c : Script Q A ρ}
    (h : member key members = some c) : (key,c) ∈ members := by
  induction members with
  | nil => contradiction
  | cons m rest ih =>
    obtain ⟨k,old⟩ := m
    unfold member at h
    split at h
    · rename_i same
      cases Option.some.inj h
      rw [same]
      exact List.mem_cons_self
    · exact List.mem_cons_of_mem _ (ih h)

theorem replaceKeys (key : κ) (c : Script Q A ρ) (members : List (Member Q A κ ρ)) :
    (replace key c members).map Prod.fst = members.map Prod.fst := by
  induction members with
  | nil => rfl
  | cons m rest ih =>
    unfold replace
    split
    · rfl
    · simp only [List.map_cons,ih]

theorem replaceListed {key : κ} {c : Script Q A ρ} {members : List (Member Q A κ ρ)}
    (distinct : (members.map Prod.fst).Nodup) {m : Member Q A κ ρ}
    (h : m ∈ replace key c members) : m = (key,c) ∨ (m.1 ≠ key ∧ m ∈ members) := by
  induction members with
  | nil => contradiction
  | cons first rest ih =>
    obtain ⟨k,old⟩ := first
    simp only [List.map_cons,List.nodup_cons] at distinct
    unfold replace at h
    split at h
    · rename_i same
      rcases List.mem_cons.mp h with rfl | later
      · exact .inl (by rw [same])
      · refine .inr ⟨fun equal => distinct.1 ?_,List.mem_cons_of_mem _ later⟩
        rw [same,← equal]
        exact List.mem_map_of_mem later
    · rename_i other
      rcases List.mem_cons.mp h with rfl | later
      · exact .inr ⟨other,List.mem_cons_self⟩
      · rcases ih distinct.2 later with found | ⟨different,inside⟩
        · exact .inl found
        · exact .inr ⟨different,List.mem_cons_of_mem _ inside⟩

end

end ControlCenter.Dialogue
