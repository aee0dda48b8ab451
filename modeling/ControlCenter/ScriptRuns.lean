import ControlCenter.Reliance

/-! Runs of one script in a world that others move before each of its questions, with
the log of what was asked and answered. -/
namespace ControlCenter.ScriptRuns
open Dialogue Reliance

structure Entry (Q : Type) (A : Q → Type) (W : Type) where
  now : W
  question : Q
  answer : Except String (A question)

structure Environment (Q : Type) (A : Q → Type) (W : Type) where
  moves : W → W → Prop
  answers : (q : Q) → W → Except String (A q) → W → Prop

section
variable {Q R : Type} {A : Q → Type} {B : R → Type} {W α β : Type}

inductive Run (E : Environment Q A W) :
    Script Q A α → W → List (Entry Q A W) → Option (Except String α) → W → Prop
  | left (p : Script Q A α) (w : W) : Run E p w [] none w
  | done (a : α) (w : W) : Run E (.done a) w [] (some (.ok a)) w
  | fail (error : String) (w : W) : Run E (.fail error) w [] (some (.error error)) w
  | ask {q : Q} {next : Except String (A q) → Script Q A α} {w now after last : W}
      {r : Except String (A q)} {log : List (Entry Q A W)} {outcome : Option (Except String α)}
      (moved : E.moves w now) (answered : E.answers q now r after)
      (rest : Run E (next r) after log outcome last) :
      Run E (.ask q next) w (⟨now,q,r⟩::log) outcome last

theorem asksAny (p : Script Q A α) : Asks (fun _ => True) p := by
  induction p with
  | done | fail => trivial
  | ask q next ih => exact ⟨trivial,ih⟩

section
variable {E : Environment Q A W} {p : Script Q A α} {f : α → Script Q A β} {w mid last : W}
  {log front back : List (Entry Q A W)} {a : α} {error : String}

theorem Run.bind {outcome : Option (Except String β)} (first : Run E p w front (some (.ok a)) mid)
    (rest : Run E (f a) mid back outcome last) : Run E (p >>= f) w (front ++ back) outcome last := by
  generalize same : some (Except.ok a) = ended at first
  induction first with
  | left p w => cases same
  | done a' w =>
    cases same
    exact rest
  | fail error w => cases same
  | ask moved answered next ih => exact .ask moved answered (ih rest same)

theorem Run.bindFail (first : Run E p w log (some (.error error)) last) :
    Run E (p >>= f) w log (some (.error error)) last := by
  generalize same : some (Except.error error) = ended at first
  induction first with
  | left p w => cases same
  | done a' w => cases same
  | fail error' w =>
    cases same
    exact .fail _ w
  | ask moved answered next ih => exact .ask moved answered (ih same)

theorem Run.bindLeft (first : Run E p w log none last) : Run E (p >>= f) w log none last := by
  generalize same : none = ended at first
  induction first with
  | left p w => exact .left _ w
  | done a' w => cases same
  | fail error' w => cases same
  | ask moved answered next ih => exact .ask moved answered (ih same)

inductive Split (E : Environment Q A W) (p : Script Q A α) (f : α → Script Q A β) (w : W)
    (log : List (Entry Q A W)) (outcome : Option (Except String β)) (last : W) : Prop
  | first (stopped : outcome = none) (run : Run E p w log none last)
  | failed (error : String) (stopped : outcome = some (.error error))
      (run : Run E p w log (some (.error error)) last)
  | second (a : α) (mid : W) (front back : List (Entry Q A W)) (parts : log = front ++ back)
      (run : Run E p w front (some (.ok a)) mid) (rest : Run E (f a) mid back outcome last)

theorem Run.split {outcome : Option (Except String β)} (run : Run E (p >>= f) w log outcome last) :
    Split E p f w log outcome last := by
  induction p generalizing w log with
  | done a => exact .second a _ [] _ rfl (.done a _) run
  | fail error =>
    cases run with
    | left => exact .first rfl (.left _ _)
    | fail => exact .failed error rfl (.fail error _)
  | ask q next ih =>
    cases run with
    | left => exact .first rfl (.left _ _)
    | ask moved answered later =>
      cases ih _ later with
      | first stopped run => exact .first stopped (.ask moved answered run)
      | failed error stopped run => exact .failed error stopped (.ask moved answered run)
      | second a mid front back parts run rest =>
        subst parts
        exact .second a mid (_::front) back rfl (.ask moved answered run) rest

theorem Run.passed {b : β} (run : Run E (p >>= f) w log (some (.ok b)) last) :
    ∃ a mid front back, log = front ++ back ∧ Run E p w front (some (.ok a)) mid ∧
      Run E (f a) mid back (some (.ok b)) last := by
  cases run.split with
  | first stopped => cases stopped
  | failed error stopped => cases stopped
  | second a mid front back parts run rest => exact ⟨a,mid,front,back,parts,run,rest⟩

theorem Run.parts {outcome : Except String β} (run : Run E (p >>= f) w log (some outcome) last) :
    (∃ error, outcome = .error error ∧ Run E p w log (some (.error error)) last) ∨
    ∃ a mid front back, log = front ++ back ∧ Run E p w front (some (.ok a)) mid ∧
      Run E (f a) mid back (some outcome) last := by
  cases run.split with
  | first stopped => cases stopped
  | failed error stopped run => exact .inl ⟨error,Option.some.inj stopped,run⟩
  | second a mid front back parts run rest => exact .inr ⟨a,mid,front,back,parts,run,rest⟩

theorem Run.called {q : Q} {r : Except String (A q)} (run : Run E (.call q) w log (some r) last) :
    ∃ now, E.moves w now ∧ E.answers q now r last ∧ log = [⟨now,q,r⟩] := by
  generalize same : (Script.call q : Script Q A (A q)) = script at run
  cases run with
  | done => cases same
  | fail => cases same
  | @ask q next w now after last answer log outcome moved answered rest =>
    cases same
    cases answer with
    | error error =>
      have failed : Run E (.fail error : Script Q A (A q)) after log (some r) last := rest
      cases failed
      exact ⟨now,moved,answered,rfl⟩
    | ok a =>
      have ended : Run E (.done a : Script Q A (A q)) after log (some r) last := rest
      cases ended
      exact ⟨now,moved,answered,rfl⟩

theorem Run.attempted {r : Except String (Except String α)}
    (run : Run E p.attempt w log (some r) last) :
    ∃ outcome, r = .ok outcome ∧ Run E p w log (some outcome) last := by
  induction p generalizing w log with
  | done a =>
    cases run
    exact ⟨_,rfl,.done a _⟩
  | fail error =>
    cases run
    exact ⟨_,rfl,.fail error _⟩
  | ask q next ih =>
    cases run with
    | ask moved answered rest =>
      obtain ⟨outcome,same,run⟩ := ih _ rest
      exact ⟨outcome,same,.ask moved answered run⟩

theorem Run.excepted {r : Except String α} (run : Run E (.ofExcept r) w log (some (.ok a)) last) :
    r = .ok a := by
  cases r with
  | error error => cases run
  | ok a =>
    cases run
    rfl

theorem Run.answered {outcome : Option (Except String α)} (run : Run E p w log outcome last) :
    ∀ e ∈ log, ∃ after, E.answers e.question e.now e.answer after := by
  induction run with
  | left | done | fail => simp
  | ask moved answered rest ih =>
    intro e listed
    rcases List.mem_cons.mp listed with rfl | listed
    · exact ⟨_,answered⟩
    · exact ih e listed

theorem Run.keptBy {P : W → Prop} {may : Q → Prop} {outcome : Option (Except String α)}
    (run : Run E p w log outcome last) (asks : Asks may p)
    (moves : ∀ w now, E.moves w now → P w → P now)
    (answers : ∀ q now r after, may q → E.answers q now r after → P now → P after) (start : P w) :
    P last ∧ ∀ e ∈ log, P e.now := by
  induction run with
  | left | done | fail => exact ⟨start,by simp⟩
  | ask moved answered rest ih =>
    have held := moves _ _ moved start
    obtain ⟨ends,all⟩ := ih (asks.2 _) (answers _ _ _ _ asks.1 answered held)
    refine ⟨ends,fun e listed => ?_⟩
    rcases List.mem_cons.mp listed with rfl | listed
    · exact held
    · exact all e listed

theorem Run.kept {P : W → Prop} {outcome : Option (Except String α)}
    (run : Run E p w log outcome last) (moves : ∀ w now, E.moves w now → P w → P now)
    (answers : ∀ q now r after, E.answers q now r after → P now → P after) (start : P w) :
    P last ∧ ∀ e ∈ log, P e.now :=
  run.keptBy (asksAny p) moves (fun q now r after _ => answers q now r after) start

theorem Run.among {F : Environment Q A W} {outcome : Option (Except String α)}
    (run : Run E p w log outcome last) (moves : ∀ w now, E.moves w now → F.moves w now)
    (answers : ∀ q now r after, E.answers q now r after → F.answers q now r after) :
    Run F p w log outcome last := by
  induction run with
  | left p w => exact .left p w
  | done a w => exact .done a w
  | fail error w => exact .fail error w
  | ask moved answered rest ih => exact .ask (moves _ _ moved) (answers _ _ _ _ answered) ih

theorem Run.asked {may : Q → Prop} {outcome : Option (Except String α)}
    (run : Run E p w log outcome last) (asks : Asks may p) : ∀ e ∈ log, may e.question := by
  induction run with
  | left | done | fail => simp
  | ask moved answered rest ih =>
    intro e listed
    rcases List.mem_cons.mp listed with rfl | listed
    · exact asks.1
    · exact ih (asks.2 _) e listed

def Succeeds (may : Q → Prop) (met : (q : Q) → A q → Prop) (post : α → Prop) :
    Script Q A α → Prop
  | .done a => post a
  | .fail _ => False
  | .ask q next => may q ∧ ∀ a, met q a → Succeeds may met post (next (.ok a))

def Entry.Met (met : (q : Q) → A q → Prop) (e : Entry Q A W) : Prop :=
  ∃ a, e.answer = .ok a ∧ met e.question a

theorem Run.succeeds {may : Q → Prop} {met : (q : Q) → A q → Prop} {post : α → Prop}
    {outcome : Except String α} (run : Run E p w log (some outcome) last)
    (all : ∀ e ∈ log, e.Met met) (succeeds : Succeeds may met post p) :
    ∃ a, outcome = .ok a ∧ post a := by
  generalize same : some outcome = ended at run
  induction run with
  | left p w => cases same
  | done a w =>
    cases same
    exact ⟨a,rfl,succeeds⟩
  | fail error w => exact succeeds.elim
  | @ask q next w now after last r log outcome moved answered rest ih =>
    have first : ∃ a, r = .ok a ∧ met q a := all _ List.mem_cons_self
    obtain ⟨a,rfl,known⟩ := first
    exact ih (fun e listed => all e (List.mem_cons_of_mem _ listed)) (succeeds.2 a known) same

def Returns (post : α → Prop) : Script Q A α → Prop
  | .done a => post a
  | .fail _ => True
  | .ask _ next => ∀ r, Returns post (next r)

theorem Run.returns {post : α → Prop} (run : Run E p w log (some (.ok a)) last)
    (returns : Returns post p) : post a := by
  generalize same : some (Except.ok a) = ended at run
  induction run with
  | left p w => cases same
  | done a' w =>
    cases same
    exact returns
  | fail error w => cases same
  | ask moved answered next ih => exact ih (returns _) same

end

section
variable {p : Script Q A α} {f : α → Script Q A β} {post : β → Prop}

theorem returnsAny (p : Script Q A α) : Returns (fun _ => True) p := by
  induction p with
  | done | fail => trivial
  | ask q next ih => exact ih

theorem returnsBind {middle : α → Prop} (first : Returns middle p)
    (rest : ∀ a, middle a → Returns post (f a)) : Returns post (p >>= f) := by
  induction p with
  | done a => exact rest a first
  | fail error => trivial
  | ask q next ih => exact fun r => ih r (first r)

theorem returnsAfter (rest : ∀ a, Returns post (f a)) : Returns post (p >>= f) :=
  returnsBind (returnsAny p) fun a _ => rest a

theorem returnsAlone {κ ρ : Type} {post : α → Prop} (h : Returns post p) :
    Returns post (p.alone : Crew Q A κ ρ α) := by
  induction p with
  | done | fail => exact h
  | ask q next ih => exact fun r => ih r (h r)

section
variable {may : Q → Prop} {met : (q : Q) → A q → Prop}

theorem succeedsBind {M : α → Prop} (first : Succeeds may met M p)
    (rest : ∀ a, M a → Succeeds may met post (f a)) : Succeeds may met post (p >>= f) := by
  induction p with
  | done a => exact rest a first
  | fail error => exact first.elim
  | ask q next ih => exact ⟨first.1,fun a known => ih (.ok a) (first.2 a known)⟩

theorem succeedsCall {q : Q} (asked : may q) : Succeeds may met (met q) (.call q) :=
  ⟨asked,fun _ known => known⟩

theorem succeedsExcept {r : Except String α} (ok : r.isOk = true) :
    Succeeds may met (fun a => r = .ok a) (.ofExcept r) := by
  cases r with
  | error error => cases ok
  | ok a => exact rfl

theorem succeedsAttempt (asks : Asks may p) : Succeeds may met (fun _ => True) p.attempt := by
  induction p with
  | done | fail => trivial
  | ask q next ih => exact ⟨asks.1,fun a _ => ih (.ok a) (asks.2 _)⟩

theorem succeedsAny {post : α → Prop} (h : Succeeds may met post p) :
    Succeeds may met (fun _ => True) p := by
  induction p with
  | done => trivial
  | fail => exact h
  | ask q next ih => exact ⟨h.1,fun a known => ih (.ok a) (h.2 a known)⟩

theorem succeedsAlone {κ ρ : Type} {joint : Joint Q A κ ρ → Prop}
    {met' : (q : Joint Q A κ ρ) → JointAnswer Q A κ ρ q → Prop} {post : α → Prop}
    (each : ∀ q, may q → joint (.inl q)) (known : ∀ q a, met' (.inl q) a → met q a)
    (h : Succeeds may met post p) : Succeeds joint met' post (p.alone : Crew Q A κ ρ α) := by
  induction p with
  | done => exact h
  | fail => exact h
  | ask q next ih => exact ⟨each q h.1,fun a met => ih (.ok a) (h.2 a (known q a met))⟩

end

def Closes (last : Q → Prop) (post : (q : Q) → A q → α → Prop) : Script Q A α → Prop
  | .done _ => False
  | .fail _ => True
  | .ask q next => (last q → ∀ a, ∃ out, next (.ok a) = .done out ∧ post q a out) ∧
      (¬last q → ∀ r, Closes last post (next r))

theorem closesBind {last : Q → Prop} {post : (q : Q) → A q → β → Prop}
    (asks : Asks (fun q => ¬last q) p) (rest : ∀ a, Closes last post (f a)) :
    Closes last post (p >>= f) := by
  induction p with
  | done a => exact rest a
  | fail error => trivial
  | ask q next ih => exact ⟨fun asked => absurd asked asks.1,fun _ r => ih r (asks.2 r)⟩

theorem scriptAssoc {γ : Type} {g : β → Script Q A γ} :
    (p >>= f) >>= g = p >>= fun a => f a >>= g := by
  induction p with
  | done a => rfl
  | fail error => rfl
  | ask q next ih =>
    show Script.ask _ _ = Script.ask _ _
    congr 1
    funext r
    exact ih r

theorem aloneBind {κ ρ : Type} : ((p >>= f).alone : Crew Q A κ ρ β) =
    p.alone >>= fun a => (f a).alone := by
  induction p with
  | done a => rfl
  | fail error => rfl
  | ask q next ih =>
    show Script.ask _ _ = Script.ask _ _
    congr 1
    funext r
    exact ih r

theorem asksAlone {κ ρ : Type} {may : Q → Prop} {joint : Joint Q A κ ρ → Prop}
    (each : ∀ q, may q → joint (.inl q)) (h : Asks may p) :
    Asks joint (p.alone : Crew Q A κ ρ α) := by
  induction p with
  | done | fail => trivial
  | ask q next ih => exact ⟨each q h.1,fun r => ih r (h.2 r)⟩

end

def solo {κ ρ : Type} (E : Environment (Joint Q A κ ρ) (JointAnswer Q A κ ρ) W) :
    Environment Q A W where
  moves := E.moves
  answers q := E.answers (.inl q)

def Entry.alone {κ ρ : Type} (e : Entry Q A W) : Entry (Joint Q A κ ρ) (JointAnswer Q A κ ρ) W :=
  ⟨e.now,.inl e.question,e.answer⟩

theorem Run.solo {κ ρ : Type} {E : Environment (Joint Q A κ ρ) (JointAnswer Q A κ ρ) W}
    {p : Script Q A α} {w last : W} {log : List (Entry (Joint Q A κ ρ) (JointAnswer Q A κ ρ) W)}
    {outcome : Option (Except String α)} (run : Run E p.alone w log outcome last) :
    ∃ own, log = own.map Entry.alone ∧ Run (solo E) p w own outcome last := by
  induction p generalizing w log with
  | done a => cases run <;> exact ⟨[],rfl,by constructor⟩
  | fail error => cases run <;> exact ⟨[],rfl,by constructor⟩
  | ask q next ih =>
    cases run with
    | left => exact ⟨[],rfl,.left _ _⟩
    | ask moved answered rest =>
      obtain ⟨own,rfl,run⟩ := ih _ rest
      exact ⟨_::own,rfl,.ask moved answered run⟩

def within : Script Q A α → Script (Q ⊕ R) (Sum.elim A B) α
  | .done a => .done a
  | .fail error => .fail error
  | .ask q next => .ask (.inl q) fun r => within (next r)

section
variable {p : Script Q A α} {f : α → Script Q A β}

theorem withinBind : (within (p >>= f) : Script (Q ⊕ R) (Sum.elim A B) β) =
    within p >>= fun a => within (f a) := by
  induction p with
  | done a => rfl
  | fail error => rfl
  | ask q next ih =>
    show Script.ask _ _ = Script.ask _ _
    congr 1
    funext r
    exact ih r

theorem returnsWithin {post : α → Prop} (h : Returns post p) :
    Returns post (within p : Script (Q ⊕ R) (Sum.elim A B) α) := by
  induction p with
  | done | fail => exact h
  | ask q next ih => exact fun r => ih r (h r)

theorem succeedsWithin {may : Q → Prop} {met : (q : Q) → A q → Prop} {either : Q ⊕ R → Prop}
    {met' : (q : Q ⊕ R) → Sum.elim A B q → Prop} {post : α → Prop}
    (each : ∀ q, may q → either (.inl q)) (known : ∀ q a, met' (.inl q) a → met q a)
    (h : Succeeds may met post p) :
    Succeeds either met' post (within p : Script (Q ⊕ R) (Sum.elim A B) α) := by
  induction p with
  | done => exact h
  | fail => exact h
  | ask q next ih => exact ⟨each q h.1,fun a met => ih (.ok a) (h.2 a (known q a met))⟩

theorem asksWithin {may : Q → Prop} {either : Q ⊕ R → Prop} (each : ∀ q, may q → either (.inl q))
    (h : Asks may p) : Asks either (within p : Script (Q ⊕ R) (Sum.elim A B) α) := by
  induction p with
  | done | fail => trivial
  | ask q next ih => exact ⟨each q h.1,fun r => ih r (h.2 r)⟩

end

def play (respond : Respond Q A W) : Nat → Script Q A α → W →
    List (Entry Q A W) × Option (Except String α) × W
  | _,.done a,w => ([],some (.ok a),w)
  | _,.fail error,w => ([],some (.error error),w)
  | 0,.ask _ _,w => ([],none,w)
  | n + 1,.ask q next,w =>
      let rest := play respond n (next (respond q w).1) (respond q w).2
      (⟨w,q,(respond q w).1⟩::rest.1,rest.2)

theorem playMet {E : Environment Q A W} {respond : Respond Q A W} (still : ∀ w, E.moves w w) (n : Nat)
    (p : Script Q A α) (w : W) (agrees : ∀ e ∈ (play respond n p w).1, E.answers e.question e.now
      (respond e.question e.now).1 (respond e.question e.now).2) :
    Run E p w (play respond n p w).1 (play respond n p w).2.1 (play respond n p w).2.2 := by
  induction n generalizing p w with
  | zero =>
    cases p with
    | done a => exact .done a w
    | fail error => exact .fail error w
    | ask q next => exact .left _ w
  | succ n ih =>
    cases p with
    | done a => exact .done a w
    | fail error => exact .fail error w
    | ask q next =>
      obtain ⟨first,rest⟩ := List.forall_mem_cons.mp agrees
      exact .ask (still w) first (ih _ _ rest)

theorem playRuns {E : Environment Q A W} {respond : Respond Q A W} (still : ∀ w, E.moves w w)
    (agrees : ∀ q w, E.answers q w (respond q w).1 (respond q w).2) (n : Nat)
    (p : Script Q A α) (w : W) :
    Run E p w (play respond n p w).1 (play respond n p w).2.1 (play respond n p w).2.2 :=
  playMet still n p w fun e _ => agrees e.question e.now

end

end ControlCenter.ScriptRuns
