import ControlCenter.Dialogue

/-! Rely and guarantee for threads over one world. An actor is a thread or a member of
its group; what it may ask in a world is its guarantee. A program is safe when whatever
the other actors do in between, it only asks what it may. -/
namespace ControlCenter.Reliance
open Dialogue

structure Actor (ν κ : Type) where
  thread : ν
  member : Option κ
  deriving DecidableEq

structure Setting (Q : Type) (A : Q → Type) (W ν κ : Type) where
  allowed : Actor ν κ → Q → W → Prop
  answers : Actor ν κ → (q : Q) → W → Except String (A q) → W → Prop

variable {Q : Type} {A : Q → Type} {W ν κ ρ α β : Type} (S : Setting Q A W ν κ)

def Acts (i : Actor ν κ) (w after : W) : Prop :=
  ∃ q r, S.allowed i q w ∧ S.answers i q w r after

def Steps (who : Actor ν κ → Prop) : W → W → Prop :=
  Relation.ReflTransGen fun w after => ∃ i, who i ∧ Acts S i w after

def outside (n : ν) (i : Actor ν κ) : Prop := i.thread ≠ n

def besides (n : ν) (k : κ) (i : Actor ν κ) : Prop :=
  i.thread ≠ n ∨ ∃ k', k' ≠ k ∧ i = ⟨n,some k'⟩

def during (n : ν) (keys : List κ) (i : Actor ν κ) : Prop :=
  i.thread ≠ n ∨ ∃ k ∈ keys, i = ⟨n,some k⟩

section
variable {S} {who : Actor ν κ → Prop} {w after : W}

theorem stepsRefl : Steps S who w w := .refl

theorem stepsOne {i : Actor ν κ} (member : who i) (acts : Acts S i w after) :
    Steps S who w after := .single ⟨i,member,acts⟩

theorem stepsTrans {last : W} (front : Steps S who w after) (back : Steps S who after last) :
    Steps S who w last := front.trans back

theorem stepsMono {others : Actor ν κ → Prop} (sub : ∀ i, who i → others i)
    (h : Steps S who w after) : Steps S others w after :=
  Relation.ReflTransGen.mono (fun _ _ ⟨i,member,acts⟩ => ⟨i,sub i member,acts⟩) _ _ h

def Stable (S : Setting Q A W ν κ) (who : Actor ν κ → Prop) (P : W → Prop) : Prop :=
  ∀ i, who i → ∀ w after, Acts S i w after → P w → P after

theorem stableSteps {P : W → Prop} (stable : Stable S who P) (steps : Steps S who w after)
    (h : P w) : P after := by
  induction steps with
  | refl => exact h
  | tail _ step ih =>
    obtain ⟨i,member,acts⟩ := step
    exact stable i member _ _ acts ih

end

def Safe (who : Actor ν κ → Prop) (i : Actor ν κ) :
    Script Q A α → (Except String α → W → Prop) → W → Prop
  | .done a,post,w => ∀ after, Steps S who w after → post (.ok a) after
  | .fail error,post,w => ∀ after, Steps S who w after → post (.error error) after
  | .ask q next,post,w => ∀ now, Steps S who w now → S.allowed i q now ∧
      ∀ r after, S.answers i q now r after → Safe who i (next r) post after

section
variable {S} {who : Actor ν κ → Prop} {i : Actor ν κ}

theorem safeStable {p : Script Q A α} {post : Except String α → W → Prop} {w after : W}
    (safe : Safe S who i p post w) (steps : Steps S who w after) :
    Safe S who i p post after := by
  cases p with
  | done a => exact fun last more => safe last (stepsTrans steps more)
  | fail error => exact fun last more => safe last (stepsTrans steps more)
  | ask q next => exact fun now more => safe now (stepsTrans steps more)

theorem safeBind {p : Script Q A α} {f : α → Script Q A β} {post : Except String β → W → Prop}
    {w : W} (safe : Safe S who i p (fun r after => match r with
      | .ok a => Safe S who i (f a) post after
      | .error error => post (.error error) after) w) : Safe S who i (p >>= f) post w := by
  induction p generalizing w with
  | done a => exact safe w stepsRefl
  | fail error => exact safe
  | ask q next ih =>
    intro now steps
    obtain ⟨may,rest⟩ := safe now steps
    exact ⟨may,fun r after answered => ih r (rest r after answered)⟩

theorem safeAttempt {p : Script Q A α} {post : Except String (Except String α) → W → Prop}
    {w : W} (safe : Safe S who i p (fun r => post (.ok r)) w) :
    Safe S who i p.attempt post w := by
  induction p generalizing w with
  | done a => exact safe
  | fail error => exact safe
  | ask q next ih =>
    intro now steps
    obtain ⟨may,rest⟩ := safe now steps
    exact ⟨may,fun r after answered => ih r (rest r after answered)⟩

theorem safeMono {p : Script Q A α} {post post' : Except String α → W → Prop} {w : W}
    (safe : Safe S who i p post w) (weaker : ∀ r after, post r after → post' r after) :
    Safe S who i p post' w := by
  induction p generalizing w with
  | done a => exact fun last steps => weaker _ _ (safe last steps)
  | fail error => exact fun last steps => weaker _ _ (safe last steps)
  | ask q next ih =>
    intro now steps
    obtain ⟨may,rest⟩ := safe now steps
    exact ⟨may,fun r after answered => ih r (rest r after answered)⟩

section Rules
variable {P : W → Prop}

theorem safeDone (stable : Stable S who P) {a : α} {post : Except String α → W → Prop}
    (implies : ∀ after, P after → post (.ok a) after) {w : W} (h : P w) :
    Safe S who i (.done a) post w := fun _ steps => implies _ (stableSteps stable steps h)

theorem safeFail (stable : Stable S who P) {error : String}
    {post : Except String α → W → Prop}
    (implies : ∀ after, P after → post (.error error) after) {w : W} (h : P w) :
    Safe S who i (.fail error) post w := fun _ steps => implies _ (stableSteps stable steps h)

theorem safeAsk (stable : Stable S who P) {q : Q} {next : Except String (A q) → Script Q A α}
    {post : Except String α → W → Prop} (may : ∀ now, P now → S.allowed i q now)
    (rest : ∀ now r after, P now → S.answers i q now r after →
      Safe S who i (next r) post after) {w : W} (h : P w) :
    Safe S who i (.ask q next) post w := fun now steps =>
  have held := stableSteps stable steps h
  ⟨may now held,fun r after answered => rest now r after held answered⟩

theorem safeCall (stable : Stable S who P) {q : Q} {post : Except String (A q) → W → Prop}
    (may : ∀ now, P now → S.allowed i q now)
    (rest : ∀ now r after last, P now → S.answers i q now r after →
      Steps S who after last → post r last) {w : W} (h : P w) :
    Safe S who i (Script.call q) post w :=
  safeAsk stable may (fun now r after held answered => by
    cases r with
    | ok a => exact fun last steps => rest now _ after last held answered steps
    | error error => exact fun last steps => rest now _ after last held answered steps) h

end Rules

def Asks (may : Q → Prop) : Script Q A α → Prop
  | .done _ | .fail _ => True
  | .ask q next => may q ∧ ∀ r, Asks may (next r)

section Asks
variable {may : Q → Prop}

theorem asksBind {p : Script Q A α} {f : α → Script Q A β} (first : Asks may p)
    (rest : ∀ a, Asks may (f a)) : Asks may (p >>= f) := by
  induction p with
  | done a => exact rest a
  | fail error => trivial
  | ask q next ih => exact ⟨first.1,fun r => ih r (first.2 r)⟩

theorem asksAttempt {p : Script Q A α} (h : Asks may p) : Asks may p.attempt := by
  induction p with
  | done a => trivial
  | fail error => trivial
  | ask q next ih => exact ⟨h.1,fun r => ih r (h.2 r)⟩

theorem asksExcept (r : Except String α) : Asks may (Script.ofExcept r : Script Q A α) := by
  cases r <;> trivial

theorem asksCall {q : Q} (h : may q) : Asks may (Script.call q : Script Q A (A q)) :=
  ⟨h,fun r => asksExcept r⟩

theorem asksDone (a : α) : Asks may (Script.done a : Script Q A α) := trivial

theorem asksFail (error : String) : Asks may (Script.fail error : Script Q A α) := trivial

theorem asksMono {may' : Q → Prop} (weaker : ∀ q, may q → may' q) {p : Script Q A α}
    (h : Asks may p) : Asks may' p := by
  induction p with
  | done a => trivial
  | fail error => trivial
  | ask q next ih => exact ⟨weaker q h.1,fun r => ih r (h.2 r)⟩

theorem safeAsks {P : W → Prop} (stable : Stable S who P)
    (keeps : ∀ q, may q → ∀ now, P now → S.allowed i q now ∧
      ∀ r after, S.answers i q now r after → P after)
    {p : Script Q A α} (h : Asks may p) {w : W} (held : P w) :
    Safe S who i p (fun _ => P) w := by
  induction p generalizing w with
  | done a => exact safeDone stable (fun _ h => h) held
  | fail error => exact safeFail stable (fun _ h => h) held
  | ask q next ih =>
    exact safeAsk stable (fun now hp => (keeps q h.1 now hp).1)
      (fun now r after hp answered => ih r (h.2 r) ((keeps q h.1 now hp).2 r after answered)) held

end Asks

end

section Crews
variable (n : ν)

def SafeCrew : Crew Q A κ ρ α → (Except String α → W → Prop) → W → Prop
  | .done a,post,w => ∀ after, Steps S (outside n) w after → post (.ok a) after
  | .fail error,post,w => ∀ after, Steps S (outside n) w after → post (.error error) after
  | .ask (.inl q) next,post,w => ∀ now, Steps S (outside n) w now → S.allowed ⟨n,none⟩ q now ∧
      ∀ r after, S.answers ⟨n,none⟩ q now r after → SafeCrew (next r) post after
  | .ask (.inr members) next,post,w => (members.map Prod.fst).Nodup ∧
      (∃ promise : κ → Except String ρ → W → Prop,
        (∀ m ∈ members, Safe S (besides n m.1) ⟨n,some m.1⟩ m.2 (promise m.1) w) ∧
        ∀ after all, Steps S (during n (members.map Prod.fst)) w after →
          List.Forall₂ (fun k r => promise k (.ok r) after) (members.map Prod.fst) all →
          SafeCrew (next (.ok all)) post after) ∧
      ∀ error, ∃ error', next (.error error) = .fail error'

variable {S n}

theorem crewStable {p : Crew Q A κ ρ α} {post : Except String α → W → Prop} {w after : W}
    (safe : SafeCrew S n p post w) (steps : Steps S (outside n) w after) :
    SafeCrew S n p post after := by
  cases p with
  | done a => exact fun last more => safe last (stepsTrans steps more)
  | fail error => exact fun last more => safe last (stepsTrans steps more)
  | ask q next =>
    cases q with
    | inl q => exact fun now more => safe now (stepsTrans steps more)
    | inr members =>
      obtain ⟨distinct,⟨promise,each,continues⟩,rejects⟩ := safe
      refine ⟨distinct,⟨promise,fun m hm => ?_,fun last all more results => ?_⟩,rejects⟩
      · exact safeStable (each m hm) (stepsMono (fun _ h => .inl h) steps)
      · exact continues last all (stepsTrans (stepsMono (fun _ h => .inl h) steps) more) results

theorem crewBind {p : Crew Q A κ ρ α} {f : α → Crew Q A κ ρ β}
    {post : Except String β → W → Prop} {w : W}
    (safe : SafeCrew S n p (fun r after => match r with
      | .ok a => SafeCrew S n (f a) post after
      | .error error => post (.error error) after) w) :
    SafeCrew S n (p >>= f) post w := by
  induction p generalizing w with
  | done a => exact safe w stepsRefl
  | fail error => exact safe
  | ask q next ih =>
    cases q with
    | inl q =>
      intro now steps
      obtain ⟨may,rest⟩ := safe now steps
      exact ⟨may,fun r after answered => ih r (rest r after answered)⟩
    | inr members =>
      obtain ⟨distinct,⟨promise,each,continues⟩,rejects⟩ := safe
      refine ⟨distinct,⟨promise,each,fun last all more results => ?_⟩,fun error => ?_⟩
      · exact ih _ (continues last all more results)
      · obtain ⟨error',inert⟩ := rejects error
        refine ⟨error',?_⟩
        show (next (.error error)).bind f = .fail error'
        rw [inert]
        rfl

theorem crewAlone {p : Script Q A α} {post : Except String α → W → Prop} {w : W}
    (safe : Safe S (outside n) ⟨n,none⟩ p post w) :
    SafeCrew S n (p.alone : Crew Q A κ ρ α) post w := by
  induction p generalizing w with
  | done a => exact safe
  | fail error => exact safe
  | ask q next ih =>
    intro now steps
    obtain ⟨may,rest⟩ := safe now steps
    exact ⟨may,fun r after answered => ih r (rest r after answered)⟩

theorem crewMono {p : Crew Q A κ ρ α} {post post' : Except String α → W → Prop} {w : W}
    (safe : SafeCrew S n p post w) (weaker : ∀ r after, post r after → post' r after) :
    SafeCrew S n p post' w := by
  induction p generalizing w with
  | done a => exact fun last steps => weaker _ _ (safe last steps)
  | fail error => exact fun last steps => weaker _ _ (safe last steps)
  | ask q next ih =>
    cases q with
    | inl q =>
      intro now steps
      obtain ⟨may,rest⟩ := safe now steps
      exact ⟨may,fun r after answered => ih r (rest r after answered)⟩
    | inr members =>
      obtain ⟨distinct,⟨promise,each,continues⟩,rejects⟩ := safe
      exact ⟨distinct,⟨promise,each,fun last all more results =>
        ih _ (continues last all more results)⟩,rejects⟩

theorem crewTogether {members : List (Member Q A κ ρ)} {f : List ρ → Crew Q A κ ρ α}
    (distinct : (members.map Prod.fst).Nodup) {promise : κ → Except String ρ → W → Prop}
    {post : Except String α → W → Prop} {w : W}
    (each : ∀ m ∈ members, Safe S (besides n m.1) ⟨n,some m.1⟩ m.2 (promise m.1) w)
    (continues : ∀ after all, Steps S (during n (members.map Prod.fst)) w after →
      List.Forall₂ (fun k r => promise k (.ok r) after) (members.map Prod.fst) all →
      SafeCrew S n (f all) post after) : SafeCrew S n (together members >>= f) post w :=
  ⟨distinct,⟨promise,each,continues⟩,fun error => ⟨error,rfl⟩⟩

end Crews

section Threads
variable {S} {n : ν} [DecidableEq κ]

inductive Good (S : Setting Q A W ν κ) (n : ν) : Thread Q A κ ρ → W → Prop
  | working {main : Crew Q A κ ρ Unit} {w : W}
      (safe : SafeCrew S n main (fun _ _ => True) w) : Good S n ⟨main,[]⟩ w
  | abandoned {error : String} {orphans : List (Member Q A κ ρ)} {w : W}
      (distinct : (orphans.map Prod.fst).Nodup)
      (each : ∀ m ∈ orphans, Safe S (besides n m.1) ⟨n,some m.1⟩ m.2 (fun _ _ => True) w) :
      Good S n ⟨.fail error,orphans⟩ w

omit [DecidableEq κ] in
theorem goodStable {t : Thread Q A κ ρ} {w after : W} (good : Good S n t w)
    (steps : Steps S (outside n) w after) : Good S n t after := by
  cases good with
  | working safe => exact .working (crewStable safe steps)
  | abandoned distinct each =>
    exact .abandoned distinct fun m hm =>
      safeStable (each m hm) (stepsMono (fun _ h => .inl h) steps)

def asked : Pick κ → Thread Q A κ ρ → Option (Option κ × Q)
  | .main,⟨.ask (.inl q) _,_⟩ => some (none,q)
  | .member key,⟨.ask (.inr members) _,_⟩ => match member key members with
      | some (.ask q _) => some (some key,q)
      | _ => none
  | .orphan key,⟨_,orphans⟩ => match member key orphans with
      | some (.ask q _) => some (some key,q)
      | _ => none
  | _,_ => none

theorem askedMember {key : κ} {members : List (Member Q A κ ρ)} {q : Q}
    {rest : Except String (A q) → Script Q A ρ}
    {next : Except String (List ρ) → Crew Q A κ ρ Unit} {orphans : List (Member Q A κ ρ)}
    (found : member key members = some (.ask q rest)) :
    asked (.member key) ⟨.ask (.inr members) next,orphans⟩ = some (some key,q) := by
  simp only [asked,found]

theorem askedOrphan {key : κ} {main : Crew Q A κ ρ Unit} {orphans : List (Member Q A κ ρ)}
    {q : Q} {rest : Except String (A q) → Script Q A ρ}
    (found : member key orphans = some (.ask q rest)) :
    asked (.orphan key) ⟨main,orphans⟩ = some (some key,q) := by
  simp only [asked,found]

theorem goodAsked {t : Thread Q A κ ρ} {w : W} (good : Good S n t w) {pick : Pick κ}
    {k : Option κ} {q : Q} (h : asked pick t = some (k,q)) : S.allowed ⟨n,k⟩ q w := by
  unfold asked at h
  split at h
  · cases good with
    | working safe =>
      cases Option.some.inj h
      exact (safe w stepsRefl).1
  · cases good with
    | working safe =>
      split at h
      · rename_i found
        cases Option.some.inj h
        obtain ⟨_,⟨promise,each,_⟩,_⟩ := safe
        exact (each _ (memberListed found) w stepsRefl).1
      · contradiction
  · split at h
    · rename_i found
      cases Option.some.inj h
      cases good with
      | working safe => contradiction
      | abandoned distinct each => exact (each _ (memberListed found) w stepsRefl).1
    · contradiction
  · contradiction

omit [DecidableEq κ] in
theorem advanced {i : Actor ν κ} {who : Actor ν κ → Prop} {respond : Respond Q A W}
    {p c : Script Q A α} {post : Except String α → W → Prop} {w after : W}
    (answers : ∀ q next, p = .ask q next → S.answers i q w (respond q w).1 (respond q w).2)
    (safe : Safe S who i p post w) (h : p.advance respond w = some (c,after)) :
    Safe S who i c post after ∧ Acts S i w after := by
  cases p with
  | done a => contradiction
  | fail error => contradiction
  | ask q next =>
    cases Option.some.inj h
    obtain ⟨may,rest⟩ := safe w stepsRefl
    exact ⟨rest _ _ (answers q _ rfl),q,_,may,answers q _ rfl⟩

omit [DecidableEq κ] in
theorem resultsDone {members : List (Member Q A κ ρ)} {all : List ρ}
    (h : results members = some all) {P : κ → ρ → Prop}
    (each : ∀ m ∈ members, ∀ r, m.2 = .done r → P m.1 r) :
    List.Forall₂ P (members.map Prod.fst) all := by
  induction members generalizing all with
  | nil => cases Option.some.inj h; exact .nil
  | cons m rest ih =>
    obtain ⟨k,c⟩ := m
    cases c with
    | done r =>
      obtain ⟨tail,found,rfl⟩ := Option.map_eq_some_iff.mp h
      exact .cons (each _ List.mem_cons_self r rfl)
        (ih found fun m hm => each m (List.mem_cons_of_mem _ hm))
    | fail _ => contradiction
    | ask _ _ => contradiction

theorem membersStep (promise : κ → Except String ρ → W → Prop)
    {members : List (Member Q A κ ρ)} {key : κ} {c : Script Q A ρ} {w after : W}
    (distinct : (members.map Prod.fst).Nodup)
    (each : ∀ m ∈ members, Safe S (besides n m.1) ⟨n,some m.1⟩ m.2 (promise m.1) w)
    (moved : Safe S (besides n key) ⟨n,some key⟩ c (promise key) after)
    (acts : Acts S ⟨n,some key⟩ w after) :
    ∀ m ∈ replace key c members,
      Safe S (besides n m.1) ⟨n,some m.1⟩ m.2 (promise m.1) after := by
  intro m hm
  rcases replaceListed distinct hm with rfl | ⟨other,old⟩
  · exact moved
  · exact safeStable (each m old) (stepsOne (.inr ⟨key,fun same => other same.symm,rfl⟩) acts)

theorem goodStep {respond : Option κ → Respond Q A W}
    {t next : Thread Q A κ ρ} {w after : W} {pick : Pick κ}
    (answers : ∀ k q, asked pick t = some (k,q) →
      S.answers ⟨n,k⟩ q w (respond k q w).1 (respond k q w).2) (good : Good S n t w)
    (h : t.advance respond pick w = some (next,after)) :
    Good S n next after ∧ (after = w ∨ ∃ k, Acts S ⟨n,k⟩ w after) := by
  unfold Thread.advance at h
  split at h
  · cases Option.some.inj h
    cases good with
    | working safe =>
      obtain ⟨may,rest⟩ := safe w stepsRefl
      exact ⟨.working (rest _ _ (answers none _ rfl)),
        .inr ⟨none,_,_,may,answers none _ rfl⟩⟩
  · cases good with
    | working safe =>
      obtain ⟨distinct,⟨promise,each,continues⟩,rejects⟩ := safe
      simp only [bind,Option.bind_eq_some_iff] at h
      obtain ⟨c,found,moved,step,last⟩ := h
      obtain ⟨c',after'⟩ := moved
      cases Option.some.inj last
      obtain ⟨safe',acts⟩ := advanced (fun q _ asking => answers (some _) q
        (askedMember (found.trans (congrArg some asking)))) (each _ (memberListed found)) step
      refine ⟨.working ⟨?_,⟨promise,membersStep promise distinct each safe' acts,
        fun later all steps kept => ?_⟩,rejects⟩,.inr ⟨_,acts⟩⟩
      · rwa [replaceKeys]
      · rw [replaceKeys] at steps kept
        refine continues later all (stepsTrans (stepsOne (.inr ⟨_,?_,rfl⟩) acts) steps) kept
        exact List.mem_map_of_mem (memberListed found)
  · cases good with
    | working safe =>
      obtain ⟨distinct,⟨promise,each,continues⟩,rejects⟩ := safe
      simp only [bind,Option.bind_eq_some_iff] at h
      obtain ⟨all,joined,last⟩ := h
      cases Option.some.inj last
      refine ⟨.working (continues w all stepsRefl (resultsDone joined ?_)),.inl rfl⟩
      intro m hm r finished
      have safe := each m hm
      rw [finished] at safe
      exact safe w stepsRefl
  · cases good with
    | working safe =>
      obtain ⟨distinct,⟨promise,each,continues⟩,rejects⟩ := safe
      split at h
      · cases Option.some.inj h
        obtain ⟨error',inert⟩ := rejects _
        rw [inert,List.nil_append]
        refine ⟨.abandoned (distinct.sublist (List.filter_sublist.map _)) fun m hm => ?_,.inl rfl⟩
        exact safeMono (each m (List.mem_of_mem_filter hm)) fun _ _ _ => trivial
      · contradiction
  · simp only [bind,Option.bind_eq_some_iff] at h
    obtain ⟨c,found,moved,step,last⟩ := h
    obtain ⟨c',after'⟩ := moved
    cases Option.some.inj last
    cases good with
    | working safe => contradiction
    | abandoned distinct each =>
      obtain ⟨safe',acts⟩ := advanced (fun q _ asking => answers (some _) q
        (askedOrphan (found.trans (congrArg some asking)))) (each _ (memberListed found)) step
      refine ⟨.abandoned (by rwa [replaceKeys]) ?_,.inr ⟨_,acts⟩⟩
      exact membersStep (fun _ _ _ => True) distinct each safe' acts
  · contradiction

omit S in
theorem advanceWorld {respond : Option κ → Respond Q A W} {t next : Thread Q A κ ρ}
    {w after : W} {pick : Pick κ} (h : t.advance respond pick w = some (next,after)) :
    (asked pick t = none ∧ after = w) ∨
      ∃ k q, asked pick t = some (k,q) ∧ after = (respond k q w).2 := by
  unfold Thread.advance at h
  split at h
  · cases Option.some.inj h
    exact .inr ⟨none,_,rfl,rfl⟩
  · simp only [bind,Option.bind_eq_some_iff] at h
    obtain ⟨c,found,⟨c',after'⟩,step,last⟩ := h
    cases Option.some.inj last
    cases c with
    | done _ => contradiction
    | fail _ => contradiction
    | ask q rest =>
      cases Option.some.inj step
      exact .inr ⟨some _,q,askedMember found,rfl⟩
  · simp only [bind,Option.bind_eq_some_iff] at h
    obtain ⟨all,_,last⟩ := h
    cases Option.some.inj last
    exact .inl ⟨rfl,rfl⟩
  · split at h
    · cases Option.some.inj h
      exact .inl ⟨rfl,rfl⟩
    · contradiction
  · simp only [bind,Option.bind_eq_some_iff] at h
    obtain ⟨c,found,⟨c',after'⟩,step,last⟩ := h
    cases Option.some.inj last
    cases c with
    | done _ => contradiction
    | fail _ => contradiction
    | ask q rest =>
      cases Option.some.inj step
      exact .inr ⟨some _,q,askedOrphan found,rfl⟩
  · contradiction

end Threads

end ControlCenter.Reliance
