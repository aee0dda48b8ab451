import ControlCenter.ActionLogic

/-! Statements on one connection of a transactional store. Any statement may fail, and
its failure may roll the open transaction back by itself. -/
namespace ControlCenter.Transactions
open ActionLogic

structure Fault where
  message : String
  rollsBack : Bool

structure Handle (D : Type) where
  committed : D
  working : Option D
  issued : Nat

abbrev Connection (D : Type) := Action String (Handle D)

variable {D α β : Type}

def Handle.view (h : Handle D) : D := h.working.getD h.committed

def Handle.write (h : Handle D) (d : D) : Handle D := match h.working with
  | some _ => {h with working := some d}
  | none => {h with committed := d}

section
variable (fault : Nat → Option Fault)

def issue (effect : Connection D α) : Connection D α := fun h =>
  let sent := {h with issued := h.issued + 1}
  match fault h.issued with
  | some e => (.error e.message,if e.rollsBack then {sent with working := none} else sent)
  | none => effect sent

def statement (f : D → Except String (α × D)) : Connection D α := issue fault fun h =>
  match f h.view with
  | .ok (a,d) => (.ok a,h.write d)
  | .error e => (.error e,h)

def beginImmediate : Connection D Unit := issue fault fun h => match h.working with
  | none => (.ok (),{h with working := some h.committed})
  | some _ => (.error "SQLITE_ERROR: cannot start a transaction within a transaction",h)

def commit : Connection D Unit := issue fault fun h => match h.working with
  | some d => (.ok (),{h with committed := d,working := none})
  | none => (.error "SQLITE_ERROR: cannot commit - no transaction is active",h)

def rollback : Connection D Unit := issue fault fun h => match h.working with
  | some _ => (.ok (),{h with working := none})
  | none => (.error "SQLITE_ERROR: cannot rollback - no transaction is active",h)

def committing (operation : Connection D α) : Connection D α := do
  let result ← operation
  commit fault
  pure result

-- A failed ROLLBACK is swallowed.
def withImmediateTransaction (operation : Connection D α) : Connection D α := fun h =>
  match beginImmediate fault h with
  | (.error e,h) => (.error e,h)
  | (.ok _,h) => match committing fault operation h with
    | (.ok result,h) => (.ok result,h)
    | (.error e,h) => (.error e,(rollback fault h).2)

end

structure Performs (m : Connection D α) (f : D → Except String (α × D)) : Prop where
  ok : ∀ {h w a h'}, h.working = some w → m h = (.ok a,h') →
    ∃ w', f w = .ok (a,w') ∧ h'.working = some w'
  committed : ∀ {h}, h.working ≠ none → (m h).2.committed = h.committed

section
variable {fault : Nat → Option Fault} {m : Connection D α} {f : D → Except String (α × D)}

theorem Performs.weaken {g : D → Except String (α × D)} (performs : Performs m f)
    (weaker : ∀ w a w', f w = .ok (a,w') → g w = .ok (a,w')) : Performs m g where
  ok inside run := by
    obtain ⟨w',performed,still⟩ := performs.ok inside run
    exact ⟨w',weaker _ _ _ performed,still⟩
  committed := performs.committed

theorem performsPure (a : α) : Performs (pure a : Connection D α) fun w => .ok (a,w) where
  ok inside run := by
    obtain ⟨same,rfl⟩ := Prod.mk.inj run
    cases Except.ok.inj same
    exact ⟨_,rfl,inside⟩
  committed _ := rfl

theorem performsThrow (e : String) : Performs (throw e : Connection D α) f where
  ok _ run := by
    have failed := congrArg Prod.fst run
    contradiction
  committed _ := rfl

theorem performsStatement (f : D → Except String (α × D)) : Performs (statement fault f) f where
  ok {h w a h'} inside run := by
    unfold statement issue at run
    dsimp only at run
    split at run
    · cases (Prod.mk.inj run).1
    have view : ({h with issued := h.issued + 1} : Handle D).view = w := by
      simp [Handle.view,inside]
    rw [view] at run
    split at run
    · rename_i value d effect
      obtain ⟨same,rfl⟩ := Prod.mk.inj run
      cases Except.ok.inj same
      exact ⟨d,effect,by simp [Handle.write,inside]⟩
    · cases (Prod.mk.inj run).1
  committed {h} inside := by
    obtain ⟨w,inside⟩ := Option.ne_none_iff_exists'.mp inside
    unfold statement issue
    dsimp only
    split
    · split <;> rfl
    split
    · simp [Handle.write,inside]
    · rfl

theorem performsBind {k : α → Connection D β} {g : α → D → Except String (β × D)}
    (first : Performs m f) (rest : ∀ a, (∃ w w', f w = .ok (a,w')) → Performs (k a) (g a)) :
    Performs (m >>= k) fun w => f w >>= fun (a,w) => g a w where
  ok {h w b h'} inside run := by
    cases ran : m h with
    | mk outcome middle =>
      cases outcome with
      | error e =>
        rw [runError ran] at run
        cases (Prod.mk.inj run).1
      | ok a =>
        rw [runOk ran] at run
        obtain ⟨w₁,performed,inside⟩ := first.ok inside ran
        obtain ⟨w₂,then_,inside⟩ := (rest a ⟨w,w₁,performed⟩).ok inside run
        exact ⟨w₂,by rw [performed]; exact then_,inside⟩
  committed {h} inside := by
    have kept := first.committed inside
    obtain ⟨w,working⟩ := Option.ne_none_iff_exists'.mp inside
    cases ran : m h with
    | mk outcome middle =>
      rw [ran] at kept
      cases outcome with
      | error e => rwa [runError ran]
      | ok a =>
        obtain ⟨w₁,performed,inside⟩ := first.ok working ran
        rw [runOk ran,← kept]
        exact (rest a ⟨w,w₁,performed⟩).committed (by rw [inside]; exact Option.some_ne_none w₁)

structure Settled (f : D → Except String (α × D)) (h : Handle D)
    (outcome : Except String α × Handle D) : Prop where
  ok : ∀ a, outcome.1 = .ok a →
    h.working = none ∧ f h.committed = .ok (a,outcome.2.committed) ∧ outcome.2.working = none
  error : ∀ e, outcome.1 = .error e → outcome.2.committed = h.committed

theorem rollbackKeeps (h : Handle D) : (rollback fault h).2.committed = h.committed := by
  unfold rollback issue
  dsimp only
  split
  · split <;> rfl
  split <;> rfl

theorem beginSource {h h' : Handle D} (run : beginImmediate fault h = (.ok (),h')) :
    h.working = none ∧ h'.working = some h.committed ∧ h'.committed = h.committed := by
  unfold beginImmediate issue at run
  dsimp only at run
  split at run
  · cases (Prod.mk.inj run).1
  split at run
  · rename_i idle
    obtain ⟨_,rfl⟩ := Prod.mk.inj run
    exact ⟨idle,rfl,rfl⟩
  · cases (Prod.mk.inj run).1

theorem beginKeeps (fault : Nat → Option Fault) (h : Handle D) : (beginImmediate fault h).2.committed = h.committed := by
  unfold beginImmediate issue
  dsimp only
  split
  · split <;> rfl
  split <;> rfl

theorem commitSource {h h' : Handle D} {w : D} (inside : h.working = some w)
    (run : commit fault h = (.ok (),h')) : h'.committed = w ∧ h'.working = none := by
  unfold commit issue at run
  dsimp only at run
  split at run
  · cases (Prod.mk.inj run).1
  rw [inside] at run
  obtain ⟨_,rfl⟩ := Prod.mk.inj run
  exact ⟨rfl,rfl⟩

theorem commitFails {h h' : Handle D} {e : String} (run : commit fault h = (.error e,h')) :
    h'.committed = h.committed := by
  unfold commit issue at run
  dsimp only at run
  split at run
  · obtain ⟨_,rfl⟩ := Prod.mk.inj run
    split <;> rfl
  split at run
  · cases (Prod.mk.inj run).1
  · obtain ⟨_,rfl⟩ := Prod.mk.inj run
    rfl

theorem committingSettles (fault : Nat → Option Fault) (performs : Performs m f) {h : Handle D} {w : D}
    (inside : h.working = some w) :
    (∀ a h', committing fault m h = (.ok a,h') →
      f w = .ok (a,h'.committed) ∧ h'.working = none) ∧
    ∀ e h', committing fault m h = (.error e,h') → h'.committed = h.committed := by
  have kept := performs.committed (h := h) (by rw [inside]; exact Option.some_ne_none w)
  unfold committing
  rcases ran : m h with ⟨e | a,middle⟩
  · rw [ran] at kept
    rw [runError ran]
    refine ⟨fun a h' run => ?_,fun e' h' run => ?_⟩
    · cases (Prod.mk.inj run).1
    · obtain ⟨_,rfl⟩ := Prod.mk.inj run
      exact kept
  · obtain ⟨w',performed,still⟩ := performs.ok inside ran
    rw [ran] at kept
    rw [runOk ran]
    rcases last : commit fault middle with ⟨e | ⟨⟩,done⟩
    · rw [runError last]
      refine ⟨fun a h' run => ?_,fun e' h' run => ?_⟩
      · cases (Prod.mk.inj run).1
      · obtain ⟨_,rfl⟩ := Prod.mk.inj run
        exact (commitFails last).trans kept
    · rw [runOk last]
      obtain ⟨stored,idle⟩ := commitSource still last
      refine ⟨fun a' h' run => ?_,fun e h' run => ?_⟩
      · obtain ⟨same,rfl⟩ := Prod.mk.inj run
        cases Except.ok.inj same
        exact ⟨by rw [stored,performed],idle⟩
      · cases (Prod.mk.inj run).1

theorem transactionSettles (performs : Performs m f) (h : Handle D) :
    Settled f h (withImmediateTransaction fault m h) := by
  unfold withImmediateTransaction
  have untouched := beginKeeps fault h
  rcases began : beginImmediate fault h with ⟨e | ⟨⟩,opened⟩
  · rw [began] at untouched
    exact ⟨fun a run => by contradiction,fun e' _ => untouched⟩
  obtain ⟨idle,inside,same⟩ := beginSource began
  obtain ⟨ok,error⟩ := committingSettles fault performs inside
  dsimp only
  rcases ran : committing fault m opened with ⟨e | a,done⟩
  · refine ⟨fun a run => by contradiction,fun e' _ => ?_⟩
    exact (rollbackKeeps done).trans ((error e done ran).trans same)
  · refine ⟨fun a' run => ?_,fun e run => by contradiction⟩
    cases Except.ok.inj run
    obtain ⟨performed,closed⟩ := ok a done ran
    exact ⟨idle,performed,closed⟩

def Completes (m : Connection D α) (f : D → Except String (α × D)) : Prop :=
  ∀ {h w a w'}, h.working = some w → f w = .ok (a,w') →
    ∃ h', m h = (.ok a,h') ∧ h'.working = some w'

structure Runs (fault : Nat → Option Fault) (m : Connection D α)
    (f : D → Except String (α × D)) : Prop where
  performs : Performs m f
  completes : (∀ n, fault n = none) → Completes m f

theorem Runs.same {g : D → Except String (α × D)} (runs : Runs fault m f)
    (same : ∀ w, f w = g w) : Runs fault m g := by
  have equal : f = g := funext same
  exact equal ▸ runs

theorem runsPure (a : α) : Runs fault (pure a : Connection D α) fun w => .ok (a,w) where
  performs := performsPure a
  completes _ h w b w' inside run := by
    obtain ⟨rfl,rfl⟩ := Prod.mk.inj (Except.ok.inj run)
    exact ⟨h,rfl,inside⟩

theorem runsStatement (f : D → Except String (α × D)) : Runs fault (statement fault f) f where
  performs := performsStatement f
  completes unfailing h w a w' inside run := by
    have view : ({h with issued := h.issued + 1} : Handle D).view = w := by
      simp [Handle.view,inside]
    refine ⟨({h with issued := h.issued + 1} : Handle D).write w',?_,by simp [Handle.write,inside]⟩
    unfold statement issue
    dsimp only
    rw [unfailing]
    dsimp only
    rw [view,run]

theorem runsBind {k : α → Connection D β} {g : α → D → Except String (β × D)}
    (first : Runs fault m f) (rest : ∀ a, Runs fault (k a) (g a)) :
    Runs fault (m >>= k) fun w => f w >>= fun (a,w) => g a w where
  performs := performsBind first.performs fun a _ => (rest a).performs
  completes unfailing h w b w₂ inside run := by
    dsimp only at run
    cases ran : f w with
    | error e =>
      rw [ran] at run
      cases run
    | ok pair =>
      obtain ⟨a,w₁⟩ := pair
      rw [ran] at run
      obtain ⟨h₁,did,inside₁⟩ := first.completes unfailing inside ran
      obtain ⟨h₂,did',inside₂⟩ := (rest a).completes unfailing inside₁ run
      exact ⟨h₂,by rw [runOk did,did'],inside₂⟩

theorem transactionCompletes (unfailing : ∀ n, fault n = none) (completes : Completes m f)
    {h : Handle D} (idle : h.working = none) {a : α} {d : D} (run : f h.committed = .ok (a,d)) :
    (withImmediateTransaction fault m h).1 = .ok a := by
  have began : beginImmediate fault h =
      (.ok (),{h with working := some h.committed,issued := h.issued + 1}) := by
    unfold beginImmediate issue
    dsimp only
    rw [unfailing]
    dsimp only
    rw [idle]
  obtain ⟨h₁,did,inside⟩ := completes
    (h := {h with working := some h.committed,issued := h.issued + 1}) rfl run
  have committed : committing fault m
      {h with working := some h.committed,issued := h.issued + 1} =
      (.ok a,{h₁ with committed := d,working := none,issued := h₁.issued + 1}) := by
    unfold committing
    rw [runOk did]
    have closes : commit fault h₁ =
        (.ok (),{h₁ with committed := d,working := none,issued := h₁.issued + 1}) := by
      unfold commit issue
      dsimp only
      rw [unfailing]
      dsimp only
      rw [inside]
    rw [runOk closes]
    rfl
  unfold withImmediateTransaction
  rw [began]
  dsimp only
  rw [committed]

end

end ControlCenter.Transactions
