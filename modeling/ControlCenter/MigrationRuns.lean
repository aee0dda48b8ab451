import ControlCenter.Migrations

/-! What a step of a runner does, and what follows for every run: migrations are applied
once, in order and as a whole, and the row counts of a migration are those of its own
transaction when nobody commits between the counts and the lock. -/
namespace ControlCenter.Migrations
open RunLogic

section
variable {D : Type} {s : Store D} {runner : Nat}

def Phase.inside : Phase D → Bool
  | .rechecking _ | .skipping _ _ | .upgrading _ _ | .versioning _ | .guarding _ | .committing _ _
  | .rollingBack _ => true
  | _ => false

def Phase.pending : Phase D → List (Migration D)
  | .listing pending _ | .counting pending _ _ _ | .migrating pending _ _ => pending
  | .beginning a | .rechecking a | .upgrading a _ | .versioning a | .guarding a
  | .committing a _ => a.migration::a.rest
  | .skipping a _ | .checking a _ => a.rest
  | _ => []

def Owns (s : Store D) (runner : Nat) : Prop := ∃ t, s.transaction = some t ∧ t.owner = runner

structure Held (F : Phase D → Transaction D → Prop) (s : Store D) : Prop where
  owned : ∀ runner, (s.runners runner).inside = true → Owns s runner
  based : ∀ t, s.transaction = some t → t.base = s.committed ∧ F (s.runners t.owner) t

@[simp] theorem toRunners (phase : Phase D) (other : Nat) :
    (s.to runner phase).runners other = if other = runner then phase else s.runners other := by
  simp [Store.to,Function.update_apply]

theorem heldWalks {F : Phase D → Transaction D → Prop} {phase : Phase D} (held : Held F s)
    (inside : phase.inside = true → Owns s runner)
    (fact : ∀ t, s.transaction = some t → t.owner = runner → F phase t) :
    Held F (s.to runner phase) where
  owned other isInside := by
    rw [toRunners] at isInside
    split at isInside
    next same =>
      subst same
      exact inside isInside
    next => exact held.owned other isInside
  based t known := by
    refine ⟨(held.based t known).1,?_⟩
    rw [toRunners]
    split
    next same => exact fact t known same
    next => exact (held.based t known).2

theorem heldLeaves {F : Phase D → Transaction D → Prop} {phase : Phase D} (held : Held F s)
    (outside : phase.inside = false) (fact : ∀ t, F phase t) : Held F (s.to runner phase) :=
  heldWalks held (fun isInside => by rw [outside] at isInside; cases isInside)
    (fun t _ _ => fact t)

theorem heldReleases {F : Phase D → Transaction D → Prop} {phase : Phase D} {committed : File D}
    {applied : List (Applied D)} (held : Held F s) (owns : Owns s runner)
    (outside : phase.inside = false) :
    Held F {s.to runner phase with committed := committed, transaction := none, applied := applied} where
  owned other isInside := by
    simp only [toRunners] at isInside
    split at isInside
    next => rw [outside] at isInside; cases isInside
    next different =>
      obtain ⟨t,known,owner⟩ := owns
      obtain ⟨t',known',owner'⟩ := held.owned other isInside
      cases known.symm.trans known'
      exact absurd (owner'.symm.trans owner) different
  based t known := by cases known

end

section
variable {D : Type}

def runUp : List (D → Except String D) → D → Except String D
  | [],data => .ok data
  | statement::rest,data => match statement data with
    | .error message => .error message
    | .ok data => runUp rest data

structure Applied.Exact (options : RunMigrationsOptions D) (a : Applied D) : Prop where
  listed : a.migration ∈ options.migrations
  nonneg : 0 ≤ a.before.version
  later : a.before.version < a.migration.version
  known : a.before.version ≤ newestKnown options.migrations
  whole : runUp a.migration.up a.before.data = .ok a.after.data

def LosesRows (migration : Migration D) (before after : Counts) : Prop :=
  ∃ table previousCount, (table,previousCount) ∈ before ∧ match after.lookup table with
    | none => migration.expectedRowDelta.lookup table = none
    | some nextCount => (nextCount : Int) <
        previousCount + (migration.expectedRowDelta.lookup table).getD 0

def Verdict.Exact (v : Verdict D) : Prop :=
  v.accepted = true ↔ ¬LosesRows v.migration v.lockCounts v.postCounts

def Applied.Guarded (counts : D → Counts) (a : Applied D) : Prop :=
  ¬LosesRows a.migration (counts a.before.data) (counts a.after.data)

theorem rowsLostIff {migration : Migration D} {after : Counts} {table : String}
    {previousCount : Nat} : (rowsLost migration after table previousCount).isSome = true ↔
      match after.lookup table with
      | none => migration.expectedRowDelta.lookup table = none
      | some nextCount => (nextCount : Int) <
          previousCount + (migration.expectedRowDelta.lookup table).getD 0 := by
  unfold rowsLost
  cases after.lookup table with
  | none => cases migration.expectedRowDelta.lookup table <;> simp
  | some nextCount => split <;> simp_all

theorem noRowsLost {migration : Migration D} {before after : Counts} :
    (assertNoRowsLost after migration before).isOk = true ↔ ¬LosesRows migration before after := by
  induction before with
  | nil => simp [assertNoRowsLost,LosesRows,Except.isOk,Except.toBool]
  | cons row rest ih =>
    obtain ⟨table,previousCount⟩ := row
    have here := @rowsLostIff _ migration after table previousCount
    have split_ : LosesRows migration ((table,previousCount)::rest) after ↔
        (rowsLost migration after table previousCount).isSome = true ∨
          LosesRows migration rest after := by
      rw [here]
      constructor
      · rintro ⟨lost,n,mem,less⟩
        rcases List.mem_cons.mp mem with same | later
        · cases same
          exact .inl less
        · exact .inr ⟨lost,n,later,less⟩
      · rintro (less | ⟨lost,n,later,less⟩)
        · exact ⟨table,previousCount,List.mem_cons_self,less⟩
        · exact ⟨lost,n,List.mem_cons_of_mem _ later,less⟩
    rw [split_]
    unfold assertNoRowsLost
    split
    next message lost => simp [lost,Except.isOk,Except.toBool]
    next kept => simp [kept,ih]

instance (migration : Migration D) (before after : Counts) :
    Decidable (LosesRows migration before after) :=
  decidable_of_iff (¬(assertNoRowsLost after migration before).isOk = true)
    ((not_congr noRowsLost).trans not_not)

inductive Ledger (keeps : Int → Int) (options : RunMigrationsOptions D) (e : Event D)
    (s s' : Store D) : Prop
  | same (committed : s'.committed = s.committed) (applied : s'.applied = s.applied)
  | written (change : D → D) (other : e = .write change)
      (committed : s'.committed = {s.committed with data := change s.committed.data})
      (applied : s'.applied = s.applied)
  | migrated (a : Applied D) (exact_ : a.Exact options) (before : a.before = s.committed)
      (after : a.after = s'.committed) (version : a.after.version = keeps a.migration.version)
      (applied : s'.applied = s.applied ++ [a])

end

section
variable {D : Type} (counts : D → Counts) (keeps : Int → Int) (options : RunMigrationsOptions D)
  (C : Prop)

structure Begun (a : Attempt D) (t : Transaction D) : Prop where
  nonneg : 0 ≤ t.base.version
  later : t.base.version < a.migration.version
  known : t.base.version ≤ newestKnown options.migrations
  counted : C → a.preCounts = counts t.base.data

def Fact : Phase D → Transaction D → Prop
  | .rechecking a,t => t.current = t.base ∧
      (C → t.base.version < a.migration.version → a.preCounts = counts t.base.data)
  | .upgrading a statements,t => Begun counts options C a t ∧
      runUp statements t.current.data = runUp a.migration.up t.base.data
  | .versioning a,t => Begun counts options C a t ∧
      runUp a.migration.up t.base.data = .ok t.current.data
  | .guarding a,t => Begun counts options C a t ∧
      runUp a.migration.up t.base.data = .ok t.current.data ∧
      t.current.version = keeps a.migration.version
  | .committing a _,t => Begun counts options C a t ∧
      runUp a.migration.up t.base.data = .ok t.current.data ∧
      t.current.version = keeps a.migration.version ∧
      (C → ¬LosesRows a.migration (counts t.base.data) (counts t.current.data))
  | _,_ => True

structure Sound (s : Store D) : Prop where
  held : Held (Fact counts keeps options C) s
  listed : ∀ runner, ∀ m ∈ (s.runners runner).pending, m ∈ options.migrations

structure Next (e : Event D) (s s' : Store D) : Prop where
  sound : Sound counts keeps options C s'
  ledger : Ledger keeps options e s s'
  judged : C → ∀ v ∈ s'.verdicts, v ∈ s.verdicts ∨ v.Exact
  guarded : C → ∀ a ∈ s'.applied, a ∈ s.applied ∨ a.Guarded counts

variable {counts keeps options C} {e : Event D} {s : Store D} {runner : Nat}

theorem listedWalks {p : Phase D}
    (listed : ∀ runner, ∀ m ∈ (s.runners runner).pending, m ∈ options.migrations)
    (pending : ∀ m ∈ p.pending, m ∈ options.migrations) :
    ∀ other, ∀ m ∈ ((s.to runner p).runners other).pending, m ∈ options.migrations := by
  intro other m mem
  rw [toRunners] at mem
  split at mem
  next => exact pending m mem
  next => exact listed other m mem

theorem nextSame {s' : Store D} (sound : Sound counts keeps options C s')
    (committed : s'.committed = s.committed) (applied : s'.applied = s.applied)
    (verdicts : s'.verdicts = s.verdicts) : Next counts keeps options C e s s' :=
  ⟨sound,.same committed applied,fun _ _ mem => .inl (verdicts ▸ mem),
    fun _ _ mem => .inl (applied ▸ mem)⟩

theorem nextLeaves {phase : Phase D} (sound : Sound counts keeps options C s)
    (outside : phase.inside = false) (fact : ∀ t, Fact counts keeps options C phase t)
    (pending : ∀ m ∈ phase.pending, m ∈ options.migrations) :
    Next counts keeps options C e s (s.to runner phase) :=
  nextSame ⟨heldLeaves sound.held outside fact,listedWalks sound.listed pending⟩ rfl rfl rfl

theorem nextWalks {phase : Phase D} (sound : Sound counts keeps options C s)
    (owns : Owns s runner)
    (fact : ∀ t, s.transaction = some t → t.owner = runner → Fact counts keeps options C phase t)
    (pending : ∀ m ∈ phase.pending, m ∈ options.migrations) :
    Next counts keeps options C e s (s.to runner phase) :=
  nextSame ⟨heldWalks sound.held (fun _ => owns) fact,listedWalks sound.listed pending⟩ rfl rfl rfl

theorem nextFails (sound : Sound counts keeps options C s) (message : String) :
    Next counts keeps options C e s (s.fail runner message) :=
  nextLeaves sound rfl (fun _ => trivial) (by simp [Phase.pending])

theorem nextRollsBack (sound : Sound counts keeps options C s) (owns : Owns s runner)
    (failure : Failure) : Next counts keeps options C e s (s.rollBack runner failure) :=
  nextWalks sound owns (fun _ _ _ => trivial) (by simp [Phase.pending])

theorem readNext (sound : Sound counts keeps options C s) :
    Next counts keeps options C e s (read options s runner) := by
  unfold read
  split
  next => exact nextLeaves sound rfl (fun _ => trivial) (by simp [Phase.pending])
  next fromVersion _ =>
    split
    next => exact nextLeaves sound rfl (fun _ => trivial) (by simp [Phase.pending])
    next =>
      dsimp only
      split
      next => exact nextLeaves sound rfl (fun _ => trivial) (by simp [Phase.pending])
      next => exact nextLeaves sound rfl (fun _ => trivial) fun m mem => (List.mem_filter.mp mem).1

theorem countNext {pending : List (Migration D)} (sound : Sound counts keeps options C s)
    (listed : ∀ m ∈ pending, m ∈ options.migrations) (result : MigrationRunResult)
    (counted : Counts) (names : List String) :
    Next counts keeps options C e s (count counts s runner pending result counted names) := by
  cases names with
  | nil => exact nextLeaves sound rfl (fun _ => trivial) listed
  | cons name names =>
    simp only [count]
    split
    next => exact nextFails sound _
    next => exact nextLeaves sound rfl (fun _ => trivial) listed

theorem migrateNext {pending : List (Migration D)} (sound : Sound counts keeps options C s)
    (listed : ∀ m ∈ pending, m ∈ options.migrations) (chance : Chance)
    (result : MigrationRunResult) (preCounts : Counts) :
    Next counts keeps options C e s (migrate options chance s runner result preCounts pending) := by
  cases pending with
  | nil => exact nextLeaves sound rfl (fun _ => trivial) (by simp [Phase.pending])
  | cons migration rest => exact nextLeaves sound rfl (fun _ => trivial) listed

theorem beginNext {a : Attempt D} (sound : Sound counts keeps options C s)
    (listed : ∀ m ∈ a.migration::a.rest, m ∈ options.migrations)
    (fresh : C → s.transaction.isNone = true → s.committed.version < a.migration.version →
      a.preCounts = counts s.committed.data) :
    Next counts keeps options C e s (beginImmediate s runner a) := by
  unfold beginImmediate
  split
  next => exact nextFails sound _
  next free =>
    refine nextSame ⟨⟨?_,?_⟩,listedWalks sound.listed listed⟩ rfl rfl rfl
    · intro other inside
      simp only [toRunners] at inside
      split at inside
      next same => exact ⟨_,rfl,same.symm⟩
      next =>
        obtain ⟨t,known,_⟩ := sound.held.owned other inside
        cases free.symm.trans known
    · intro t known
      cases known
      refine ⟨rfl,?_⟩
      simp only [toRunners,if_pos]
      exact ⟨rfl,fun holds => fresh holds (by rw [free]; rfl)⟩

theorem currentOf {t : Transaction D} (known : s.transaction = some t) : s.current = t.current := by
  simp [Store.current,known]

theorem versionRead {version current : Int} (read_ : readUserVersion version = .ok current) :
    current = version ∧ 0 ≤ current := by
  unfold readUserVersion at read_
  split at read_
  next => cases read_
  next valid =>
    cases read_
    simp only [Bool.or_eq_true,decide_eq_true_eq,not_or] at valid
    exact ⟨rfl,by omega⟩

theorem recheckNext {a : Attempt D} (sound : Sound counts keeps options C s)
    (phase : s.runners runner = .rechecking a) :
    Next counts keeps options C e s (recheck options s runner a) := by
  have listed := sound.listed runner
  rw [phase] at listed
  have owns := sound.held.owned runner (by rw [phase]; rfl)
  unfold recheck
  split
  next => exact nextRollsBack sound owns _
  next current readIt =>
    split
    next => exact nextRollsBack sound owns _
    next notNewer =>
      split
      next => exact nextWalks sound owns (fun _ _ _ => trivial) fun m mem =>
          listed m (List.mem_cons_of_mem _ mem)
      next notDone =>
        refine nextWalks sound owns ?_ listed
        intro t known owner
        have fact := (sound.held.based t known).2
        rw [owner,phase] at fact
        obtain ⟨same,nonneg⟩ := versionRead readIt
        have version := same.trans (congrArg File.version (currentOf known))
        rw [fact.1] at version
        exact ⟨⟨by omega,by omega,by omega,fun holds => fact.2 holds (by omega)⟩,by rw [fact.1]⟩

theorem skipNext {a : Attempt D} {current : Int} (sound : Sound counts keeps options C s)
    (phase : s.runners runner = .skipping a current) :
    Next counts keeps options C e s (skip s runner a current) := by
  have listed := sound.listed runner
  rw [phase] at listed
  have owns := sound.held.owned runner (by rw [phase]; rfl)
  exact nextSame ⟨heldReleases sound.held owns rfl,listedWalks sound.listed listed⟩ rfl rfl rfl

theorem heldChanges {F : Phase D → Transaction D → Prop} {phase : Phase D} {t : Transaction D}
    {current : File D} (held : Held F s) (known : s.transaction = some t) (owner : t.owner = runner)
    (fact : F phase {t with current}) : Held F ((s.changed current).to runner phase) := by
  have now : (s.changed current).transaction = some {t with current} := by
    simp [Store.changed,known]
  constructor
  · intro other inside
    simp only [toRunners] at inside
    split at inside
    next same => exact ⟨_,now,owner.trans same.symm⟩
    next =>
      obtain ⟨t',known',owner'⟩ := held.owned other inside
      cases known.symm.trans known'
      exact ⟨_,now,owner'⟩
  · intro t' known'
    cases now.symm.trans known'
    refine ⟨(held.based t known).1,?_⟩
    simp only [toRunners,if_pos owner]
    exact fact

theorem upgradeNext {a : Attempt D} {statements : List (D → Except String D)}
    (sound : Sound counts keeps options C s) (phase : s.runners runner = .upgrading a statements) :
    Next counts keeps options C e s (upgrade s runner a statements) := by
  have listed := sound.listed runner
  rw [phase] at listed
  have owns := sound.held.owned runner (by rw [phase]; rfl)
  obtain ⟨t,known,owner⟩ := owns
  have fact := (sound.held.based t known).2
  rw [owner,phase] at fact
  obtain ⟨begun,whole⟩ := fact
  cases statements with
  | nil =>
    refine nextWalks sound ⟨t,known,owner⟩ (fun t' known' _ => ?_) listed
    cases known.symm.trans known'
    exact ⟨begun,whole.symm⟩
  | cons statement rest =>
    simp only [upgrade]
    split
    next => exact nextRollsBack sound ⟨t,known,owner⟩ _
    next data ran =>
      refine nextSame ⟨heldChanges sound.held known owner ⟨⟨begun.nonneg,begun.later,begun.known,begun.counted⟩,?_⟩,
        listedWalks (s := s.changed _) sound.listed listed⟩ rfl rfl rfl
      rw [currentOf known] at ran
      simpa only [runUp,ran] using whole

theorem versionNext {a : Attempt D} (sound : Sound counts keeps options C s)
    (phase : s.runners runner = .versioning a) :
    Next counts keeps options C e s (setVersion keeps s runner a) := by
  have listed := sound.listed runner
  rw [phase] at listed
  obtain ⟨t,known,owner⟩ := sound.held.owned runner (by rw [phase]; rfl)
  have fact := (sound.held.based t known).2
  rw [owner,phase] at fact
  refine nextSame ⟨heldChanges sound.held known owner
      ⟨⟨fact.1.nonneg,fact.1.later,fact.1.known,fact.1.counted⟩,?_,rfl⟩,
    listedWalks (s := s.changed _) sound.listed listed⟩ rfl rfl rfl
  rw [currentOf known]
  exact fact.2

theorem guardNext {a : Attempt D} (sound : Sound counts keeps options C s)
    (phase : s.runners runner = .guarding a) :
    Next counts keeps options C e s (guardRows counts s runner a) := by
  have listed := sound.listed runner
  rw [phase] at listed
  obtain ⟨t,known,owner⟩ := sound.held.owned runner (by rw [phase]; rfl)
  have fact := (sound.held.based t known).2
  rw [owner,phase] at fact
  have judged (v : Verdict D) (exact_ : C → v.Exact) (other : Phase D)
      (moves : Fact counts keeps options C other t)
      (pending : ∀ m ∈ other.pending, m ∈ options.migrations) :
      Next counts keeps options C e s ((s.judged v).to runner other) := by
    have held : Held (Fact counts keeps options C) (s.judged v) := ⟨sound.held.owned,sound.held.based⟩
    refine ⟨⟨heldWalks held (fun _ => ⟨t,known,owner⟩) ?_,listedWalks sound.listed pending⟩,
      .same rfl rfl,?_,fun _ _ mem => .inl mem⟩
    · intro t' known' _
      cases known.symm.trans known'
      exact moves
    · intro holds v' mem
      rcases List.mem_append.mp mem with old | new
      · exact .inl old
      · exact .inr (List.mem_singleton.mp new ▸ exact_ holds)
  have verdict (holds : C) : (⟨a.migration,counts t.base.data,counts s.current.data,
      (assertNoRowsLost (counts s.current.data) a.migration a.preCounts).isOk⟩ : Verdict D).Exact := by
    rw [fact.1.counted holds]
    exact noRowsLost
  unfold guardRows
  simp only [known,Option.map_some,Option.getD_some]
  split
  next failed => exact judged _ verdict _ trivial (by simp [Phase.pending])
  next accepted =>
    refine judged _ verdict _ ⟨fact.1,fact.2.1,fact.2.2,fun holds => ?_⟩ listed
    rw [← fact.1.counted holds,← currentOf known]
    exact noRowsLost.mp (by rw [accepted]; rfl)

theorem commitNext {a : Attempt D} {postCounts : Counts} (sound : Sound counts keeps options C s)
    (phase : s.runners runner = .committing a postCounts) :
    Next counts keeps options C e s (commit s runner a postCounts) := by
  have listed := sound.listed runner
  rw [phase] at listed
  have owns := sound.held.owned runner (by rw [phase]; rfl)
  obtain ⟨t,known,owner⟩ := owns
  have fact := sound.held.based t known
  rw [owner,phase] at fact
  obtain ⟨base,begun,whole,version,guarded⟩ := fact
  refine ⟨⟨heldReleases sound.held ⟨t,known,owner⟩ rfl,
      listedWalks sound.listed fun m mem => listed m (List.mem_cons_of_mem _ mem)⟩,
    .migrated ⟨a.migration,s.committed,s.current⟩ ⟨listed _ List.mem_cons_self,?_,?_,?_,?_⟩ rfl rfl ?_ rfl,
    fun _ _ mem => .inl mem,?_⟩
  · exact base ▸ begun.nonneg
  · exact base ▸ begun.later
  · exact base ▸ begun.known
  · rw [currentOf known]
    exact base ▸ whole
  · rw [currentOf known]
    exact version
  · intro holds b mem
    rcases List.mem_append.mp mem with old | new
    · exact .inl old
    · right
      cases List.mem_singleton.mp new
      have kept := guarded holds
      rw [base,← currentOf known] at kept
      exact kept

theorem checkNext {a : Attempt D} {postCounts : Counts} (sound : Sound counts keeps options C s)
    (phase : s.runners runner = .checking a postCounts) (chance : Chance) :
    Next counts keeps options C e s (check chance s runner a postCounts) := by
  have listed := sound.listed runner
  rw [phase] at listed
  unfold check
  split
  next => exact nextLeaves sound rfl (fun _ => trivial) listed
  next => exact nextLeaves sound rfl (fun _ => trivial) (by simp [Phase.pending])

theorem rollBackNext {failure : Failure} (sound : Sound counts keeps options C s)
    (phase : s.runners runner = .rollingBack failure) :
    Next counts keeps options C e s {s.to runner (.failed failure) with transaction := none} := by
  have owns := sound.held.owned runner (by rw [phase]; rfl)
  exact nextSame ⟨heldReleases sound.held owns rfl,
    listedWalks (p := .failed failure) sound.listed (by simp [Phase.pending])⟩ rfl rfl rfl

theorem failingNext (sound : Sound counts keeps options C s) (message : String) :
    Next counts keeps options C e s (failing s runner message (s.runners runner)) := by
  have owned := sound.held.owned runner
  cases phase : s.runners runner with
  | rechecking | skipping | upgrading | versioning | guarding | committing =>
    exact nextRollsBack sound (owned (by rw [phase]; rfl)) _
  | rollingBack failure => exact nextLeaves sound rfl (fun _ => trivial) (by simp [Phase.pending])
  | idle | returned | failed => exact nextSame sound rfl rfl rfl
  | reading | listing | counting | migrating | beginning | checking => exact nextFails sound _

def LocksFresh (counts : D → Counts) (s : Store D) : Event D → Prop
  | .move runner chance => chance.fails = none → s.transaction.isNone = true →
      ∀ a, s.runners runner = .beginning a → s.committed.version < a.migration.version →
        a.preCounts = counts s.committed.data
  | _ => True

theorem moveNext (sound : Sound counts keeps options C s) (chance : Chance)
    (fresh : C → LocksFresh counts s (.move runner chance)) :
    Next counts keeps options C e s (move counts keeps options chance s runner) := by
  have listed := sound.listed runner
  unfold move
  split
  next => exact failingNext sound _
  next succeeds =>
    cases phase : s.runners runner with
    | idle | returned | failed => exact nextSame sound rfl rfl rfl
    | reading => exact readNext sound
    | listing pending result =>
      rw [phase] at listed
      exact nextLeaves sound rfl (fun _ => trivial) listed
    | counting pending result names counted =>
      rw [phase] at listed
      exact countNext sound listed result counted names
    | migrating pending result preCounts =>
      rw [phase] at listed
      exact migrateNext sound listed chance result preCounts
    | beginning a =>
      rw [phase] at listed
      exact beginNext sound listed fun holds free => fresh holds succeeds free a phase
    | rechecking a => exact recheckNext sound phase
    | skipping a current => exact skipNext sound phase
    | upgrading a statements => exact upgradeNext sound phase
    | versioning a => exact versionNext sound phase
    | guarding a => exact guardNext sound phase
    | committing a postCounts => exact commitNext sound phase
    | checking a postCounts => exact checkNext sound phase chance
    | rollingBack failure => exact rollBackNext sound phase

theorem startNext (sound : Sound counts keeps options C s) :
    Next counts keeps options C e s (start options s runner) := by
  have reads : Next counts keeps options C e s (s.to runner .reading) :=
    nextLeaves sound rfl (fun _ => trivial) (by simp [Phase.pending])
  unfold start
  split
  next => exact reads
  next => exact reads
  next => exact nextFails sound _
  next => exact nextFails sound _
  next => exact nextSame sound rfl rfl rfl

theorem crashNext (sound : Sound counts keeps options C s) :
    Next counts keeps options C e s (crash s runner) := by
  have survives {t : Transaction D} (known : s.transaction = some t) (other : t.owner ≠ runner) :
      (crash s runner).transaction = some t := by
    simp [crash,known,other]
  have survived {t : Transaction D} (known : (crash s runner).transaction = some t) :
      s.transaction = some t ∧ t.owner ≠ runner := by
    simpa [crash,Option.filter_eq_some_iff] using known
  refine nextSame ⟨⟨?_,?_⟩,listedWalks (p := .idle) sound.listed (by simp [Phase.pending])⟩
    rfl rfl rfl
  · intro other inside
    simp only [crash,toRunners] at inside
    split at inside
    next => cases inside
    next different =>
      obtain ⟨t,known,owner⟩ := sound.held.owned other inside
      exact ⟨t,survives known (owner ▸ different),owner⟩
  · intro t known
    obtain ⟨known,different⟩ := survived known
    refine ⟨(sound.held.based t known).1,?_⟩
    simp only [crash,toRunners,if_neg different]
    exact (sound.held.based t known).2

theorem writeNext (sound : Sound counts keeps options C s) (change : D → D) :
    Next counts keeps options C (.write change) s
      (step counts keeps options s (.write change)) := by
  simp only [step]
  split
  next => exact nextSame sound rfl rfl rfl
  next free =>
    refine ⟨⟨⟨sound.held.owned,?_⟩,sound.listed⟩,.written change rfl rfl rfl,fun _ _ mem => .inl mem,
      fun _ _ mem => .inl mem⟩
    intro t known
    cases free.symm.trans known

theorem stepNext (sound : Sound counts keeps options C s) (e : Event D)
    (fresh : C → LocksFresh counts s e) :
    Next counts keeps options C e s (step counts keeps options s e) := by
  cases e with
  | start runner => exact startNext sound
  | move runner chance => exact moveNext sound chance fresh
  | crash runner => exact crashNext sound
  | write change => exact writeNext sound change

theorem openedSound (opened : File D) : Sound counts keeps options C (.opened opened) where
  held := ⟨fun _ inside => absurd inside Bool.false_ne_true,fun _ known => nomatch known⟩
  listed _ _ mem := nomatch mem

end

section
variable {D : Type} {counts : D → Counts} {keeps : Int → Int} {options : RunMigrationsOptions D}
  {start : File D} {s s' : Store D}

def versionAfter (start : Int) (applied : List (Applied D)) : Int :=
  (applied.getLast?.map fun a => a.migration.version).getD start

structure AppliedInOrder (options : RunMigrationsOptions D) (start : File D) (s : Store D) :
    Prop where
  version : s.committed.version = versionAfter start.version s.applied
  ascending : (start.version::s.applied.map fun a => a.migration.version).Pairwise (· < ·)
  whole : ∀ a ∈ s.applied, a.Exact options ∧ a.after.version = a.migration.version
  newer : newestKnown options.migrations < start.version → s.applied = []

theorem ascendingTo {applied : List (Applied D)} {start : Int}
    (ascending : (start::applied.map fun a => a.migration.version).Pairwise (· < ·)) :
    ∀ v ∈ start::applied.map (fun a => a.migration.version), v ≤ versionAfter start applied := by
  cases applied using List.reverseRecOn with
  | nil => simp [versionAfter]
  | append_singleton front a =>
    intro v mem
    have last : versionAfter start (front ++ [a]) = a.migration.version := by simp [versionAfter]
    rw [List.map_append,← List.cons_append] at ascending mem
    have before := (List.pairwise_append.mp ascending).2.2
    rw [last]
    rcases List.mem_append.mp mem with old | new
    · exact le_of_lt (before v old _ List.mem_cons_self)
    · exact le_of_eq (List.mem_singleton.mp new)

theorem orderKept (stored : ∀ a : Applied D, a.Exact options →
      keeps a.migration.version = a.migration.version)
    {e : Event D} (inOrder : AppliedInOrder options start s) (ledger : Ledger keeps options e s s') :
    AppliedInOrder options start s' := by
  cases ledger with
  | same committed applied => exact ⟨by rw [committed,applied]; exact inOrder.version,
      applied ▸ inOrder.ascending,applied ▸ inOrder.whole,applied ▸ inOrder.newer⟩
  | written change other committed applied => exact ⟨by rw [committed,applied]; exact inOrder.version,
      applied ▸ inOrder.ascending,applied ▸ inOrder.whole,applied ▸ inOrder.newer⟩
  | migrated a exact_ before after version applied =>
    have found := inOrder.version
    rw [← before] at found
    have left := version.trans (stored a exact_)
    constructor
    · rw [← after,applied,left]
      simp [versionAfter]
    · rw [applied,List.map_append,← List.cons_append,List.pairwise_append]
      refine ⟨inOrder.ascending,List.pairwise_singleton _ _,?_⟩
      intro v mem w last
      have reached := ascendingTo inOrder.ascending v mem
      have later := exact_.later
      rw [List.map_cons,List.map_nil,List.mem_singleton] at last
      omega
    · intro b mem
      rw [applied] at mem
      rcases List.mem_append.mp mem with old | new
      · exact inOrder.whole b old
      · exact List.mem_singleton.mp new ▸ ⟨exact_,left⟩
    · intro newer
      have reached := ascendingTo inOrder.ascending _ List.mem_cons_self
      have known := exact_.known
      omega

theorem newerUnharmed {e : Event D} (newer : newestKnown options.migrations < s.committed.version)
    (ledger : Ledger keeps options e s s') (own : ∀ change, e ≠ .write change) :
    s'.committed = s.committed := by
  cases ledger with
  | same committed _ => exact committed
  | written change other => exact absurd other (own change)
  | migrated a exact_ before =>
    have known := exact_.known
    rw [before] at known
    omega

def Event.fails : Event D → Bool
  | .move _ chance => chance.fails.isSome
  | .crash _ => true
  | .start _ | .write _ => false

theorem failingUnharmed (runner : Nat) (message : String) (phase : Phase D) :
    (failing s runner message phase).committed = s.committed := by
  cases phase <;> rfl

theorem failureUnharmed {e : Event D} (fails : e.fails = true) :
    (step counts keeps options s e).committed = s.committed := by
  cases e with
  | start | write => cases fails
  | crash => rfl
  | move runner chance =>
    obtain ⟨message,failed⟩ := Option.isSome_iff_exists.mp fails
    simp only [step,move,failed]
    exact failingUnharmed runner message _

def Phase.gaveUp : Phase D → Bool
  | .rollingBack _ | .failed _ => true
  | _ => false

theorem proceedUnharmed (counts : D → Counts) (keeps : Int → Int) {runner : Nat} {chance : Chance} :
    (proceed counts keeps options chance s runner (s.runners runner)).committed = s.committed ∨
      ((proceed counts keeps options chance s runner (s.runners runner)).runners runner).gaveUp = false := by
  cases s.runners runner with
  | idle | returned | failed | listing | versioning | skipping | rollingBack => exact .inl rfl
  | reading =>
    left
    dsimp only [proceed,read]
    split
    · rfl
    · split
      · rfl
      · split <;> rfl
  | counting pending result names counted =>
    left
    dsimp only [proceed]
    cases names with
    | nil => rfl
    | cons =>
      dsimp only [count]
      split <;> rfl
  | migrating pending result preCounts => left; cases pending <;> rfl
  | beginning a =>
    left
    dsimp only [proceed,beginImmediate]
    split <;> rfl
  | rechecking a =>
    left
    dsimp only [proceed,recheck]
    split
    · rfl
    · split
      · rfl
      · split <;> rfl
  | upgrading a statements =>
    left
    dsimp only [proceed]
    cases statements with
    | nil => rfl
    | cons =>
      dsimp only [upgrade]
      split <;> rfl
  | guarding a =>
    left
    dsimp only [proceed,guardRows]
    split <;> rfl
  | committing a postCounts =>
    right
    simp [proceed,commit,Phase.gaveUp]
  | checking a postCounts =>
    left
    dsimp only [proceed,check]
    split <;> rfl

theorem givingUpUnharmed {runner : Nat} {chance : Chance} (gaveUp : ((step counts keeps options s
      (.move runner chance)).runners runner).gaveUp = true) :
    (step counts keeps options s (.move runner chance)).committed = s.committed := by
  cases failed : chance.fails with
  | some message => exact failureUnharmed (by simp [Event.fails,failed])
  | none =>
    simp only [step,move,failed] at gaveUp ⊢
    rcases proceedUnharmed counts keeps with same | goesOn
    · exact same
    · rw [goesOn] at gaveUp
      cases gaveUp

-- PRAGMA user_version is a signed 32-bit integer of the file's header.
def fitsHeader (version : Int) : Prop := -2 ^ 31 ≤ version ∧ version < 2 ^ 31

instance (version : Int) : Decidable (fitsHeader version) := inferInstanceAs (Decidable (_ ∧ _))

structure HeaderField (keeps : Int → Int) : Prop where
  stored : ∀ version, fitsHeader version → keeps version = version
  fits : ∀ version, fitsHeader (keeps version)

theorem reachedInOrder (counts : D → Counts) (start : File D) (field : HeaderField keeps)
    (small : ∀ m ∈ options.migrations, m.version < 2 ^ 31) (events : List (Event D)) :
    Sound counts keeps options False (reach (step counts keeps options) (.opened start) events) ∧
      AppliedInOrder options start (reach (step counts keeps options) (.opened start) events) := by
  have stored (a : Applied D) (exact_ : a.Exact options) :
      keeps a.migration.version = a.migration.version := by
    have bound := small _ exact_.listed
    have nonneg := exact_.nonneg
    have later := exact_.later
    exact field.stored _ ⟨by omega,bound⟩
  refine reachKept (step counts keeps options) (I := fun s => Sound counts keeps options False s ∧
    AppliedInOrder options start s) ?_ ⟨openedSound start,?_⟩ events
  · intro s e known
    have next := stepNext known.1 e False.elim
    exact ⟨next.sound,orderKept stored known.2 next.ledger⟩
  · exact ⟨rfl,List.pairwise_singleton _ _,by simp [Store.opened],fun _ => rfl⟩

-- Migrations are applied once, in order and as a whole, by any number of runners, when
-- every version fits the header's field.
theorem migratedOnce (counts : D → Counts) (start : File D) (field : HeaderField keeps)
    (small : ∀ m ∈ options.migrations, m.version < 2 ^ 31) (events : List (Event D)) :
    let s := reach (step counts keeps options) (.opened start) events
    AppliedInOrder options start s ∧ ∀ e, let s' := step counts keeps options s e
      Ledger keeps options e s s' ∧
      (newestKnown options.migrations < s.committed.version → (∀ change, e ≠ .write change) →
        s'.committed = s.committed) ∧
      (e.fails = true → s'.committed = s.committed) ∧
      ∀ runner chance, e = .move runner chance → (s'.runners runner).gaveUp = true →
        s'.committed = s.committed := by
  obtain ⟨sound,inOrder⟩ := reachedInOrder counts start field small events
  refine ⟨inOrder,fun e => ⟨(stepNext sound e False.elim).ledger,fun newer =>
    newerUnharmed newer (stepNext sound e False.elim).ledger,failureUnharmed,?_⟩⟩
  rintro runner chance rfl
  exact givingUpUnharmed

end

section

def settled : Chance := ⟨none,4096,"2025-01-01T00-00-00-000Z",some "ok"⟩

def moves (n : Nat) : List (Event Nat) := List.replicate n (.move 0 settled)

def rows (n : Nat) : Counts := [("tasks",n)]

def storedVersion (version : Int) : Int := if fitsHeader version then version else 0

theorem storedField : HeaderField storedVersion where
  stored version fits := if_pos fits
  fits version := by
    unfold storedVersion
    split
    next fits => exact fits
    next => decide

def single (migration : Migration Nat) : RunMigrationsOptions Nat :=
  ⟨"/home/acc",[migration],some "/home/acc/control.sqlite"⟩

def run (migration : Migration Nat) (start : File Nat) (events : List (Event Nat)) : Store Nat :=
  reach (step rows storedVersion (single migration)) (.opened start) events

def addsRow : Migration Nat := ⟨1,"adds a row",[],[fun n => .ok (n + 1)]⟩

def deletesRow : Migration Nat := ⟨1,"deletes a row",[],[fun n => .ok (n - 1)]⟩

def largeVersion : Migration Nat := ⟨2147483648,"large version",[],[fun n => .ok (n + 1)]⟩

def addingRow : Store Nat := run addsRow ⟨0,1⟩ (.start 0::moves 12)

theorem migratedOnceAddsRow : AppliedInOrder (single addsRow) ⟨0,1⟩ addingRow ∧
    addingRow.committed.version = 1 ∧ addingRow.committed.data = 2 :=
  ⟨(migratedOnce rows ⟨0,1⟩ storedField (by simp [single,addsRow]) (.start 0::moves 12)).1,
    by decide +kernel⟩

theorem largeVersionTwice : ¬AppliedInOrder (single largeVersion) ⟨0,1⟩
    (run largeVersion ⟨0,1⟩ (.start 0::moves 14 ++ .start 0::moves 14)) := by
  intro inOrder
  have twice : (run largeVersion ⟨0,1⟩ (.start 0::moves 14 ++ .start 0::moves 14)).applied.map
      (fun a => a.migration.version) = [2147483648,2147483648] := by decide +kernel
  have ascending := inOrder.ascending
  rw [twice] at ascending
  exact absurd ascending (by decide)

def carriesCounts (s : Store Nat) : Event Nat → Bool
  | .move runner _ => match s.runners runner with
    | .beginning a => decide (a.preCounts = rows s.committed.data)
    | _ => true
  | _ => true

theorem carriedFresh {s : Store Nat} {e : Event Nat} (carries : carriesCounts s e = true) :
    LocksFresh rows s e := by
  cases e with
  | move runner chance =>
    intro _ _ a phase _
    simp only [carriesCounts,phase] at carries
    exact of_decide_eq_true carries
  | start | crash | write => trivial

end

end ControlCenter.Migrations
