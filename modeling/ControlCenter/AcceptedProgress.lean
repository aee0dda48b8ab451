import ControlCenter.AcceptedExecution
import ControlCenter.SealedEnvelopes

/-! What becomes of an accepted lease: whose task runs, and that an execution which is
answered and left alone returns the proposal of its own. -/
namespace ControlCenter.AcceptedProgress
open JsonValue AccpEnvelope Protocol Table Db Dialogue Reliance Ports Coordinator Execution
open Operations ControlCenter.System ScriptRuns ExecutionQuestions Interference StoredPlans
open ExecutionProgress SealedEnvelopes CoordinatorBridge AcceptedExecution

def Replied (log : List Logged) : Prop := ∀ e ∈ log, e.answer.isOk = true

def Digestible (offer : Json) : Prop := canonical (completionBasis offer "" "") = true

abbrev Met := (q : KernelQuestion ⊕ Report) → Sum.elim KernelAnswer ReportAnswer q → Prop

def Sees (I : ControlCenterDb → Prop) : Met
  | .inl q,a => ReadsJointly I q a
  | .inr _,_ => True

structure Reportable (I : ControlCenterDb → Prop) (p : Platform) (offer : Json) (now : Int)
    (may : KernelQuestion ⊕ Report → Prop) (met : Met) : Prop where
  kernel : ∀ q, may (.inl q)
  reads : ∀ q a, met (.inl q) a → ReadsJointly I q a
  emits : ∀ kind data, may (.inr (.emitEvent kind data (idsOf offer) now))
  cursor : may (.inr .nodeCursor)
  proposes : ∀ basis manifest completion evidence result (cursor : Nat),
    sha256Hex p basis = .ok completion → sha256Hex p manifest = .ok evidence →
    met (.inr .nodeCursor) cursor → may (.inr (.proposeCompletion
      (completionPayload offer (completionOutcome result) completion evidence cursor) now))

theorem digestIsOk {p : Platform} (value : Json) : (sha256Hex p value).isOk = canonical value := by
  rw [← canonicalText p value]
  unfold sha256Hex
  cases canonicalJson p value <;> rfl

theorem evidenceCanonical (runs : List RunRow) :
    canonical (.array (runs.map evidenceOf)) = true := by
  have each (run : RunRow) : canonical (evidenceOf run) = true := by
    unfold evidenceOf optionalInt orNull
    cases run.exitCode <;> cases run.resultPath <;> cases run.usageJson <;> rfl
  show canonicalItem (runs.map evidenceOf) = true
  induction runs with
  | nil => rfl
  | cons run rest ih => exact Bool.and_eq_true_iff.mpr ⟨each run,ih⟩

theorem basisCanonical {offer : Json} (digestible : Digestible offer) (outcome digest : String) :
    canonical (completionBasis offer outcome digest) = true := by
  have parts (outcome digest : String) := canonicalAppend
    [("runId",offer.get "runId"),("taskRevision",offer.get "taskRevision"),
      ("planRevisionDigest",planRevisionDigest offer)]
    [("outcome",.string outcome),("evidenceManifestDigest",.string digest)]
  exact (parts outcome digest).trans ((parts "" "").symm.trans digestible)

section
variable {I : ControlCenterDb → Prop} {taskId : String} {p : Platform} {offer : Json} {now : Int}
  {may : KernelQuestion ⊕ Report → Prop} {met : Met}

theorem kernelEnds {α : Type} {q : TaskCrew α} {post : α → Prop} (kernelMay : ∀ q, may (.inl q))
    (reads : ∀ q a, met (.inl q) a → ReadsJointly I q a) (h : JointlyEnds I post q) :
    Succeeds may met post (kernel q) :=
  succeedsWithin (fun q _ => kernelMay q) reads h

theorem reportEnds {r : Report} (asked : may (.inr r)) :
    Succeeds may met (met (.inr r)) (report r) :=
  ⟨asked,fun _ known => known⟩

theorem mirrorEnds (emits : ∀ kind data, may (.inr (.emitEvent kind data (idsOf offer) now)))
    (events : List EventRow) :
    Succeeds may met (fun _ => True) (mirrorEvents offer now taskId events) := by
  induction events with
  | nil => trivial
  | cons event rest ih => exact succeedsBind (reportEnds (emits _ _)) fun _ _ => ih

theorem reportingEnds (reportable : Reportable I p offer now may met)
    (stored : ∀ db, I db → Stored taskId db) (digestible : Digestible offer)
    (runResult : RunTaskResult) : Succeeds may met (fun out => ∃ payload,
      met (.inr (.proposeCompletion payload now)) out.completionEnvelope)
      (reportExecution p offer now taskId runResult) := by
  refine succeedsBind (kernelEnds reportable.kernel reportable.reads
    (endsAlone (getTaskEnds stored))) fun found ⟨aggregate,same,_⟩ => ?_
  subst same
  refine succeedsBind (kernelEnds reportable.kernel reportable.reads
    (endsAlone (readingEnds _))) fun events _ => ?_
  refine succeedsBind (mirrorEnds reportable.emits events) fun _ _ =>
    succeedsBind (reportEnds (reportable.emits _ _)) fun _ _ => ?_
  have evident := (digestIsOk (p := p) _).trans (evidenceCanonical aggregate.runs)
  refine succeedsBind (succeedsExcept evident) fun evidence manifest => ?_
  have based := (digestIsOk (p := p) _).trans
    (basisCanonical digestible (completionOutcome runResult) evidence)
  refine succeedsBind (succeedsExcept based) fun completion basis =>
    succeedsBind (reportEnds reportable.cursor) fun cursor known => ?_
  exact succeedsBind (reportEnds (reportable.proposes _ _ _ _ _ _ basis manifest known))
    fun _ sealed => ⟨_,sealed⟩

end

abbrev EndsSeeing {α : Type} (I : ControlCenterDb → Prop) (post : α → Prop) (q : Reported α) :
    Prop := Succeeds (fun _ => True) (Sees I) post q

theorem seenReportable {I : ControlCenterDb → Prop} {p : Platform} {offer : Json} {now : Int} :
    Reportable I p offer now (fun _ => True) (Sees I) where
  kernel _ := trivial
  reads _ _ known := known
  emits _ _ := trivial
  cursor := trivial
  proposes _ _ _ _ _ _ _ _ _ := trivial

theorem kernelSeeing {α : Type} {I : ControlCenterDb → Prop} {q : TaskCrew α} {post : α → Prop}
    (h : JointlyEnds I post q) : EndsSeeing I post (kernel q) :=
  kernelEnds (fun _ => trivial) (fun _ _ known => known) h

section
variable {p : Platform} {o : Options} {offer : Json} {now : Int} {thread : ThreadId}
  {taskId : String} {w last : World} {log : List Logged}

theorem seenAnswers {I : ControlCenterDb → Prop} {α : Type} {q : Reported α}
    {outcome : Option (Except String α)} (run : Run (environment thread) q w log outcome last)
    (replied : Replied log) (held : ∀ e ∈ log, I e.now.db) : ∀ e ∈ log, e.Met (Sees I) := by
  rintro ⟨at',question,answer⟩ listed
  obtain ⟨after,answered⟩ := run.answered _ listed
  have returned := replied _ listed
  cases answer with
  | error error => cases returned
  | ok a =>
    refine ⟨a,rfl,?_⟩
    match question with
    | .inr r => trivial
    | .inl (.inr members) => trivial
    | .inl (.inl q) =>
      cases q with
      | snapshot =>
        obtain ⟨c,answered⟩ := answered
        rw [show a = at'.db from (snapshotAnswer answered).2 a rfl]
        exact held _ listed
      | _ => trivial

theorem storedStays (taskId : String) (db : ControlCenterDb) (t : DbRuns.Turn)
    (stored : Stored taskId db) : Stored taskId (DbRuns.turn db t) :=
  ⟨turnPlanned db t stored.planned,taskStays taskId db t stored.there⟩

theorem runEnds {α : Type} {q : Reported α} {post : α → Prop} {outcome : Except String α}
    (run : Run (environment thread) q w log (some outcome) last) (replied : Replied log)
    (start : Stored taskId w.db) (succeeds : EndsSeeing (Stored taskId) post q) :
    ∃ a, outcome = .ok a ∧ post a :=
  run.succeeds (seenAnswers run replied (turnsKept (storedStays taskId) run start).2) succeeds

theorem onward {E : Environment (KernelQuestion ⊕ Report) (Sum.elim KernelAnswer ReportAnswer) World}
    {α β : Type} {q : Reported α} {f : α → Reported β} {outcome : Except String β}
    (run : Run E (q >>= f) w log (some outcome) last) (replied : Replied log)
    (ends : ∀ {front r mid}, Run E q w front (some r) mid → Replied front → ∃ a, r = .ok a) :
    ∃ a mid front back, log = front ++ back ∧ Replied front ∧ Replied back ∧
      Run E q w front (some (.ok a)) mid ∧ Run E (f a) mid back (some outcome) last := by
  rcases run.parts with ⟨error,same,failed⟩ | ⟨a,mid,front,back,rfl,first,rest⟩
  · obtain ⟨a,returned⟩ := ends failed replied
    cases returned
  · exact ⟨a,mid,front,back,rfl,fun e listed => replied e (List.mem_append_left _ listed),
      fun e listed => replied e (List.mem_append_right _ listed),first,rest⟩

theorem plainlyEnds {α : Type} {q : Reported α} {outcome : Except String α}
    (run : Run (environment thread) q w log (some outcome) last) (replied : Replied log)
    (succeeds : EndsSeeing (fun _ => True) (fun _ => True) q) : ∃ a, outcome = .ok a := by
  obtain ⟨a,same,_⟩ := run.succeeds (seenAnswers run replied fun _ _ => trivial) succeeds
  exact ⟨a,same⟩

theorem askedEnds {q : Question} :
    EndsSeeing (fun _ => True) (fun _ => True) (kernel (ask q).alone) :=
  kernelSeeing (endsAlone (askEnds q))

theorem taskCreated {m : Moment} {input : TaskPayload} {plan : RoutePlan} {id : String}
    {db next : ControlCenterDb} (h : Db.createTask m input plan db = .ok (id,next)) :
    next.hasTask id = true := by
  obtain ⟨task,_,h⟩ := exceptBind h
  obtain ⟨plan,_,h⟩ := exceptBind h
  obtain ⟨tasks,inserting,h⟩ := exceptBind h
  obtain ⟨routeSteps,_,h⟩ := exceptBind h
  obtain ⟨last,logged,h⟩ := exceptBind h
  cases Except.ok.inj h
  refine keyHeld.mpr ?_
  rw [DbRuns.eventTasks logged,insertRows (DbRuns.uniqueSource inserting),List.map_append]
  exact List.mem_append_right _ (List.mem_singleton_self _)

theorem kernelAsk (q : Question) : kernel (ask q).alone =
    (.call (Sum.inl (Sum.inl q)) : Reported (Answer q)) :=
  congrArg (Script.ask _) (funext fun r => by cases r <;> rfl)

theorem idCreated {input : TaskPayload} {plan : RoutePlan} {id : String}
    (run : Run (environment thread) (kernel (ask (.createTask input plan)).alone) w log
      (some (.ok id)) last) : last.db.hasTask id = true := by
  rw [kernelAsk] at run
  obtain ⟨at',_,⟨c,answered⟩,_⟩ := run.called
  exact taskCreated (storedPerformed (respondAnswer answered))

theorem returnedThere {input : Json} (run : Run (environment thread)
    (kernel (Operations.createTask input).alone) w log (some (.ok taskId)) last) :
    last.db.hasTask taskId = true := by
  unfold Operations.createTask at run
  rw [kernelBind] at run
  obtain ⟨parsed,mid,_,_,rfl,_,run⟩ := run.passed
  rw [kernelBind] at run
  obtain ⟨repo,mid,_,_,rfl,_,run⟩ := run.passed
  rw [kernelBind] at run
  obtain ⟨uuid,mid,_,_,rfl,_,run⟩ := run.passed
  dsimp only at run
  erw [kernelBind] at run
  obtain ⟨id,mid,_,_,rfl,created,run⟩ := run.passed
  have there := (turnsKept (taskStays id) run (idCreated created)).1
  rw [kernelBind] at run
  obtain ⟨found,mid,_,_,rfl,read,run⟩ := run.passed
  cases found with
  | none => cases run
  | some aggregate =>
    have known : aggregate.task.id = id :=
      read.returns (returnsWithin (returnsAlone (returnsGetTask id))) aggregate rfl
    dsimp only at run
    rw [kernelBind] at run
    obtain ⟨_,mid,_,_,rfl,_,run⟩ := run.passed
    cases run
    rw [known]
    exact there

theorem creationEnds {input : Json} {outcome : Except String String}
    (run : Run (environment thread) (kernel (Operations.createTask input).alone) w log (some outcome) last)
    (replied : Replied log) (parses : (parseTaskPayload input).isOk = true)
    (planned : Planned w.db) : ∃ id, outcome = .ok id := by
  have asked {w last : World} {log : List Logged} {q : Question} {r : Except String (Answer q)}
      (run : Run (environment thread) (kernel (ask q).alone) w log (some r) last)
      (replied : Replied log) : ∃ a, r = .ok a := plainlyEnds run replied askedEnds
  unfold Operations.createTask at run
  rw [kernelBind] at run
  obtain ⟨parsed,mid,_,_,rfl,_,replied,first,run⟩ := onward run replied fun run replied =>
    plainlyEnds run replied (kernelSeeing (endsAlone (succeedsAny (succeedsExcept parses))))
  have planned := (turnsKept turnPlanned first planned).1
  rw [kernelBind] at run
  obtain ⟨repo,mid,_,_,rfl,_,replied,first,run⟩ := onward run replied asked
  have planned := (turnsKept turnPlanned first planned).1
  rw [kernelBind] at run
  obtain ⟨uuid,mid,_,_,rfl,_,replied,first,run⟩ := onward run replied asked
  have planned := (turnsKept turnPlanned first planned).1
  dsimp only at run
  erw [kernelBind] at run
  obtain ⟨id,mid,_,_,rfl,_,replied,first,run⟩ := onward run replied asked
  have stored : Stored id mid.db := ⟨(turnsKept turnPlanned first planned).1,idCreated first⟩
  have ends : ∃ a, outcome = .ok a ∧ True := by
    refine runEnds run replied stored (kernelSeeing (endsAlone (succeedsBind
      (getTaskEnds fun _ held => held) fun found there => ?_)))
    obtain ⟨aggregate,rfl,_⟩ := there
    exact succeedsBind (publishEnds _) fun _ _ => True.intro
  exact ends.imp fun _ => And.left

theorem ownThere {leaseId : String} {plan : Json} (run : Run (environment thread)
    (createOwn offer now leaseId plan) w log (some (.ok taskId)) last) (planned : Planned w.db) :
    Stored taskId last.db := by
  refine ⟨(turnsKept turnPlanned run planned).1,?_⟩
  obtain ⟨_,mid,_,_,_,_,created⟩ := run.passed
  exact returnedThere created

theorem ownEnds {leaseId : String} {plan : Json} {outcome : Except String String}
    (run : Run (environment thread) (createOwn offer now leaseId plan) w log (some outcome) last)
    (replied : Replied log) (parses : (parseTaskPayload (taskInput offer plan)).isOk = true)
    (planned : Planned w.db) : ∃ id, outcome = .ok id := by
  obtain ⟨_,mid,_,_,_,_,replied,started,created⟩ := onward run replied fun run replied =>
    plainlyEnds run replied ⟨trivial,fun _ _ => trivial⟩
  exact creationEnds created replied parses (turnsKept turnPlanned started planned).1

def Claimed (taskId workerId : String) (db : ControlCenterDb) : Prop :=
  ∃ row, db.tasks.get taskId = some row ∧ row.status = .running ∧ row.claimedBy = some workerId

theorem claimHolds {m : Moment} {workerId : String} {db next : ControlCenterDb}
    (h : Db.claimNextTask m workerId db = .ok (some taskId,next)) :
    Claimed taskId workerId next := by
  unfold Db.claimNextTask at h
  split at h
  · cases h
  next candidate chosen =>
    obtain ⟨last,logged,h⟩ := exceptBind h
    cases Except.ok.inj h
    have there : db.tasks.get candidate.id = some candidate :=
      getMem (DbRuns.nextQueuedSource chosen).1
    unfold Claimed
    rw [DbRuns.eventTasks logged,DbRuns.getUpdated,there]
    exact ⟨_,rfl,by simp,by simp⟩

def sparing (thread : ThreadId) (taskId : String) :
    Environment (KernelQuestion ⊕ Report) (Sum.elim KernelAnswer ReportAnswer) World where
  moves w now := Between w now ∧ now.db.tasks.get taskId = w.db.tasks.get taskId
  answers := (environment thread).answers

theorem amongAll {α : Type} {q : Reported α} {outcome : Option (Except String α)}
    (run : Run (sparing thread taskId) q w log outcome last) :
    Run (environment thread) q w log outcome last :=
  run.among (fun _ _ => And.left) fun _ _ _ _ => id

def OnlyReads : KernelQuestion ⊕ Report → Prop
  | .inl (.inl .snapshot) => True
  | _ => False

theorem onlySnapshot {q : KernelQuestion ⊕ Report} (only : OnlyReads q) :
    q = .inl (.inl .snapshot) := by
  unfold OnlyReads at only
  split at only
  · rfl
  · exact only.elim

theorem getTaskReads (id : String) : Asks OnlyReads (kernel (getTask id).alone) := by
  have own : Asks (fun q => OnlyReads (.inl (.inl q))) (getTask id) := asksGetTask trivial id
  have alone : Asks (fun q => OnlyReads (.inl q)) (getTask id).alone :=
    asksAlone (fun _ only => only) own
  exact asksWithin (fun _ only => only) alone

theorem claimStands {α : Type} {q : Reported α} {outcome : Option (Except String α)}
    {workerId : String} (reads : Asks OnlyReads q)
    (run : Run (sparing thread taskId) q w log outcome last)
    (claimed : Claimed taskId workerId w.db) :
    Claimed taskId workerId last.db ∧ ∀ e ∈ log, Claimed taskId workerId e.now.db := by
  refine run.keptBy (P := fun w => Claimed taskId workerId w.db) reads (fun w now moved held => ?_)
    (fun q now r after only answered held => ?_) claimed
  · unfold Claimed
    rw [moved.2]
    exact held
  · obtain rfl := onlySnapshot only
    obtain ⟨c,answered⟩ := answered
    rw [(snapshotAnswer answered).1]
    exact held

theorem taskFound {workerId : String} {found : Option TaskAggregate}
    (run : Run (sparing thread taskId) (kernel (getTask taskId).alone) w log
      (some (.ok found)) last) (replied : Replied log) (stored : Stored taskId w.db)
    (claimed : Claimed taskId workerId w.db) :
    ∃ aggregate, found = some aggregate ∧ aggregate.task.id = taskId ∧
      aggregate.task.status = .running ∧ aggregate.task.claimedBy = some workerId := by
  have held := (claimStands (getTaskReads taskId) run claimed).2
  have kept := (turnsKept (storedStays taskId) (amongAll run) stored).2
  obtain ⟨found,same,aggregate,rfl,db,row,⟨_,row',there,running,mine⟩,read,task⟩ :=
    (amongAll run).succeeds (seenAnswers
      (I := fun db => Stored taskId db ∧ Claimed taskId workerId db) (amongAll run) replied
      fun e listed => ⟨kept e listed,held e listed⟩)
      (kernelSeeing (endsAlone (getTaskEnds fun _ both => both.1)))
  cases Except.ok.inj same
  cases Option.some.inj (there.symm.trans read)
  exact ⟨aggregate,rfl,by rw [task]; exact (getSome.mp read).2,by rw [task]; exact running,
    by rw [task]; exact mine⟩

theorem taskFinds {outcome : Except String (Option TaskAggregate)}
    (run : Run (sparing thread taskId) (kernel (getTask taskId).alone) w log (some outcome) last)
    (replied : Replied log) (stored : Stored taskId w.db) : ∃ found, outcome = .ok found :=
  (runEnds (amongAll run) replied stored
    (kernelSeeing (endsAlone (getTaskEnds fun _ held => held)))).imp fun _ => And.left

theorem executionEnds {outcome : Except String RunTaskResult}
    (run : Run (sparing thread taskId) (kernel (executeTask o taskId)) w log (some outcome) last)
    (replied : Replied log) (stored : Stored taskId w.db)
    (claimed : Claimed taskId o.workerId w.db) : ∃ result, outcome = .ok result := by
  rw [executeParts] at run
  unfold kernel at run
  rw [withinBind] at run
  obtain ⟨found,mid,front,back,rfl,first,later,read,run⟩ := onward run replied
    fun run replied => taskFinds run replied stored
  obtain ⟨aggregate,rfl,known,running,mine⟩ := taskFound read first stored claimed
  have kept := (turnsKept (storedStays taskId) (amongAll read) stored).1
  subst known
  exact (runEnds (amongAll run) later kept
    (kernelSeeing (foundEnds (fun _ held => held) running mine))).imp fun _ => And.left

theorem claimedReturns {outcome : Except String ExecutionOutcome}
    (run : Run (sparing thread taskId) (executeClaimed p o offer now taskId (some taskId)) w log
      (some outcome) last) (replied : Replied log) (stored : Stored taskId w.db)
    (claimed : Claimed taskId o.workerId w.db) (digestible : Digestible offer) :
    ∃ out, outcome = .ok out := by
  unfold executeClaimed at run
  obtain ⟨found,mid,front,back,rfl,first,replied,read,run⟩ := onward run replied
    fun run replied => taskFinds run replied stored
  obtain ⟨aggregate,rfl,known,_,_⟩ := taskFound read first stored claimed
  have stored := (turnsKept (storedStays taskId) (amongAll read) stored).1
  have claimed := (claimStands (getTaskReads taskId) read claimed).1
  dsimp only at run
  rw [known] at run
  obtain ⟨result,mid,_,back,rfl,_,replied,executed,run⟩ := onward run replied
    fun run replied => executionEnds run replied stored claimed
  have about : result.taskId = taskId :=
    executed.returns (returnsWithin (returnsExecute o taskId))
  rw [if_pos about] at run
  have stored := (turnsKept (storedStays taskId) (amongAll executed) stored).1
  exact (runEnds (amongAll run) replied stored
    (reportingEnds seenReportable (fun _ held => held) digestible result)).imp fun _ => And.left

def stopTold : Logged → Bool
  | ⟨_,.inl (.inl (.memory _)),.ok memory⟩ => Memory.shutdownRequested memory
  | _ => false

theorem stopHeard {r : Except String Bool} (run : Run (environment thread)
    (kernel shutdownRequested.alone) w log (some r) last) (replied : Replied log) :
    ∃ e, log = [e] ∧ r = .ok (stopTold e) := by
  generalize same : (kernel shutdownRequested.alone : Reported Bool) = script at run
  cases run with
  | done => cases same
  | fail => cases same
  | @ask q next w now after last answer log outcome moved answered rest =>
    cases same
    cases answer with
    | error error => cases replied _ List.mem_cons_self
    | ok memory =>
      have ended : Run (environment thread) (.done memory.shutdownRequested : Reported Bool) after
        log (some r) last := rest
      cases ended
      exact ⟨_,rfl,rfl⟩

-- A run that ended, in which every question was answered, no stop was asked for as it began,
-- and nobody else touched the task.
structure Undisturbed (p : Platform) (o : Options) (offer : Json) (now : Int) (thread : ThreadId)
    (taskId : String) (w : World) (log : List Logged) (outcome : Except String ExecutionOutcome)
    (last : World) : Prop where
  run : Run (sparing thread taskId) (runCreated p o offer now taskId) w log (some outcome) last
  replied : Replied log
  unstopped : ∀ e ∈ log.head?, stopTold e = false

theorem undisturbedReturns {outcome : Except String ExecutionOutcome}
    (undisturbed : Undisturbed p o offer now thread taskId w log outcome last)
    (stored : Stored taskId w.db) (digestible : Digestible offer) (first : FirstAtClaim taskId log) :
    ∃ out, outcome = .ok out := by
  obtain ⟨run,replied,unstopped⟩ := undisturbed
  rw [runCreatedParts] at run
  obtain ⟨stopping,mid,front,back,rfl,heard,later,waited,run⟩ := onward run replied
    fun run replied => (stopHeard (amongAll run) replied).imp' _ fun _ => And.right
  obtain ⟨e,rfl,same⟩ := stopHeard (amongAll waited) heard
  cases Except.ok.inj same
  rw [if_neg (by rw [unstopped e rfl]; exact Bool.false_ne_true)] at run
  have stored := (turnsKept (storedStays taskId) (amongAll waited) stored).1
  obtain ⟨claimed,mid,front,back,rfl,_,rested,claims,ran⟩ := onward run later
    fun run replied => plainlyEnds (amongAll run) replied askedEnds
  have kept := (turnsKept (storedStays taskId) (amongAll claims) stored).1
  rw [kernelAsk] at claims
  obtain ⟨at',_,⟨c,answered⟩,rfl⟩ := claims.called
  have own : claimed = some taskId := (claimAnswer answered).1.trans
    (first (claimEntry o.workerId at' claimed) (List.mem_append_right _
      (List.mem_append_left _ (List.mem_singleton_self _))) (Option.some_ne_none _))
  subst own
  exact claimedReturns ran rested kept (claimHolds (storedPerformed (respondAnswer answered)))
    digestible

theorem returnedFirst {out : ExecutionOutcome}
    (run : Run (environment thread) (runCreated p o offer now taskId) w log (some (.ok out)) last) :
    FirstAtClaim taskId log ∧ ∃ e ∈ log, claimOf e = some (some taskId) := by
  cases createdStands run with
  | unclaimed none unreturned => exact absurd rfl (unreturned out)
  | claimed front back before after c claimed parts none answered rest =>
    subst parts
    have rested : Unclaimed back := plainLog (plainClaimed claimed) rest
    have own : claimed = some taskId := by
      cases claimed with
      | none => cases rest
      | some claimed =>
        unfold executeClaimed at rest
        obtain ⟨found,mid,_,_,rfl,read,rest⟩ := rest.passed
        cases found with
        | none => cases rest
        | some aggregate =>
          have known : aggregate.task.id = claimed :=
            read.returns (returnsWithin (returnsAlone (returnsGetTask claimed))) aggregate rfl
          obtain ⟨result,mid,_,_,rfl,executed,rest⟩ := rest.passed
          have about : result.taskId = aggregate.task.id :=
            executed.returns (returnsWithin (returnsExecute o aggregate.task.id))
          split at rest
          · rename_i same
            rw [← known,← about,same]
          · cases rest
    subst own
    refine ⟨fun e listed claim => ?_,claimEntry o.workerId before (some taskId),by simp,rfl⟩
    rcases List.mem_append.mp listed with listed | listed
    · exact absurd (none e listed) claim
    rcases List.mem_cons.mp listed with rfl | listed
    · exact (claimAnswer answered).1.symm
    · exact absurd (rested e listed) claim

def Proposes (p : Platform) (o : Options) (offer : Json) (now : Int) (thread : ThreadId)
    (taskId : String) (log : List Logged) (outcome : Except String ExecutionOutcome) : Prop :=
  ∃ out, outcome = .ok out ∧ Executes p o offer now thread taskId log out ∧
    ∃ e ∈ log, claimOf e = some (some taskId)

theorem undisturbedProposes {outcome : Except String ExecutionOutcome}
    (undisturbed : Undisturbed p o offer now thread taskId w log outcome last)
    (stored : Stored taskId w.db) (digestible : Digestible offer) :
    Proposes p o offer now thread taskId log outcome ↔ FirstAtClaim taskId log := by
  have run := amongAll undisturbed.run
  constructor
  · rintro ⟨out,rfl,_⟩
    exact (returnedFirst run).1
  · intro first
    obtain ⟨out,rfl⟩ := undisturbedReturns undisturbed stored digestible first
    exact ⟨out,rfl,((runsFirst (createdStands run)).mpr first).returns out rfl,
      (returnedFirst run).2⟩

def Unplanned (c : Connection) (leaseId : String) : Prop :=
  ∀ entry, c.accepted.lookup leaseId = some entry →
    (parseTaskPayload (taskInput entry.offer entry.plan)).isOk = false

structure Unstarted (c : Connection) (leaseId : String) (w : World) (log : List Logged)
    (outcome : Option (Except String ExecutionOutcome)) : Prop where
  none : Unclaimed log
  unreturned : ∀ out, outcome ≠ some (.ok out)
  reason : Planned w.db → Replied log → outcome = .none ∨ Unplanned c leaseId

structure Created (p : Platform) (o : Options) (now : Int) (thread : ThreadId) (c : Connection)
    (leaseId : String) (w : World) (log : List Logged)
    (outcome : Option (Except String ExecutionOutcome)) (last : World) (entry : AcceptedOffer)
    (taskId : String) (mid : World) (front back : List Logged) : Prop where
  accepted : c.accepted.lookup leaseId = some entry
  parts : log = front ++ back
  none : Unclaimed front
  created : Run (environment thread) (createOwn entry.offer now leaseId entry.plan) w front
    (some (.ok taskId)) mid
  rest : Run (environment thread) (runCreated p o entry.offer now taskId) mid back outcome last

theorem startsOrStops {c : Connection} {leaseId : String}
    {outcome : Option (Except String ExecutionOutcome)}
    (run : Run (environment thread) (executeAccepted p o now c leaseId) w log outcome last) :
    Unstarted c leaseId w log outcome ∨ ∃ entry taskId mid front back,
      Created p o now thread c leaseId w log outcome last entry taskId mid front back := by
  unfold executeAccepted at run
  cases found : c.accepted.lookup leaseId with
  | none =>
    rw [found] at run
    have unplanned : Unplanned c leaseId := by
      intro entry same
      rw [found] at same
      cases same
    cases run with
    | left => exact .inl ⟨by simp [Unclaimed],by simp,fun _ _ => .inl rfl⟩
    | fail => exact .inl ⟨by simp [Unclaimed],by simp,fun _ _ => .inr unplanned⟩
  | some entry =>
    rw [found] at run
    have plain : Asks PlainReported (createOwn entry.offer now leaseId entry.plan) :=
      asksBind (plainReport _) fun _ => plainKernel (plainInput _)
    cases run.split with
    | first stopped part =>
      exact .inl ⟨plainLog plain part,by simp [stopped],fun _ _ => .inl stopped⟩
    | failed error stopped part =>
      refine .inl ⟨plainLog plain part,by simp [stopped],fun planned replied => .inr ?_⟩
      intro entry' same
      cases Option.some.inj (found.symm.trans same)
      refine Bool.eq_false_of_not_eq_true fun parses => ?_
      obtain ⟨id,same⟩ := ownEnds part replied parses planned
      cases same
    | second taskId mid front back parts created rest =>
      exact .inr ⟨entry,taskId,mid,front,back,found,parts,plainLog plain created,created,rest⟩

-- An accepted lease creates its task and then executes it and no other exactly when that
-- task is the first of the queue at the claim; undisturbed, it then returns its proposal.
theorem ownTaskExecuted {c : Connection} {leaseId : String}
    {outcome : Option (Except String ExecutionOutcome)}
    (run : Run (environment thread) (executeAccepted p o now c leaseId) w log outcome last) :
    (Unstarted c leaseId w log outcome ∨ ∃ entry taskId mid front back,
      Created p o now thread c leaseId w log outcome last entry taskId mid front back) ∧
    ∀ entry taskId mid front back,
      Created p o now thread c leaseId w log outcome last entry taskId mid front back →
      (RunsOwn p o entry.offer now thread taskId back outcome last ↔ FirstAtClaim taskId back) ∧
      (Planned w.db → Digestible entry.offer → ∀ ended, outcome = some ended →
        Undisturbed p o entry.offer now thread taskId mid back ended last →
        (Proposes p o entry.offer now thread taskId back ended ↔ FirstAtClaim taskId back)) := by
  refine ⟨startsOrStops run,fun entry taskId mid front back made => ?_⟩
  refine ⟨runsFirst (createdStands made.rest),fun planned digestible ended _ undisturbed => ?_⟩
  exact undisturbedProposes undisturbed (ownThere made.created planned) digestible

end

def filed (taskId runId : String) (kind : ArtifactKind) (name : String) :
    DbReviews.ArtifactMetadata :=
  ⟨taskId,runId,kind,name,"/runs/" ++ name,name,"/runs/" ++ name ++ ".metadata.json",
    String.ofList (List.replicate 64 '0'),0,1767225600000⟩

def steady : Choice where
  now := 1767225600000
  uuid := "own"
  busy := none
  reply
    | .resolvePath path => .ok path
    | .randomUuids => .ok toString
    | .availability _ => .ok (⟨true,"local",none⟩ : AdapterAvailability)
    | .createWorktree taskId runId repo baseRef => .ok (⟨taskId,runId,repo,
        "/worktrees/" ++ runId,"acc/" ++ runId,baseRef,"0",1767225600000⟩ : WorktreeInfo)
    | .captureSourceSnapshot repo => .ok (⟨repo,"0",""⟩ : SourceRepositorySnapshot)
    | .assertSourceUnchanged .. => .ok ()
    | .prepareRunDirectory .. => .ok "/runs"
    | .writeArtifact taskId runId kind name _ => .ok (filed taskId runId kind name)
    | .startTask .. => .ok
        (⟨[],.ok ⟨"agent",none,"/runs/stdout","/runs/stderr","/runs/result"⟩⟩ : StartReply)
    | .collectResult .. => .ok (⟨.succeeded,1767225600000,"/runs/stdout","/runs/stderr",
        "/runs/result",some 0,none,"Fixed.",none,none⟩ : AdapterResult)
    | .inspectFile path => .ok (⟨"/runs",path,true,false,0⟩ : FileInfo)
    | .readFile _ => .ok ""
    | .captureReviewArtifacts .. => .ok ([] : List DbReviews.ArtifactMetadata)
    | _ => .error "unavailable"

def drawn (w : World) : Choice := if w.db.artifacts.rows = [] then steady
  else {steady with uuid := toString w.db.artifacts.rows.length}

def worked : List (Member Question Answer String StepOutcome) → World →
    Except String (List StepOutcome) × World
  | [],w => (.ok [],w)
  | (key,script)::rest,w =>
      let done := play (fun q w => respond ⟨⟨0,0⟩,some key⟩ (drawn w) w q) 100 script w
      let later := worked rest done.2.2
      (match done.2.1 with
        | some (.ok outcome) => later.1.map (outcome :: ·)
        | some (.error error) => .error error
        | none => .error "unfinished",later.2)

def proposal : Envelope :=
  ⟨"accp/1","","run.completion_proposed","","","","node:1",none,none,none,1,"",none,"",.null,""⟩

def answered : (q : KernelQuestion ⊕ Report) → World →
    Except String (Sum.elim KernelAnswer ReportAnswer q) × World
  | .inl (.inl q),w => respond ⟨⟨0,0⟩,none⟩ (drawn w) w q
  | .inl (.inr members),w => worked members w
  | .inr (.emitEvent _ _ _ _),w => ((.ok () : Except String Unit),w)
  | .inr .nodeCursor,w => ((.ok 0 : Except String Nat),w)
  | .inr (.proposeCompletion _ _),w => ((.ok proposal : Except String Envelope),w)

theorem playedBetween {α : Type} {i : Who} (n : Nat) (script : Dialog α) (w : World) :
    Between w (play (fun q w => respond i (drawn w) w q) n script w).2.2 := by
  induction n generalizing script w with
  | zero => cases script <;> exact .refl
  | succ n ih =>
    cases script with
    | done | fail => exact .refl
    | ask q next => exact .head (.asks i (drawn w) w q) (ih _ _)

theorem workedBetween (members : List (Member Question Answer String StepOutcome)) (w : World) :
    Between w (worked members w).2 := by
  induction members generalizing w with
  | nil => exact .refl
  | cons m rest ih => exact (playedBetween 100 m.2 w).trans (ih _)

theorem answeredAllowed : (q : KernelQuestion ⊕ Report) → (w : World) →
    (environment ⟨0,0⟩).answers q w (answered q w).1 (answered q w).2
  | .inl (.inl _),w => ⟨drawn w,rfl⟩
  | .inl (.inr members),w => workedBetween members w
  | .inr (.emitEvent _ _ _ _),_ => rfl
  | .inr .nodeCursor,_ => rfl
  | .inr (.proposeCompletion _ _),_ => rfl

theorem answeredRuns {α : Type} (n : Nat) (q : Reported α) (w : World) :
    Run (environment ⟨0,0⟩) q w (play answered n q w).1 (play answered n q w).2.1
      (play answered n q w).2.2 :=
  playRuns (fun _ => show Between _ _ from .refl) answeredAllowed n q w

def leasedOffer : Json := .object
  [("runId",.string "run"),("taskId",.string "task"),("taskRevision",.nat 1),
   ("lease",.object [("leaseId",.string "lease")]),
   ("planRevision",.object [("digest",.string "digest"),("baseCommit",.string "main")])]

def leasedPlan : Json := .object
  [("goal",.string "Fix the parser"),("repo",.string "/repo"),("agent",.string "codex")]

def crew : Options := ⟨"worker-2",1000,fun _ => true⟩

def creation (db : ControlCenterDb) :=
  play answered 100 (createOwn leasedOffer 0 "lease" leasedPlan) (idleWorld db)

def execution (db : ControlCenterDb) :=
  play answered 100 (runCreated SessionRuns.idlePlatform crew leasedOffer 0 "task_own")
    (creation db).2.2

def createsOwn (db : ControlCenterDb) : Bool := match (creation db).2.1 with
  | some (.ok taskId) => taskId == "task_own"
  | _ => false

theorem createdOwn {db : ControlCenterDb} (created : createsOwn db = true) :
    (creation db).2.1 = some (.ok "task_own") := by
  unfold createsOwn at created
  split at created
  · rename_i taskId made
    rw [made,beq_iff_eq.mp created]
  · exact absurd created Bool.false_ne_true

theorem leaseFound : (Connection.fresh.accept leasedOffer leasedPlan).accepted.lookup "lease" =
    some ⟨leasedOffer,leasedPlan⟩ := AList.lookup_insert Connection.fresh.accepted

theorem creationRuns {db : ControlCenterDb} (created : createsOwn db = true) :
    Run (environment ⟨0,0⟩) (createOwn leasedOffer 0 "lease" leasedPlan) (idleWorld db)
      (creation db).1 (some (.ok "task_own")) (creation db).2.2 := by
  rw [← createdOwn created]
  exact answeredRuns 100 (createOwn leasedOffer 0 "lease" leasedPlan) (idleWorld db)

theorem executionRuns {db : ControlCenterDb} (created : createsOwn db = true) :
    Run (environment ⟨0,0⟩) (executeAccepted SessionRuns.idlePlatform crew 0
      (Connection.fresh.accept leasedOffer leasedPlan) "lease") (idleWorld db)
      ((creation db).1 ++ (execution db).1) (execution db).2.1 (execution db).2.2 := by
  unfold executeAccepted
  rw [leaseFound]
  exact (creationRuns created).bind (answeredRuns 100 (runCreated SessionRuns.idlePlatform crew
    leasedOffer 0 "task_own") (creation db).2.2)

def ownFirst (db : ControlCenterDb) : Bool := (execution db).2.1.isSome &&
  (execution db).1.all fun e => e.answer.isOk && ((claimOf e).isNone ||
    (nextQueued e.now.db).map TaskRow.id == some "task_own")

def startsFreely (db : ControlCenterDb) : Bool := (execution db).1.head?.all fun e => !stopTold e

theorem leasedDigestible : Digestible leasedOffer := by
  unfold Digestible
  decide +kernel

theorem creationCreated {db : ControlCenterDb} (created : createsOwn db = true) :
    Created SessionRuns.idlePlatform crew 0 ⟨0,0⟩ (Connection.fresh.accept leasedOffer leasedPlan)
      "lease" (idleWorld db) ((creation db).1 ++ (execution db).1) (execution db).2.1
      (execution db).2.2 ⟨leasedOffer,leasedPlan⟩ "task_own" (creation db).2.2 (creation db).1
      (execution db).1 where
  accepted := leaseFound
  parts := rfl
  none := plainLog (asksBind (plainReport _) fun _ => plainKernel (plainInput _))
    (creationRuns created)
  created := creationRuns created
  rest := answeredRuns 100 (runCreated SessionRuns.idlePlatform crew leasedOffer 0 "task_own")
    (creation db).2.2

theorem firstClaimed {db : ControlCenterDb} (own : ownFirst db = true) :
    FirstAtClaim "task_own" (execution db).1 := by
  intro e listed claim
  have each := List.all_eq_true.mp (Bool.and_eq_true_iff.mp own).2 e listed
  rcases Bool.or_eq_true_iff.mp (Bool.and_eq_true_iff.mp each).2 with none | first
  · exact absurd (Option.isNone_iff_eq_none.mp none) claim
  · exact beq_iff_eq.mp first

theorem executionUndisturbed {db : ControlCenterDb} (own : ownFirst db = true)
    (running : startsFreely db = true) {ended : Except String ExecutionOutcome}
    (same : (execution db).2.1 = some ended) :
    Undisturbed SessionRuns.idlePlatform crew leasedOffer 0 ⟨0,0⟩ "task_own" (creation db).2.2
      (execution db).1 ended (execution db).2.2 where
  run := by
    rw [← same]
    exact playRuns (E := sparing ⟨0,0⟩ "task_own") (fun _ => ⟨.refl,rfl⟩) answeredAllowed 100 (runCreated SessionRuns.idlePlatform
      crew leasedOffer 0 "task_own") (creation db).2.2
  replied e listed := (Bool.and_eq_true_iff.mp
    (List.all_eq_true.mp (Bool.and_eq_true_iff.mp own).2 e listed)).1
  unstopped e listed := by
    unfold startsFreely at running
    rw [show (execution db).1.head? = some e from listed] at running
    exact Bool.not_eq_true' _ ▸ running

theorem loneTaskExecuted : ∃ ended, (execution .empty).2.1 = some ended ∧
    RunsOwn SessionRuns.idlePlatform crew leasedOffer 0 ⟨0,0⟩ "task_own" (execution .empty).1
      (execution .empty).2.1 (execution .empty).2.2 ∧
    Proposes SessionRuns.idlePlatform crew leasedOffer 0 ⟨0,0⟩ "task_own" (execution .empty).1
      ended := by
  have checked : (createsOwn .empty && (ownFirst .empty && startsFreely .empty)) = true := by
    decide +kernel
  obtain ⟨created,checked⟩ := Bool.and_eq_true_iff.mp checked
  obtain ⟨own,running⟩ := Bool.and_eq_true_iff.mp checked
  obtain ⟨ended,same⟩ := Option.isSome_iff_exists.mp (Bool.and_eq_true_iff.mp own).1
  obtain ⟨runs,proposes⟩ := (ownTaskExecuted (executionRuns created)).2 _ _ _ _ _
    (creationCreated created)
  exact ⟨ended,same,runs.mpr (firstClaimed own),(proposes emptyPlanned leasedDigestible ended same
    (executionUndisturbed own running same)).mpr (firstClaimed own)⟩

def queuedBefore : ControlCenterDb := RunLogic.reach DbRuns.turn .empty
  [⟨⟨1000,"1"⟩,.createTask TaskRecovery.crashedInput TaskRecovery.crashedPlan⟩]

def claims (db : ControlCenterDb) (taskId : String) : Bool :=
  (execution db).1.any fun e => claimOf e == some (some taskId)

def mismatched (db : ControlCenterDb) : Bool := match (execution db).2.1 with
  | some (.error error) => error == "kernel did not execute the task created for this offer"
  | _ => false

theorem olderTaskExecuted :
    (creation queuedBefore).2.1 = some (.ok "task_own") ∧
    Run (environment ⟨0,0⟩) (executeAccepted SessionRuns.idlePlatform crew 0
      (Connection.fresh.accept leasedOffer leasedPlan) "lease") (idleWorld queuedBefore)
      ((creation queuedBefore).1 ++ (execution queuedBefore).1) (execution queuedBefore).2.1
      (execution queuedBefore).2.2 ∧ mismatched queuedBefore = true ∧
    ¬RunsOwn SessionRuns.idlePlatform crew leasedOffer 0 ⟨0,0⟩ "task_own"
      (execution queuedBefore).1 (execution queuedBefore).2.1 (execution queuedBefore).2.2 := by
  have checked : (createsOwn queuedBefore && (claims queuedBefore "task_1" &&
      mismatched queuedBefore)) = true := by decide +kernel
  obtain ⟨created,checked⟩ := Bool.and_eq_true_iff.mp checked
  obtain ⟨claimed,failed⟩ := Bool.and_eq_true_iff.mp checked
  refine ⟨createdOwn created,executionRuns created,failed,fun own => ?_⟩
  obtain ⟨e,listed,same⟩ := List.any_eq_true.mp claimed
  have other := own.claims e listed _ (beq_iff_eq.mp same)
  exact absurd other (by decide)

end ControlCenter.AcceptedProgress
