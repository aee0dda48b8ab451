import ControlCenter.CoordinatorBridge
import ControlCenter.ExecutionProgress
import ControlCenter.Interference
import ControlCenter.SessionRuns
import ControlCenter.TaskRecovery

/-! The execution of an accepted lease. Its task goes through the queue that all workers
share; what came of it is mirrored and proposed through the session. -/
namespace ControlCenter.AcceptedExecution
open JsonValue AccpEnvelope Protocol Table Db Dialogue Reliance Ports Coordinator Execution
open Operations ControlCenter.System ScriptRuns ExecutionQuestions Interference Session
open CoordinatorBridge

inductive Report where
  | emitEvent (kind : String) (data : List (String × Json)) (ids : EventIds) (now : Int)
  | nodeCursor
  | proposeCompletion (payload : Json) (now : Int)

def ReportAnswer : Report → Type
  | .emitEvent .. => Unit
  | .nodeCursor => Nat
  | .proposeCompletion .. => Envelope

abbrev KernelQuestion := Joint Question Answer String StepOutcome
abbrev KernelAnswer := JointAnswer Question Answer String StepOutcome
abbrev Reported (α : Type) := Script (KernelQuestion ⊕ Report) (Sum.elim KernelAnswer ReportAnswer) α

def kernel {α : Type} (p : TaskCrew α) : Reported α := within p

def report (r : Report) : Reported (ReportAnswer r) :=
  .ask (Sum.inr r) Script.ofExcept

structure ExecutionOutcome where
  runResult : RunTaskResult
  localTaskId : String
  completionEnvelope : Envelope

def given (key : String) (plan : Json) : List (String × Json) := match plan.get key with
  | .undefined => []
  | value => [(key,value)]

def taskInput (offer plan : Json) : Json := .object
  ([("goal",plan.get "goal"),("repo",plan.get "repo"),("agent",plan.get "agent"),
    ("baseRef",.string (baseCommitOf offer))] ++ given "context" plan ++
    given "successCriteria" plan ++ given "verificationCommand" plan)

def evidenceOf (run : RunRow) : Json := .object
  [("localRunId",.string run.id),("status",.string run.status.text),
   ("exitCode",optionalInt run.exitCode),("resultPath",orNull run.resultPath),
   ("usageJson",orNull run.usageJson)]

def completionOutcome (result : RunTaskResult) : String :=
  if result.status = .blocked then "failed" else "succeeded"

def idsOf (offer : Json) : EventIds := ⟨some (textAt "runId" offer),some (textAt "taskId" offer)⟩

def planRevisionDigest (offer : Json) : Json := (offer.get "planRevision").get "digest"

section
variable (p : Platform) (o : Options) (offer : Json) (now : Int)

def sha256Hex (value : Json) : Except String String := (canonicalJson p value).map p.sha256Hex

def completionBasis (outcome evidenceManifestDigest : String) : Json := .object
  [("runId",offer.get "runId"),("taskRevision",offer.get "taskRevision"),
   ("planRevisionDigest",planRevisionDigest offer),("outcome",.string outcome),
   ("evidenceManifestDigest",.string evidenceManifestDigest)]

def completionPayload (outcome completionDigest evidenceManifestDigest : String)
    (finalCursor : Nat) : Json := .object
  [("runId",offer.get "runId"),("taskId",offer.get "taskId"),
   ("taskRevision",offer.get "taskRevision"),("planRevisionDigest",planRevisionDigest offer),
   ("outcome",.string outcome),("completionDigest",.string completionDigest),
   ("evidenceManifestDigest",.string evidenceManifestDigest),("finalCursor",.nat finalCursor)]

def mirrorEvents (taskId : String) : List EventRow → Reported Unit
  | [] => pure ()
  | event::rest => do
      let _ : Unit ← report (.emitEvent s!"kernel.{event.type}"
        [("localTaskId",.string taskId),("localEventId",.nat event.id)] (idsOf offer) now)
      mirrorEvents taskId rest

def propose (taskId : String) (runResult : RunTaskResult) (runs : List RunRow) :
    Reported ExecutionOutcome := do
  let outcome := completionOutcome runResult
  let evidenceManifestDigest ← Script.ofExcept (sha256Hex p (.array (runs.map evidenceOf)))
  let completionDigest ← Script.ofExcept (sha256Hex p
    (completionBasis offer outcome evidenceManifestDigest))
  let finalCursor : Nat ← report .nodeCursor
  let envelope : Envelope ← report (.proposeCompletion
    (completionPayload offer outcome completionDigest evidenceManifestDigest finalCursor) now)
  pure ⟨runResult,taskId,envelope⟩

def reportExecution (taskId : String) (runResult : RunTaskResult) : Reported ExecutionOutcome := do
  match ← kernel (getTask taskId).alone with
  | none => .fail "executed task disappeared"
  | some aggregate => do
      let events ← kernel (reading (listEvents taskId)).alone
      mirrorEvents offer now taskId events
      let _ : Unit ← report (.emitEvent "run.completion_proposed"
        [("localTaskId",.string taskId),("status",.string runResult.status.text)] (idsOf offer) now)
      propose p offer now taskId runResult aggregate.runs

def runCreated (taskId : String) : Reported ExecutionOutcome := do
  match ← kernel (runNext o) with
  | none => .fail "kernel did not execute the task created for this offer"
  | some runResult =>
    if runResult.taskId = taskId then reportExecution p offer now taskId runResult
    else .fail "kernel did not execute the task created for this offer"

def createOwn (leaseId : String) (plan : Json) : Reported String := do
  let _ : Unit ← report (.emitEvent "run.started"
    [("leaseId",.string leaseId),("planRevisionDigest",planRevisionDigest offer)] (idsOf offer) now)
  kernel (createTask (taskInput offer plan)).alone

def executeAccepted (c : Connection) (leaseId : String) : Reported ExecutionOutcome :=
  match c.accepted.lookup leaseId with
  | none => .fail s!"no accepted offer for lease {leaseId}"
  | some entry => do
      let taskId ← createOwn entry.offer now leaseId entry.plan
      runCreated p o entry.offer now taskId

end

-- The members of a group act between the question and the answer, and so may all others.
def environment (thread : ThreadId) :
    Environment (KernelQuestion ⊕ Report) (Sum.elim KernelAnswer ReportAnswer) World where
  moves := Between
  answers
    | .inl (.inl q),now,r,after => ∃ c, respond ⟨thread,none⟩ c now q = (r,after)
    | .inl (.inr _),now,_,after => Between now after
    | .inr _,now,_,after => after = now

abbrev Logged := Entry (KernelQuestion ⊕ Report) (Sum.elim KernelAnswer ReportAnswer) World

def claimOf : Logged → Option (Option String)
  | ⟨_,.inl (.inl (.claimNextTask _)),.ok claimed⟩ => some claimed
  | _ => none

def Plain : Question → Prop
  | .claimNextTask _ => False
  | _ => True

def PlainJoint : KernelQuestion → Prop
  | .inl q => Plain q
  | .inr _ => True

def PlainReported : KernelQuestion ⊕ Report → Prop
  | .inl q => PlainJoint q
  | .inr _ => True

theorem plainUnclaimed {e : Logged} (plain : PlainReported e.question) : claimOf e = none := by
  obtain ⟨now,q,r⟩ := e
  unfold claimOf
  split
  · rename_i same
    cases same
    exact plain.elim
  · rfl

theorem plainKernel {α : Type} {p : Dialog α} (h : Asks Plain p) :
    Asks PlainReported (kernel p.alone) :=
  asksWithin (fun _ plain => plain) (asksAlone (fun _ plain => plain) h)

theorem plainRecall {α : Type} (f : Memory → α) : Asks Plain (recalled f) :=
  asksBind (asksCall trivial) fun _ => asksDone _

theorem plainCloses {q : Question} (closes : Closes q) : Plain q := by
  cases q <;> trivial

theorem plainPublish (input : EventInput) : Asks Plain (publish input) :=
  asksMono (fun _ => plainCloses) (closesPublish input)

theorem plainGetTask (taskId : String) : Asks Plain (getTask taskId) := asksGetTask trivial taskId

theorem plainShutdown (taskId : String) (outcomes : List StepOutcome) :
    Asks Plain (blockForShutdown taskId outcomes) :=
  asksMono (fun _ => plainCloses) (closesInterrupted taskId outcomes)

theorem plainFailure (taskId : String) (failure : StepOutcome) (outcomes : List StepOutcome) :
    Asks Plain (blockForFailure taskId failure outcomes) :=
  asksMono (fun _ => plainCloses) (closesFailure taskId failure outcomes)

theorem plainFinish (taskId : String) (outcomes : List StepOutcome) :
    Asks Plain (finishExecution taskId outcomes) :=
  asksMono (fun _ => plainCloses) (closesFinish taskId outcomes)

theorem jointAlone {α : Type} {p : Dialog α} (h : Asks Plain p) :
    Asks PlainJoint (p.alone : TaskCrew α) := asksAlone (fun _ plain => plain) h

theorem plainSequences (o : Options) (task : TaskRow) (pending : List RouteStepRow)
    (sequences : List Nat) (c : Carried) :
    Asks PlainJoint (runSequences o task pending sequences c) := by
  induction sequences generalizing c with
  | nil => exact jointAlone (plainFinish _ _)
  | cons sequence rest ih =>
    refine asksBind (jointAlone (plainRecall _)) fun stopping => ?_
    split
    · exact jointAlone (plainShutdown _ _)
    refine asksBind ⟨trivial,fun r => ?_⟩ fun groupOutcomes =>
      asksBind (jointAlone (plainRecall _)) fun stopping => ?_
    · cases r <;> trivial
    split
    · exact jointAlone (plainShutdown _ _)
    · split
      · exact jointAlone (plainFailure _ _ _)
      · exact ih _

theorem plainExecute (o : Options) (taskId : String) :
    Asks PlainJoint (executeTask o taskId) := by
  refine asksBind (jointAlone (plainGetTask taskId)) fun aggregate => ?_
  cases aggregate with
  | none => exact asksFail _
  | some aggregate =>
    dsimp only
    split
    · exact asksFail _
    split
    · exact asksFail _
    refine asksBind (jointAlone (plainRecall _)) fun stopping => ?_
    split
    · exact jointAlone (plainShutdown _ _)
    · exact asksBind (jointAlone (asksCall trivial)) fun _ => plainSequences ..

theorem plainReport (r : Report) : Asks PlainReported (report r) :=
  ⟨trivial,fun answer => by cases answer <;> trivial⟩

theorem plainMirror (offer : Json) (now : Int) (taskId : String) (events : List EventRow) :
    Asks PlainReported (mirrorEvents offer now taskId events) := by
  induction events with
  | nil => trivial
  | cons event rest ih => exact asksBind (plainReport _) fun _ => ih

theorem plainPropose (p : Platform) (offer : Json) (now : Int) (taskId : String)
    (runResult : RunTaskResult) (runs : List RunRow) :
    Asks PlainReported (propose p offer now taskId runResult runs) :=
  asksBind (asksExcept _) fun _ => asksBind (asksExcept _) fun _ =>
    asksBind (plainReport _) fun _ => asksBind (plainReport _) fun _ => asksDone _

theorem plainReporting (p : Platform) (offer : Json) (now : Int) (taskId : String)
    (runResult : RunTaskResult) : Asks PlainReported (reportExecution p offer now taskId runResult) := by
  refine asksBind (plainKernel (plainGetTask taskId)) fun aggregate => ?_
  cases aggregate with
  | none => exact asksFail _
  | some aggregate =>
    exact asksBind (plainKernel (asksReading trivial _)) fun _ => asksBind (plainMirror ..) fun _ =>
      asksBind (plainReport _) fun _ => plainPropose ..

theorem plainInput (input : Json) : Asks Plain (createTask input) := by
  refine asksBind (asksExcept _) fun parsed => asksBind (asksCall trivial) fun repo =>
    asksBind (asksCall trivial) fun uuid => asksBind (asksCall trivial) fun id =>
    asksBind (plainGetTask _) fun created => ?_
  cases created with
  | none => exact asksFail _
  | some created => exact asksBind (plainPublish _) fun _ => asksDone _

def About (taskId : String) (result : RunTaskResult) : Prop := result.taskId = taskId

theorem returnsGetTask (taskId : String) :
    Returns (fun found => ∀ aggregate, found = some aggregate → aggregate.task.id = taskId)
      (getTask taskId) := by
  have keyed : Returns (fun found => ∀ row : TaskRow, found = some row → row.id = taskId)
      (reading fun db => db.tasks.get taskId) := by
    intro r
    cases r with
    | error error => trivial
    | ok db => exact fun row found => (getSome.mp found).2
  refine returnsBind keyed fun found known => ?_
  cases found with
  | none => exact fun aggregate found => nomatch found
  | some row =>
    refine returnsAfter fun _ => returnsAfter fun _ => returnsAfter fun _ =>
      returnsAfter fun _ => returnsAfter fun _ => returnsAfter fun _ => ?_
    intro aggregate found
    cases Option.some.inj found
    exact known row rfl

theorem returnsShutdown (taskId : String) (outcomes : List StepOutcome) :
    Returns (About taskId) (blockForShutdown taskId outcomes) := by
  refine returnsAfter fun handoff => returnsAfter fun aggregate => ?_
  cases aggregate with
  | none => exact returnsAfter fun _ => rfl
  | some aggregate =>
    dsimp only
    split
    · exact returnsAfter fun _ => returnsAfter fun _ => rfl
    · exact returnsAfter fun _ => rfl

theorem returnsFailure (taskId : String) (failure : StepOutcome) (outcomes : List StepOutcome) :
    Returns (About taskId) (blockForFailure taskId failure outcomes) :=
  returnsAfter fun _ => returnsAfter fun _ => returnsAfter fun _ => rfl

theorem returnsFinish (taskId : String) (outcomes : List StepOutcome) :
    Returns (About taskId) (finishExecution taskId outcomes) := by
  refine returnsAfter fun stopping => ?_
  split
  · exact returnsShutdown taskId outcomes
  · refine returnsAfter fun aggregate => ?_
    cases aggregate with
    | none => trivial
    | some refreshed =>
      refine returnsAfter fun handoff => ?_
      cases handoff <;> exact returnsAfter fun _ => returnsAfter fun _ => rfl

theorem returnsSequences (o : Options) (task : TaskRow) (pending : List RouteStepRow)
    (sequences : List Nat) (c : Carried) :
    Returns (About task.id) (runSequences o task pending sequences c) := by
  induction sequences generalizing c with
  | nil => exact returnsAlone (returnsFinish _ _)
  | cons sequence rest ih =>
    refine returnsAfter fun stopping => ?_
    split
    · exact returnsAlone (returnsShutdown _ _)
    refine returnsAfter fun groupOutcomes => returnsAfter fun stopping => ?_
    split
    · exact returnsAlone (returnsShutdown _ _)
    · split
      · exact returnsAlone (returnsFailure _ _ _)
      · exact ih _

theorem returnsExecute (o : Options) (taskId : String) :
    Returns (About taskId) (executeTask o taskId) := by
  refine returnsBind (returnsAlone (returnsGetTask taskId)) fun aggregate known => ?_
  cases aggregate with
  | none => trivial
  | some aggregate =>
    dsimp only
    split
    · trivial
    split
    · trivial
    refine returnsAfter fun stopping => ?_
    split
    · exact returnsAlone (returnsShutdown _ _)
    · refine returnsAfter fun _ => ?_
      rw [← known aggregate rfl,← ExecutionProgress.executionTaskId]
      exact returnsSequences ..

section
variable {p : Platform} {o : Options} {offer : Json} {now : Int} {thread : ThreadId}
  {taskId : String} {w last : World} {log : List Logged}

def executeOwn (p : Platform) (o : Options) (offer : Json) (now : Int) (taskId : String) :
    Reported ExecutionOutcome := do
  let _ ← kernel (getTask taskId).alone
  let runResult ← kernel (executeTask o taskId)
  reportExecution p offer now taskId runResult

def mismatch : Reported ExecutionOutcome :=
  .fail "kernel did not execute the task created for this offer"

def executeClaimed (p : Platform) (o : Options) (offer : Json) (now : Int) (taskId : String) :
    Option String → Reported ExecutionOutcome
  | none => mismatch
  | some claimed => do
      match ← kernel (getTask claimed).alone with
      | none => mismatch
      | some aggregate => do
          let runResult ← kernel (executeTask o aggregate.task.id)
          if runResult.taskId = taskId then reportExecution p offer now taskId runResult
          else mismatch

theorem runCreatedParts : runCreated p o offer now taskId = (do
    if ← kernel shutdownRequested.alone then mismatch
    else do
      let claimed ← kernel (ask (.claimNextTask o.workerId)).alone
      executeClaimed p o offer now taskId claimed) := by
  unfold runCreated runNext claimNext kernel
  simp only [withinBind,scriptAssoc,aloneBind]
  congr 1
  funext stopping
  split
  · rfl
  simp only [withinBind,scriptAssoc]
  congr 1
  funext claimed
  cases claimed with
  | none => rfl
  | some claimed =>
    simp only [aloneBind,withinBind,scriptAssoc]
    unfold executeClaimed kernel
    dsimp only
    congr 1
    funext aggregate
    cases aggregate with
    | none => rfl
    | some aggregate =>
      show within (executeTask o aggregate.task.id >>= fun r => pure (some r)) >>= _ = _
      rw [withinBind,scriptAssoc]
      rfl

theorem turnsKept {α : Type} {q : Reported α} {outcome : Option (Except String α)}
    {P : ControlCenterDb → Prop} (turns : ∀ db t, P db → P (DbRuns.turn db t))
    (run : Run (environment thread) q w log outcome last) (start : P w.db) :
    P last.db ∧ ∀ e ∈ log, P e.now.db := by
  refine run.kept (P := fun w => P w.db) (fun _ _ moved => betweenKept turns moved)
    (fun q now r after answered => ?_) start
  match q with
  | .inl (.inl q) =>
    obtain ⟨c,answered⟩ := answered
    rw [← (Prod.mk.inj answered).2]
    exact actsKept turns (.asks ⟨thread,none⟩ c now q)
  | .inl (.inr members) => exact betweenKept turns answered
  | .inr r =>
    cases answered
    exact fun held => held

theorem snapshotAnswer {c : Choice} {i : Who} {r : Except String ControlCenterDb}
    {after : World} (answered : respond i c w .snapshot = (r,after)) :
    after = w ∧ ∀ db, r = .ok db → db = w.db := by
  unfold respond at answered
  split at answered
  · obtain ⟨rfl,rfl⟩ := Prod.mk.inj answered
    exact ⟨rfl,fun db same => nomatch same⟩
  · obtain ⟨rfl,rfl⟩ := Prod.mk.inj answered
    exact ⟨rfl,fun db same => (Except.ok.inj same).symm⟩

theorem readingRun {α : Type} {f : ControlCenterDb → α} {a : α}
    (run : Run (environment thread) (kernel (reading f).alone) w log (some (.ok a)) last) :
    Between w last ∧ a = f last.db ∧ ∃ e ∈ log, e.now.db = last.db := by
  generalize same : (kernel (reading f).alone : Reported α) = script at run
  cases run with
  | done a w => cases same
  | @ask q next w now after last r log outcome moved answered rest =>
    cases same
    obtain ⟨c,answered⟩ := answered
    obtain ⟨rfl,read⟩ := snapshotAnswer answered
    cases r with
    | error error =>
      have failed : Run (environment thread) (.fail error : Reported α) after log (some (.ok a))
        last := rest
      cases failed
    | ok db =>
      cases read db rfl
      have ended : Run (environment thread) (.done (f after.db) : Reported α) after log
        (some (.ok a)) last := rest
      cases ended
      exact ⟨moved,rfl,_,List.mem_singleton_self _,rfl⟩

theorem readBack {id : String} (there : w.db.hasTask id = true)
    (run : Run (environment thread) (kernel (getTask id).alone) w log (some (.ok none)) last) :
    False := by
  unfold kernel getTask at run
  rw [aloneBind,withinBind] at run
  cases run.split with
  | first stopped => cases stopped
  | failed error stopped => cases stopped
  | second found mid front back parts read rest =>
    obtain ⟨between,rfl,_⟩ := readingRun read
    have kept : mid.db.hasTask id = true := (turnsKept (taskStays id) read there).1
    unfold ControlCenterDb.hasTask at kept
    cases held : mid.db.tasks.get id with
    | none =>
      rw [held] at kept
      cases kept
    | some row =>
      rw [held] at rest
      have returned : Returns (fun found : Option TaskAggregate => found ≠ none) (do
          let routeSteps ← reading (listRouteSteps id)
          let runs ← reading (listRuns id)
          let artifacts ← reading (DbReviews.listArtifacts id)
          let messages ← reading (DbReviews.listMessages id)
          let reviews ← reading (DbReviews.listReviews id)
          let _ ← Script.ofExcept (checkPlan
            ⟨row.mode,row.risk,row.reasons,routeSteps.map routeStepOf⟩)
          pure (some ⟨taskFromRow row,routeSteps,runs,artifacts,messages,reviews⟩)) :=
        returnsAfter fun _ => returnsAfter fun _ => returnsAfter fun _ => returnsAfter fun _ =>
          returnsAfter fun _ => returnsAfter fun _ => Option.some_ne_none _
      exact rest.returns (returnsWithin (returnsAlone returned)) rfl

theorem kernelBind {α β : Type} {q : Dialog α} {f : α → Dialog β} :
    kernel (q >>= f).alone = kernel q.alone >>= fun a => kernel (f a).alone := by
  unfold kernel
  rw [aloneBind,withinBind]

theorem aggregateRead {id : String} {aggregate : TaskAggregate}
    (run : Run (environment thread) (kernel (getTask id).alone) w log
      (some (.ok (some aggregate))) last) :
    ∃ e ∈ log, aggregate.runs = listRuns id e.now.db := by
  unfold getTask at run
  rw [kernelBind] at run
  obtain ⟨found,mid,front,back,rfl,_,rest⟩ := run.passed
  cases found with
  | none => cases rest
  | some row =>
    dsimp only at rest
    rw [kernelBind] at rest
    obtain ⟨routeSteps,mid,_,rest,rfl,_,run⟩ := rest.passed
    rw [kernelBind] at run
    obtain ⟨runs,mid,read,rest,rfl,reads,run⟩ := run.passed
    obtain ⟨_,rfl,e,listed,same⟩ := readingRun reads
    refine ⟨e,by simp [listed],?_⟩
    rw [same]
    have returned : Returns (fun found : Option TaskAggregate => ∀ aggregate,
        found = some aggregate → aggregate.runs = listRuns id mid.db) (do
          let artifacts ← reading (DbReviews.listArtifacts id)
          let messages ← reading (DbReviews.listMessages id)
          let reviews ← reading (DbReviews.listReviews id)
          let _ ← Script.ofExcept (checkPlan
            ⟨row.mode,row.risk,row.reasons,routeSteps.map routeStepOf⟩)
          pure (some ⟨taskFromRow row,routeSteps,listRuns id mid.db,artifacts,messages,
            reviews⟩)) := by
      refine returnsAfter fun _ => returnsAfter fun _ => returnsAfter fun _ =>
        returnsAfter fun _ => ?_
      intro aggregate same
      rw [← Option.some.inj same]
    exact run.returns (returnsWithin (returnsAlone returned)) aggregate rfl

theorem claimAnswer {c : Choice} {i : Who} {workerId : String} {claimed : Option String}
    {after : World} (answered : respond i c w (.claimNextTask workerId) = (.ok claimed,after)) :
    claimed = (nextQueued w.db).map TaskRow.id ∧
      ∀ id, claimed = some id → after.db.hasTask id = true := by
  have source : claimed = (nextQueued w.db).map TaskRow.id := by
    have performed := storedPerformed (respondAnswer answered)
    unfold Db.claimNextTask at performed
    split at performed
    next none =>
      rw [none]
      exact (Prod.mk.inj (Except.ok.inj performed)).1.symm
    next candidate chosen =>
      obtain ⟨_,_,performed⟩ := exceptBind performed
      rw [chosen]
      exact (Prod.mk.inj (Except.ok.inj performed)).1.symm
  refine ⟨source,fun id same => ?_⟩
  subst source
  obtain ⟨row,chosen,rfl⟩ := Option.map_eq_some_iff.mp same
  have there : w.db.hasTask row.id = true := by
    unfold ControlCenterDb.hasTask
    rw [show w.db.tasks.get row.id = some row from getMem (DbRuns.nextQueuedSource chosen).1]
    rfl
  have kept := actsKept (taskStays row.id) (.asks i c w (.claimNextTask workerId)) there
  rwa [answered] at kept

theorem plainClaimed (claimed : Option String) :
    Asks PlainReported (executeClaimed p o offer now taskId claimed) := by
  cases claimed with
  | none => exact asksFail _
  | some claimed =>
    refine asksBind (plainKernel (plainGetTask claimed)) fun aggregate => ?_
    cases aggregate with
    | none => exact asksFail _
    | some aggregate =>
      refine asksBind (asksWithin (fun _ plain => plain) (plainExecute o _)) fun runResult => ?_
      split
      · exact plainReporting ..
      · exact asksFail _

def Unclaimed (log : List Logged) : Prop := ∀ e ∈ log, claimOf e = none

theorem plainLog {α : Type} {q : Reported α} {outcome : Option (Except String α)}
    (plain : Asks PlainReported q) (run : Run (environment thread) q w log outcome last) :
    Unclaimed log := fun e listed => plainUnclaimed (run.asked plain e listed)

theorem unclaimedAppend {front back : List Logged} (first : Unclaimed front)
    (rest : Unclaimed back) : Unclaimed (front ++ back) := by
  intro e listed
  rcases List.mem_append.mp listed with listed | listed
  · exact first e listed
  · exact rest e listed

def claimEntry (workerId : String) (now : World) (claimed : Option String) : Logged :=
  ⟨now,.inl (.inl (.claimNextTask workerId)),.ok claimed⟩

theorem cutOnce {front back front' back' : List Logged} {e e' : Logged}
    (parts : front ++ e :: back = front' ++ e' :: back') (first : Unclaimed front)
    (rest : Unclaimed back) (claim : claimOf e' ≠ none) : back' = back := by
  rcases List.append_eq_append_iff.mp parts with ⟨skipped,rfl,same⟩ | ⟨skipped,rfl,same⟩
  · cases skipped with
    | nil => exact (List.cons.inj same).2.symm
    | cons x skipped =>
      rw [(List.cons.inj same).2] at rest
      exact absurd (rest e' (by simp)) claim
  · cases skipped with
    | nil => exact (List.cons.inj same).2
    | cons x skipped =>
      rw [← (List.cons.inj same).1] at first
      exact absurd (first e' (by simp)) claim

inductive Stands (p : Platform) (o : Options) (offer : Json) (now : Int) (thread : ThreadId)
    (taskId : String) (log : List Logged) (outcome : Option (Except String ExecutionOutcome))
    (last : World) : Prop
  | unclaimed (none : Unclaimed log) (unreturned : ∀ out, outcome ≠ some (.ok out))
  | claimed (front back : List Logged) (before after : World) (c : Choice) (claimed : Option String)
      (parts : log = front ++ claimEntry o.workerId before claimed :: back)
      (none : Unclaimed front)
      (answered : respond ⟨thread,.none⟩ c before (.claimNextTask o.workerId) = (.ok claimed,after))
      (rest : Run (environment thread) (executeClaimed p o offer now taskId claimed) after back
        outcome last)

theorem createdStands {outcome : Option (Except String ExecutionOutcome)}
    (run : Run (environment thread) (runCreated p o offer now taskId) w log outcome last) :
    Stands p o offer now thread taskId log outcome last := by
  rw [runCreatedParts] at run
  have plain : Asks Plain shutdownRequested := plainRecall _
  cases run.split with
  | first stopped run =>
    exact .unclaimed (plainLog (plainKernel plain) run) (by simp [stopped])
  | failed error stopped run =>
    exact .unclaimed (plainLog (plainKernel plain) run) (by simp [stopped])
  | second stopping mid front back parts waited rest =>
    subst parts
    have none := plainLog (plainKernel plain) waited
    split at rest
    · cases rest with
      | left => exact .unclaimed (by simpa using none) (by simp)
      | fail => exact .unclaimed (by simpa using none) (by simp)
    · generalize same : (kernel (ask (.claimNextTask o.workerId)).alone >>= fun claimed =>
        executeClaimed p o offer now taskId claimed : Reported _) = script at rest
      cases rest with
      | left => exact .unclaimed (by simpa using none) (by simp)
      | done => cases same
      | fail => cases same
      | @ask q next w before after last r log outcome moved answered rest =>
        cases same
        obtain ⟨c,answered⟩ := answered
        cases r with
        | error error =>
          have failed : Run (environment thread) (.fail error : Reported ExecutionOutcome) after
            log outcome last := rest
          have refused : Unclaimed [(⟨before,.inl (.inl (.claimNextTask o.workerId)),
              .error error⟩ : Logged)] := by
            intro e listed
            cases List.mem_singleton.mp listed
            rfl
          cases failed with
          | left => exact .unclaimed (unclaimedAppend none refused) (by simp)
          | fail => exact .unclaimed (unclaimedAppend none refused) (by simp)
        | ok claimed =>
          have rest : Run (environment thread) (executeClaimed p o offer now taskId claimed)
            after log outcome last := rest
          exact .claimed front log _ after c claimed rfl none answered rest

theorem ownClaimed {outcome : Option (Except String ExecutionOutcome)}
    (there : w.db.hasTask taskId = true)
    (run : Run (environment thread) (executeClaimed p o offer now taskId (some taskId)) w log
      outcome last) :
    Run (environment thread) (executeOwn p o offer now taskId) w log outcome last := by
  unfold executeClaimed at run
  unfold executeOwn
  cases run.split with
  | first stopped part =>
    subst stopped
    exact part.bindLeft
  | failed error stopped part =>
    subst stopped
    exact part.bindFail
  | second found mid front back parts read rest =>
    subst parts
    refine read.bind ?_
    cases found with
    | none => exact (readBack there read).elim
    | some aggregate =>
      have known : aggregate.task.id = taskId :=
        read.returns (returnsWithin (returnsAlone (returnsGetTask taskId))) aggregate rfl
      dsimp only at rest
      rw [known] at rest
      cases rest.split with
      | first stopped part =>
        subst stopped
        exact part.bindLeft
      | failed error stopped part =>
        subst stopped
        exact part.bindFail
      | second runResult mid front back parts executed later =>
        subst parts
        have about : runResult.taskId = taskId :=
          executed.returns (returnsWithin (returnsExecute o taskId))
        rw [if_pos about] at later
        exact executed.bind later

theorem reportRun {r : Report} {a : ReportAnswer r}
    (run : Run (environment thread) (report r) w log (some (.ok a)) last) :
    ∃ at', (⟨at',.inr r,.ok a⟩ : Logged) ∈ log := by
  generalize same : report r = script at run
  cases run with
  | done => cases same
  | @ask q next w now after last answer log outcome moved answered rest =>
    cases same
    cases answer with
    | error error =>
      have failed : Run (environment thread) (.fail error : Reported (ReportAnswer r)) after log
        (some (.ok a)) last := rest
      cases failed
    | ok b =>
      have ended : Run (environment thread) (.done b : Reported (ReportAnswer r)) after log
        (some (.ok a)) last := rest
      cases ended
      exact ⟨now,List.mem_singleton_self _⟩

def Proposed (p : Platform) (offer : Json) (now : Int) (taskId : String) (log : List Logged)
    (out : ExecutionOutcome) : Prop :=
  ∃ read ∈ log, ∃ evidence completion cursor at',
    sha256Hex p (.array ((listRuns taskId read.now.db).map evidenceOf)) = .ok evidence ∧
    sha256Hex p (completionBasis offer (completionOutcome out.runResult) evidence) =
      .ok completion ∧
    (⟨at',.inr (.proposeCompletion (completionPayload offer (completionOutcome out.runResult)
      completion evidence cursor) now),.ok out.completionEnvelope⟩ : Logged) ∈ log

theorem reported {runResult : RunTaskResult} {out : ExecutionOutcome}
    (run : Run (environment thread) (reportExecution p offer now taskId runResult) w log
      (some (.ok out)) last) :
    out.localTaskId = taskId ∧ out.runResult = runResult ∧ Proposed p offer now taskId log out := by
  unfold reportExecution at run
  obtain ⟨found,mid,front,back,rfl,read,rest⟩ := run.passed
  cases found with
  | none => cases rest
  | some aggregate =>
    obtain ⟨entry,listed,runs⟩ := aggregateRead read
    obtain ⟨events,mid,_,back,rfl,_,rest⟩ := rest.passed
    obtain ⟨_,mid,_,back,rfl,_,rest⟩ := rest.passed
    obtain ⟨_,mid,_,back,rfl,_,rest⟩ := rest.passed
    unfold propose at rest
    obtain ⟨evidence,mid,_,back,rfl,first,rest⟩ := rest.passed
    obtain ⟨completion,mid,_,back,rfl,second,rest⟩ := rest.passed
    obtain ⟨cursor,mid,_,back,rfl,_,rest⟩ := rest.passed
    obtain ⟨envelope,mid,_,back,rfl,proposed,rest⟩ := rest.passed
    cases rest
    obtain ⟨at',sent⟩ := reportRun proposed
    have evident := first.excepted
    rw [runs] at evident
    refine ⟨rfl,rfl,entry,List.mem_append_left _ listed,evidence,completion,cursor,at',evident,
      second.excepted,?_⟩
    iterate 7 apply List.mem_append_right
    exact List.mem_append_left _ sent

structure Executes (p : Platform) (o : Options) (offer : Json) (now : Int) (thread : ThreadId)
    (taskId : String) (log : List Logged) (out : ExecutionOutcome) : Prop where
  named : out.localTaskId = taskId
  about : out.runResult.taskId = taskId
  made : ∃ front inner back before after, log = front ++ (inner ++ back) ∧
    Run (environment thread) (kernel (executeTask o taskId)) before inner
      (some (.ok out.runResult)) after ∧
    Proposed p offer now taskId back out

structure RunsOwn (p : Platform) (o : Options) (offer : Json) (now : Int) (thread : ThreadId)
    (taskId : String) (log : List Logged) (outcome : Option (Except String ExecutionOutcome))
    (last : World) : Prop where
  claims : ∀ e ∈ log, ∀ claimed, claimOf e = some claimed → claimed = some taskId
  continues : ∀ front e back, log = front ++ e :: back → claimOf e ≠ none →
    ∃ after, Run (environment thread) (executeOwn p o offer now taskId) after back outcome last
  returns : ∀ out, outcome = some (.ok out) → Executes p o offer now thread taskId log out

def FirstAtClaim (taskId : String) (log : List Logged) : Prop :=
  ∀ e ∈ log, claimOf e ≠ none → (nextQueued e.now.db).map TaskRow.id = some taskId

theorem ownExecutes {out : ExecutionOutcome}
    (run : Run (environment thread) (executeOwn p o offer now taskId) w log (some (.ok out)) last) :
    Executes p o offer now thread taskId log out := by
  unfold executeOwn at run
  obtain ⟨_,mid,front,_,rfl,_,rest⟩ := run.passed
  obtain ⟨runResult,after,inner,back,rfl,executed,rest⟩ := rest.passed
  obtain ⟨named,rfl,proposed⟩ := reported rest
  exact ⟨named,executed.returns (returnsWithin (returnsExecute o taskId)),
    front,inner,back,mid,after,rfl,executed,proposed⟩

theorem runsFirst {outcome : Option (Except String ExecutionOutcome)}
    (stands : Stands p o offer now thread taskId log outcome last) :
    RunsOwn p o offer now thread taskId log outcome last ↔ FirstAtClaim taskId log := by
  cases stands with
  | unclaimed none unreturned =>
    refine ⟨fun _ e listed claim => absurd (none e listed) claim,fun _ => ⟨?_,?_,?_⟩⟩
    · intro e listed claimed same
      rw [none e listed] at same
      cases same
    · rintro front e back rfl claim
      exact absurd (none e (by simp)) claim
    · exact fun out same => absurd same (unreturned out)
  | claimed front back before after c claimed parts none answered rest =>
    subst parts
    obtain ⟨source,there⟩ := claimAnswer answered
    have rested : Unclaimed back := plainLog (plainClaimed claimed) rest
    have here : claimEntry o.workerId before claimed ∈
        front ++ claimEntry o.workerId before claimed :: back := by simp
    constructor
    · intro own e listed claim
      rcases List.mem_append.mp listed with listed | listed
      · exact absurd (none e listed) claim
      rcases List.mem_cons.mp listed with rfl | listed
      · rw [← own.claims _ here claimed rfl,source]
        rfl
      · exact absurd (rested e listed) claim
    · intro first
      have own : claimed = some taskId :=
        source.trans (first _ here (Option.some_ne_none claimed))
      subst own
      have ran := ownClaimed (there taskId rfl) rest
      refine ⟨?_,?_,?_⟩
      · intro e listed claimed same
        rcases List.mem_append.mp listed with listed | listed
        · rw [none e listed] at same
          cases same
        rcases List.mem_cons.mp listed with rfl | listed
        · exact (Option.some.inj same).symm
        · rw [rested e listed] at same
          cases same
      · intro front' e back' parts claim
        rw [cutOnce parts none rested claim]
        exact ⟨after,ran⟩
      · rintro out rfl
        obtain ⟨named,about,front',inner,back',before',after',rfl,executed,proposed⟩ :=
          ownExecutes ran
        exact ⟨named,about,front ++ claimEntry o.workerId before (some taskId) :: front',inner,back',before',
          after',by simp,executed,
          proposed⟩

end

end ControlCenter.AcceptedExecution
