import ControlCenter.Coordinator
import Mathlib.Data.List.Dedup
import Mathlib.Data.List.Sort

/-! The execution of one claimed task: the groups of its pending steps in order, the
worktree a later attempt may take over, the handoff, and how the task leaves `running`. -/
namespace ControlCenter.Execution
open JsonValue Protocol Table Db DbReviews Dialogue Ports Coordinator

structure TaskAggregate where
  task : TaskRow
  routeSteps : List RouteStepRow
  runs : List RunRow
  artifacts : List ArtifactRow
  messages : List MessageRow
  reviews : List ReviewRow

-- The row as a record. Its other columns hold what the payload schema once returned.
def taskFromRow (row : TaskRow) : TaskRow := {row with
  context := nonempty row.context
  verificationCommand := nonempty row.verificationCommand}

def routeStepOf (s : RouteStepRow) : RouteStep :=
  ⟨s.id,s.sequence,s.agent,s.role,s.required,s.reason⟩

-- The row first, then each list in a read of its own.
def getTask (taskId : String) : Dialog (Option TaskAggregate) := do
  match ← reading (·.tasks.get taskId) with
  | none => pure none
  | some row => do
      let routeSteps ← reading (listRouteSteps taskId)
      let runs ← reading (listRuns taskId)
      let artifacts ← reading (listArtifacts taskId)
      let messages ← reading (listMessages taskId)
      let reviews ← reading (listReviews taskId)
      let _ ← Script.ofExcept (checkPlan
        ⟨row.mode,row.risk,row.reasons,routeSteps.map routeStepOf⟩)
      pure (some ⟨taskFromRow row,routeSteps,runs,artifacts,messages,reviews⟩)

def historicalStatus : RunStatus → Option AdapterStatus
  | .succeeded => some .succeeded
  | .stopped => some .stopped
  | .failed | .stale => some .failed
  | .queued | .starting | .running => none

def historicalAdapterResult (run : RunRow) : Option PriorResult := do
  let _ ← run.finishedAt
  let status ← historicalStatus run.status
  some ⟨status,run.exitCode,run.summary.getD ""⟩

def reviewStatusText : ReviewStatus → String
  | .pending => "pending"
  | .approved => "approved"
  | .reworkRequested => "rework_requested"
  | .rejected => "rejected"

def feedback (aggregate : TaskAggregate) : List String :=
  (aggregate.reviews.filterMap fun review => (nonempty review.note).map fun note =>
    s!"Review {reviewStatusText review.status}: {note}") ++
  aggregate.messages.map fun message => s!"{message.role}: {message.body}"

def executionTask (aggregate : TaskAggregate) : TaskRow :=
  let notes := feedback aggregate
  if notes = [] then aggregate.task
  else {aggregate.task with context := some (String.intercalate "\n\n"
    (aggregate.task.context.toList ++
      "Prior attempt feedback and run-scoped messages:" :: notes.filter fun n => n != ""))}

def heartbeatExpiredRun (run : RunRow) : Bool :=
  run.error.any fun error => heartbeatExpired.toList.isPrefixOf error.toList

def suspect (run : RunRow) : Bool := run.status == .stale || heartbeatExpiredRun run

def quarantinedWorktrees (runs : List RunRow) : List String :=
  (runs.filter suspect).filterMap fun run => nonempty run.worktreePath

def reusable (quarantined : List String) (run : RunRow) : Bool :=
  (nonempty run.worktreePath).any (fun path => !quarantined.contains path) &&
    (nonempty run.branch).isSome && (nonempty run.baseCommit).isSome && !suspect run

def latestWorktreeRun (aggregate : TaskAggregate) : Option RunRow :=
  if aggregate.task.mode = .parallel then none
  else aggregate.runs.reverse.find? (reusable (quarantinedWorktrees aggregate.runs))

def takenOver (task : TaskRow) (run : RunRow) : WorktreeInfo :=
  ⟨task.id,run.id,task.repo,run.worktreePath.getD "",run.branch.getD "",task.baseRef,
    run.baseCommit.getD "",run.createdAt⟩

inductive HandoffStatus where
  | done
  | needsReview
  | blocked
  deriving DecidableEq, Repr

def HandoffStatus.text : HandoffStatus → String
  | .done => "done"
  | .needsReview => "needs-review"
  | .blocked => "blocked"

structure RunTaskResult where
  taskId : String
  status : HandoffStatus
  handoffPath : Option String
  outcomes : List StepOutcome

def firstText (default : String) (texts : List (Option String)) : String :=
  ((texts.filterMap fun t => nonempty (t.map trim)).head?).getD default

def handoffRun (run : RunRow) : List String :=
  [s!"### {run.agent.text} {run.role.text} — {run.status.text}",s!"- Run: {run.id}",
   "- Worktree: " ++ run.worktreePath.getD "n/a","- Branch: " ++ run.branch.getD "n/a",
   s!"- Exit: {exitText run.exitCode}",
   "- Summary: " ++ firstText "No summary." [run.summary,run.error],""]

def handoffBody (aggregate : TaskAggregate) (status : HandoffStatus)
    (blockedReason : Option String) : String :=
  let task := aggregate.task
  lines ([s!"# Handoff: {task.goal}","",s!"Task: {task.id}",s!"Status: {status.text}",
   s!"Repository: {task.repo}",
   "Route: " ++ String.intercalate " -> "
     (aggregate.routeSteps.map fun s => s!"{s.agent.text}:{s.role.text}"),"",
   "## Success criteria"] ++
   (if task.successCriteria = [] then ["- No explicit criteria supplied."]
    else task.successCriteria.map fun item => s!"- {item}") ++
   ["","## Runs"] ++ aggregate.runs.flatMap handoffRun ++ ["## Artifacts"] ++
   (aggregate.artifacts.map fun a => s!"- {a.kind.text}: {a.path} ({a.sizeBytes} bytes)") ++
   ["",match status with
    | .needsReview => "Decision required: APPROVE or REWORK."
    | .blocked => "Blocked: " ++ blockedReason.getD task.latestUpdate
    | .done => "All required steps completed; no handoff approval was requested.",""])

def writeHandoff (taskId : String) (status : HandoffStatus) (blockedReason : Option String) :
    Dialog (Option String) := do
  match ← getTask taskId with
  | none => pure none
  | some aggregate => match aggregate.runs.getLast? with
    | none => pure none
    | some latestRun => do
        let artifact ← ask (.writeArtifact taskId latestRun.id .handoff "handoff.md"
          (handoffBody aggregate status blockedReason))
        addFile artifact none
        pure (some artifact.path)

def taskEvent (taskId : String) (runId : Option String) (type : String) (level : EventLevel)
    (message : String) : EventInput := ⟨taskId,runId,type,level,message,none⟩

def shutdownText : String :=
  "Worker shutdown interrupted task execution; retry is explicit."

def blockForShutdown (taskId : String) (outcomes : List StepOutcome) :
    Dialog RunTaskResult := do
  let handoff ← (writeHandoff taskId .blocked (some shutdownText)).attempt
  let message := match handoff with
    | .ok _ => shutdownText
    | .error error => s!"{shutdownText} Could not persist handoff evidence: {error}"
  match ← getTask taskId with
  | some aggregate =>
    if aggregate.task.status = .running then ask (.updateTaskStatus taskId .blocked message)
    else pure ()
  | none => pure ()
  publish (taskEvent taskId none "task.blocked" .warn message)
  pure ⟨taskId,.blocked,handoff.toOption.join,outcomes⟩

def failureDetail (failure : StepOutcome) : String :=
  failure.error.getD s!"{failure.step.agent.text} {failure.step.role.text} failed"

def blockForFailure (taskId : String) (failure : StepOutcome) (outcomes : List StepOutcome) :
    Dialog RunTaskResult := do
  let detail := failureDetail failure
  let handoff ← (writeHandoff taskId .blocked (some detail)).attempt
  let message := match handoff with
    | .ok _ => detail
    | .error error => s!"{detail}; could not persist handoff evidence: {error}"
  ask (.updateTaskStatus taskId .blocked message)
  publish (taskEvent taskId (failure.run.map RunRow.id) "task.blocked" .error message)
  pure ⟨taskId,.blocked,handoff.toOption.join,outcomes⟩

def needsReview (task : TaskRow) : Bool := task.handoffRequired || task.risk == .high

def finalStatus (task : TaskRow) : FinalStatus := if needsReview task then .needsReview else .done

def FinalStatus.handoff : FinalStatus → HandoffStatus
  | .done => .done
  | .needsReview => .needsReview

def finalUpdate (task : TaskRow) : String :=
  if needsReview task then "Execution evidence is ready for human review."
  else "All required route steps completed successfully."

def finalizeExecution (refreshed : TaskAggregate) (taskId : String)
    (outcomes : List StepOutcome) : Dialog RunTaskResult := do
  let status := finalStatus refreshed.task
  let update := finalUpdate refreshed.task
  let latestRun := (refreshed.runs.reverse.find? fun run => run.status == .succeeded).map
    RunRow.id
  match ← (writeHandoff taskId (FinalStatus.handoff status) none).attempt with
  | .error error => do
      let detail := s!"Could not persist completion evidence: {error}"
      ask (.updateTaskStatus taskId .blocked detail)
      publish (taskEvent taskId latestRun "task.blocked" .error detail)
      pure ⟨taskId,.blocked,none,outcomes⟩
  | .ok handoffPath => do
      ask (.finalizeTaskExecution taskId status update latestRun)
      publish ⟨taskId,latestRun,
        if needsReview refreshed.task then "review.requested" else "task.completed",.info,update,
        (nonempty handoffPath).map fun path => .object [("handoffPath",.string path)]⟩
      pure ⟨taskId,FinalStatus.handoff status,handoffPath,outcomes⟩

structure Carried where
  outcomes : List StepOutcome
  priorResults : List PriorResult
  inheritedWorktree : Option WorktreeInfo

def succeededResult (outcome : StepOutcome) : Option PriorResult := do
  let result ← outcome.result
  if result.status = .succeeded then some ⟨result.status,result.exitCode,result.summary⟩
  else none

def Carried.add (c : Carried) (groupOutcomes : List StepOutcome) : Carried where
  outcomes := c.outcomes ++ groupOutcomes
  priorResults := c.priorResults ++ groupOutcomes.filterMap succeededResult
  inheritedWorktree := c.inheritedWorktree.or (groupOutcomes.findSome? StepOutcome.worktree)

abbrev TaskCrew (α : Type) := Crew Question Answer String StepOutcome α

def finishExecution (taskId : String) (outcomes : List StepOutcome) : Dialog RunTaskResult := do
  if ← shutdownRequested then blockForShutdown taskId outcomes
  else match ← getTask taskId with
    | none => .fail s!"Task disappeared during execution: {taskId}"
    | some refreshed => finalizeExecution refreshed taskId outcomes

def failedStep (outcomes : List StepOutcome) : Option StepOutcome :=
  outcomes.find? fun outcome => outcome.step.required && !outcome.succeeded

section
variable (o : Options)

def group (pending : List RouteStepRow) (sequence : Nat) : List RouteStepRow :=
  pending.filter fun s => s.sequence == sequence

def groupMembers (task : TaskRow) (c : Carried) (steps : List RouteStepRow) :
    List (Member Question Answer String StepOutcome) :=
  steps.map fun step => (step.id,executeStep o task step c.priorResults c.inheritedWorktree)

def runSequences (task : TaskRow) (pending : List RouteStepRow) :
    List Nat → Carried → TaskCrew RunTaskResult
  | [],c => (finishExecution task.id c.outcomes).alone
  | sequence::rest,c => do
      if ← shutdownRequested.alone then (blockForShutdown task.id c.outcomes).alone
      else do
        let groupOutcomes ← together (groupMembers o task c (group pending sequence))
        let c := c.add groupOutcomes
        if ← shutdownRequested.alone then (blockForShutdown task.id c.outcomes).alone
        else match failedStep groupOutcomes with
          | some failure => (blockForFailure task.id failure c.outcomes).alone
          | none => runSequences task pending rest c

def pendingSteps (aggregate : TaskAggregate) : List RouteStepRow :=
  aggregate.routeSteps.filter fun s => s.status == .pending

def sequencesOf (pending : List RouteStepRow) : List Nat :=
  (pending.map RouteStepRow.sequence).dedup.insertionSort (· ≤ ·)

def executeClaimedTask (aggregate : TaskAggregate) : TaskCrew RunTaskResult :=
  let pending := pendingSteps aggregate
  runSequences o (executionTask aggregate) pending (sequencesOf pending)
    ⟨[],aggregate.runs.filterMap historicalAdapterResult,
      (latestWorktreeRun aggregate).map (takenOver aggregate.task)⟩

def executeTask (taskId : String) : TaskCrew RunTaskResult := do
  match ← (getTask taskId).alone with
  | none => .fail s!"Task not found: {taskId}"
  | some aggregate =>
    if aggregate.task.status ≠ .running then
      .fail s!"Task {taskId} must be claimed before execution"
    else if aggregate.task.claimedBy ≠ some o.workerId then
      .fail (s!"Task {taskId} is claimed by " ++ aggregate.task.claimedBy.getD "nobody" ++
        s!", not {o.workerId}")
    else if ← shutdownRequested.alone then (blockForShutdown taskId []).alone
    else do
      let _ ← (ask (.heartbeatTask taskId o.workerId)).alone
      executeClaimedTask o aggregate

def claimNext (workerId : String) : Dialog (Option String) := do
  match ← ask (.claimNextTask workerId) with
  | none => pure none
  | some taskId => match ← getTask taskId with
    | none => pure none
    | some aggregate => pure (some aggregate.task.id)

def runNext : TaskCrew (Option RunTaskResult) := do
  if ← shutdownRequested.alone then pure none
  else match ← (claimNext o.workerId).alone with
    | none => pure none
    | some taskId => some <$> executeTask o taskId

end

end ControlCenter.Execution
