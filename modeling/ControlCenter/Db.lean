import ControlCenter.Table
import ControlCenter.Router
import ControlCenter.AccpIds

/-! The control database. Every operation is one turn of the write lane: it returns the
next database or throws and leaves the old one. Rows are never deleted. -/
namespace ControlCenter.Db
open JsonValue Protocol Table

structure Moment where
  now : Int
  uuid : String

inductive RouteStepStatus where
  | pending | running | succeeded | failed | skipped
  deriving DecidableEq, Repr

inductive EventLevel where
  | debug | info | warn | error
  deriving DecidableEq, Repr

inductive ReviewStatus where
  | pending | approved | reworkRequested | rejected
  deriving DecidableEq, Repr

structure TaskRow where
  id : String
  goal : String
  repo : String
  baseRef : String
  agent : AgentSelection
  priority : Priority
  context : Option String
  successCriteria : List String
  verificationCommand : Option String
  handoffRequired : Bool
  status : TaskStatus
  mode : RouteMode
  risk : Risk
  reasons : List String
  latestUpdate : String
  claimedBy : Option String
  claimedAt : Option Int
  createdAt : Int
  updatedAt : Int
  deriving DecidableEq, Repr

structure RouteStepRow where
  id : String
  taskId : String
  sequence : Nat
  agent : AgentKind
  role : RouteRole
  required : Bool
  reason : String
  status : RouteStepStatus
  runId : Option String
  createdAt : Int
  updatedAt : Int
  deriving DecidableEq, Repr

structure RunRow where
  id : String
  taskId : String
  routeStepId : String
  adapterRunId : Option String
  agent : AgentKind
  role : RouteRole
  attempt : Nat
  status : RunStatus
  pid : Option Nat
  worktreePath : Option String
  branch : Option String
  baseCommit : Option String
  stdoutPath : Option String
  stderrPath : Option String
  resultPath : Option String
  exitCode : Option Int
  signal : Option String
  summary : Option String
  error : Option String
  usageJson : Option String
  startedAt : Option Int
  finishedAt : Option Int
  createdAt : Int
  updatedAt : Int
  deriving DecidableEq, Repr

structure EventRow where
  id : Nat
  taskId : String
  runId : Option String
  type : String
  level : EventLevel
  message : String
  data : Option Json
  createdAt : Int

structure ArtifactRow where
  id : String
  taskId : String
  runId : Option String
  kind : ArtifactKind
  path : String
  relativePath : String
  sha256 : String
  sizeBytes : Nat
  metadata : Option Json
  createdAt : Int

structure MessageRow where
  id : String
  taskId : String
  runId : Option String
  direction : String
  role : String
  body : String
  deliveryStatus : String
  createdAt : Int
  deriving DecidableEq, Repr

structure ReviewRow where
  id : String
  taskId : String
  runId : Option String
  reviewer : Option String
  status : ReviewStatus
  note : Option String
  createdAt : Int
  updatedAt : Int
  deriving DecidableEq, Repr

instance : Keyed TaskRow String := ⟨TaskRow.id⟩
instance : Keyed RouteStepRow String := ⟨RouteStepRow.id⟩
instance : Keyed RunRow String := ⟨RunRow.id⟩
instance : Keyed ArtifactRow String := ⟨ArtifactRow.id⟩
instance : Keyed MessageRow String := ⟨MessageRow.id⟩
instance : Keyed ReviewRow String := ⟨ReviewRow.id⟩

-- The seven tables the coordinator reads and writes. Event ids count up from one.
structure ControlCenterDb where
  tasks : Rows TaskRow
  routeSteps : Rows RouteStepRow
  runs : Rows RunRow
  events : List EventRow
  artifacts : Rows ArtifactRow
  messages : Rows MessageRow
  reviews : Rows ReviewRow

def ControlCenterDb.empty : ControlCenterDb := ⟨.empty,.empty,.empty,[],.empty,.empty,.empty⟩

abbrev Outcome := Except String

def unique {α : Type} (columns : String) : Option α → Outcome α
  | some a => .ok a
  | none => .error s!"SQLITE_CONSTRAINT: UNIQUE constraint failed: {columns}"

def references (holds : Bool) : Outcome Unit :=
  if holds then .ok () else .error "SQLITE_CONSTRAINT: FOREIGN KEY constraint failed"

def found {α : Type} (error : String) : Option α → Outcome α
  | some a => .ok a
  | none => .error error

def nonempty (s : Option String) : Option String := s.filter fun t => t != ""

namespace ControlCenterDb
variable (db : ControlCenterDb)

def hasTask (id : String) : Bool := (db.tasks.get id).isSome
def hasRun : Option String → Bool
  | none => true
  | some id => (db.runs.get id).isSome

def updateTask (taskId : String) (f : TaskRow → TaskRow) (same : ∀ r, (f r).id = r.id) :
    ControlCenterDb := {db with tasks := db.tasks.update (fun r => r.id == taskId) f same}

def insertEvent (taskId : String) (runId : Option String) (type : String) (level : EventLevel)
    (message : String) (data : Option Json) (createdAt : Int) : Outcome ControlCenterDb := do
  references (db.hasTask taskId && db.hasRun runId)
  .ok {db with events := db.events ++
    [⟨db.events.length + 1,taskId,runId,type,level,message,data,createdAt⟩]}

def insertMessage (message : MessageRow) : Outcome ControlCenterDb := do
  references (db.hasTask message.taskId && db.hasRun message.runId)
  let messages ← unique "messages.id" (db.messages.insert message)
  .ok {db with messages}

def insertSteps (taskId : String) (createdAt : Int) :
    List RouteStep → Rows RouteStepRow → Outcome (Rows RouteStepRow)
  | [],steps => .ok steps
  | s::rest,steps => do
      let inserted ← unique "route_steps.id" (steps.insert
        ⟨s.id,taskId,s.sequence,s.agent,s.role,s.required,s.reason,.pending,none,createdAt,
          createdAt⟩)
      insertSteps taskId createdAt rest inserted

end ControlCenterDb

def plural (n : Nat) : String := if n = 1 then "" else "s"

-- RoutePlanSchema.parse on a plan whose enumerations are already typed.
def checkPlan (plan : RoutePlan) : Outcome RoutePlan :=
  if plan.steps ≠ [] ∧ ∀ s ∈ plan.steps, s.id ≠ "" ∧ s.reason ≠ "" then .ok plan
  else .error "ZodError"

def queuedRow (id : String) (task : TaskPayload) (plan : RoutePlan) (createdAt : Int) :
    TaskRow where
  id
  goal := task.goal
  repo := task.repo
  baseRef := task.baseRef
  agent := task.agent
  priority := task.priority
  context := task.context
  successCriteria := task.successCriteria
  verificationCommand := task.verificationCommand
  handoffRequired := task.handoffRequired
  status := .queued
  mode := plan.mode
  risk := plan.risk
  reasons := plan.reasons
  latestUpdate := s!"Queued with {plan.steps.length} route step{plural plan.steps.length}."
  claimedBy := none
  claimedAt := none
  createdAt
  updatedAt := createdAt

section
variable (m : Moment)
open ControlCenterDb

def createTask (input : TaskPayload) (planInput : RoutePlan) (db : ControlCenterDb) :
    Outcome (String × ControlCenterDb) := do
  let task ← parseTaskPayload input.toJson
  let plan ← checkPlan planInput
  let id := task.id.getD ("task_" ++ m.uuid)
  let tasks ← unique "tasks.id" (db.tasks.insert (queuedRow id task plan m.now))
  let routeSteps ← insertSteps id m.now plan.steps db.routeSteps
  let next ← ControlCenterDb.insertEvent {db with tasks,routeSteps} id none "task.created" .info
    s!"Task queued via {task.agent.text}."
    (some (.object [("routeMode",.string plan.mode.text),("risk",.string plan.risk.text)])) m.now
  .ok (id,next)

def priorityRank : Priority → Nat
  | .urgent => 0
  | .high => 1
  | .normal => 2
  | .low => 3

def claimOrder (a b : TaskRow) : Prop := priorityRank a.priority < priorityRank b.priority ∨
  (priorityRank a.priority = priorityRank b.priority ∧ a.createdAt ≤ b.createdAt)
instance : DecidableRel claimOrder := fun _ _ => by unfold claimOrder; infer_instance

def nextQueued (db : ControlCenterDb) : Option TaskRow :=
  ((db.tasks.rows.filter fun r => decide (r.status = .queued)).insertionSort claimOrder).head?

def claimNextTask (workerId : String) (db : ControlCenterDb) :
    Outcome (Option String × ControlCenterDb) :=
  match nextQueued db with
  | none => .ok (none,db)
  | some candidate => do
      let claimed := db.updateTask candidate.id (fun r => {r with
        status := .running
        claimedBy := some workerId
        claimedAt := some m.now
        latestUpdate := s!"Claimed by {workerId}."
        updatedAt := m.now}) fun _ => rfl
      let next ← claimed.insertEvent candidate.id none "task.claimed" .info
        s!"Task claimed by {workerId}." (some (.object [("workerId",.string workerId)])) m.now
      .ok (some candidate.id,next)

def heartbeatTask (taskId workerId : String) (db : ControlCenterDb) :
    Outcome (Int × ControlCenterDb) :=
  let worker := trim workerId
  if worker = "" then .error "Worker id is required for a heartbeat"
  else if (db.tasks.get taskId).any fun r =>
      r.status == .running && r.claimedBy == some worker then
    .ok (m.now,db.updateTask taskId (fun r => {r with
      claimedAt := some m.now
      updatedAt := m.now}) fun _ => rfl)
  else .error s!"Task {taskId} is not running or is not claimed by {worker}"

structure ProcessCandidate where
  taskId : String
  runId : String
  pid : Nat
  agent : String
  deriving DecidableEq, Repr

structure RemoteCandidate where
  taskId : String
  runId : String
  remoteId : String
  deriving DecidableEq, Repr

structure StaleRecoveryResult where
  taskIds : List String
  staleRunIds : List String
  failedRunIds : List String
  processCandidates : List ProcessCandidate
  remoteCandidates : List RemoteCandidate
  deriving DecidableEq, Repr

inductive RecoveryCause where
  | heartbeatExpired (cutoff : Int)
  | deadOwner (claimedBy : String)
  deriving DecidableEq, Repr

def RecoveryCause.description : RecoveryCause → String
  | .deadOwner claimedBy => s!"Previous worker {claimedBy} is no longer alive."
  | .heartbeatExpired cutoff => s!"Worker heartbeat expired before {AccpIds.toISOString cutoff}."

def RecoveryCause.selects (cause : RecoveryCause) (r : TaskRow) : Bool :=
  r.status == .running && match cause with
    | .deadOwner claimedBy => r.claimedBy == some claimedBy
    | .heartbeatExpired cutoff => r.claimedAt.any fun at_ => decide (at_ < cutoff)

def RecoveryCause.details : RecoveryCause → List (String × Json)
  | .deadOwner claimedBy => [("deadOwner",.string claimedBy)]
  | .heartbeatExpired cutoff => [("cutoff",.string (AccpIds.toISOString cutoff))]

def orNull (s : Option String) : Json := (s.map Json.string).getD .null

def verifierPid (events : List EventRow) (runId : String) : Option Nat :=
  let mine := events.filter fun e => e.runId == some runId
  let open_ := mine.filter fun started => started.type == "verification.process_started" &&
    !mine.any fun terminal => decide (started.id < terminal.id) &&
      (terminal.type == "verification.succeeded" || terminal.type == "verification.failed")
  match open_.getLast?.bind (·.data) with
  | none => none
  | some data => match data.get "pid" with
    | .number n => (n.integer?.filter fun i =>
        ZodSchema.safeInteger i && decide (1 < i)).map Int.toNat
    | _ => none

def processCandidate (events : List EventRow) (run : RunRow) : List ProcessCandidate :=
  match verifierPid events run.id with
  | some pid => [⟨run.taskId,run.id,pid,"verifier"⟩]
  | none => match run.pid with
    | some pid => if run.agent = .openclaw then [] else [⟨run.taskId,run.id,pid,run.agent.text⟩]
    | none => []

def remoteCandidate (run : RunRow) : List RemoteCandidate :=
  if run.agent = .openclaw then [⟨run.taskId,run.id,run.adapterRunId.getD run.id⟩] else []

def isOpen (run : RunRow) : Bool := run.status == .starting || run.status == .running

def appendedError (error : String) : Option String → Option String
  | none => some error
  | some old => if old = "" then some error else some (old ++ "\n" ++ error)

def recoveryError (cause : RecoveryCause) (run : RunRow) : String :=
  cause.description ++
    (if run.status = .running then " The run was active." else " The run had not become active.")

def closedStatus (run : RunRow) : RunStatus := if run.status = .running then .stale else .failed

def closedRun (cause : RecoveryCause) (run : RunRow) : RunRow := {run with
  status := closedStatus run
  error := appendedError (recoveryError cause run) run.error
  finishedAt := some (run.finishedAt.getD m.now)
  updatedAt := m.now}

def runOrder (a b : RunRow) : Prop := a.createdAt < b.createdAt ∨
  (a.createdAt = b.createdAt ∧ a.id ≤ b.id)
instance : DecidableRel runOrder := fun _ _ => by unfold runOrder; infer_instance

def listRuns (taskId : String) (db : ControlCenterDb) : List RunRow :=
  (db.runs.rows.filter fun r => r.taskId == taskId).insertionSort runOrder

def closeRuns (cause : RecoveryCause) (recoveredBy : String) :
    List RunRow → ControlCenterDb → Outcome ControlCenterDb
  | [],db => .ok db
  | run::rest,db => do
      let runs := db.runs.update
        (fun r => r.id == run.id && r.taskId == run.taskId && r.status == run.status)
        (closedRun m cause) fun _ => rfl
      let closed := {db with runs}
      let next ← closed.insertEvent run.taskId (some run.id)
        (if run.status = .running then "run.stale" else "run.failed") .warn
        (recoveryError cause run)
        (some (.object ([("previousStatus",.string run.status.text),
          ("recoveredBy",.string recoveredBy)] ++ cause.details))) m.now
      closeRuns cause recoveredBy rest next

def failRunningSteps (taskId : String) (db : ControlCenterDb) : ControlCenterDb :=
  let routeSteps := db.routeSteps.update
    (fun s => s.taskId == taskId && s.status == .running)
    (fun s => {s with status := .failed,updatedAt := m.now}) fun _ => rfl
  {db with routeSteps}

def StaleRecoveryResult.add (result : StaleRecoveryResult) (taskId : String)
    (events : List EventRow) (activeRuns : List RunRow) : StaleRecoveryResult where
  taskIds := result.taskIds ++ [taskId]
  staleRunIds := result.staleRunIds ++
    (activeRuns.filter fun r => r.status == .running).map RunRow.id
  failedRunIds := result.failedRunIds ++
    (activeRuns.filter fun r => r.status != .running).map RunRow.id
  processCandidates := result.processCandidates ++ activeRuns.flatMap (processCandidate events)
  remoteCandidates := result.remoteCandidates ++ activeRuns.flatMap remoteCandidate

def recoveredTask (cause : RecoveryCause) (r : TaskRow) : TaskRow := {r with
  status := .blocked
  claimedBy := none
  claimedAt := none
  latestUpdate := cause.description ++ " Task requires recovery."
  updatedAt := m.now}

def recoveryEvent : RecoveryCause → String × String
  | .deadOwner _ => ("task.dead_owner_recovered",
      "Task owned by a dead daemon was blocked and its active execution state was closed.")
  | .heartbeatExpired _ => ("task.stale_recovered",
      "Stale task was blocked and its active execution state was closed.")

def recoverTask (cause : RecoveryCause) (recoveredBy : String) (task : TaskRow)
    (db : ControlCenterDb) : Outcome ControlCenterDb := do
  let closed ← closeRuns m cause recoveredBy ((listRuns task.id db).filter isOpen) db
  let failed := failRunningSteps m task.id closed
  let blocked := failed.updateTask task.id (recoveredTask m cause) fun _ => rfl
  blocked.insertEvent task.id none (recoveryEvent cause).1 .warn (recoveryEvent cause).2
    (some (.object ([("claimedAt",orNull (task.claimedAt.map AccpIds.toISOString)),
      ("claimedBy",orNull task.claimedBy),("recoveredBy",.string recoveredBy)] ++
      cause.details))) m.now

def recoverTasks (cause : RecoveryCause) (recoveredBy : String) :
    List TaskRow → StaleRecoveryResult → ControlCenterDb →
      Outcome (StaleRecoveryResult × ControlCenterDb)
  | [],result,db => .ok (result,db)
  | task::rest,result,db => do
      let next ← recoverTask m cause recoveredBy task db
      recoverTasks cause recoveredBy rest
        (result.add task.id db.events ((listRuns task.id db).filter isOpen)) next

def recoveryOrder (a b : TaskRow) : Prop := a.claimedAt.getD 0 < b.claimedAt.getD 0 ∨
  (a.claimedAt.getD 0 = b.claimedAt.getD 0 ∧ a.id ≤ b.id)
instance : DecidableRel recoveryOrder := fun _ _ => by unfold recoveryOrder; infer_instance

def recoverRunningTasks (cause : RecoveryCause) (recoveredByInput : String)
    (db : ControlCenterDb) : Outcome (StaleRecoveryResult × ControlCenterDb) :=
  let recoveredBy := trim recoveredByInput
  if recoveredBy = "" then .error "Worker id is required for task recovery"
  else recoverTasks m cause recoveredBy
    ((db.tasks.rows.filter cause.selects).insertionSort recoveryOrder) ⟨[],[],[],[],[]⟩ db

-- The cutoff is what Date.parse makes of its text; none is NaN.
def recoverStaleTasks (cutoffMs : Option Int) (recoveredBy : String) (db : ControlCenterDb) :
    Outcome (StaleRecoveryResult × ControlCenterDb) :=
  match cutoffMs with
  | none => .error "Invalid stale-task cutoff"
  | some cutoff => recoverRunningTasks m (.heartbeatExpired cutoff) recoveredBy db

def recoverTasksOwnedBy (claimedByInput recoveredBy : String) (db : ControlCenterDb) :
    Outcome (StaleRecoveryResult × ControlCenterDb) :=
  let claimedBy := trim claimedByInput
  if claimedBy = "" then .error "Claimed worker id is required for owner recovery"
  else recoverRunningTasks m (.deadOwner claimedBy) recoveredBy db

def updateTaskStatus (taskId : String) (status : TaskStatus) (latestUpdate : String)
    (db : ControlCenterDb) : Outcome ControlCenterDb := do
  let row ← found s!"Task not found: {taskId}" (db.tasks.get taskId)
  assertTaskTransition row.status status
  .ok (db.updateTask taskId (fun r => {r with
    status
    latestUpdate
    claimedBy := if status = .running then r.claimedBy else none
    claimedAt := if status = .running then r.claimedAt else none
    updatedAt := m.now}) fun _ => rfl)

def stepOrder (a b : RouteStepRow) : Prop := a.sequence < b.sequence ∨
  (a.sequence = b.sequence ∧ a.createdAt ≤ b.createdAt)
instance : DecidableRel stepOrder := fun _ _ => by unfold stepOrder; infer_instance

def listRouteSteps (taskId : String) (db : ControlCenterDb) : List RouteStepRow :=
  (db.routeSteps.rows.filter fun s => s.taskId == taskId).insertionSort stepOrder

structure StepPatch where
  status : Option RouteStepStatus
  runId : Option (Option String)
  deriving DecidableEq, Repr

def StepPatch.apply (patch : StepPatch) (s : RouteStepRow) : RouteStepRow := {s with
  status := patch.status.getD s.status
  runId := patch.runId.getD s.runId
  updatedAt := m.now}

def updateRouteStep (stepId : String) (patch : StepPatch) (db : ControlCenterDb) :
    Outcome ControlCenterDb := do
  let _ ← found s!"Route step not found: {stepId}" (db.routeSteps.get stepId)
  let routeSteps := db.routeSteps.update (fun s => s.id == stepId) (patch.apply m) fun _ => rfl
  .ok {db with routeSteps}

structure CreateRunInput where
  taskId : String
  routeStepId : String
  agent : AgentKind
  role : RouteRole
  deriving DecidableEq, Repr

def nextAttempt (routeStepId : String) (db : ControlCenterDb) : Nat :=
  ((db.runs.rows.filter fun r => r.routeStepId == routeStepId).map RunRow.attempt).foldl max 0 + 1

def queuedRun (input : CreateRunInput) (attempt : Nat) : RunRow :=
  ⟨"run_" ++ m.uuid,input.taskId,input.routeStepId,none,input.agent,input.role,attempt,.queued,
    none,none,none,none,none,none,none,none,none,none,none,none,none,none,m.now,m.now⟩

def createRun (input : CreateRunInput) (db : ControlCenterDb) :
    Outcome (RunRow × ControlCenterDb) := do
  let run := queuedRun m input (nextAttempt input.routeStepId db)
  references (db.hasTask input.taskId && (db.routeSteps.get input.routeStepId).isSome)
  let runs ← unique "runs.id" (db.runs.insert run)
  .ok (run,{db with runs})

def getRun (runId : String) (db : ControlCenterDb) : Option RunRow := db.runs.get runId

-- Only the columns the coordinator patches; a column left out keeps its value.
structure RunPatch where
  status : Option RunStatus := none
  adapterRunId : Option (Option String) := none
  pid : Option (Option Nat) := none
  worktreePath : Option (Option String) := none
  branch : Option (Option String) := none
  baseCommit : Option (Option String) := none
  stdoutPath : Option (Option String) := none
  stderrPath : Option (Option String) := none
  resultPath : Option (Option String) := none
  exitCode : Option (Option Int) := none
  signal : Option (Option String) := none
  summary : Option (Option String) := none
  error : Option (Option String) := none
  usageJson : Option (Option String) := none
  startedAt : Option (Option Int) := none
  finishedAt : Option (Option Int) := none
  deriving DecidableEq, Repr

def RunPatch.apply (patch : RunPatch) (r : RunRow) : RunRow := {r with
  status := patch.status.getD r.status
  adapterRunId := patch.adapterRunId.getD r.adapterRunId
  pid := patch.pid.getD r.pid
  worktreePath := patch.worktreePath.getD r.worktreePath
  branch := patch.branch.getD r.branch
  baseCommit := patch.baseCommit.getD r.baseCommit
  stdoutPath := patch.stdoutPath.getD r.stdoutPath
  stderrPath := patch.stderrPath.getD r.stderrPath
  resultPath := patch.resultPath.getD r.resultPath
  exitCode := patch.exitCode.getD r.exitCode
  signal := patch.signal.getD r.signal
  summary := patch.summary.getD r.summary
  error := patch.error.getD r.error
  usageJson := patch.usageJson.getD r.usageJson
  startedAt := patch.startedAt.getD r.startedAt
  finishedAt := patch.finishedAt.getD r.finishedAt
  updatedAt := m.now}

def updateRun (runId : String) (patch : RunPatch) (db : ControlCenterDb) :
    Outcome (RunRow × ControlCenterDb) := do
  let current ← found s!"Run not found: {runId}" (db.runs.get runId)
  assertRunTransition current.status (patch.status.getD current.status)
  let runs := db.runs.update (fun r => r.id == runId) (patch.apply m) fun _ => rfl
  .ok (patch.apply m current,{db with runs})

structure EventInput where
  taskId : String
  runId : Option String
  type : String
  level : EventLevel
  message : String
  data : Option Json

def appendEvent (input : EventInput) (db : ControlCenterDb) : Outcome ControlCenterDb :=
  db.insertEvent input.taskId input.runId input.type input.level input.message input.data m.now

def listEvents (taskId : String) (db : ControlCenterDb) : List EventRow :=
  db.events.filter fun e => e.taskId == taskId

end

end ControlCenter.Db
