import ControlCenter.DbReviews
import ControlCenter.Dialogue

/-! What the coordinator talks to: its database, its own memory, and the adapters,
worktrees, artifact files and verifiers outside. Each is a question of a dialogue. -/
namespace ControlCenter.Ports
open JsonValue Protocol Db DbReviews Dialogue

inductive AdapterStatus where
  | succeeded | failed | stopped | stale
  deriving DecidableEq, Repr

def AdapterStatus.text : AdapterStatus → String
  | .succeeded => "succeeded"
  | .failed => "failed"
  | .stopped => "stopped"
  | .stale => "stale"

structure AdapterAvailability where
  available : Bool
  target : String
  reason : Option String
  deriving DecidableEq, Repr

structure AdapterRun where
  id : String
  pid : Option Nat
  stdoutPath : String
  stderrPath : String
  resultPath : String
  deriving DecidableEq, Repr

structure AdapterResult where
  status : AdapterStatus
  finishedAt : Int
  stdoutPath : String
  stderrPath : String
  resultPath : String
  exitCode : Option Int
  signal : Option String
  summary : String
  error : Option String
  usage : Option String
  deriving DecidableEq, Repr

-- What startTask does before it settles: each process start it reports, then its result.
structure StartReply where
  started : List AdapterRun
  outcome : Except String AdapterRun

structure WorktreeInfo where
  taskId : String
  runId : String
  sourceRepo : String
  worktreePath : String
  branch : String
  baseRef : String
  baseCommit : String
  createdAt : Int
  deriving DecidableEq, Repr

structure SourceRepositorySnapshot where
  repo : String
  head : String
  status : String
  deriving DecidableEq, Repr

structure GitSnapshot where
  head : String
  status : String
  diff : String
  deriving DecidableEq, Repr

structure FileInfo where
  directory : String
  name : String
  isFile : Bool
  isSymbolicLink : Bool
  size : Nat
  deriving DecidableEq, Repr

inductive VerificationStatus where
  | succeeded | failed | stopped
  deriving DecidableEq, Repr

def VerificationStatus.text : VerificationStatus → String
  | .succeeded => "succeeded"
  | .failed => "failed"
  | .stopped => "stopped"

structure VerificationResult where
  status : VerificationStatus
  command : String
  args : List String
  startedAt : Int
  finishedAt : Int
  exitCode : Option Int
  signal : Option String
  error : Option String
  artifact : ArtifactMetadata
  deriving DecidableEq, Repr

structure ProcessStart where
  pid : Nat
  startedAt : Int
  deriving DecidableEq, Repr

structure VerifierReply where
  started : List ProcessStart
  outcome : Except String VerificationResult

inductive RunControlPhase where
  | starting | active | verifying | finalizing
  deriving DecidableEq, Repr

structure ActiveRunControl where
  taskId : String
  adapterRunId : String
  agent : AgentKind
  deriving DecidableEq, Repr

-- The private fields of one Coordinator; the maps are keyed by run.
structure Memory where
  activeRuns : List (String × ActiveRunControl)
  activeVerifications : List (String × String)
  runPhases : List (String × String × RunControlPhase)
  stopRequestedRuns : List String
  shutdownRequested : Bool
  deriving DecidableEq, Repr

def Memory.empty : Memory := ⟨[],[],[],[],false⟩

def mapGet {α : Type} (key : String) (l : List (String × α)) : Option α :=
  (l.find? fun e => e.1 == key).map (·.2)

def mapDelete {α : Type} (key : String) (l : List (String × α)) : List (String × α) :=
  l.filter fun e => e.1 != key

def mapSet {α : Type} (key : String) (a : α) (l : List (String × α)) : List (String × α) :=
  mapDelete key l ++ [(key,a)]

inductive Question where
  | snapshot
  | createTask (input : TaskPayload) (plan : RoutePlan)
  | claimNextTask (workerId : String)
  | heartbeatTask (taskId workerId : String)
  | recoverStaleTasks (cutoffMs : Option Int) (recoveredBy : String)
  | recoverTasksOwnedBy (claimedBy recoveredBy : String)
  | updateTaskStatus (taskId : String) (status : TaskStatus) (latestUpdate : String)
  | updateRouteStep (stepId : String) (patch : StepPatch)
  | createRun (input : CreateRunInput)
  | updateRun (runId : String) (patch : RunPatch)
  | appendEvent (input : EventInput)
  | addArtifact (input : ArtifactInput)
  | finalizeTaskExecution (taskId : String) (status : FinalStatus) (latestUpdate : String)
      (runId : Option String)
  | approveTaskReview (taskId : String) (note : Option String) (expected : Option Expected)
  | requestTaskRework (taskId note : String) (expected : Option Expected)
  | retryBlockedTask (taskId : String) (note : Option String) (allowUnconfirmedRemote : Bool)
  | memory (change : Memory → Memory)
  | clock
  | randomUuids
  | resolvePath (path : String)
  | availability (agent : AgentKind)
  | createWorktree (taskId runId repo baseRef : String)
  | captureSourceSnapshot (repo : String)
  | assertSourceUnchanged (runId : String) (snapshot : SourceRepositorySnapshot)
  | prepareRunDirectory (taskId runId : String)
  | writeArtifact (taskId runId : String) (kind : ArtifactKind) (name data : String)
  | startTask (runId : String) (agent : AgentKind) (role : RouteRole) (task : TaskPayload)
      (prompt workingDirectory artifactDir : String)
  | stopAdapter (runId : String) (agent : AgentKind) (adapterRunId : String)
  | collectResult (runId : String) (agent : AgentKind) (adapterRunId : String)
  | inspectFile (path : String)
  | readFile (path : String)
  | capture (worktreePath baseCommit : String)
  | runVerifier (taskId runId commandLine workingDirectory : String)
  | stopVerifier (runId : String)
  | captureReviewArtifacts (taskId runId worktreePath baseCommit : String)
  | terminateVerifiedProcessGroup (runId : String) (pid : Nat)
  | cancelDurable (remoteId : String)

-- The adapter the recovery finds for OpenClaw decides what it reports back.
structure RemoteCleanup where
  status : AdapterStatus
  error : Option String
  deriving DecidableEq, Repr

structure ProcessCleanup where
  status : String
  detail : String
  deriving DecidableEq, Repr

def Answer : Question → Type
  | .snapshot => ControlCenterDb
  | .createTask .. => String
  | .claimNextTask _ => Option String
  | .heartbeatTask .. => Int
  | .recoverStaleTasks .. | .recoverTasksOwnedBy .. => StaleRecoveryResult
  | .updateTaskStatus .. | .updateRouteStep .. | .appendEvent _ => Unit
  | .createRun _ | .updateRun .. => RunRow
  | .addArtifact _ => ArtifactRow
  | .finalizeTaskExecution .. => Unit
  | .approveTaskReview .. | .requestTaskRework .. => ReviewRow
  | .retryBlockedTask .. => String
  | .memory _ => Memory
  | .clock => Int
  | .randomUuids => Nat → String
  | .resolvePath _ => String
  | .availability _ => AdapterAvailability
  | .createWorktree .. => WorktreeInfo
  | .captureSourceSnapshot _ => SourceRepositorySnapshot
  | .assertSourceUnchanged .. => Unit
  | .prepareRunDirectory .. => String
  | .writeArtifact .. => ArtifactMetadata
  | .startTask .. => StartReply
  | .stopAdapter .. | .collectResult .. => AdapterResult
  | .inspectFile _ => FileInfo
  | .readFile _ => String
  | .capture .. => GitSnapshot
  | .runVerifier .. => VerifierReply
  | .stopVerifier _ => Unit
  | .captureReviewArtifacts .. => List ArtifactMetadata
  | .terminateVerifiedProcessGroup .. => ProcessCleanup
  | .cancelDurable _ => RemoteCleanup

abbrev Dialog (α : Type) := Script Question Answer α

def ask (q : Question) : Dialog (Answer q) := .call q

def reading {α : Type} (f : ControlCenterDb → α) : Dialog α := do
  let db ← ask .snapshot
  pure (f db)

def recalled {α : Type} (f : Memory → α) : Dialog α := do
  let memory ← ask (.memory id)
  pure (f memory)

def remember (change : Memory → Memory) : Dialog Unit := do
  let _ ← ask (.memory change)
  pure ()

def shutdownRequested : Dialog Bool := recalled (·.shutdownRequested)

def setPhase (runId taskId : String) (phase : RunControlPhase) : Dialog Unit :=
  remember fun s => {s with runPhases := mapSet runId (taskId,phase) s.runPhases}

def forgetRun (runId : String) : Dialog Unit := do
  remember fun s => {s with runPhases := mapDelete runId s.runPhases}
  remember fun s => {s with stopRequestedRuns := s.stopRequestedRuns.filter (· != runId)}

-- stopRequestedRuns.delete(runId): whether the run was in the set.
def takeStopRequest (runId : String) : Dialog Bool := do
  let before ← ask (.memory fun s =>
    {s with stopRequestedRuns := s.stopRequestedRuns.filter (· != runId)})
  pure (before.stopRequestedRuns.contains runId)

def publish (input : EventInput) : Dialog Unit := do
  let _ ← ask (.appendEvent input)
  pure ()

end ControlCenter.Ports
