import ControlCenter.Ports

/-! The execution of one route step: its run row, the agent in an isolated worktree, the
evidence it leaves, the independent verification, and what happens when any of it throws. -/
namespace ControlCenter.Coordinator
open JsonValue Protocol Db DbReviews Dialogue Ports

structure Options where
  workerId : String
  maxAdapterArtifactBytes : Nat
  registered : AgentKind → Bool

structure StepOutcome where
  step : RouteStepRow
  run : Option RunRow
  result : Option AdapterResult
  worktree : Option WorktreeInfo
  succeeded : Bool
  skipped : Bool
  error : Option String

def terminalRunStatus (result : AdapterResult) : RunStatus :=
  match result.status with
  | .succeeded => .succeeded
  | .stopped => .stopped
  | .stale => .stale
  | .failed => .failed

def lines (texts : List String) : String := String.intercalate "\n" texts

def numbered (items : List String) : List String :=
  (items.zipIdx 1).map fun (item,i) => s!"{i}. {item}"

def orText (default : String) (s : Option String) : String := (nonempty s).getD default

def exitText (code : Option Int) : String := (code.map toString).getD "n/a"

structure PriorResult where
  status : AdapterStatus
  exitCode : Option Int
  summary : String
  deriving DecidableEq, Repr

def roleInstruction : RouteRole → String
  | .execute => "Implement the task directly in the provided isolated worktree. The Repository path below is the only checkout you may modify; never follow another checkout path from prior output. Inspect the repository before editing, keep changes scoped, and run relevant verification. Do not claim success without concrete evidence. End with a concise handoff: files changed, verification, remaining risks."
  | .review => "Review the existing implementation and evidence independently. Do not edit files. Check the diff, correctness, regressions, tests, security, and success criteria. Start the final answer with PASS or REWORK, then list actionable findings and evidence."
  | .approval => "Create a human-facing approval handoff from the implementation and review evidence. Do not auto-approve risky work. Summarize what changed, verification, risks, and ask for APPROVE or REWORK."

def priorText (prior : List PriorResult) : String :=
  if prior = [] then "No prior agent results."
  else String.intercalate "\n\n" ((prior.zipIdx 1).map fun (r,i) =>
    s!"Prior run {i} ({r.status.text}, exit {exitText r.exitCode}):\n" ++
      (if r.summary = "" then "No summary." else r.summary))

def buildAgentPrompt (task : TaskPayload) (role : RouteRole) (prior : List PriorResult) :
    String := lines
  ["# Agent Control Center task","",s!"Role: {role.text}",s!"Goal: {task.goal}",
   s!"Repository: {task.repo}",s!"Base ref: {task.baseRef}",s!"Priority: {task.priority.text}",
   "","## Instructions",roleInstruction role,"","## Context",
   orText "No extra context supplied." task.context,"","## Success criteria",
   (if task.successCriteria = [] then
      "1. Produce a concrete, reviewable result without regressions."
    else lines (numbered task.successCriteria)),"","## Verification command",
   orText "Infer and run the smallest relevant verification from the repository."
     task.verificationCommand,"","## Prior results",priorText prior]

section
variable (o : Options)

def stepEvent (step : RouteStepRow) (type : String) (level : EventLevel) (message : String) :
    EventInput := ⟨step.taskId,none,type,level,message,
      some (.object [("agent",.string step.agent.text),("role",.string step.role.text)])⟩

def unavailableStep (step : RouteStepRow) (message : String) : Dialog StepOutcome :=
  if !step.required then do
    ask (.updateRouteStep step.id ⟨some .skipped,none⟩)
    publish (stepEvent step "route.step_skipped" .warn message)
    pure ⟨{step with status := .skipped},none,none,none,true,true,none⟩
  else do
    ask (.updateRouteStep step.id ⟨some .failed,none⟩)
    publish (stepEvent step "route.step_failed" .error message)
    pure ⟨{step with status := .failed},none,none,none,false,false,some message⟩

def runEvent (run : RunRow) (type : String) (level : EventLevel) (message : String)
    (data : Option Json) : EventInput := ⟨run.taskId,some run.id,type,level,message,data⟩

def addFile (artifact : ArtifactMetadata) (metadata : Option Json) : Dialog Unit := do
  let _ ← ask (.addArtifact ⟨artifact,metadata⟩)
  pure ()

def addFiles : List ArtifactMetadata → Dialog Unit
  | [] => pure ()
  | artifact::rest => do
      addFile artifact none
      addFiles rest

def ingestFile (run : RunRow) (runDirectory path : String) (kind : ArtifactKind) :
    Dialog Unit := do
  let info ← ask (.inspectFile path)
  if info.directory ≠ runDirectory then .fail s!"Adapter artifact escaped its run directory: {path}"
  else if !info.isFile || info.isSymbolicLink then
    .fail s!"Adapter artifact is not a regular file: {path}"
  else if o.maxAdapterArtifactBytes < info.size then
    .fail s!"Adapter artifact {info.name} exceeded {o.maxAdapterArtifactBytes} bytes"
  else do
    let data ← ask (.readFile path)
    let artifact ← ask (.writeArtifact run.taskId run.id kind info.name data)
    addFile artifact none

def ingestAdapterArtifacts (run : RunRow) (stdoutPath stderrPath resultPath : String) :
    Dialog Unit := do
  let runDirectory ← ask (.prepareRunDirectory run.taskId run.id)
  ingestFile o run runDirectory stdoutPath .stdout
  ingestFile o run runDirectory stderrPath .stderr
  ingestFile o run runDirectory resultPath .result

def captureReview (run : RunRow) (worktree : WorktreeInfo) : Dialog Unit := do
  let captured ← ask (.captureReviewArtifacts run.taskId run.id worktree.worktreePath
    worktree.baseCommit)
  addFiles captured

def optionalInt (i : Option Int) : Json :=
  match i with
  | some i => .number (.finite i)
  | none => .null

def processStarted (run : RunRow) : List ProcessStart → Dialog Unit
  | [] => pure ()
  | start::rest => do
      let _ ← (publish (runEvent run "verification.process_started" .info
        "Independent verifier process started."
        (some (.object [("pid",.nat start.pid),
          ("startedAt",.string (AccpIds.toISOString start.startedAt))])))).attempt
      processStarted run rest

def verificationMetadata (r : VerificationResult) : Json := .object
  [("command",.string r.command),("args",.array (r.args.map .string)),
   ("status",.string r.status.text),("exitCode",optionalInt r.exitCode),
   ("signal",orNull r.signal),("error",orNull r.error),
   ("startedAt",.string (AccpIds.toISOString r.startedAt)),
   ("finishedAt",.string (AccpIds.toISOString r.finishedAt))]

def verificationMessage (r : VerificationResult) : String :=
  if r.status = .succeeded then s!"Verification passed: {r.command}."
  else r.error.getD s!"Verification ended with {r.status.text}."

def verificationError (r : VerificationResult) : String :=
  r.error.getD s!"Independent verification {r.status.text} with exit {exitText r.exitCode}"

def verificationVerdict (run : RunRow) (before after : GitSnapshot) (r : VerificationResult) :
    Dialog VerificationResult :=
  if before.head ≠ after.head ∨ before.status ≠ after.status ∨ before.diff ≠ after.diff then do
    publish (runEvent run "verification.failed" .error
      "Verification modified tracked or untracked repository state." none)
    .fail "Independent verification modified repository state"
  else do
    let succeeded := r.status == .succeeded
    publish (runEvent run
      (if succeeded then "verification.succeeded" else "verification.failed")
      (if succeeded then .info else .error) (verificationMessage r)
      (some (.object [("exitCode",optionalInt r.exitCode),("signal",orNull r.signal)])))
    if succeeded then pure r else .fail (verificationError r)

def runVerification (run : RunRow) (commandLine : String) (worktree : WorktreeInfo) :
    Dialog VerificationResult := do
  let before ← ask (.capture worktree.worktreePath worktree.baseCommit)
  remember fun s => {s with
    activeVerifications := mapSet run.id run.taskId s.activeVerifications}
  publish (runEvent run "verification.started" .info
    "Independent verification started in the isolated worktree."
    (some (.object [("commandLine",.string commandLine)])))
  let reply ← (ask (.runVerifier run.taskId run.id commandLine worktree.worktreePath)).attempt
  let outcome ← match reply with
    | .ok r => do
        processStarted run r.started
        pure r.outcome
    | .error error => pure (.error error)
  remember fun s => {s with
    activeVerifications := mapDelete run.id s.activeVerifications}
  let r ← Script.ofExcept outcome
  addFile r.artifact (some (verificationMetadata r))
  let after ← ask (.capture worktree.worktreePath worktree.baseCommit)
  verificationVerdict run before after r

structure Progress where
  run : RunRow
  worktree : Option WorktreeInfo
  adapterRun : Option AdapterRun
  sourceSnapshot : Option SourceRepositorySnapshot

-- The body keeps its variables when it throws; only then can the handler read them.
def Guarded (α : Type) : Type := Progress → Dialog (Progress × Except String α)

instance : Monad Guarded where
  pure a := fun s => pure (s,.ok a)
  bind m f := fun s => m s >>= fun (s',r) => match r with
    | .ok a => f a s'
    | .error error => pure (s',.error error)

def trying {α : Type} (p : Dialog α) : Guarded α := fun s => do
  let r ← p.attempt
  pure (s,r)

def throwing {α : Type} (error : String) : Guarded α := fun s => pure (s,.error error)
def progress : Guarded Progress := fun s => pure (s,.ok s)
def advance (f : Progress → Progress) : Guarded Unit := fun s => pure (f s,.ok ())

def patchRun (runId : String) (patch : RunPatch) : Guarded Unit := do
  let run ← trying (ask (.updateRun runId patch))
  advance fun s => {s with run}

-- The process start that has been persisted, or the error persisting it left behind.
inductive StartPersistence where
  | none
  | persisted (run : AdapterRun)
  | failed (error : String)

def runningPatch (started : AdapterRun) : RunPatch where
  status := some .running
  adapterRunId := some (some started.id)
  pid := some started.pid
  stdoutPath := some (some started.stdoutPath)
  stderrPath := some (some started.stderrPath)
  resultPath := some (some started.resultPath)

def startedData (started : AdapterRun) (workingDirectory : String) : Json := .object
  [("pid",match started.pid with | some pid => .nat pid | none => .null),
   ("worktreePath",.string workingDirectory)]

def persistStart (step : RouteStepRow) (runId workingDirectory : String)
    (started : AdapterRun) : Guarded Unit := do
  patchRun runId (runningPatch started)
  let s ← progress
  trying (publish (runEvent s.run "run.started" .info
    s!"{step.agent.text} started {step.role.text}."
    (some (startedData started workingDirectory))))

def outcomeOf {α : Type} (m : Guarded α) : Guarded (Except String α) := fun s =>
  m s >>= fun (s',r) => pure (s',.ok r)

def persistAdapterStart (step : RouteStepRow) (runId workingDirectory : String)
    (started : AdapterRun) : StartPersistence → Guarded StartPersistence
  | .persisted before =>
    if before.id ≠ started.id ∨ before.pid ≠ started.pid then
      throwing "Adapter reported conflicting process-start evidence"
    else pure (.persisted before)
  | .failed error => throwing error
  | .none => do
      persistStart step runId workingDirectory started
      pure (.persisted started)

-- The adapter's own reports of a start; what they throw is the adapter's to handle.
def reportedStarts (step : RouteStepRow) (runId workingDirectory : String) :
    List AdapterRun → StartPersistence → Guarded StartPersistence
  | [],state => pure state
  | started::rest,state => do
      let r ← outcomeOf (persistAdapterStart step runId workingDirectory started state)
      let state := match r,state with
        | .ok next,_ => next
        | .error error,.none => .failed error
        | .error _,kept => kept
      reportedStarts step runId workingDirectory rest state

def promptPayload (task : TaskRow) (workingDirectory : String) : TaskPayload where
  id := some task.id
  goal := task.goal
  repo := workingDirectory
  baseRef := task.baseRef
  agent := task.agent
  priority := task.priority
  context := nonempty task.context
  successCriteria := task.successCriteria
  verificationCommand := nonempty task.verificationCommand
  handoffRequired := task.handoffRequired

def stopIfShuttingDown (error : String) : Guarded Unit := do
  let stopping ← trying shutdownRequested
  if stopping then throwing error else pure ()

def stopIfRequested (runId : String) : Guarded Unit := do
  let requested ← trying (takeStopRequest runId)
  if requested then throwing "Operator requested cancellation before agent start." else pure ()

def obtainWorktree (task : TaskRow) : Guarded WorktreeInfo := do
  let s ← progress
  match s.worktree with
  | some worktree => pure worktree
  | none => do
      let worktree ← trying (ask (.createWorktree task.id s.run.id task.repo task.baseRef))
      advance fun s => {s with worktree := some worktree}
      pure worktree

def worktreePatch (worktree : WorktreeInfo) : RunPatch where
  worktreePath := some (some worktree.worktreePath)
  branch := some (some worktree.branch)
  baseCommit := some (some worktree.baseCommit)

def prepareAgent (task : TaskRow) (step : RouteStepRow) (runId : String)
    (prior : List PriorResult) :
    Guarded (WorktreeInfo × SourceRepositorySnapshot × String × String) := do
  let worktree ← obtainWorktree task
  stopIfShuttingDown "Worker shutdown requested before agent start."
  let snapshot ← trying (ask (.captureSourceSnapshot worktree.sourceRepo))
  advance fun s => {s with sourceSnapshot := some snapshot}
  patchRun runId (worktreePatch worktree)
  let prompt := buildAgentPrompt (promptPayload task worktree.worktreePath) step.role prior
  let artifactDir ← trying (ask (.prepareRunDirectory task.id runId))
  let promptArtifact ← trying (ask (.writeArtifact task.id runId .prompt "prompt.md" prompt))
  trying (addFile promptArtifact (some (.object
    [("agent",.string step.agent.text),("role",.string step.role.text)])))
  stopIfRequested runId
  pure (worktree,snapshot,prompt,artifactDir)

def startAgent (task : TaskRow) (step : RouteStepRow) (runId : String)
    (worktree : WorktreeInfo) (prompt artifactDir : String) : Guarded AdapterRun := do
  let reply ← trying (ask (.startTask runId step.agent step.role
    (promptPayload task worktree.worktreePath) prompt worktree.worktreePath artifactDir))
  let state ← reportedStarts step runId worktree.worktreePath reply.started .none
  let adapterRun ← trying (Script.ofExcept reply.outcome)
  advance fun s => {s with adapterRun := some adapterRun}
  let _ ← persistAdapterStart step runId worktree.worktreePath adapterRun state
  trying (remember fun s => {s with
    activeRuns := mapSet runId ⟨task.id,adapterRun.id,step.agent⟩ s.activeRuns})
  trying (setPhase runId task.id .active)
  pure adapterRun

def forgetActive (runId : String) : Dialog Unit :=
  remember fun s => {s with activeRuns := mapDelete runId s.activeRuns}

-- An operator's stop that arrived while the agent was starting.
def deliverStop (step : RouteStepRow) (runId : String) (adapterRun : AdapterRun) :
    Guarded Unit := do
  let requested ← trying (takeStopRequest runId)
  if requested then do
    let _ ← trying (ask (.stopAdapter runId step.agent adapterRun.id))
    trying (forgetActive runId)
  else pure ()

def needsVerification (task : TaskRow) (step : RouteStepRow) (result : AdapterResult) :
    Option String :=
  if result.status = .succeeded ∧ step.role = .execute then nonempty task.verificationCommand
  else none

def verifyStep (task : TaskRow) (step : RouteStepRow) (runId : String)
    (worktree : WorktreeInfo) (result : AdapterResult) : Guarded Unit :=
  match needsVerification task step result with
  | none => pure ()
  | some commandLine => do
      trying (setPhase runId task.id .verifying)
      let s ← progress
      let _ ← trying (runVerification s.run commandLine worktree)
      trying (setPhase runId task.id .finalizing)

def collectAgent (task : TaskRow) (step : RouteStepRow) (runId : String)
    (snapshot : SourceRepositorySnapshot) (adapterRun : AdapterRun) :
    Guarded AdapterResult := do
  deliverStop step runId adapterRun
  stopIfShuttingDown "Worker shutdown requested while agent was starting."
  let result ← trying (ask (.collectResult runId step.agent adapterRun.id))
  trying (forgetActive runId)
  trying (setPhase runId task.id .finalizing)
  trying (ask (.assertSourceUnchanged runId snapshot))
  pure result

def terminalPatch (result : AdapterResult) : RunPatch where
  status := some (terminalRunStatus result)
  exitCode := some result.exitCode
  signal := some result.signal
  summary := some (some result.summary)
  error := some result.error
  usageJson := result.usage.map some
  finishedAt := some (some result.finishedAt)

def resultMessage (step : RouteStepRow) (result : AdapterResult) : String :=
  if result.status = .succeeded then s!"{step.agent.text} completed {step.role.text}."
  else orText s!"{step.agent.text} failed {step.role.text}." result.error

def stepStatusOf (result : AdapterResult) : RouteStepStatus :=
  if result.status = .succeeded then .succeeded else .failed

def finishStep (step : RouteStepRow) (runId : String) (worktree : WorktreeInfo)
    (result : AdapterResult) : Guarded StepOutcome := do
  patchRun runId (terminalPatch result)
  let succeeded := result.status == .succeeded
  let status := stepStatusOf result
  trying (ask (.updateRouteStep step.id ⟨some status,none⟩))
  let s ← progress
  trying (publish (runEvent s.run (if succeeded then "run.succeeded" else "run.failed")
    (if succeeded then .info else .error) (resultMessage step result) none))
  trying (forgetRun runId)
  pure ⟨{step with status,runId := some runId},some s.run,some result,some worktree,succeeded,
    false,result.error⟩

def guardedStep (task : TaskRow) (step : RouteStepRow) (runId : String)
    (prior : List PriorResult) : Guarded StepOutcome := do
  let (worktree,snapshot,prompt,artifactDir) ← prepareAgent task step runId prior
  let adapterRun ← startAgent task step runId worktree prompt artifactDir
  let result ← collectAgent task step runId snapshot adapterRun
  let s ← progress
  trying (ingestAdapterArtifacts o s.run result.stdoutPath result.stderrPath result.resultPath)
  verifyStep task step runId worktree result
  trying (captureReview s.run worktree)
  finishStep step runId worktree result

def includes (text part : String) : Bool :=
  text.toList.tails.any fun rest => part.toList.isPrefixOf rest

def isolationMessage (runId : String) (snapshot : Option SourceRepositorySnapshot)
    (message : String) : Dialog String :=
  match snapshot with
  | none => pure message
  | some snapshot => do
      match ← (ask (.assertSourceUnchanged runId snapshot)).attempt with
      | .ok _ => pure message
      | .error isolation => pure (if includes message isolation then message
          else message ++ "\n" ++ isolation)

def failedPatch (message : String) (now : Int) : RunPatch where
  status := some .failed
  error := some (some message)
  finishedAt := some (some now)

def closeFailedRun (run : RunRow) (message : String) : Dialog RunRow := do
  match ← reading (getRun run.id) with
  | none => pure run
  | some current =>
    if isOpen current then do
      let now ← ask .clock
      ask (.updateRun run.id (failedPatch message now))
    else pure run

def stopActive (runId : String) : Dialog Unit := do
  match ← recalled fun s => mapGet runId s.activeRuns with
  | none => pure ()
  | some active => do
      let _ ← (ask (.stopAdapter runId active.agent active.adapterRunId)).attempt
      forgetActive runId

def evidenceError (run : RunRow) : Option AdapterRun → Dialog (Option String)
  | none => pure none
  | some adapterRun => do
      match ← (ingestAdapterArtifacts o run adapterRun.stdoutPath adapterRun.stderrPath
          adapterRun.resultPath).attempt with
      | .ok _ => pure none
      | .error error => pure (some error)

def captureFailed (run : RunRow) (worktree : Option WorktreeInfo) : Dialog Unit :=
  match worktree with
  | none => pure ()
  | some worktree => do
      let _ ← (captureReview run worktree).attempt
      pure ()

def publishCaptureError (run : RunRow) : Option String → Dialog Unit
  | none => pure ()
  | some message => publish (runEvent run "artifact.capture_failed" .error message none)

def failStep (step : RouteStepRow) (runId : String) (s : Progress) (error : String) :
    Dialog StepOutcome := do
  stopActive runId
  setPhase runId s.run.taskId .finalizing
  let message ← isolationMessage runId s.sourceSnapshot error
  let capture ← evidenceError o s.run s.adapterRun
  let run ← closeFailedRun s.run message
  ask (.updateRouteStep step.id ⟨some .failed,none⟩)
  captureFailed run s.worktree
  publish (runEvent run "run.failed" .error message none)
  publishCaptureError run capture
  forgetRun runId
  pure ⟨{step with status := .failed,runId := some runId},some run,none,s.worktree,false,false,
    some message⟩

def startingPatch (now : Int) : RunPatch where
  status := some .starting
  startedAt := some (some now)

-- The run row and its link from the step, before anything the handler covers.
def beginRun (task : TaskRow) (step : RouteStepRow) : Dialog RunRow := do
  let created ← ask (.createRun ⟨task.id,step.id,step.agent,step.role⟩)
  setPhase created.id task.id .starting
  ask (.updateRouteStep step.id ⟨some .running,some (some created.id)⟩)
  let now ← ask .clock
  let run ← ask (.updateRun created.id (startingPatch now))
  publish (runEvent run "run.starting" .info
    s!"{step.agent.text} is starting the {step.role.text} step." none)
  pure run

def runStep (task : TaskRow) (step : RouteStepRow) (prior : List PriorResult)
    (inherited : Option WorktreeInfo) : Dialog StepOutcome := do
  let run ← beginRun task step
  let (s,r) ← guardedStep o task step run.id prior ⟨run,inherited,none,none⟩
  match r with
  | .ok outcome => pure outcome
  | .error error => failStep o step run.id s error

def executeStep (task : TaskRow) (step : RouteStepRow) (prior : List PriorResult)
    (inherited : Option WorktreeInfo) : Dialog StepOutcome := do
  if ← shutdownRequested then
    unavailableStep step "Worker shutdown requested before execution."
  else if !o.registered step.agent then
    unavailableStep step s!"Adapter is not registered: {step.agent.text}"
  else do
    let availability ← ask (.availability step.agent)
    if !availability.available then
      unavailableStep step
        s!"{step.agent.text} unavailable: {availability.reason.getD availability.target}"
    else if ← shutdownRequested then
      unavailableStep step "Worker shutdown requested before execution."
    else runStep o task step prior inherited

end

end ControlCenter.Coordinator
