import ControlCenter.Execution

/-! What the rest of the program calls: creating a task, the two decisions on a review, the
retry, screenshots, stops and the recovery of tasks whose worker is gone. -/
namespace ControlCenter.Operations
open JsonValue Protocol Router Table Db DbReviews Dialogue Ports Coordinator Execution

def routeData (plan : RoutePlan) : Json := .object
  [("mode",.string plan.mode.text),("risk",.string plan.risk.text),
   ("agents",.array (plan.steps.map fun s => .string s.agent.text))]

def createTask (input : Json) : Dialog String := do
  let parsed ← Script.ofExcept (parseTaskPayload input)
  let repo ← ask (.resolvePath parsed.repo)
  let task : TaskPayload := {parsed with repo}
  let uuid ← ask .randomUuids
  let plan := routeTask uuid task
  let id : String ← ask (.createTask task plan)
  match ← getTask id with
  | none => .fail s!"Task disappeared after create: {id}"
  | some created => do
      publish ⟨created.task.id,none,"route.decided",.info,String.intercalate " " plan.reasons,
        some (routeData plan)⟩
      pure created.task.id

def approvalText (note : Option String) : String :=
  (cleaned note).getD "Task approved by human reviewer."

def reviewData (reviewId : String) : Option Json := some (.object [("reviewId",.string reviewId)])

def approveTask (taskId : String) (note : Option String) : Dialog Unit := do
  let review ← ask (.approveTaskReview taskId note none)
  publish (taskEvent taskId review.runId "review.approved" .info (approvalText note))

def approveReview (reviewId : String) (expectedUpdatedAt : Int) (note : Option String) :
    Dialog String := do
  match ← reading (getReview reviewId) with
  | none => .fail s!"Review not found: {reviewId}"
  | some pending => do
      let review ← ask (.approveTaskReview pending.taskId note (some ⟨reviewId,expectedUpdatedAt⟩))
      publish ⟨review.taskId,review.runId,"review.approved",.info,approvalText note,
        reviewData reviewId⟩
      pure review.taskId

def requestRework (taskId note : String) : Dialog Unit := do
  let review ← ask (.requestTaskRework taskId note none)
  publish (taskEvent taskId review.runId "review.rework_requested" .warn note)

def requestReviewRework (reviewId : String) (expectedUpdatedAt : Int) (note : String) :
    Dialog String := do
  match ← reading (getReview reviewId) with
  | none => .fail s!"Review not found: {reviewId}"
  | some pending => do
      let review ← ask (.requestTaskRework pending.taskId note (some ⟨reviewId,expectedUpdatedAt⟩))
      publish ⟨review.taskId,review.runId,"review.rework_requested",.warn,note,
        reviewData reviewId⟩
      pure review.taskId

def retryBlockedTask (taskId : String) (note : Option String) (allowUnconfirmedRemote : Bool) :
    Dialog Unit := do
  let body ← ask (.retryBlockedTask taskId note allowUnconfirmedRemote)
  publish (taskEvent taskId none "task.retry_requested" .warn body)

inductive ScreenshotContentType where
  | png | jpeg | webp | gif
  deriving DecidableEq, Repr

def ScreenshotContentType.text : ScreenshotContentType → String
  | .png => "image/png"
  | .jpeg => "image/jpeg"
  | .webp => "image/webp"
  | .gif => "image/gif"

structure Screenshot where
  taskId : String
  runId : String
  name : String
  contentType : ScreenshotContentType
  data : List UInt8
  metadata : List (String × Json)

-- path.extname: from the last dot of the last segment, unless the segment starts with it.
def extname (name : String) : String :=
  let segment := ((name.toList.reverse.dropWhile (· == '/')).takeWhile (· != '/'))
  let after := segment.takeWhile (· != '.')
  if segment = ['.','.'] then ""
  else if segment.length ≤ after.length + 1 then ""
  else String.ofList ('.' :: after.reverse)

def ascii (s : String) : List UInt8 := s.toList.map fun c => c.toNat.toUInt8

def screenshotMatches (extension : String) (data : List UInt8) : ScreenshotContentType → Bool
  | .png => extension == ".png" &&
      [0x89,0x50,0x4e,0x47,0x0d,0x0a,0x1a,0x0a].isPrefixOf data
  | .jpeg => (extension == ".jpg" || extension == ".jpeg") && [0xff,0xd8,0xff].isPrefixOf data
  | .webp => extension == ".webp" && decide (12 ≤ data.length) &&
      (ascii "RIFF").isPrefixOf data && (ascii "WEBP").isPrefixOf (data.drop 8)
  | .gif => extension == ".gif" &&
      ((ascii "GIF87a").isPrefixOf data || (ascii "GIF89a").isPrefixOf data)

def lowerText (s : String) : String := String.ofList (s.toList.map lower)

def assertScreenshotBytes (input : Screenshot) : Outcome Unit :=
  let extension := lowerText (extname input.name)
  if screenshotMatches extension input.data input.contentType then .ok ()
  else .error ("Screenshot bytes do not match " ++ input.contentType.text ++ " and " ++
    (if extension = "" then "no extension" else extension))

def binary (data : List UInt8) : String :=
  String.ofList (data.map fun b => Char.ofNat b.toNat)

def screenshotMetadata (input : Screenshot) : Json := .object
  ((input.metadata.filter fun m => m.1 != "contentType") ++
    [("contentType",.string input.contentType.text)])

section
variable (o : Options)

def attachScreenshot (input : Screenshot) : Dialog ArtifactRow := do
  let run ← reading (getRun input.runId)
  if !run.any fun r => r.taskId == input.taskId then
    .fail s!"Run {input.runId} does not belong to task {input.taskId}"
  else if o.maxAdapterArtifactBytes < input.data.length then
    .fail s!"Screenshot exceeded {o.maxAdapterArtifactBytes} bytes"
  else do
    Script.ofExcept (assertScreenshotBytes input)
    let artifact ← ask (.writeArtifact input.taskId input.runId .screenshot input.name
      (binary input.data))
    let record ← ask (.addArtifact ⟨artifact,some (screenshotMetadata input)⟩)
    publish ⟨input.taskId,some input.runId,"artifact.screenshot_attached",.info,
      s!"Attached screenshot {input.name}.",some (.object [("artifactId",.string record.id),
        ("sha256",.string record.sha256),("sizeBytes",.nat record.sizeBytes)])⟩
    pure record

inductive StopOutcome where
  | accepted | alreadyTerminal | finalizing
  deriving DecidableEq, Repr

def terminalRun (run : RunRow) : Bool :=
  [.succeeded,.failed,.stopped,.stale].contains run.status

def stopRun (runId : String) : Dialog StopOutcome := do
  match ← reading (getRun runId) with
  | none => .fail s!"Run not found: {runId}"
  | some run =>
    if terminalRun run then pure .alreadyTerminal
    else do
      let phase ← recalled fun s => (mapGet runId s.runPhases).map (·.2)
      if phase = some .finalizing then pure .finalizing
      else do
        publish (runEvent run "run.stop_requested" .warn
          "Operator requested cancellation for this run." none)
        let verifying ← recalled fun s => (nonempty (mapGet runId s.activeVerifications)).isSome
        if verifying then do
          ask (.stopVerifier runId)
          pure .accepted
        else match ← recalled fun s => mapGet runId s.activeRuns with
          | some control => do
              let _ ← ask (.stopAdapter runId control.agent control.adapterRunId)
              pure .accepted
          | none =>
            if phase = some .starting then do
              remember fun s => {s with
                stopRequestedRuns := s.stopRequestedRuns.filter (· != runId) ++ [runId]}
              pure .accepted
            else .fail s!"This supervisor does not own live run {runId}"

-- Promise.all or allSettled over independent actions: each runs, whatever the others do.
def eachOf {α : Type} (f : α → Dialog Unit) : List α → Dialog Unit
  | [] => pure ()
  | a::rest => do
      let r ← (f a).attempt
      eachOf f rest
      Script.ofExcept r

def liveRuns (s : Memory) : List String :=
  let taskIds := (s.activeRuns.map (·.2.taskId) ++ s.activeVerifications.map (·.2) ++
    s.runPhases.map (·.2.1)).dedup
  taskIds.flatMap fun taskId => (s.runPhases.filter fun e => e.2.1 == taskId).map (·.1)

def requestShutdown : Dialog Unit := do
  remember fun s => {s with shutdownRequested := true}
  let runIds ← recalled liveRuns
  let _ ← (eachOf (fun runId => do
    let _ ← stopRun runId
    pure ()) runIds).attempt
  pure ()

def cleanupProcess (candidate : ProcessCandidate) : Dialog Unit := do
  let cleanup ← ask (.terminateVerifiedProcessGroup candidate.runId candidate.pid)
  publish ⟨candidate.taskId,some candidate.runId,"run.recovery_process_cleanup",
    (if cleanup.status = "terminated" ∨ cleanup.status = "not-found" then .info else .warn),
    s!"{cleanup.status}: {cleanup.detail}",none⟩

def isRemoteCancellationConfirmed (status : AdapterStatus) : Bool := status == .stopped

def remoteMessage (remoteId : String) (result : RemoteCleanup) : String :=
  if isRemoteCancellationConfirmed result.status then
    s!"Remote handle {remoteId} reached {result.status.text}."
  else result.error.getD (s!"Remote handle {remoteId} reached {result.status.text}; " ++
    "external side effects require reconciliation.")

def cancelRemote (candidate : RemoteCandidate) : Dialog Unit := do
  let result ← ask (.cancelDurable candidate.remoteId)
  let confirmed := isRemoteCancellationConfirmed result.status
  publish ⟨candidate.taskId,some candidate.runId,
    (if confirmed then "run.remote_cancellation_confirmed"
      else "run.remote_cancellation_unconfirmed"),
    (if confirmed then .info else .warn),remoteMessage candidate.remoteId result,
    some (.object [("remoteId",.string candidate.remoteId),
      ("status",.string result.status.text)])⟩

def reconcileRecoveredRuns (recovered : StaleRecoveryResult) : Dialog Unit := do
  eachOf cleanupProcess recovered.processCandidates
  eachOf cancelRemote recovered.remoteCandidates

def recoverStale (cutoffMs : Option Int) (recoveredBy : String) : Dialog Unit := do
  let recovered ← ask (.recoverStaleTasks cutoffMs recoveredBy)
  reconcileRecoveredRuns recovered

def recoverDeadWorker (workerId recoveredBy : String) : Dialog Unit := do
  let recovered ← ask (.recoverTasksOwnedBy workerId recoveredBy)
  reconcileRecoveredRuns recovered

inductive Call where
  | createTask (input : Json)
  | runNext
  | heartbeat (taskId : String)
  | recoverStale (cutoffMs : Option Int) (recoveredBy : String)
  | recoverDeadWorker (workerId recoveredBy : String)
  | approveTask (taskId : String) (note : Option String)
  | approveReview (reviewId : String) (expectedUpdatedAt : Int) (note : Option String)
  | requestRework (taskId note : String)
  | requestReviewRework (reviewId : String) (expectedUpdatedAt : Int) (note : String)
  | retryBlockedTask (taskId : String) (note : Option String) (allowUnconfirmedRemote : Bool)
  | attachScreenshot (input : Screenshot)
  | addArtifact (input : ArtifactInput)
  | stopRun (runId : String)
  | requestShutdown

def discard {α : Type} (p : Dialog α) : TaskCrew Unit := (do
  let _ ← p
  pure () : Dialog Unit).alone

def Call.program : Call → TaskCrew Unit
  | .createTask input => discard (Operations.createTask input)
  | .runNext => do
      let _ ← Execution.runNext o
      pure ()
  | .heartbeat taskId => discard (ask (.heartbeatTask taskId o.workerId))
  | .recoverStale cutoffMs recoveredBy => discard (Operations.recoverStale cutoffMs recoveredBy)
  | .recoverDeadWorker workerId recoveredBy =>
      discard (Operations.recoverDeadWorker workerId recoveredBy)
  | .approveTask taskId note => discard (Operations.approveTask taskId note)
  | .approveReview reviewId updatedAt note =>
      discard (Operations.approveReview reviewId updatedAt note)
  | .requestRework taskId note => discard (Operations.requestRework taskId note)
  | .requestReviewRework reviewId updatedAt note =>
      discard (Operations.requestReviewRework reviewId updatedAt note)
  | .retryBlockedTask taskId note allow => discard (Operations.retryBlockedTask taskId note allow)
  | .attachScreenshot input => discard (Operations.attachScreenshot o input)
  | .addArtifact input => discard (ask (.addArtifact input))
  | .stopRun runId => discard (Operations.stopRun runId)
  | .requestShutdown => discard Operations.requestShutdown

end

end ControlCenter.Operations
