import ControlCenter.Db

/-! Evidence and decisions in the control database: artifacts that never change, the
review a finished task waits for, its two decisions, and the retry of a blocked task. -/
namespace ControlCenter.DbReviews
open JsonValue Protocol Table Db

structure ArtifactMetadata where
  taskId : String
  runId : String
  kind : ArtifactKind
  name : String
  path : String
  relativePath : String
  metadataPath : String
  sha256 : String
  sizeBytes : Int
  createdAt : Int
  deriving DecidableEq, Repr

structure ArtifactInput where
  artifact : ArtifactMetadata
  metadata : Option Json

def sha256Text (s : String) : Bool := s.toList.length == 64 && s.toList.all ZodSchema.lowerHex

mutual
-- isDeepStrictEqual on parsed JSON: the order of members does not count.
def sameJson : Json → Json → Bool
  | .null,.null => true
  | .boolean a,.boolean b => a == b
  | .number a,.number b => a == b
  | .string a,.string b => a == b
  | .array a,.array b => sameItems a b
  | .object a,.object b => a.length == b.length && sameMembers a b
  | _,_ => false

def sameItems : List Json → List Json → Bool
  | [],[] => true
  | v::rest,w::others => sameJson v w && sameItems rest others
  | _,_ => false

def sameMembers : List (String × Json) → List (String × Json) → Bool
  | [],_ => true
  | (k,v)::rest,others => (match lookup k others with
      | some w => sameJson v w
      | none => false) && sameMembers rest others
end

def sameMetadata : Option Json → Option Json → Bool
  | none,none => true
  | some a,some b => sameJson a b
  | _,_ => false

def artifactError : Option Json → Outcome (Option Json)
  | none => .ok none
  | some v => match v.image with
    | .undefined => .error "Artifact metadata must be JSON-serializable"
    | .object members => .ok (some (.object members))
    | .null => .ok none
    | _ => .error "Artifact metadata must be a JSON object"

section
variable (m : Moment)

def insertedArtifact (input : ArtifactMetadata) (metadata : Option Json) : ArtifactRow :=
  ⟨"artifact_" ++ m.uuid,input.taskId,some input.runId,input.kind,input.path,input.relativePath,
    input.sha256,input.sizeBytes.toNat,metadata,input.createdAt⟩

def sameArtifact (row : ArtifactRow) (input : ArtifactMetadata) (metadata : Option Json) : Bool :=
  row.taskId == input.taskId && row.runId == some input.runId && row.kind == input.kind &&
    row.path == input.path && row.relativePath == input.relativePath &&
    row.sha256 == input.sha256 && (row.sizeBytes : Int) == input.sizeBytes &&
    sameMetadata row.metadata metadata

-- The row that already holds this run's path, if any: INSERT ... ON CONFLICT DO NOTHING.
def recordedArtifact (input : ArtifactMetadata) (db : ControlCenterDb) : Option ArtifactRow :=
  db.artifacts.rows.find? fun r => r.runId == some input.runId && r.path == input.path

def addArtifact (input : ArtifactInput) (db : ControlCenterDb) :
    Outcome (ArtifactRow × ControlCenterDb) :=
  if !sha256Text input.artifact.sha256 then
    .error "Artifact sha256 must be a lowercase SHA-256 digest"
  else if !(ZodSchema.safeInteger input.artifact.sizeBytes &&
      decide (0 ≤ input.artifact.sizeBytes)) then
    .error "Artifact size must be a non-negative safe integer"
  else do
    let metadata ← artifactError input.metadata
    match recordedArtifact input.artifact db with
    | some row =>
      if sameArtifact row input.artifact metadata then .ok (row,db)
      else .error ("Artifact database evidence must be identical for immutable path: " ++
        input.artifact.path)
    | none => do
        references (db.hasTask input.artifact.taskId && db.hasRun (some input.artifact.runId))
        let row := insertedArtifact m input.artifact metadata
        let artifacts ← unique "artifacts.id" (db.artifacts.insert row)
        .ok (row,{db with artifacts})

def artifactOrder (a b : ArtifactRow) : Prop := a.createdAt ≤ b.createdAt
instance : DecidableRel artifactOrder := fun _ _ => by unfold artifactOrder; infer_instance

def listArtifacts (taskId : String) (db : ControlCenterDb) : List ArtifactRow :=
  (db.artifacts.rows.filter fun r => r.taskId == taskId).insertionSort artifactOrder

def messageOrder (a b : MessageRow) : Prop := a.createdAt ≤ b.createdAt
instance : DecidableRel messageOrder := fun _ _ => by unfold messageOrder; infer_instance

def listMessages (taskId : String) (db : ControlCenterDb) : List MessageRow :=
  (db.messages.rows.filter fun r => r.taskId == taskId).insertionSort messageOrder

def reviewOrder (a b : ReviewRow) : Prop := a.createdAt < b.createdAt ∨
  (a.createdAt = b.createdAt ∧ a.id ≤ b.id)
instance : DecidableRel reviewOrder := fun _ _ => by unfold reviewOrder; infer_instance

def listReviews (taskId : String) (db : ControlCenterDb) : List ReviewRow :=
  (db.reviews.rows.filter fun r => r.taskId == taskId).insertionSort reviewOrder

def getReview (reviewId : String) (db : ControlCenterDb) : Option ReviewRow :=
  db.reviews.get reviewId

inductive FinalStatus where
  | done
  | needsReview
  deriving DecidableEq, Repr

def FinalStatus.status : FinalStatus → TaskStatus
  | .done => .done
  | .needsReview => .needsReview

def released (status : TaskStatus) (latestUpdate : String) (r : TaskRow) : TaskRow := {r with
  status
  latestUpdate
  claimedBy := none
  claimedAt := none
  updatedAt := m.now}

def release (taskId : String) (status : TaskStatus) (latestUpdate : String)
    (db : ControlCenterDb) : ControlCenterDb :=
  db.updateTask taskId (released m status latestUpdate) fun _ => rfl

def pendingReview (taskId : String) (runId : Option String) : ReviewRow :=
  ⟨"review_" ++ m.uuid,taskId,runId,none,.pending,none,m.now,m.now⟩

def openReview (taskId : String) (runId : Option String) (db : ControlCenterDb) :
    Outcome ControlCenterDb := do
  references (db.hasTask taskId && db.hasRun runId)
  let reviews ← unique "reviews.id" (db.reviews.insert (pendingReview m taskId runId))
  .ok {db with reviews}

def finalizeTaskExecution (taskId : String) (status : FinalStatus) (latestUpdate : String)
    (runId : Option String) (db : ControlCenterDb) : Outcome ControlCenterDb := do
  let task ← found s!"Task not found: {taskId}" (db.tasks.get taskId)
  if task.status ≠ .running then
    .error s!"Task {taskId} cannot finalize from {task.status.text}"
  else
    let reviewed ← match status with
      | .needsReview => openReview m taskId runId db
      | .done => .ok db
    .ok (release m taskId status.status latestUpdate reviewed)

structure Expected where
  reviewId : String
  updatedAt : Int
  deriving DecidableEq, Repr

-- ORDER BY created_at DESC, rowid DESC LIMIT 1.
def latestPending (taskId : String) (db : ControlCenterDb) : Option ReviewRow :=
  (db.reviews.rows.filter fun r => r.taskId == taskId && r.status == .pending).foldl
    (fun best r => match best with
      | some b => if b.createdAt ≤ r.createdAt then some r else some b
      | none => some r) none

def expectedReview (taskId : String) (expected : Option Expected) (db : ControlCenterDb) :
    Option ReviewRow :=
  match expected with
  | some e => (db.reviews.get e.reviewId).filter fun r => r.taskId == taskId
  | none => latestPending taskId db

def reviewToDecide (taskId : String) (expected : Option Expected) (db : ControlCenterDb) :
    Outcome ReviewRow := do
  let task ← found s!"Task not found: {taskId}" (db.tasks.get taskId)
  if task.status ≠ .needsReview then .error s!"Task {taskId} is not waiting for review"
  else
    let review ← found s!"Task {taskId} has no pending review" (expectedReview taskId expected db)
    if review.status ≠ .pending ∨ expected.any fun e => review.updatedAt != e.updatedAt then
      .error s!"Review changed concurrently: {review.id}"
    else .ok review

def decided (status : ReviewStatus) (note : Option String) (r : ReviewRow) : ReviewRow :=
  {r with status,note,updatedAt := m.now}

def decideReview (review : ReviewRow) (status : ReviewStatus) (note : Option String)
    (db : ControlCenterDb) : ControlCenterDb :=
  let reviews := db.reviews.update (fun r => r.id == review.id) (decided m status note)
    fun _ => rfl
  {db with reviews}

def cleaned (note : Option String) : Option String := nonempty (note.map trim)

def approveTaskReview (taskId : String) (note : Option String) (expected : Option Expected)
    (db : ControlCenterDb) : Outcome (ReviewRow × ControlCenterDb) := do
  let review ← reviewToDecide taskId expected db
  let cleanNote := cleaned note
  let next := release m taskId .done (cleanNote.getD "Approved by human reviewer.")
    (decideReview m review .approved cleanNote db)
  .ok (decided m .approved cleanNote review,next)

def resetSteps (test : RouteStepRow → Bool) (db : ControlCenterDb) : ControlCenterDb :=
  let routeSteps := db.routeSteps.update test
    (fun s => {s with status := .pending,runId := none,updatedAt := m.now}) fun _ => rfl
  {db with routeSteps}

def requestTaskRework (taskId note : String) (expected : Option Expected)
    (db : ControlCenterDb) : Outcome (ReviewRow × ControlCenterDb) := do
  let cleanNote := trim note
  if cleanNote = "" then .error "Rework note is required"
  else
    let review ← reviewToDecide taskId expected db
    let noted ← (decideReview m review .reworkRequested (some cleanNote) db).insertMessage
      ⟨"message_" ++ m.uuid,taskId,review.runId,"system","reviewer",cleanNote,"queued",m.now⟩
    let next := release m taskId .queued cleanNote
      (resetSteps m (fun s => s.taskId == taskId) noted)
    .ok (decided m .reworkRequested (some cleanNote) review,next)

-- SQLite's LIKE with a pattern between two percent signs ignores ASCII case.
def likeInfix (word text : List Char) : Bool :=
  (text.map Router.lower).tails.any fun rest => (word.map Router.lower).isPrefixOf rest

def heartbeatExpired : String := "Worker heartbeat expired"

def confirmedRemote (db : ControlCenterDb) (runId : String) : Bool :=
  db.events.any fun e => e.runId == some runId && e.type == "run.remote_cancellation_confirmed"

def unresolvedRemote (taskId : String) (db : ControlCenterDb) : Option RunRow :=
  db.runs.rows.find? fun r => r.taskId == taskId && r.agent == .openclaw &&
    (r.status == .stale ||
      r.error.any fun e => likeInfix heartbeatExpired.toList e.toList) &&
    !confirmedRemote db r.id

def retryBlockedTask (taskId : String) (note : Option String) (allowUnconfirmedRemote : Bool)
    (db : ControlCenterDb) : Outcome (String × ControlCenterDb) := do
  let body := (cleaned note).getD "Operator requested another execution attempt."
  let task ← found s!"Task not found: {taskId}" (db.tasks.get taskId)
  if task.status ≠ .blocked then .error s!"Task {taskId} is not blocked"
  else match if allowUnconfirmedRemote then none else unresolvedRemote taskId db with
    | some run => .error (s!"Task {taskId} has unconfirmed remote OpenClaw work ({run.id}); " ++
        "confirm cancellation or use the explicit allow-unconfirmed-remote override")
    | none => do
        let noted ← db.insertMessage
          ⟨"message_" ++ m.uuid,taskId,none,"system","operator",body,"queued",m.now⟩
        .ok (body,release m taskId .queued body
          (resetSteps m (fun s => s.taskId == taskId && s.status == .failed) noted))

end

end ControlCenter.DbReviews
