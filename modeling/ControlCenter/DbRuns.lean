import ControlCenter.DbReviews
import ControlCenter.RunLogic

/-! Runs of the control database: calls of any number of processes, each one turn of the
write lane, and what a call does to the row of a task. -/
namespace ControlCenter.DbRuns
open JsonValue AccpEnvelope Protocol Table Db DbReviews

inductive DbCall where
  | createTask (input : TaskPayload) (plan : RoutePlan)
  | claimNextTask (workerId : String)
  | heartbeatTask (taskId workerId : String)
  | recoverStaleTasks (cutoffMs : Option Int) (recoveredBy : String)
  | recoverTasksOwnedBy (claimedBy recoveredBy : String)
  | updateTaskStatus (taskId : String) (status : TaskStatus) (latestUpdate : String)
  | updateRouteStep (stepId : String) (patch : StepPatch)
  | createRun (input : CreateRunInput)
  | updateRun (runId : String) (patch : RunPatch)
  | appendEvent (input : EventInput)
  | addArtifact (input : ArtifactInput)
  | finalizeTaskExecution (taskId : String) (status : FinalStatus) (latestUpdate : String)
      (runId : Option String)
  | approveTaskReview (taskId : String) (note : Option String) (expected : Option Expected)
  | requestTaskRework (taskId note : String) (expected : Option Expected)
  | retryBlockedTask (taskId : String) (note : Option String) (allowUnconfirmedRemote : Bool)

section
variable (m : Moment)

def DbCall.perform (db : ControlCenterDb) : DbCall → Outcome ControlCenterDb
  | .createTask input plan => (Db.createTask m input plan db).map Prod.snd
  | .claimNextTask workerId => (Db.claimNextTask m workerId db).map Prod.snd
  | .heartbeatTask taskId workerId => (Db.heartbeatTask m taskId workerId db).map Prod.snd
  | .recoverStaleTasks cutoffMs recoveredBy =>
      (Db.recoverStaleTasks m cutoffMs recoveredBy db).map Prod.snd
  | .recoverTasksOwnedBy claimedBy recoveredBy =>
      (Db.recoverTasksOwnedBy m claimedBy recoveredBy db).map Prod.snd
  | .updateTaskStatus taskId status latestUpdate => Db.updateTaskStatus m taskId status latestUpdate db
  | .updateRouteStep stepId patch => Db.updateRouteStep m stepId patch db
  | .createRun input => (Db.createRun m input db).map Prod.snd
  | .updateRun runId patch => (Db.updateRun m runId patch db).map Prod.snd
  | .appendEvent input => Db.appendEvent m input db
  | .addArtifact input => (DbReviews.addArtifact m input db).map Prod.snd
  | .finalizeTaskExecution taskId status latestUpdate runId =>
      DbReviews.finalizeTaskExecution m taskId status latestUpdate runId db
  | .approveTaskReview taskId note expected =>
      (DbReviews.approveTaskReview m taskId note expected db).map Prod.snd
  | .requestTaskRework taskId note expected =>
      (DbReviews.requestTaskRework m taskId note expected db).map Prod.snd
  | .retryBlockedTask taskId note allow =>
      (DbReviews.retryBlockedTask m taskId note allow db).map Prod.snd

inductive RowMoves (r : TaskRow) : TaskRow → Prop
  | kept : RowMoves r r
  | claimed (workerId : String) (queued : r.status = .queued) : RowMoves r {r with
      status := .running
      claimedBy := some workerId
      claimedAt := some m.now
      latestUpdate := s!"Claimed by {workerId}."
      updatedAt := m.now}
  | heartbeat (running : r.status = .running) (worker : String)
      (held : r.claimedBy = some worker) : RowMoves r {r with
      claimedAt := some m.now
      updatedAt := m.now}
  | recovered (cause : RecoveryCause) : RowMoves r (recoveredTask m cause r)
  | moved (status : TaskStatus) (latestUpdate : String) : RowMoves r {r with
      status
      latestUpdate
      claimedBy := if status = .running then r.claimedBy else none
      claimedAt := if status = .running then r.claimedAt else none
      updatedAt := m.now}
  | released (status : TaskStatus) (latestUpdate : String) (idle : status ≠ .running) :
      RowMoves r (DbReviews.released m status latestUpdate r)

structure Waiting (r : TaskRow) : Prop where
  queued : r.status = .queued
  claimedBy : r.claimedBy = none
  claimedAt : r.claimedAt = none

structure TasksMove (db next : ControlCenterDb) (taskId : String) : Prop where
  known : ∀ r, db.tasks.get taskId = some r →
    ∃ r', next.tasks.get taskId = some r' ∧ RowMoves m r r'
  fresh : db.tasks.get taskId = none → ∀ r', next.tasks.get taskId = some r' → Waiting r'

variable {m} {db next : ControlCenterDb}

theorem tasksSame (same : next.tasks = db.tasks) (taskId : String) : TasksMove m db next taskId where
  known r found := ⟨r,by rw [same,found],.kept⟩
  fresh none r' found := by rw [same,none] at found; contradiction

theorem TasksMove.same {other : ControlCenterDb} {taskId : String} (moves : TasksMove m db next taskId)
    (same : other.tasks = next.tasks) : TasksMove m db other taskId where
  known r found := by rw [same]; exact moves.known r found
  fresh none := by rw [same]; exact moves.fresh none

theorem getUpdated {target taskId : String} {f : TaskRow → TaskRow}
    {keyed : ∀ r, (f r).id = r.id} : (db.updateTask target f keyed).tasks.get taskId =
      (db.tasks.get taskId).map fun r => if r.id == target then f r else r := by
  rw [ControlCenterDb.updateTask,getUpdate]

theorem tasksUpdated {start : ControlCenterDb} {target : String} {f : TaskRow → TaskRow}
    {keyed : ∀ r, (f r).id = r.id} (same : db.tasks = start.tasks)
    (moves : ∀ r ∈ db.tasks, r.id = target → RowMoves m r (f r)) (taskId : String) :
    TasksMove m start (db.updateTask target f keyed) taskId where
  known r found := by
    rw [← same] at found
    have listed := (getSome.mp found).1
    refine ⟨if r.id == target then f r else r,by rw [getUpdated,found]; rfl,?_⟩
    split
    · exact moves r listed (by simpa using ‹(r.id == target) = true›)
    · exact .kept
  fresh none r' found := by
    rw [getUpdated,same,none] at found
    contradiction

theorem uniqueSource {α : Type} {columns : String} {inserted : Option α} {a : α}
    (h : unique columns inserted = .ok a) : inserted = some a := by
  cases inserted with
  | none => cases h
  | some b => exact congrArg some (Except.ok.inj h)

theorem eventTasks {taskId : String} {runId : Option String} {type : String} {level : EventLevel}
    {message : String} {data : Option Json} {createdAt : Int}
    (h : db.insertEvent taskId runId type level message data createdAt = .ok next) :
    next.tasks = db.tasks := by
  obtain ⟨_,_,last⟩ := exceptBind h
  cases Except.ok.inj last
  rfl

theorem messageTasks {message : MessageRow} (h : db.insertMessage message = .ok next) :
    next.tasks = db.tasks := by
  obtain ⟨_,_,h⟩ := exceptBind h
  obtain ⟨_,_,last⟩ := exceptBind h
  cases Except.ok.inj last
  rfl

theorem createTasks {input : TaskPayload} {plan : RoutePlan} {id : String}
    (h : Db.createTask m input plan db = .ok (id,next)) (taskId : String) :
    TasksMove m db next taskId := by
  obtain ⟨task,_,h⟩ := exceptBind h
  obtain ⟨plan,_,h⟩ := exceptBind h
  obtain ⟨tasks,inserting,h⟩ := exceptBind h
  obtain ⟨routeSteps,_,h⟩ := exceptBind h
  obtain ⟨last,logged,h⟩ := exceptBind h
  obtain ⟨rfl,rfl⟩ := Prod.mk.inj (Except.ok.inj h)
  have same := eventTasks logged
  have inserted := uniqueSource inserting
  have read (k : String) : last.tasks.get k = if task.id.getD ("task_" ++ m.uuid) = k then
      some (queuedRow (task.id.getD ("task_" ++ m.uuid)) task plan m.now) else db.tasks.get k := by
    rw [same]
    exact getInsert inserted
  constructor
  · intro r found
    obtain ⟨listed,keyed⟩ := getSome.mp found
    have other := (insertSome inserted).1 r listed
    refine ⟨r,?_,.kept⟩
    rw [read,if_neg fun equal => other (keyed.trans equal.symm),found]
  · intro none r' found
    rw [read] at found
    split at found
    · cases Option.some.inj found
      exact ⟨rfl,rfl,rfl⟩
    · rw [none] at found
      contradiction

theorem nextQueuedSource {task : TaskRow} (h : nextQueued db = some task) :
    task ∈ db.tasks ∧ task.status = .queued := by
  have listed := List.mem_of_mem_head? h
  rw [List.mem_insertionSort,List.mem_filter] at listed
  exact ⟨listed.1,of_decide_eq_true listed.2⟩

theorem claimTasks {workerId : String} {claimed : Option String}
    (h : Db.claimNextTask m workerId db = .ok (claimed,next)) (taskId : String) :
    TasksMove m db next taskId := by
  unfold Db.claimNextTask at h
  split at h
  · obtain ⟨_,rfl⟩ := Prod.mk.inj (Except.ok.inj h)
    exact tasksSame rfl taskId
  · rename_i candidate chosen
    obtain ⟨last,logged,h⟩ := exceptBind h
    obtain ⟨_,rfl⟩ := Prod.mk.inj (Except.ok.inj h)
    obtain ⟨listed,queued⟩ := nextQueuedSource chosen
    refine TasksMove.same (tasksUpdated rfl (fun r member same => ?_) taskId) (eventTasks logged)
    cases keyUnique member listed same
    exact .claimed workerId queued

theorem heartbeatTasks {target workerId : String} {at_ : Int}
    (h : Db.heartbeatTask m target workerId db = .ok (at_,next)) (taskId : String) :
    TasksMove m db next taskId := by
  unfold Db.heartbeatTask at h
  dsimp only at h
  split at h
  · contradiction
  split at h
  · rename_i held
    obtain ⟨_,rfl⟩ := Prod.mk.inj (Except.ok.inj h)
    refine tasksUpdated rfl (fun r member same => ?_) taskId
    rw [← same,show db.tasks.get r.id = some r from getMem member] at held
    simp only [Option.any_some,Bool.and_eq_true,beq_iff_eq] at held
    exact .heartbeat held.1 _ held.2
  · contradiction

def Recovers (m : Moment) (cause : RecoveryCause) (db next : ControlCenterDb) : Prop :=
  ∀ taskId, next.tasks.get taskId = db.tasks.get taskId ∨
    next.tasks.get taskId = (db.tasks.get taskId).map (recoveredTask m cause)

theorem Recovers.trans {cause : RecoveryCause} {last : ControlCenterDb}
    (first : Recovers m cause db next) (second : Recovers m cause next last) :
    Recovers m cause db last := by
  intro taskId
  rcases second taskId with same | blocked
  · rw [same]
    exact first taskId
  · right
    rw [blocked]
    rcases first taskId with same | again
    · rw [same]
    · rw [again,Option.map_map]
      rfl

theorem closeTasks {cause : RecoveryCause} {recoveredBy : String} {runs : List RunRow}
    (h : closeRuns m cause recoveredBy runs db = .ok next) : next.tasks = db.tasks := by
  induction runs generalizing db with
  | nil =>
    cases Except.ok.inj h
    rfl
  | cons run rest ih =>
    obtain ⟨closed,logged,h⟩ := exceptBind h
    have same := eventTasks logged
    exact (ih h).trans same

theorem recoverTaskTasks {cause : RecoveryCause} {recoveredBy : String} {task : TaskRow}
    (h : recoverTask m cause recoveredBy task db = .ok next) : Recovers m cause db next := by
  obtain ⟨closed,closing,logged⟩ := exceptBind h
  intro taskId
  have same : closed.tasks = db.tasks := closeTasks closing
  have read : next.tasks.get taskId = (db.tasks.get taskId).map fun r =>
      if r.id == task.id then recoveredTask m cause r else r := by
    rw [eventTasks logged,← same]
    exact getUpdated
  rw [read]
  cases db.tasks.get taskId with
  | none => exact .inl rfl
  | some r =>
    dsimp only [Option.map_some]
    split
    · exact .inr rfl
    · exact .inl rfl

theorem recoverTasksTasks {cause : RecoveryCause} {recoveredBy : String} {tasks : List TaskRow}
    {result last : StaleRecoveryResult}
    (h : recoverTasks m cause recoveredBy tasks result db = .ok (last,next)) :
    Recovers m cause db next := by
  induction tasks generalizing db result with
  | nil =>
    obtain ⟨_,rfl⟩ := Prod.mk.inj (Except.ok.inj h)
    exact fun _ => .inl rfl
  | cons task rest ih =>
    obtain ⟨middle,recovered,h⟩ := exceptBind h
    exact (recoverTaskTasks recovered).trans (ih h)

theorem Recovers.moves {cause : RecoveryCause} (recovers : Recovers m cause db next)
    (taskId : String) : TasksMove m db next taskId where
  known r found := by
    rcases recovers taskId with same | blocked
    · exact ⟨r,by rw [same,found],.kept⟩
    · exact ⟨recoveredTask m cause r,by rw [blocked,found]; rfl,.recovered cause⟩
  fresh none r' found := by
    rcases recovers taskId with same | blocked
    · rw [same,none] at found
      contradiction
    · rw [blocked,none] at found
      contradiction

theorem recoverRunningTasksTasks {cause : RecoveryCause} {recoveredBy : String}
    {result : StaleRecoveryResult}
    (h : recoverRunningTasks m cause recoveredBy db = .ok (result,next)) (taskId : String) :
    TasksMove m db next taskId := by
  unfold recoverRunningTasks at h
  dsimp only at h
  split at h
  · contradiction
  · exact (recoverTasksTasks h).moves taskId

theorem statusTasks {target latestUpdate : String} {status : TaskStatus}
    (h : Db.updateTaskStatus m target status latestUpdate db = .ok next) (taskId : String) :
    TasksMove m db next taskId := by
  obtain ⟨row,_,h⟩ := exceptBind h
  obtain ⟨_,_,last⟩ := exceptBind h
  cases Except.ok.inj last
  exact tasksUpdated rfl (fun _ _ _ => .moved status latestUpdate) taskId

theorem releaseTasks {start : ControlCenterDb} {target latestUpdate : String} (status : TaskStatus)
    (idle : status ≠ .running) (same : db.tasks = start.tasks) (taskId : String) :
    TasksMove m start (release m target status latestUpdate db) taskId :=
  tasksUpdated same (fun _ _ _ => .released status latestUpdate idle) taskId

theorem finalizeTasks {target latestUpdate : String} {status : FinalStatus}
    {runId : Option String}
    (h : DbReviews.finalizeTaskExecution m target status latestUpdate runId db = .ok next)
    (taskId : String) : TasksMove m db next taskId := by
  obtain ⟨task,_,h⟩ := exceptBind h
  dsimp only at h
  split at h
  · contradiction
  cases status with
  | done =>
    cases Except.ok.inj h
    refine releaseTasks .done (by decide) ?_ taskId
    exact rfl
  | needsReview =>
    obtain ⟨reviewed,opening,last⟩ := exceptBind h
    cases Except.ok.inj last
    obtain ⟨_,_,opening⟩ := exceptBind opening
    obtain ⟨_,_,opened⟩ := exceptBind opening
    cases Except.ok.inj opened
    refine releaseTasks .needsReview (by decide) ?_ taskId
    exact rfl

theorem approveTasks {target : String} {note : Option String} {expected : Option Expected}
    {review : ReviewRow}
    (h : DbReviews.approveTaskReview m target note expected db = .ok (review,next))
    (taskId : String) : TasksMove m db next taskId := by
  obtain ⟨_,_,h⟩ := exceptBind h
  obtain ⟨_,rfl⟩ := Prod.mk.inj (Except.ok.inj h)
  refine releaseTasks .done (by decide) ?_ taskId
  exact rfl

theorem reworkTasks {target note : String} {expected : Option Expected} {review : ReviewRow}
    (h : DbReviews.requestTaskRework m target note expected db = .ok (review,next))
    (taskId : String) : TasksMove m db next taskId := by
  unfold DbReviews.requestTaskRework at h
  dsimp only at h
  split at h
  · contradiction
  obtain ⟨_,_,h⟩ := exceptBind h
  obtain ⟨noted,noting,h⟩ := exceptBind h
  obtain ⟨_,rfl⟩ := Prod.mk.inj (Except.ok.inj h)
  have same := messageTasks noting
  refine releaseTasks .queued (by decide) ?_ taskId
  exact same

theorem retryTasks {target body : String} {note : Option String} {allow : Bool}
    (h : DbReviews.retryBlockedTask m target note allow db = .ok (body,next))
    (taskId : String) : TasksMove m db next taskId := by
  obtain ⟨task,_,h⟩ := exceptBind h
  split at h
  · contradiction
  split at h
  · contradiction
  obtain ⟨noted,noting,h⟩ := exceptBind h
  obtain ⟨_,rfl⟩ := Prod.mk.inj (Except.ok.inj h)
  have same := messageTasks noting
  refine releaseTasks .queued (by decide) ?_ taskId
  exact same

theorem mapSource {α β : Type} {x : Outcome α} {f : α → β} {b : β} (h : x.map f = .ok b) :
    ∃ a, x = .ok a ∧ f a = b := by
  cases x with
  | error _ => contradiction
  | ok a => exact ⟨a,rfl,Except.ok.inj h⟩

theorem secondSource {α : Type} {x : Outcome (α × ControlCenterDb)}
    (h : x.map Prod.snd = .ok next) : ∃ a, x = .ok (a,next) := by
  obtain ⟨pair,ran,rfl⟩ := mapSource h
  exact ⟨pair.1,ran⟩

theorem stepTasks {stepId : String} {patch : StepPatch}
    (h : Db.updateRouteStep m stepId patch db = .ok next) : next.tasks = db.tasks := by
  obtain ⟨_,_,last⟩ := exceptBind h
  cases Except.ok.inj last
  rfl

theorem newRunTasks {input : CreateRunInput} {run : RunRow}
    (h : Db.createRun m input db = .ok (run,next)) : next.tasks = db.tasks := by
  obtain ⟨_,_,h⟩ := exceptBind h
  obtain ⟨_,_,h⟩ := exceptBind h
  obtain ⟨_,rfl⟩ := Prod.mk.inj (Except.ok.inj h)
  rfl

theorem runTasks {runId : String} {patch : RunPatch} {run : RunRow}
    (h : Db.updateRun m runId patch db = .ok (run,next)) : next.tasks = db.tasks := by
  obtain ⟨_,_,h⟩ := exceptBind h
  obtain ⟨_,_,h⟩ := exceptBind h
  obtain ⟨_,rfl⟩ := Prod.mk.inj (Except.ok.inj h)
  rfl

theorem artifactTasks {input : ArtifactInput} {row : ArtifactRow}
    (h : DbReviews.addArtifact m input db = .ok (row,next)) : next.tasks = db.tasks := by
  unfold DbReviews.addArtifact at h
  split at h
  · contradiction
  split at h
  · contradiction
  obtain ⟨_,_,h⟩ := exceptBind h
  split at h
  · split at h
    · obtain ⟨_,rfl⟩ := Prod.mk.inj (Except.ok.inj h)
      rfl
    · contradiction
  · obtain ⟨_,_,h⟩ := exceptBind h
    obtain ⟨_,_,h⟩ := exceptBind h
    obtain ⟨_,rfl⟩ := Prod.mk.inj (Except.ok.inj h)
    rfl

theorem tasksStep {call : DbCall} (h : call.perform m db = .ok next) (taskId : String) :
    TasksMove m db next taskId := by
  cases call with
  | createTask input plan => exact createTasks (secondSource h).choose_spec taskId
  | claimNextTask workerId => exact claimTasks (secondSource h).choose_spec taskId
  | heartbeatTask target workerId => exact heartbeatTasks (secondSource h).choose_spec taskId
  | recoverStaleTasks cutoffMs recoveredBy =>
    obtain ⟨result,h⟩ := secondSource h
    cases cutoffMs with
    | none => contradiction
    | some cutoff => exact recoverRunningTasksTasks h taskId
  | recoverTasksOwnedBy claimedBy recoveredBy =>
    obtain ⟨result,h⟩ := secondSource h
    unfold Db.recoverTasksOwnedBy at h
    dsimp only at h
    split at h
    · contradiction
    · exact recoverRunningTasksTasks h taskId
  | updateTaskStatus target status latestUpdate => exact statusTasks h taskId
  | updateRouteStep stepId patch => exact tasksSame (stepTasks h) taskId
  | createRun input => exact tasksSame (newRunTasks (secondSource h).choose_spec) taskId
  | updateRun runId patch => exact tasksSame (runTasks (secondSource h).choose_spec) taskId
  | appendEvent input => exact tasksSame (eventTasks h) taskId
  | addArtifact input => exact tasksSame (artifactTasks (secondSource h).choose_spec) taskId
  | finalizeTaskExecution target status latestUpdate runId => exact finalizeTasks h taskId
  | approveTaskReview target note expected =>
    exact approveTasks (secondSource h).choose_spec taskId
  | requestTaskRework target note expected =>
    exact reworkTasks (secondSource h).choose_spec taskId
  | retryBlockedTask target note allow => exact retryTasks (secondSource h).choose_spec taskId

structure Turn where
  moment : Moment
  call : DbCall

def turn (db : ControlCenterDb) (t : Turn) : ControlCenterDb :=
  match t.call.perform t.moment db with
  | .ok next => next
  | .error _ => db

theorem turnPerformed {t : Turn} (h : t.call.perform t.moment db = .ok next) :
    turn db t = next := by
  unfold turn
  rw [h]

theorem turnTasks (db : ControlCenterDb) (t : Turn) (taskId : String) :
    TasksMove t.moment db (turn db t) taskId := by
  unfold turn
  split
  · exact tasksStep ‹_› taskId
  · exact tasksSame rfl taskId

end

end ControlCenter.DbRuns
