import ControlCenter.ReviewDecisions

/-! What each call of the control database makes of it when it returns. -/
namespace ControlCenter.CallSources
open JsonValue AccpEnvelope Protocol Table Db DbReviews DbRuns TaskRecovery StatusMachines

section
variable {m : Moment} {db next : ControlCenterDb}

theorem eventSource {taskId : String} {runId : Option String} {type : String} {level : EventLevel}
    {message : String} {data : Option Json} {createdAt : Int}
    (h : db.insertEvent taskId runId type level message data createdAt = .ok next) :
    next = {db with events := db.events ++
      [⟨db.events.length + 1,taskId,runId,type,level,message,data,createdAt⟩]} := by
  obtain ⟨_,_,last⟩ := exceptBind h
  exact (Except.ok.inj last).symm

theorem messageSource {message : MessageRow} (h : db.insertMessage message = .ok next) :
    ∃ messages, db.messages.insert message = some messages ∧ next = {db with messages} := by
  obtain ⟨_,_,h⟩ := exceptBind h
  obtain ⟨messages,inserting,last⟩ := exceptBind h
  exact ⟨messages,uniqueSource inserting,(Except.ok.inj last).symm⟩

theorem artifactSource {input : ArtifactInput} {row : ArtifactRow}
    (h : DbReviews.addArtifact m input db = .ok (row,next)) :
    ∃ artifacts, next = {db with artifacts} := by
  unfold DbReviews.addArtifact at h
  split at h
  · contradiction
  split at h
  · contradiction
  obtain ⟨_,_,h⟩ := exceptBind h
  split at h
  · split at h
    · obtain ⟨_,rfl⟩ := Prod.mk.inj (Except.ok.inj h)
      exact ⟨_,rfl⟩
    · contradiction
  · obtain ⟨_,_,h⟩ := exceptBind h
    obtain ⟨artifacts,_,h⟩ := exceptBind h
    obtain ⟨_,rfl⟩ := Prod.mk.inj (Except.ok.inj h)
    exact ⟨artifacts,rfl⟩

theorem createSource {input : TaskPayload} {plan : RoutePlan} {id : String}
    (h : Db.createTask m input plan db = .ok (id,next)) :
    ∃ task tasks routeSteps events, parseTaskPayload input.toJson = .ok task ∧
      checkPlan plan = .ok plan ∧
      db.tasks.insert (queuedRow id task plan m.now) = some tasks ∧
      ControlCenterDb.insertSteps id m.now plan.steps db.routeSteps = .ok routeSteps ∧
      next = {db with tasks,routeSteps,events} := by
  obtain ⟨task,parsed,h⟩ := exceptBind h
  obtain ⟨plan',checked,h⟩ := exceptBind h
  obtain ⟨tasks,inserting,h⟩ := exceptBind h
  obtain ⟨routeSteps,inserted,h⟩ := exceptBind h
  obtain ⟨last,logged,h⟩ := exceptBind h
  obtain ⟨rfl,rfl⟩ := Prod.mk.inj (Except.ok.inj h)
  have same : plan' = plan := by
    unfold checkPlan at checked
    split at checked
    · exact (Except.ok.inj checked).symm
    · contradiction
  cases same
  exact ⟨task,tasks,routeSteps,_,parsed,checked,uniqueSource inserting,inserted,eventSource logged⟩

def claimedRow (m : Moment) (workerId : String) (r : TaskRow) : TaskRow := {r with
  status := .running
  claimedBy := some workerId
  claimedAt := some m.now
  latestUpdate := s!"Claimed by {workerId}."
  updatedAt := m.now}

theorem claimedKept (m : Moment) (workerId : String) (r : TaskRow) :
    (claimedRow m workerId r).id = r.id := rfl

theorem claimSource {workerId : String} {claimed : Option String}
    (h : Db.claimNextTask m workerId db = .ok (claimed,next)) :
    (claimed = none ∧ next = db) ∨ ∃ task ∈ db.tasks, task.status = .queued ∧
      claimed = some task.id ∧ ∃ events,
        next = {db.updateTask task.id (claimedRow m workerId) (claimedKept m workerId) with events} := by
  unfold Db.claimNextTask at h
  split at h
  · obtain ⟨rfl,rfl⟩ := Prod.mk.inj (Except.ok.inj h)
    exact .inl ⟨rfl,rfl⟩
  next task chosen =>
    obtain ⟨last,logged,h⟩ := exceptBind h
    obtain ⟨rfl,rfl⟩ := Prod.mk.inj (Except.ok.inj h)
    obtain ⟨listed,queued⟩ := nextQueuedSource chosen
    exact .inr ⟨task,listed,queued,rfl,_,eventSource logged⟩

theorem heartbeatSource {target workerId : String} {at_ : Int}
    (h : Db.heartbeatTask m target workerId db = .ok (at_,next)) :
    ∃ r, db.tasks.get target = some r ∧ r.status = .running ∧
      next = db.updateTask target (fun r => {r with claimedAt := some m.now,updatedAt := m.now})
        fun _ => rfl := by
  unfold Db.heartbeatTask at h
  dsimp only at h
  split at h
  · contradiction
  split at h
  next held =>
    obtain ⟨_,rfl⟩ := Prod.mk.inj (Except.ok.inj h)
    cases found : db.tasks.get target with
    | none =>
      rw [found] at held
      contradiction
    | some r =>
      rw [found] at held
      simp only [Option.any_some,Bool.and_eq_true,beq_iff_eq] at held
      exact ⟨r,rfl,held.1,rfl⟩
  next => contradiction

theorem recoverySource {cause : RecoveryCause} {recoveredBy : String}
    {result : StaleRecoveryResult}
    (h : Db.recoverRunningTasks m cause recoveredBy db = .ok (result,next)) :
    Closes m cause ((staleTasks cause db).map TaskRow.id) db next ∧
      result.taskIds = (staleTasks cause db).map TaskRow.id := by
  unfold Db.recoverRunningTasks at h
  dsimp only at h
  split at h
  · contradiction
  · refine ⟨recoverTasksCloses h,?_⟩
    have named {tasks : List TaskRow} {result last : StaleRecoveryResult} {db : ControlCenterDb}
        (h : recoverTasks m cause (trim recoveredBy) tasks result db = .ok (last,next)) :
        last.taskIds = result.taskIds ++ tasks.map TaskRow.id := by
      induction tasks generalizing db result with
      | nil =>
        obtain ⟨rfl,_⟩ := Prod.mk.inj (Except.ok.inj h)
        exact (List.append_nil _).symm
      | cons task rest ih =>
        obtain ⟨middle,_,h⟩ := exceptBind h
        rw [ih h,List.map_cons]
        exact List.append_assoc _ [task.id] _
    exact named h

theorem statusSource {target latestUpdate : String} {status : TaskStatus}
    (h : Db.updateTaskStatus m target status latestUpdate db = .ok next) :
    ∃ r, db.tasks.get target = some r ∧ TaskEdge r.status status ∧
      next = db.updateTask target (writtenTask m status latestUpdate) fun _ => rfl := by
  obtain ⟨r,held,h⟩ := exceptBind h
  obtain ⟨_,asserted,last⟩ := exceptBind h
  exact ⟨r,foundSource held,assertedTask asserted,(Except.ok.inj last).symm⟩

theorem stepSource {stepId : String} {patch : StepPatch}
    (h : Db.updateRouteStep m stepId patch db = .ok next) :
    ∃ s, db.routeSteps.get stepId = some s ∧ next = {db with
      routeSteps := db.routeSteps.update (fun s => s.id == stepId) (patch.apply m) fun _ => rfl} := by
  obtain ⟨s,held,last⟩ := exceptBind h
  exact ⟨s,foundSource held,(Except.ok.inj last).symm⟩

theorem newRunSource {input : CreateRunInput} {run : RunRow}
    (h : Db.createRun m input db = .ok (run,next)) :
    run = queuedRun m input (nextAttempt input.routeStepId db) ∧
      (db.hasTask input.taskId && (db.routeSteps.get input.routeStepId).isSome) = true ∧
      ∃ runs, db.runs.insert run = some runs ∧ next = {db with runs} := by
  obtain ⟨_,refers,h⟩ := exceptBind h
  obtain ⟨runs,inserting,h⟩ := exceptBind h
  obtain ⟨rfl,rfl⟩ := Prod.mk.inj (Except.ok.inj h)
  refine ⟨rfl,?_,runs,uniqueSource inserting,rfl⟩
  unfold references at refers
  split at refers
  · assumption
  · contradiction

theorem runSource {runId : String} {patch : RunPatch} {run : RunRow}
    (h : Db.updateRun m runId patch db = .ok (run,next)) :
    ∃ current, db.runs.get runId = some current ∧
      RunEdge current.status (patch.status.getD current.status) ∧ run = patch.apply m current ∧
      next = {db with
        runs := db.runs.update (fun r => r.id == runId) (patch.apply m) fun _ => rfl} := by
  obtain ⟨current,held,h⟩ := exceptBind h
  obtain ⟨_,asserted,h⟩ := exceptBind h
  obtain ⟨rfl,rfl⟩ := Prod.mk.inj (Except.ok.inj h)
  exact ⟨current,foundSource held,assertedRun asserted,rfl,rfl⟩

theorem finalizeSource {target latestUpdate : String} {status : FinalStatus}
    {runId : Option String}
    (h : DbReviews.finalizeTaskExecution m target status latestUpdate runId db = .ok next) :
    ∃ r, db.tasks.get target = some r ∧ r.status = .running ∧ ∃ reviews,
      (status = .done → reviews = db.reviews) ∧
      (status = .needsReview → db.reviews.insert (pendingReview m target runId) = some reviews) ∧
      next = release m target status.status latestUpdate {db with reviews} := by
  obtain ⟨r,held,h⟩ := exceptBind h
  dsimp only at h
  split at h
  · contradiction
  next running =>
    refine ⟨r,foundSource held,not_not.mp running,?_⟩
    cases status with
    | done => exact ⟨db.reviews,fun _ => rfl,nofun,(Except.ok.inj h).symm⟩
    | needsReview =>
      obtain ⟨reviewed,opening,last⟩ := exceptBind h
      obtain ⟨_,_,opening⟩ := exceptBind opening
      obtain ⟨reviews,inserting,opened⟩ := exceptBind opening
      cases Except.ok.inj opened
      exact ⟨reviews,nofun,fun _ => uniqueSource inserting,(Except.ok.inj last).symm⟩

theorem retrySource {target body : String} {note : Option String} {allow : Bool}
    (h : DbReviews.retryBlockedTask m target note allow db = .ok (body,next)) :
    ∃ r, db.tasks.get target = some r ∧ r.status = .blocked ∧
      (allow = false → unresolvedRemote target db = none) ∧ ∃ messages,
      next = release m target .queued body
        (resetSteps m (fun s => s.taskId == target && s.status == .failed) {db with messages}) := by
  obtain ⟨r,held,h⟩ := exceptBind h
  split at h
  · contradiction
  next blocked =>
    split at h
    · contradiction
    next resolved =>
      obtain ⟨noted,noting,h⟩ := exceptBind h
      obtain ⟨rfl,rfl⟩ := Prod.mk.inj (Except.ok.inj h)
      obtain ⟨messages,_,rfl⟩ := messageSource noting
      refine ⟨r,foundSource held,not_not.mp blocked,?_,messages,rfl⟩
      rintro rfl
      exact resolved

end

end ControlCenter.CallSources
