import ControlCenter.TaskRecovery

/-! The two status machines over every run of the control database. An update of a run or
of a task selects the row and writes it in two statements, between which other processes
write; its UPDATE names the status that was selected. -/
namespace ControlCenter.StatusMachines
open JsonValue AccpEnvelope Protocol Table Db DbReviews DbRuns TaskRecovery RunLogic

inductive Verdict where
  | approved | reworkRequested | rejected
  deriving DecidableEq, Repr

def Verdict.status : Verdict → ReviewStatus
  | .approved => .approved
  | .reworkRequested => .reworkRequested
  | .rejected => .rejected

inductive AsideCall where
  | resetRouteSteps (taskId : String)
  | addMessage (taskId : String) (runId : Option String) (direction role body : String)
      (deliveryStatus : Option String)
  | updateMessageDelivery (messageId deliveryStatus : String)
  | createReview (taskId : String) (runId reviewer : Option String)
  | decideReview (reviewId : String) (status : Verdict) (note : Option String)

section
variable (m : Moment) (db : ControlCenterDb)

def resetRouteSteps (taskId : String) : Outcome ControlCenterDb :=
  .ok (resetSteps m (fun s => s.taskId == taskId) db)

def addMessage (taskId : String) (runId : Option String) (direction role body : String)
    (deliveryStatus : Option String) : Outcome ControlCenterDb :=
  db.insertMessage ⟨"message_" ++ m.uuid,taskId,runId,direction,role,body,
    deliveryStatus.getD "queued",m.now⟩

def updateMessageDelivery (messageId deliveryStatus : String) : Outcome ControlCenterDb := do
  let _ ← found s!"Message not found: {messageId}" (db.messages.get messageId)
  let messages := db.messages.update (fun r => r.id == messageId)
    (fun r => {r with deliveryStatus}) fun _ => rfl
  .ok {db with messages}

def createReview (taskId : String) (runId reviewer : Option String) :
    Outcome ControlCenterDb := do
  references (db.hasTask taskId && db.hasRun runId)
  let reviews ← unique "reviews.id" (db.reviews.insert
    {pendingReview m taskId runId with reviewer})
  .ok {db with reviews}

def decideReview (reviewId : String) (status : Verdict) (note : Option String) :
    Outcome ControlCenterDb :=
  match db.reviews.get reviewId with
  | some review =>
    if review.status = .pending then
      .ok (DbReviews.decideReview m review status.status (cleaned note) db)
    else .error s!"Review not found or already decided: {reviewId}"
  | none => .error s!"Review not found or already decided: {reviewId}"

def AsideCall.perform : AsideCall → Outcome ControlCenterDb
  | .resetRouteSteps taskId => StatusMachines.resetRouteSteps m db taskId
  | .addMessage taskId runId direction role body deliveryStatus =>
      StatusMachines.addMessage m db taskId runId direction role body deliveryStatus
  | .updateMessageDelivery messageId deliveryStatus =>
      StatusMachines.updateMessageDelivery db messageId deliveryStatus
  | .createReview taskId runId reviewer => StatusMachines.createReview m db taskId runId reviewer
  | .decideReview reviewId status note => StatusMachines.decideReview m db reviewId status note

end

structure Store where
  db : ControlCenterDb
  runReads : List (RunRow × RunPatch)
  taskReads : List (TaskRow × TaskStatus × String)

def Store.initial : Store := ⟨.empty,[],[]⟩

inductive Event where
  | turn (t : Turn)
  | aside (m : Moment) (call : AsideCall)
  | selectRun (runId : String) (patch : RunPatch)
  | updateRun (i : Nat) (m : Moment)
  | selectTask (taskId : String) (status : TaskStatus) (latestUpdate : String)
  | updateTask (i : Nat) (m : Moment)

def patchedStatus (current : RunRow) (patch : RunPatch) : RunStatus :=
  patch.status.getD current.status

def writtenRun (m : Moment) (current : RunRow) (patch : RunPatch) (r : RunRow) : RunRow :=
  {patch.apply m current with
    id := r.id
    taskId := r.taskId
    routeStepId := r.routeStepId
    agent := r.agent
    role := r.role
    attempt := r.attempt
    createdAt := r.createdAt}

def writtenTask (m : Moment) (status : TaskStatus) (latestUpdate : String) (r : TaskRow) :
    TaskRow := {r with
  status
  latestUpdate
  claimedBy := if status = .running then r.claimedBy else none
  claimedAt := if status = .running then r.claimedAt else none
  updatedAt := m.now}

def step (s : Store) : Event → Store
  | .turn t => {s with db := DbRuns.turn s.db t}
  | .aside m call => match call.perform m s.db with
    | .ok db => {s with db}
    | .error _ => s
  | .selectRun runId patch => match s.db.runs.get runId with
    | some current => match assertRunTransition current.status (patchedStatus current patch) with
      | .ok _ => {s with runReads := s.runReads ++ [(current,patch)]}
      | .error _ => s
    | none => s
  | .updateRun i m => match s.runReads[i]? with
    | some (current,patch) =>
      let runs := s.db.runs.update (fun r => r.id == current.id && r.status == current.status)
        (writtenRun m current patch) fun _ => rfl
      {s with db := {s.db with runs},runReads := s.runReads.eraseIdx i}
    | none => s
  | .selectTask taskId status latestUpdate => match s.db.tasks.get taskId with
    | some current => match assertTaskTransition current.status status with
      | .ok _ => {s with taskReads := s.taskReads ++ [(current,status,latestUpdate)]}
      | .error _ => s
    | none => s
  | .updateTask i m => match s.taskReads[i]? with
    | some (current,status,latestUpdate) =>
      let tasks := s.db.tasks.update (fun r => r.id == current.id && r.status == current.status)
        (writtenTask m status latestUpdate) fun _ => rfl
      {s with db := {s.db with tasks},taskReads := s.taskReads.eraseIdx i}
    | none => s

def RunEdge (start next : RunStatus) : Prop := start = next ∨ next ∈ runTransitions start
def TaskEdge (start next : TaskStatus) : Prop := start = next ∨ next ∈ taskTransitions start

section
variable {ρ σ : Type} [Keyed ρ String] {status : ρ → σ} {edge : σ → σ → Prop} {t u : Rows ρ}

def Moves (status : ρ → σ) (edge : σ → σ → Prop) (t u : Rows ρ) : Prop :=
  ∀ k r, t.get k = some r → ∃ r', u.get k = some r' ∧ edge (status r) (status r')

theorem movesSame (stays : ∀ a, edge a a) (same : u = t) : Moves status edge t u :=
  fun _ r held => ⟨r,by rw [same,held],stays _⟩

theorem movesUpdate (stays : ∀ a, edge a a) {test : ρ → Bool} {f : ρ → ρ}
    (same : ∀ r, Keyed.key (f r) = Keyed.key r)
    (each : ∀ r ∈ t, test r = true → edge (status r) (status (f r))) :
    Moves status edge t (t.update test f same) := by
  intro k r held
  refine ⟨if test r then f r else r,by rw [getUpdate,held]; rfl,?_⟩
  split
  next passes => exact each r (getSome.mp held).1 passes
  next => exact stays _

theorem movesInsert (stays : ∀ a, edge a a) {row : ρ} (inserted : t.insert row = some u) :
    Moves status edge t u := by
  intro k r held
  obtain ⟨listed,keyed⟩ := getSome.mp held
  have other := (insertSome inserted).1 r listed
  exact ⟨r,by rw [getInsert inserted,if_neg fun same => other (keyed.trans same.symm),held],stays _⟩

theorem movesMap (f : ρ → ρ) (same : ∀ r, Keyed.key (f r) = Keyed.key r)
    (rows : u.rows = t.rows.map f) (each : ∀ r ∈ t, edge (status r) (status (f r))) :
    Moves status edge t u := by
  intro k r held
  obtain ⟨listed,keyed⟩ := getSome.mp held
  refine ⟨f r,getSome.mpr ⟨?_,(same r).trans keyed⟩,each r listed⟩
  show f r ∈ u.rows
  rw [rows]
  exact List.mem_map_of_mem listed

end

structure Follows (db next : ControlCenterDb) : Prop where
  runs : Moves RunRow.status RunEdge db.runs next.runs
  tasks : Moves TaskRow.status TaskEdge db.tasks next.tasks

theorem runStays (a : RunStatus) : RunEdge a a := .inl rfl
theorem taskStays (a : TaskStatus) : TaskEdge a a := .inl rfl

theorem followsSame {db next : ControlCenterDb} (runs : next.runs = db.runs)
    (tasks : next.tasks = db.tasks) : Follows db next :=
  ⟨movesSame runStays runs,movesSame taskStays tasks⟩

section
variable {m : Moment} {db next : ControlCenterDb}

theorem taskMoved {target : String} {f : TaskRow → TaskRow} (keyed : ∀ r, (f r).id = r.id)
    {row : TaskRow} (held : db.tasks.get target = some row)
    (edge : TaskEdge row.status (f row).status) :
    Moves TaskRow.status TaskEdge db.tasks (db.updateTask target f keyed).tasks := by
  refine movesUpdate taskStays keyed fun r listed passes => ?_
  have own : r.id = target := by simpa using passes
  rw [← own,show db.tasks.get r.id = some r from getMem listed] at held
  cases Option.some.inj held
  exact edge

theorem eventRuns {taskId : String} {runId : Option String} {type : String} {level : EventLevel}
    {message : String} {data : Option Json} {createdAt : Int}
    (h : db.insertEvent taskId runId type level message data createdAt = .ok next) :
    next.runs = db.runs := by
  obtain ⟨_,_,last⟩ := exceptBind h
  cases Except.ok.inj last
  rfl

theorem messageRuns {message : MessageRow} (h : db.insertMessage message = .ok next) :
    next.runs = db.runs := by
  obtain ⟨_,_,h⟩ := exceptBind h
  obtain ⟨_,_,last⟩ := exceptBind h
  cases Except.ok.inj last
  rfl

theorem createFollows {input : TaskPayload} {plan : RoutePlan} {id : String}
    (h : Db.createTask m input plan db = .ok (id,next)) : Follows db next := by
  obtain ⟨task,_,h⟩ := exceptBind h
  obtain ⟨plan,_,h⟩ := exceptBind h
  obtain ⟨tasks,inserting,h⟩ := exceptBind h
  obtain ⟨routeSteps,_,h⟩ := exceptBind h
  obtain ⟨last,logged,h⟩ := exceptBind h
  obtain ⟨rfl,rfl⟩ := Prod.mk.inj (Except.ok.inj h)
  constructor
  · have same := eventRuns logged
    exact movesSame runStays same
  · rw [eventTasks logged]
    exact movesInsert taskStays (uniqueSource inserting)

theorem claimFollows {workerId : String} {claimed : Option String}
    (h : Db.claimNextTask m workerId db = .ok (claimed,next)) : Follows db next := by
  unfold Db.claimNextTask at h
  split at h
  · obtain ⟨_,rfl⟩ := Prod.mk.inj (Except.ok.inj h)
    exact followsSame rfl rfl
  · rename_i candidate chosen
    obtain ⟨last,logged,h⟩ := exceptBind h
    obtain ⟨_,rfl⟩ := Prod.mk.inj (Except.ok.inj h)
    obtain ⟨listed,queued⟩ := nextQueuedSource chosen
    constructor
    · have same := eventRuns logged
      exact movesSame runStays same
    · rw [eventTasks logged]
      have edge : TaskEdge candidate.status .running := .inr (by rw [queued]; decide)
      exact taskMoved (fun _ => by rfl) (getMem listed) edge

theorem heartbeatFollows {target workerId : String} {at_ : Int}
    (h : Db.heartbeatTask m target workerId db = .ok (at_,next)) : Follows db next := by
  unfold Db.heartbeatTask at h
  dsimp only at h
  split at h
  · contradiction
  split at h
  · obtain ⟨_,rfl⟩ := Prod.mk.inj (Except.ok.inj h)
    exact ⟨movesSame runStays rfl,movesUpdate taskStays (fun _ => by rfl) fun _ _ _ => taskStays _⟩
  · contradiction

theorem recoveryFollows {cause : RecoveryCause} {recoveredBy : String}
    {result : StaleRecoveryResult}
    (h : Db.recoverRunningTasks m cause recoveredBy db = .ok (result,next)) : Follows db next := by
  unfold Db.recoverRunningTasks at h
  dsimp only at h
  split at h
  · contradiction
  have closes := recoverTasksCloses h
  constructor
  · refine movesMap _ (fun r => by split <;> rfl) closes.runs fun r _ => ?_
    split
    next open_ =>
      obtain ⟨_,active⟩ := open_
      simp only [isOpen,Bool.or_eq_true,beq_iff_eq] at active
      rcases active with starting | running
      · exact .inr (by simp [closedRun,closedStatus,starting,runTransitions])
      · exact .inr (by simp [closedRun,closedStatus,running,runTransitions])
    next => exact runStays _
  · refine movesMap _ (fun r => by split <;> rfl) closes.tasks fun r listed => ?_
    split
    next selected =>
      obtain ⟨task,member,selects,keyed⟩ := selectedIds.mp selected
      cases keyUnique member listed keyed
      simp only [RecoveryCause.selects,Bool.and_eq_true,beq_iff_eq] at selects
      exact .inr (by simp [recoveredTask,selects.1,taskTransitions])
    next => exact taskStays _

theorem assertedTask {start next : TaskStatus} (h : assertTaskTransition start next = .ok ()) :
    TaskEdge start next := by
  unfold assertTaskTransition at h
  split at h
  next edge => exact edge
  next => contradiction

theorem assertedRun {start next : RunStatus} (h : assertRunTransition start next = .ok ()) :
    RunEdge start next := by
  unfold assertRunTransition at h
  split at h
  next edge => exact edge
  next => contradiction

theorem foundSource {α : Type} {error : String} {held : Option α} {a : α}
    (h : found error held = .ok a) : held = some a := by
  cases held with
  | none => contradiction
  | some b => exact congrArg some (Except.ok.inj h)

theorem statusFollows {target latestUpdate : String} {status : TaskStatus}
    (h : Db.updateTaskStatus m target status latestUpdate db = .ok next) : Follows db next := by
  obtain ⟨row,held,h⟩ := exceptBind h
  obtain ⟨_,asserted,last⟩ := exceptBind h
  cases Except.ok.inj last
  exact ⟨movesSame runStays rfl,taskMoved (fun _ => by rfl) (foundSource held) (assertedTask asserted)⟩

theorem runFollows {runId : String} {patch : RunPatch} {run : RunRow}
    (h : Db.updateRun m runId patch db = .ok (run,next)) : Follows db next := by
  obtain ⟨row,held,h⟩ := exceptBind h
  obtain ⟨_,asserted,h⟩ := exceptBind h
  obtain ⟨_,rfl⟩ := Prod.mk.inj (Except.ok.inj h)
  have held := foundSource held
  refine ⟨movesUpdate runStays (fun _ => by rfl) fun r listed passes => ?_,movesSame taskStays rfl⟩
  have own : r.id = runId := by simpa using passes
  rw [← own,show db.runs.get r.id = some r from getMem listed] at held
  cases Option.some.inj held
  exact assertedRun asserted

theorem newRunFollows {input : CreateRunInput} {run : RunRow}
    (h : Db.createRun m input db = .ok (run,next)) : Follows db next := by
  obtain ⟨_,_,h⟩ := exceptBind h
  obtain ⟨runs,inserting,h⟩ := exceptBind h
  obtain ⟨_,rfl⟩ := Prod.mk.inj (Except.ok.inj h)
  exact ⟨movesInsert runStays (uniqueSource inserting),movesSame taskStays rfl⟩

theorem releaseMoves {target latestUpdate : String} {status : TaskStatus} {row : TaskRow}
    (held : db.tasks.get target = some row) (edge : TaskEdge row.status status) :
    Moves TaskRow.status TaskEdge db.tasks (release m target status latestUpdate db).tasks :=
  taskMoved (fun _ => by rfl) held edge

theorem finalizeFollows {target latestUpdate : String} {status : FinalStatus}
    {runId : Option String}
    (h : DbReviews.finalizeTaskExecution m target status latestUpdate runId db = .ok next) :
    Follows db next := by
  obtain ⟨task,held,h⟩ := exceptBind h
  have held := foundSource held
  dsimp only at h
  split at h
  · contradiction
  next running =>
    have edge : TaskEdge task.status status.status := by
      rw [not_not.mp running]
      cases status <;> exact .inr (by decide)
    cases status with
    | done =>
      cases Except.ok.inj h
      exact ⟨movesSame runStays rfl,releaseMoves held edge⟩
    | needsReview =>
      obtain ⟨reviewed,opening,last⟩ := exceptBind h
      cases Except.ok.inj last
      obtain ⟨_,_,opening⟩ := exceptBind opening
      obtain ⟨reviews,_,opened⟩ := exceptBind opening
      cases Except.ok.inj opened
      exact ⟨movesSame runStays rfl,taskMoved (fun _ => by rfl) held edge⟩

theorem waitingTask {target : String} {expected : Option Expected} {review : ReviewRow}
    (h : reviewToDecide target expected db = .ok review) :
    ∃ task, db.tasks.get target = some task ∧ task.status = .needsReview := by
  obtain ⟨task,held,h⟩ := exceptBind h
  split at h
  · contradiction
  next waits => exact ⟨task,foundSource held,not_not.mp waits⟩

theorem approveFollows {target : String} {note : Option String} {expected : Option Expected}
    {review : ReviewRow}
    (h : DbReviews.approveTaskReview m target note expected db = .ok (review,next)) :
    Follows db next := by
  obtain ⟨_,checked,h⟩ := exceptBind h
  obtain ⟨_,rfl⟩ := Prod.mk.inj (Except.ok.inj h)
  obtain ⟨task,held,waits⟩ := waitingTask checked
  have edge : TaskEdge task.status .done := .inr (by rw [waits]; decide)
  exact ⟨movesSame runStays rfl,taskMoved (fun _ => by rfl) held edge⟩

theorem reworkFollows {target note : String} {expected : Option Expected} {review : ReviewRow}
    (h : DbReviews.requestTaskRework m target note expected db = .ok (review,next)) :
    Follows db next := by
  unfold DbReviews.requestTaskRework at h
  dsimp only at h
  split at h
  · contradiction
  obtain ⟨_,checked,h⟩ := exceptBind h
  obtain ⟨noted,noting,h⟩ := exceptBind h
  obtain ⟨_,rfl⟩ := Prod.mk.inj (Except.ok.inj h)
  obtain ⟨task,held,waits⟩ := waitingTask checked
  have tasks := messageTasks noting
  have tasks : noted.tasks = db.tasks := tasks
  have runs := messageRuns noting
  constructor
  · exact movesSame runStays runs
  · have edge : TaskEdge task.status .queued := .inr (by rw [waits]; decide)
    have moved : Moves TaskRow.status TaskEdge noted.tasks
        (release m target .queued (trim note) noted).tasks :=
      releaseMoves (by rw [tasks]; exact held) edge
    rw [tasks] at moved
    exact moved

theorem retryFollows {target body : String} {note : Option String} {allow : Bool}
    (h : DbReviews.retryBlockedTask m target note allow db = .ok (body,next)) :
    Follows db next := by
  obtain ⟨task,held,h⟩ := exceptBind h
  have held := foundSource held
  split at h
  · contradiction
  next waits =>
    split at h
    · contradiction
    obtain ⟨noted,noting,h⟩ := exceptBind h
    obtain ⟨_,rfl⟩ := Prod.mk.inj (Except.ok.inj h)
    have tasks := messageTasks noting
    constructor
    · have runs := messageRuns noting
      exact movesSame runStays runs
    · have edge : TaskEdge task.status .queued := .inr (by rw [not_not.mp waits]; decide)
      have moved : Moves TaskRow.status TaskEdge noted.tasks
          (release m target .queued ((cleaned note).getD
            "Operator requested another execution attempt.") noted).tasks :=
        releaseMoves (by rw [tasks]; exact held) edge
      rw [tasks] at moved
      exact moved

theorem stepRuns {stepId : String} {patch : StepPatch}
    (h : Db.updateRouteStep m stepId patch db = .ok next) : next.runs = db.runs := by
  obtain ⟨_,_,last⟩ := exceptBind h
  cases Except.ok.inj last
  rfl

theorem artifactRuns {input : ArtifactInput} {row : ArtifactRow}
    (h : DbReviews.addArtifact m input db = .ok (row,next)) : next.runs = db.runs := by
  unfold DbReviews.addArtifact at h
  split at h
  · contradiction
  split at h
  · contradiction
  obtain ⟨_,_,h⟩ := exceptBind h
  split at h
  · split at h
    · obtain ⟨_,rfl⟩ := Prod.mk.inj (Except.ok.inj h)
      rfl
    · contradiction
  · obtain ⟨_,_,h⟩ := exceptBind h
    obtain ⟨_,_,h⟩ := exceptBind h
    obtain ⟨_,rfl⟩ := Prod.mk.inj (Except.ok.inj h)
    rfl

theorem callFollows {call : DbCall} (h : call.perform m db = .ok next) : Follows db next := by
  cases call with
  | createTask input plan => exact createFollows (secondSource h).choose_spec
  | claimNextTask workerId => exact claimFollows (secondSource h).choose_spec
  | heartbeatTask target workerId => exact heartbeatFollows (secondSource h).choose_spec
  | recoverStaleTasks cutoffMs recoveredBy =>
    obtain ⟨result,h⟩ := secondSource h
    cases cutoffMs with
    | none => contradiction
    | some cutoff => exact recoveryFollows h
  | recoverTasksOwnedBy claimedBy recoveredBy =>
    obtain ⟨result,h⟩ := secondSource h
    unfold Db.recoverTasksOwnedBy at h
    dsimp only at h
    split at h
    · contradiction
    · exact recoveryFollows h
  | updateTaskStatus target status latestUpdate => exact statusFollows h
  | updateRouteStep stepId patch => exact followsSame (stepRuns h) (stepTasks h)
  | createRun input => exact newRunFollows (secondSource h).choose_spec
  | updateRun runId patch => exact runFollows (secondSource h).choose_spec
  | appendEvent input => exact followsSame (eventRuns h) (eventTasks h)
  | addArtifact input =>
    obtain ⟨row,h⟩ := secondSource h
    exact followsSame (artifactRuns h) (artifactTasks h)
  | finalizeTaskExecution target status latestUpdate runId => exact finalizeFollows h
  | approveTaskReview target note expected => exact approveFollows (secondSource h).choose_spec
  | requestTaskRework target note expected => exact reworkFollows (secondSource h).choose_spec
  | retryBlockedTask target note allow => exact retryFollows (secondSource h).choose_spec

theorem turnFollows (db : ControlCenterDb) (t : Turn) : Follows db (DbRuns.turn db t) := by
  unfold DbRuns.turn
  split
  next next performed => exact callFollows performed
  next => exact followsSame rfl rfl

theorem asideSame {call : AsideCall} (h : call.perform m db = .ok next) :
    next.runs = db.runs ∧ next.tasks = db.tasks := by
  cases call with
  | resetRouteSteps taskId =>
    cases Except.ok.inj h
    exact ⟨rfl,rfl⟩
  | addMessage taskId runId direction role body deliveryStatus =>
    have h : db.insertMessage _ = .ok next := h
    exact ⟨messageRuns h,messageTasks h⟩
  | updateMessageDelivery messageId deliveryStatus =>
    obtain ⟨_,_,last⟩ := exceptBind h
    cases Except.ok.inj last
    exact ⟨rfl,rfl⟩
  | createReview taskId runId reviewer =>
    obtain ⟨_,_,h⟩ := exceptBind h
    obtain ⟨_,_,last⟩ := exceptBind h
    cases Except.ok.inj last
    exact ⟨rfl,rfl⟩
  | decideReview reviewId status note =>
    have h : StatusMachines.decideReview m db reviewId status note = .ok next := h
    unfold StatusMachines.decideReview at h
    split at h
    · split at h
      · cases Except.ok.inj h
        exact ⟨rfl,rfl⟩
      · contradiction
    · contradiction

end

structure Checked (s : Store) : Prop where
  runs : ∀ read ∈ s.runReads, RunEdge read.1.status (patchedStatus read.1 read.2)
  tasks : ∀ read ∈ s.taskReads, TaskEdge read.1.status read.2.1

theorem checkedStep (s : Store) (e : Event) (checked : Checked s) : Checked (step s e) := by
  cases e with
  | turn t => exact ⟨checked.runs,checked.tasks⟩
  | aside m call =>
    simp only [step]
    split
    · exact ⟨checked.runs,checked.tasks⟩
    · exact checked
  | selectRun runId patch =>
    simp only [step]
    split
    · split
      next current _ _ asserted =>
        refine ⟨fun read listed => ?_,checked.tasks⟩
        rcases List.mem_append.mp listed with old | new
        · exact checked.runs read old
        · cases List.mem_singleton.mp new
          exact assertedRun asserted
      · exact checked
    · exact checked
  | updateRun i m =>
    simp only [step]
    split
    · exact ⟨fun read listed => checked.runs read (List.mem_of_mem_eraseIdx listed),checked.tasks⟩
    · exact checked
  | selectTask taskId status latestUpdate =>
    simp only [step]
    split
    · split
      next asserted =>
        refine ⟨checked.runs,fun read listed => ?_⟩
        rcases List.mem_append.mp listed with old | new
        · exact checked.tasks read old
        · cases List.mem_singleton.mp new
          exact assertedTask asserted
      · exact checked
    · exact checked
  | updateTask i m =>
    simp only [step]
    split
    · exact ⟨checked.runs,fun read listed => checked.tasks read (List.mem_of_mem_eraseIdx listed)⟩
    · exact checked

theorem stepFollows (s : Store) (e : Event) (checked : Checked s) :
    Follows s.db (step s e).db := by
  cases e with
  | turn t => exact turnFollows s.db t
  | aside m call =>
    simp only [step]
    split
    next performed =>
      obtain ⟨runs,tasks⟩ := asideSame performed
      exact followsSame runs tasks
    · exact followsSame rfl rfl
  | selectRun runId patch =>
    simp only [step]
    split
    · split <;> exact followsSame rfl rfl
    · exact followsSame rfl rfl
  | updateRun i m =>
    simp only [step]
    split
    next current patch held =>
      have edge := checked.runs _ (List.mem_of_getElem? held)
      refine ⟨movesUpdate runStays (fun _ => by rfl) fun r _ passes => ?_,movesSame taskStays rfl⟩
      simp only [Bool.and_eq_true,beq_iff_eq] at passes
      rw [passes.2]
      exact edge
    · exact followsSame rfl rfl
  | selectTask taskId status latestUpdate =>
    simp only [step]
    split
    · split <;> exact followsSame rfl rfl
    · exact followsSame rfl rfl
  | updateTask i m =>
    simp only [step]
    split
    next current status latestUpdate held =>
      have edge := checked.tasks _ (List.mem_of_getElem? held)
      refine ⟨movesSame runStays rfl,movesUpdate taskStays (fun _ => by rfl) fun r _ passes => ?_⟩
      simp only [Bool.and_eq_true,beq_iff_eq] at passes
      rw [passes.2]
      exact edge
    · exact followsSame rfl rfl

theorem checkedReached (events : List Event) : Checked (reach step .initial events) :=
  reachKept step checkedStep
    ⟨fun _ listed => absurd listed List.not_mem_nil,fun _ listed => absurd listed List.not_mem_nil⟩
    events

theorem succeededStays {runId : String} {r : RunRow} (succeeded : r.status = .succeeded)
    {s : Store} (checked : Checked s) (held : s.db.runs.get runId = some r) (back : List Event) :
    ∃ r', (reach step s back).db.runs.get runId = some r' ∧ r'.status = .succeeded := by
  induction back generalizing s r with
  | nil => exact ⟨r,held,succeeded⟩
  | cons e rest ih =>
    obtain ⟨r',held',edge⟩ := (stepFollows s e checked).runs runId r held
    have still : r'.status = .succeeded := by
      rw [succeeded] at edge
      rcases edge with same | listed
      · exact same.symm
      · exact absurd listed (by simp [runTransitions])
    exact ih still (checkedStep s e checked) held'

/-- In every run of the database from empty, each step moves every run and every task along
its machine or not at all, and a succeeded run stays succeeded. -/
theorem statusMachines (front : List Event) :
    (∀ e, Follows (reach step .initial front).db (reach step .initial (front ++ [e])).db) ∧
    ∀ runId r, (reach step .initial front).db.runs.get runId = some r → r.status = .succeeded →
      ∀ back, ∃ r', (reach step .initial (front ++ back)).db.runs.get runId = some r' ∧
        r'.status = .succeeded := by
  have checked := checkedReached front
  constructor
  · intro e
    rw [reachLast]
    exact stepFollows _ e checked
  · intro runId r held succeeded back
    rw [reachAppend]
    exact succeededStays succeeded checked held back

end ControlCenter.StatusMachines
