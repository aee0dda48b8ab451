import ControlCenter.Interference

/-! What no turn of the database takes away: the rows of tasks and of runs, and the plan
that each task was stored with. -/
namespace ControlCenter.StoredPlans
open AccpEnvelope Protocol Table Db DbReviews DbRuns Execution

def planOf (s : RouteStepRow) : String × RouteStep := (s.taskId,routeStepOf s)

structure Keeps (db next : ControlCenterDb) : Prop where
  tasks : next.tasks.rows.map TaskRow.id = db.tasks.rows.map TaskRow.id
  plans : next.routeSteps.rows.map planOf = db.routeSteps.rows.map planOf
  runs : db.runs.rows.map RunRow.id ⊆ next.runs.rows.map RunRow.id

theorem updateMapped {ρ κ γ : Type} [Keyed ρ κ] {test : ρ → Bool} {f : ρ → ρ}
    (same : ∀ r, Keyed.key (f r) = Keyed.key r) {g : ρ → γ} (kept : ∀ r, g (f r) = g r)
    (t : Rows ρ) : (t.update test f same).rows.map g = t.rows.map g := by
  unfold Rows.update
  rw [List.map_map]
  refine List.map_congr_left fun r _ => ?_
  rw [Function.comp_apply]
  split
  · exact kept r
  · rfl

section
variable {m : Moment} {db next last : ControlCenterDb}

theorem keepsSame (tasks : next.tasks = db.tasks) (steps : next.routeSteps = db.routeSteps)
    (runs : next.runs = db.runs) : Keeps db next where
  tasks := by rw [tasks]
  plans := by rw [steps]
  runs := by rw [runs]; exact List.Subset.refl _

theorem Keeps.trans (first : Keeps db next) (second : Keeps next last) : Keeps db last where
  tasks := second.tasks.trans first.tasks
  plans := second.plans.trans first.plans
  runs := List.Subset.trans first.runs second.runs

theorem taskKeeps {taskId : String} {f : TaskRow → TaskRow} {same : ∀ r, (f r).id = r.id} :
    Keeps db (db.updateTask taskId f same) where
  tasks := updateMapped same same db.tasks
  plans := rfl
  runs := List.Subset.refl _

theorem stepsKeep {test : RouteStepRow → Bool} {f : RouteStepRow → RouteStepRow}
    {same : ∀ s, (f s).id = s.id} (kept : ∀ s, planOf (f s) = planOf s) :
    Keeps db {db with routeSteps := db.routeSteps.update test f same} where
  tasks := rfl
  plans := updateMapped same kept db.routeSteps
  runs := List.Subset.refl _

theorem runsKeep {test : RunRow → Bool} {f : RunRow → RunRow} {same : ∀ r, (f r).id = r.id} :
    Keeps db {db with runs := db.runs.update test f same} where
  tasks := rfl
  plans := rfl
  runs := by
    show _ ⊆ (db.runs.update test f same).rows.map RunRow.id
    rw [updateMapped same same db.runs]
    exact List.Subset.refl _

theorem reviewsKeep {reviews : Rows ReviewRow} : Keeps db {db with reviews} :=
  keepsSame rfl rfl rfl

theorem releaseKeeps {taskId latestUpdate : String} {status : TaskStatus} :
    Keeps db (release m taskId status latestUpdate db) := taskKeeps

theorem eventKeeps {taskId : String} {runId : Option String} {type : String} {level : EventLevel}
    {message : String} {data : Option JsonValue.Json} {createdAt : Int}
    (h : db.insertEvent taskId runId type level message data createdAt = .ok next) :
    Keeps db next := by
  obtain ⟨_,_,last⟩ := exceptBind h
  cases Except.ok.inj last
  exact keepsSame rfl rfl rfl

theorem messageKeeps {message : MessageRow} (h : db.insertMessage message = .ok next) :
    Keeps db next := by
  obtain ⟨_,_,h⟩ := exceptBind h
  obtain ⟨_,_,last⟩ := exceptBind h
  cases Except.ok.inj last
  exact keepsSame rfl rfl rfl

theorem claimKeeps {workerId : String} {claimed : Option String}
    (h : Db.claimNextTask m workerId db = .ok (claimed,next)) : Keeps db next := by
  unfold Db.claimNextTask at h
  split at h
  · cases Except.ok.inj h
    exact keepsSame rfl rfl rfl
  · obtain ⟨last,logged,h⟩ := exceptBind h
    cases Except.ok.inj h
    exact taskKeeps.trans (eventKeeps logged)

theorem heartbeatKeeps {taskId workerId : String} {at_ : Int}
    (h : Db.heartbeatTask m taskId workerId db = .ok (at_,next)) : Keeps db next := by
  unfold Db.heartbeatTask at h
  dsimp only at h
  split at h
  · cases h
  split at h
  · cases Except.ok.inj h
    exact taskKeeps
  · cases h

theorem closeKeeps {cause : RecoveryCause} {recoveredBy : String} {runs : List RunRow}
    (h : closeRuns m cause recoveredBy runs db = .ok next) : Keeps db next := by
  induction runs generalizing db with
  | nil =>
    cases Except.ok.inj h
    exact keepsSame rfl rfl rfl
  | cons run rest ih =>
    obtain ⟨closed,logged,h⟩ := exceptBind h
    exact runsKeep.trans ((eventKeeps logged).trans (ih h))

theorem recoverKeeps {cause : RecoveryCause} {recoveredBy : String} {tasks : List TaskRow}
    {result after : StaleRecoveryResult}
    (h : recoverTasks m cause recoveredBy tasks result db = .ok (after,next)) :
    Keeps db next := by
  induction tasks generalizing db result with
  | nil =>
    cases Except.ok.inj h
    exact keepsSame rfl rfl rfl
  | cons task rest ih =>
    obtain ⟨middle,recovered,h⟩ := exceptBind h
    obtain ⟨closed,closing,logged⟩ := exceptBind recovered
    have failed : Keeps closed (failRunningSteps m task.id closed) := stepsKeep fun _ => rfl
    exact (closeKeeps closing).trans (failed.trans (taskKeeps.trans
      ((eventKeeps logged).trans (ih h))))

theorem recoveriesKeep {cause : RecoveryCause} {recoveredBy : String}
    {result : StaleRecoveryResult}
    (h : recoverRunningTasks m cause recoveredBy db = .ok (result,next)) : Keeps db next := by
  unfold recoverRunningTasks at h
  dsimp only at h
  split at h
  · cases h
  · exact recoverKeeps h

theorem newRunKeeps {input : CreateRunInput} {run : RunRow}
    (h : Db.createRun m input db = .ok (run,next)) : Keeps db next := by
  obtain ⟨_,_,h⟩ := exceptBind h
  obtain ⟨runs,inserting,h⟩ := exceptBind h
  cases Except.ok.inj h
  unfold unique at inserting
  split at inserting
  · rename_i added inserted
    cases Except.ok.inj inserting
    refine ⟨rfl,rfl,?_⟩
    rw [insertRows inserted,List.map_append]
    exact List.subset_append_left _ _
  · cases inserting

theorem runKeeps {runId : String} {patch : RunPatch} {run : RunRow}
    (h : Db.updateRun m runId patch db = .ok (run,next)) : Keeps db next := by
  obtain ⟨_,_,h⟩ := exceptBind h
  obtain ⟨_,_,h⟩ := exceptBind h
  cases Except.ok.inj h
  exact runsKeep

theorem artifactKeeps {input : ArtifactInput} {row : ArtifactRow}
    (h : DbReviews.addArtifact m input db = .ok (row,next)) : Keeps db next := by
  unfold DbReviews.addArtifact at h
  split at h
  · cases h
  split at h
  · cases h
  obtain ⟨_,_,h⟩ := exceptBind h
  split at h
  · split at h
    · cases Except.ok.inj h
      exact keepsSame rfl rfl rfl
    · cases h
  · obtain ⟨_,_,h⟩ := exceptBind h
    obtain ⟨_,_,h⟩ := exceptBind h
    cases Except.ok.inj h
    exact keepsSame rfl rfl rfl

theorem finalizeKeeps {taskId latestUpdate : String} {status : FinalStatus}
    {runId : Option String}
    (h : DbReviews.finalizeTaskExecution m taskId status latestUpdate runId db = .ok next) :
    Keeps db next := by
  obtain ⟨task,_,h⟩ := exceptBind h
  dsimp only at h
  split at h
  · cases h
  cases status with
  | done =>
    cases Except.ok.inj h
    exact releaseKeeps
  | needsReview =>
    obtain ⟨reviewed,opening,h⟩ := exceptBind h
    cases Except.ok.inj h
    obtain ⟨_,_,opening⟩ := exceptBind opening
    obtain ⟨_,_,opened⟩ := exceptBind opening
    cases Except.ok.inj opened
    exact reviewsKeep.trans releaseKeeps

theorem approveKeeps {taskId : String} {note : Option String} {expected : Option Expected}
    {review : ReviewRow}
    (h : DbReviews.approveTaskReview m taskId note expected db = .ok (review,next)) :
    Keeps db next := by
  obtain ⟨_,_,h⟩ := exceptBind h
  cases Except.ok.inj h
  exact reviewsKeep.trans releaseKeeps

theorem resetKeeps (test : RouteStepRow → Bool) : Keeps db (resetSteps m test db) :=
  stepsKeep fun _ => rfl

theorem reworkKeeps {taskId note : String} {expected : Option Expected} {review : ReviewRow}
    (h : DbReviews.requestTaskRework m taskId note expected db = .ok (review,next)) :
    Keeps db next := by
  unfold DbReviews.requestTaskRework at h
  dsimp only at h
  split at h
  · cases h
  obtain ⟨review',_,h⟩ := exceptBind h
  obtain ⟨noted,noting,h⟩ := exceptBind h
  cases Except.ok.inj h
  have first : Keeps db (decideReview m review' .reworkRequested (some (trim note)) db) :=
    reviewsKeep
  exact first.trans ((messageKeeps noting).trans ((resetKeeps _).trans releaseKeeps))

theorem retryKeeps {taskId body : String} {note : Option String} {allow : Bool}
    (h : DbReviews.retryBlockedTask m taskId note allow db = .ok (body,next)) :
    Keeps db next := by
  obtain ⟨task,_,h⟩ := exceptBind h
  split at h
  · cases h
  split at h
  · cases h
  obtain ⟨noted,noting,h⟩ := exceptBind h
  cases Except.ok.inj h
  exact (messageKeeps noting).trans ((resetKeeps _).trans releaseKeeps)

def creates : DbCall → Bool
  | .createTask .. => true
  | _ => false

theorem callKeeps {call : DbCall} (other : creates call = false)
    (h : call.perform m db = .ok next) : Keeps db next := by
  cases call with
  | createTask input plan => cases other
  | claimNextTask workerId => exact claimKeeps (secondSource h).choose_spec
  | heartbeatTask taskId workerId => exact heartbeatKeeps (secondSource h).choose_spec
  | recoverStaleTasks cutoffMs recoveredBy =>
    obtain ⟨result,h⟩ := secondSource h
    cases cutoffMs with
    | none => cases h
    | some cutoff => exact recoveriesKeep h
  | recoverTasksOwnedBy claimedBy recoveredBy =>
    obtain ⟨result,h⟩ := secondSource h
    unfold Db.recoverTasksOwnedBy at h
    dsimp only at h
    split at h
    · cases h
    · exact recoveriesKeep h
  | updateTaskStatus taskId status latestUpdate =>
    obtain ⟨_,_,h⟩ := exceptBind h
    obtain ⟨_,_,h⟩ := exceptBind h
    cases Except.ok.inj h
    exact taskKeeps
  | updateRouteStep stepId patch =>
    obtain ⟨_,_,h⟩ := exceptBind h
    cases Except.ok.inj h
    exact stepsKeep fun _ => rfl
  | createRun input => exact newRunKeeps (secondSource h).choose_spec
  | updateRun runId patch => exact runKeeps (secondSource h).choose_spec
  | appendEvent input => exact eventKeeps h
  | addArtifact input => exact artifactKeeps (secondSource h).choose_spec
  | finalizeTaskExecution taskId status latestUpdate runId => exact finalizeKeeps h
  | approveTaskReview taskId note expected => exact approveKeeps (secondSource h).choose_spec
  | requestTaskRework taskId note expected => exact reworkKeeps (secondSource h).choose_spec
  | retryBlockedTask taskId note allow => exact retryKeeps (secondSource h).choose_spec

structure Planned (db : ControlCenterDb) : Prop where
  valid : ∀ p ∈ db.routeSteps.rows.map planOf, p.2.id ≠ "" ∧ p.2.reason ≠ ""
  stored : ∀ taskId ∈ db.tasks.rows.map TaskRow.id,
    ∃ p ∈ db.routeSteps.rows.map planOf, p.1 = taskId

instance (db : ControlCenterDb) : Decidable (Planned db) :=
  decidable_of_iff ((∀ p ∈ db.routeSteps.rows.map planOf, p.2.id ≠ "" ∧ p.2.reason ≠ "") ∧
    ∀ taskId ∈ db.tasks.rows.map TaskRow.id, ∃ p ∈ db.routeSteps.rows.map planOf, p.1 = taskId)
    ⟨fun h => ⟨h.1,h.2⟩,fun h => ⟨h.valid,h.stored⟩⟩

theorem Keeps.planned (keeps : Keeps db next) (planned : Planned db) : Planned next where
  valid := by
    rw [keeps.plans]
    exact planned.valid
  stored := by
    rw [keeps.plans,keeps.tasks]
    exact planned.stored

theorem insertedPlans {taskId : String} {createdAt : Int} {steps : List RouteStep}
    {rows inserted : Rows RouteStepRow}
    (h : ControlCenterDb.insertSteps taskId createdAt steps rows = .ok inserted) :
    inserted.rows.map planOf = rows.rows.map planOf ++ steps.map fun s => (taskId,s) := by
  induction steps generalizing rows with
  | nil =>
    cases Except.ok.inj h
    exact (List.append_nil _).symm
  | cons s rest ih =>
    obtain ⟨added,inserting,h⟩ := exceptBind h
    rw [ih h,insertRows (uniqueSource inserting),List.map_append,List.append_assoc]
    rfl

theorem checkedPlan {plan checked : RoutePlan} (h : checkPlan plan = .ok checked) :
    checked = plan ∧ plan.steps ≠ [] ∧ ∀ s ∈ plan.steps, s.id ≠ "" ∧ s.reason ≠ "" := by
  unfold checkPlan at h
  split at h
  · rename_i valid
    exact ⟨(Except.ok.inj h).symm,valid⟩
  · cases h

theorem createPlanned {input : TaskPayload} {plan : RoutePlan} {id : String}
    (h : Db.createTask m input plan db = .ok (id,next)) (planned : Planned db) :
    Planned next := by
  obtain ⟨task,_,h⟩ := exceptBind h
  obtain ⟨plan,checked,h⟩ := exceptBind h
  obtain ⟨tasks,inserting,h⟩ := exceptBind h
  obtain ⟨routeSteps,stepping,h⟩ := exceptBind h
  obtain ⟨last,logged,h⟩ := exceptBind h
  cases Except.ok.inj h
  obtain ⟨rfl,some,valid⟩ := checkedPlan checked
  refine (eventKeeps logged).planned ⟨?_,?_⟩
  · intro p listed
    rw [insertedPlans stepping] at listed
    rcases List.mem_append.mp listed with old | new
    · exact planned.valid p old
    · obtain ⟨s,member,rfl⟩ := List.mem_map.mp new
      exact valid s member
  · intro taskId listed
    dsimp only at listed
    rw [insertRows (uniqueSource inserting),List.map_append] at listed
    dsimp only
    rw [insertedPlans stepping]
    rcases List.mem_append.mp listed with old | new
    · obtain ⟨p,member,same⟩ := planned.stored taskId old
      exact ⟨p,List.mem_append_left _ member,same⟩
    · obtain ⟨s,member⟩ := List.exists_mem_of_ne_nil _ some
      cases List.mem_singleton.mp new
      exact ⟨_,List.mem_append_right _ (List.mem_map_of_mem member),rfl⟩

theorem createRuns {input : TaskPayload} {plan : RoutePlan} {id : String}
    (h : Db.createTask m input plan db = .ok (id,next)) : next.runs = db.runs := by
  obtain ⟨_,_,h⟩ := exceptBind h
  obtain ⟨_,_,h⟩ := exceptBind h
  obtain ⟨_,_,h⟩ := exceptBind h
  obtain ⟨_,_,h⟩ := exceptBind h
  obtain ⟨last,logged,h⟩ := exceptBind h
  cases Except.ok.inj h
  obtain ⟨_,_,logged⟩ := exceptBind logged
  cases Except.ok.inj logged
  rfl

theorem turnKeeps {P : ControlCenterDb → Prop} (keeps : ∀ {db next}, Keeps db next → P db → P next)
    (created : ∀ {m db next id input plan}, Db.createTask m input plan db = .ok (id,next) →
      P db → P next) (db : ControlCenterDb) (t : Turn) (held : P db) : P (turn db t) := by
  obtain ⟨moment,call⟩ := t
  unfold turn
  split
  · rename_i next performed
    cases other : creates call with
    | false => exact keeps (callKeeps other performed) held
    | true =>
      cases call with
      | createTask input plan => exact created (secondSource performed).choose_spec held
      | _ => cases other
  · exact held

theorem turnPlanned : ∀ db t, Planned db → Planned (turn db t) :=
  turnKeeps (fun keeps => keeps.planned) createPlanned

theorem runStays (runId : String) : ∀ db t, db.hasRun (some runId) = true →
    (turn db t).hasRun (some runId) = true :=
  turnKeeps (P := fun db => db.hasRun (some runId) = true)
    (fun keeps held => keyHeld.mpr (keeps.runs (keyHeld.mp held)))
    fun created held => by
      unfold ControlCenterDb.hasRun
      rw [createRuns created]
      exact held

theorem planStays (p : String × RouteStep) : ∀ db t, p ∈ db.routeSteps.rows.map planOf →
    p ∈ (turn db t).routeSteps.rows.map planOf := by
  refine turnKeeps (fun keeps listed => keeps.plans ▸ listed) fun created listed => ?_
  obtain ⟨_,_,h⟩ := exceptBind created
  obtain ⟨_,_,h⟩ := exceptBind h
  obtain ⟨_,_,h⟩ := exceptBind h
  obtain ⟨routeSteps,stepping,h⟩ := exceptBind h
  obtain ⟨last,logged,h⟩ := exceptBind h
  cases Except.ok.inj h
  rw [(eventKeeps logged).plans]
  show p ∈ routeSteps.rows.map planOf
  rw [insertedPlans stepping]
  exact List.mem_append_left _ listed

theorem emptyPlanned : Planned .empty := ⟨nofun,nofun⟩

theorem planRead {taskId : String} {mode : RouteMode} {risk : Risk} {reasons : List String}
    (planned : Planned db) (there : db.hasTask taskId = true) :
    checkPlan ⟨mode,risk,reasons,(listRouteSteps taskId db).map routeStepOf⟩ =
      .ok ⟨mode,risk,reasons,(listRouteSteps taskId db).map routeStepOf⟩ := by
  have listed (s : RouteStepRow) : s ∈ listRouteSteps taskId db ↔
      s ∈ db.routeSteps.rows ∧ s.taskId = taskId := by
    unfold listRouteSteps
    rw [List.mem_insertionSort,List.mem_filter,beq_iff_eq]
  refine if_pos ⟨?_,?_⟩
  · obtain ⟨p,member,own⟩ := planned.stored taskId (keyHeld.mp there)
    obtain ⟨s,stored,rfl⟩ := List.mem_map.mp member
    exact List.ne_nil_of_mem (List.mem_map_of_mem ((listed s).mpr ⟨stored,own⟩))
  · intro step member
    obtain ⟨s,read,rfl⟩ := List.mem_map.mp member
    exact planned.valid _ (List.mem_map_of_mem ((listed s).mp read).1)

end

end ControlCenter.StoredPlans
