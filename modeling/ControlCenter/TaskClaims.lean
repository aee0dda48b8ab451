import Mathlib.Data.List.Pairwise
import ControlCenter.DbRuns

/-! Who holds a task: the claim columns over every run of the database, and the order in
which workers are handed the queued tasks. -/
namespace ControlCenter.TaskClaims
open Protocol Table Db DbReviews DbRuns RunLogic

structure ClaimColumns (r : TaskRow) : Prop where
  running : r.claimedBy ≠ none → r.status = .running
  together : r.claimedBy = none ↔ r.claimedAt = none

theorem Waiting.columns {r : TaskRow} (waiting : Waiting r) : ClaimColumns r where
  running held := absurd waiting.claimedBy held
  together := iff_of_true waiting.claimedBy waiting.claimedAt

theorem columnsMoved {m : Moment} {r r' : TaskRow} (columns : ClaimColumns r)
    (moves : RowMoves m r r') : ClaimColumns r' := by
  cases moves with
  | kept => exact columns
  | claimed workerId queued => exact ⟨fun _ => rfl,by simp⟩
  | heartbeat running worker held => exact ⟨fun _ => running,by simp [held]⟩
  | recovered cause => exact ⟨fun held => absurd rfl held,by simp [recoveredTask]⟩
  | moved status latestUpdate =>
    by_cases stays : status = .running
    · refine ⟨fun _ => stays,?_⟩
      simpa only [if_pos stays] using columns.together
    · exact ⟨fun held => absurd (if_neg stays) held,by simp [stays]⟩
  | released status latestUpdate idle => exact ⟨fun held => absurd rfl held,by simp [released]⟩

def EveryColumns (db : ControlCenterDb) : Prop :=
  ∀ taskId r, db.tasks.get taskId = some r → ClaimColumns r

theorem columnsTurn (db : ControlCenterDb) (t : Turn) (every : EveryColumns db) :
    EveryColumns (turn db t) := by
  intro taskId r' found
  have moves := turnTasks db t taskId
  cases before : db.tasks.get taskId with
  | none => exact Waiting.columns (moves.fresh before r' found)
  | some r =>
    obtain ⟨next,read,moved⟩ := moves.known r before
    cases Option.some.inj (found.symm.trans read)
    exact columnsMoved (every taskId r before) moved

def WorkersKept (db next : ControlCenterDb) : Prop :=
  ∀ r' ∈ next.tasks, r'.claimedBy = none ∨
    ∃ r ∈ db.tasks, r.id = r'.id ∧ r'.claimedBy = r.claimedBy

section
variable {m : Moment} {db next : ControlCenterDb}

theorem workersSame (same : next.tasks = db.tasks) : WorkersKept db next :=
  fun r' listed => .inr ⟨r',by rwa [← same],rfl,rfl⟩

theorem workersUpdated {start : ControlCenterDb} {target : String} {f : TaskRow → TaskRow}
    {keyed : ∀ r, (f r).id = r.id} (same : db.tasks = start.tasks)
    (kept : ∀ r ∈ db.tasks, r.id = target → (f r).claimedBy = none ∨
      (f r).claimedBy = r.claimedBy) : WorkersKept start (db.updateTask target f keyed) := by
  intro r' listed
  obtain ⟨r,member,rfl⟩ := List.mem_map.mp listed
  by_cases here : (r.id == target) = true
  · rw [if_pos here]
    refine (kept r member (beq_iff_eq.mp here)).imp id fun same' => ?_
    exact ⟨r,same ▸ member,(keyed r).symm,same'⟩
  · rw [if_neg here]
    exact .inr ⟨r,same ▸ member,rfl,rfl⟩

theorem workersReleased {start : ControlCenterDb} {target latestUpdate : String}
    {status : TaskStatus} (same : db.tasks = start.tasks) :
    WorkersKept start (release m target status latestUpdate db) :=
  workersUpdated same fun _ _ _ => .inl rfl

theorem workersRecovered {cause : RecoveryCause} (recovers : Recovers m cause db next) :
    WorkersKept db next := by
  intro r' listed
  have found : next.tasks.get r'.id = some r' := getMem listed
  rcases recovers r'.id with same | blocked
  · rw [same] at found
    exact .inr ⟨r',(getSome.mp found).1,rfl,rfl⟩
  · rw [blocked] at found
    obtain ⟨r,_,rfl⟩ := Option.map_eq_some_iff.mp found
    exact .inl rfl

theorem workersCreated {input : TaskPayload} {plan : RoutePlan} {id : String}
    (h : Db.createTask m input plan db = .ok (id,next)) : WorkersKept db next := by
  obtain ⟨task,_,h⟩ := AccpEnvelope.exceptBind h
  obtain ⟨plan,_,h⟩ := AccpEnvelope.exceptBind h
  obtain ⟨tasks,inserting,h⟩ := AccpEnvelope.exceptBind h
  obtain ⟨routeSteps,_,h⟩ := AccpEnvelope.exceptBind h
  obtain ⟨last,logged,h⟩ := AccpEnvelope.exceptBind h
  obtain ⟨rfl,rfl⟩ := Prod.mk.inj (Except.ok.inj h)
  intro r' listed
  rw [eventTasks logged] at listed
  unfold unique at inserting
  split at inserting
  · rename_i inserted
    cases Except.ok.inj inserting
    rcases ((insertSome inserted).2 r').mp listed with old | rfl
    · exact .inr ⟨r',old,rfl,rfl⟩
    · exact .inl rfl
  · contradiction

theorem workersRecovery {cause : RecoveryCause} {recoveredBy : String}
    {result : StaleRecoveryResult}
    (h : recoverRunningTasks m cause recoveredBy db = .ok (result,next)) :
    WorkersKept db next := by
  unfold recoverRunningTasks at h
  dsimp only at h
  split at h
  · contradiction
  · exact workersRecovered (recoverTasksTasks h)

theorem workersFinalized {target latestUpdate : String} {status : FinalStatus}
    {runId : Option String}
    (h : finalizeTaskExecution m target status latestUpdate runId db = .ok next) :
    WorkersKept db next := by
  obtain ⟨task,_,h⟩ := AccpEnvelope.exceptBind h
  dsimp only at h
  split at h
  · contradiction
  cases status with
  | done =>
    cases Except.ok.inj h
    exact workersReleased rfl
  | needsReview =>
    obtain ⟨reviewed,opening,last⟩ := AccpEnvelope.exceptBind h
    cases Except.ok.inj last
    obtain ⟨_,_,opening⟩ := AccpEnvelope.exceptBind opening
    obtain ⟨_,_,opened⟩ := AccpEnvelope.exceptBind opening
    cases Except.ok.inj opened
    exact workersReleased rfl

theorem workersStep {call : DbCall} (h : call.perform m db = .ok next)
    (other : ∀ workerId, call ≠ .claimNextTask workerId) : WorkersKept db next := by
  cases call with
  | createTask input plan => exact workersCreated (secondSource h).choose_spec
  | claimNextTask workerId => exact absurd rfl (other workerId)
  | heartbeatTask target workerId =>
    obtain ⟨at_,h⟩ := secondSource h
    unfold Db.heartbeatTask at h
    dsimp only at h
    split at h
    · contradiction
    split at h
    · obtain ⟨_,rfl⟩ := Prod.mk.inj (Except.ok.inj h)
      exact workersUpdated rfl fun _ _ _ => .inr rfl
    · contradiction
  | recoverStaleTasks cutoffMs recoveredBy =>
    obtain ⟨result,h⟩ := secondSource h
    cases cutoffMs with
    | none => contradiction
    | some cutoff => exact workersRecovery h
  | recoverTasksOwnedBy claimedBy recoveredBy =>
    obtain ⟨result,h⟩ := secondSource h
    unfold Db.recoverTasksOwnedBy at h
    dsimp only at h
    split at h
    · contradiction
    · exact workersRecovery h
  | updateTaskStatus target status latestUpdate =>
    obtain ⟨row,_,h⟩ := AccpEnvelope.exceptBind h
    obtain ⟨_,_,last⟩ := AccpEnvelope.exceptBind h
    cases Except.ok.inj last
    refine workersUpdated rfl fun r _ _ => ?_
    by_cases running : status = .running
    · exact .inr (if_pos running)
    · exact .inl (if_neg running)
  | updateRouteStep stepId patch => exact workersSame (stepTasks h)
  | createRun input => exact workersSame (newRunTasks (secondSource h).choose_spec)
  | updateRun runId patch => exact workersSame (runTasks (secondSource h).choose_spec)
  | appendEvent input => exact workersSame (eventTasks h)
  | addArtifact input => exact workersSame (artifactTasks (secondSource h).choose_spec)
  | finalizeTaskExecution target status latestUpdate runId => exact workersFinalized h
  | approveTaskReview target note expected =>
    obtain ⟨_,_,h⟩ := AccpEnvelope.exceptBind (secondSource h).choose_spec
    obtain ⟨_,rfl⟩ := Prod.mk.inj (Except.ok.inj h)
    exact workersReleased rfl
  | requestTaskRework target note expected =>
    obtain ⟨review,h⟩ := secondSource h
    unfold DbReviews.requestTaskRework at h
    dsimp only at h
    split at h
    · contradiction
    obtain ⟨_,_,h⟩ := AccpEnvelope.exceptBind h
    obtain ⟨noted,noting,h⟩ := AccpEnvelope.exceptBind h
    obtain ⟨_,rfl⟩ := Prod.mk.inj (Except.ok.inj h)
    have same := messageTasks noting
    exact workersReleased same
  | retryBlockedTask target note allow =>
    obtain ⟨body,h⟩ := secondSource h
    obtain ⟨task,_,h⟩ := AccpEnvelope.exceptBind h
    split at h
    · contradiction
    split at h
    · contradiction
    obtain ⟨noted,noting,h⟩ := AccpEnvelope.exceptBind h
    obtain ⟨_,rfl⟩ := Prod.mk.inj (Except.ok.inj h)
    have same := messageTasks noting
    exact workersReleased same

end

def Owed (db : ControlCenterDb) (workerId : String) : Prop :=
  ∃ r ∈ db.tasks, r.status = .running ∧ r.claimedBy = some workerId

instance (db : ControlCenterDb) (workerId : String) : Decidable (Owed db workerId) :=
  inferInstanceAs (Decidable (∃ r ∈ db.tasks.rows,_))

theorem owedTurn {db : ControlCenterDb} {t : Turn} {workerId : String}
    (every : EveryColumns db) (owed : Owed (turn db t) workerId) :
    Owed db workerId ∨ t.call = .claimNextTask workerId := by
  obtain ⟨r',listed,running,held⟩ := owed
  have keptOwed (r : TaskRow) (member : r ∈ db.tasks) (same : r'.claimedBy = r.claimedBy) :
      Owed db workerId := by
    have named : r.claimedBy = some workerId := same ▸ held
    refine ⟨r,member,(every r.id r (getMem member)).running ?_,named⟩
    rw [named]
    exact Option.some_ne_none _
  unfold turn at listed
  split at listed
  · rename_i next performed
    by_cases claim : ∃ other, t.call = .claimNextTask other
    · obtain ⟨other,claim⟩ := claim
      rw [claim] at performed ⊢
      obtain ⟨claimed,performed⟩ := secondSource performed
      unfold claimNextTask at performed
      split at performed
      · obtain ⟨_,rfl⟩ := Prod.mk.inj (Except.ok.inj performed)
        exact .inl (keptOwed r' listed rfl)
      · obtain ⟨last,logged,performed⟩ := AccpEnvelope.exceptBind performed
        obtain ⟨_,rfl⟩ := Prod.mk.inj (Except.ok.inj performed)
        rw [eventTasks logged] at listed
        obtain ⟨r,member,rfl⟩ := List.mem_map.mp listed
        split at held
        · cases Option.some.inj held
          exact .inr rfl
        · rename_i away
          exact .inl (keptOwed r member (by rw [if_neg away]))
    · rcases workersStep performed (fun other same => claim ⟨other,same⟩) r' listed with
        free | ⟨r,member,_,same⟩
      · rw [free] at held
        contradiction
      · exact .inl (keptOwed r member same)
  · exact .inl (keptOwed r' listed rfl)

def Claims (db : ControlCenterDb) (t : Turn) (taskId : String) : Prop :=
  ∃ workerId next, t.call = .claimNextTask workerId ∧
    claimNextTask t.moment workerId db = .ok (some taskId,next)

def Queued (taskId : String) (db : ControlCenterDb) : Prop :=
  ∃ r, db.tasks.get taskId = some r ∧ r.status = .queued

instance : Std.Total claimOrder where
  total a b := by
    unfold claimOrder
    omega

instance : IsTrans TaskRow claimOrder where
  trans a b c := by
    unfold claimOrder
    omega

theorem nextQueuedFirst {db : ControlCenterDb} {task other : TaskRow}
    (chosen : nextQueued db = some task) (listed : other ∈ db.tasks)
    (queued : other.status = .queued) : claimOrder task other := by
  have sorted := List.pairwise_insertionSort claimOrder
    (db.tasks.rows.filter fun r => decide (r.status = .queued))
  have member : other ∈ (db.tasks.rows.filter fun r => decide (r.status = .queued)).insertionSort
      claimOrder := by
    rw [List.mem_insertionSort,List.mem_filter]
    exact ⟨listed,decide_eq_true queued⟩
  unfold nextQueued at chosen
  generalize (db.tasks.rows.filter fun r => decide (r.status = .queued)).insertionSort
    claimOrder = queue at sorted member chosen
  cases queue with
  | nil => contradiction
  | cons first rest =>
    cases Option.some.inj chosen
    exact sorted.rel_head member

structure ClaimSource (db : ControlCenterDb) (t : Turn) (task : TaskRow) : Prop where
  chosen : nextQueued db = some task
  after : ∃ r, (turn db t).tasks.get task.id = some r ∧ r.status = .running

theorem claimSource {db : ControlCenterDb} {t : Turn} {taskId : String}
    (claims : Claims db t taskId) : ∃ task, task.id = taskId ∧ ClaimSource db t task := by
  obtain ⟨workerId,next,call,claimed⟩ := claims
  have after : turn db t = next := by
    apply turnPerformed
    rw [call,DbCall.perform,claimed]
    rfl
  unfold claimNextTask at claimed
  split at claimed
  · cases Except.ok.inj claimed
  rename_i task chosen
  obtain ⟨last,logged,claimed⟩ := AccpEnvelope.exceptBind claimed
  obtain ⟨same,rfl⟩ := Prod.mk.inj (Except.ok.inj claimed)
  refine ⟨task,Option.some.inj same,chosen,?_⟩
  have read : db.tasks.get task.id = some task := getMem (nextQueuedSource chosen).1
  rw [after,eventTasks logged,getUpdated,read]
  exact ⟨_,rfl,by simp⟩

def start (events : List Turn) : ControlCenterDb := reach turn .empty events

theorem startColumns (events : List Turn) : EveryColumns (start events) :=
  reachKept turn columnsTurn (fun taskId r found => absurd found (by simp [getSome,memEmpty,
    ControlCenterDb.empty])) events

theorem requeued {db : ControlCenterDb} {first second : Turn} {middle : List Turn}
    {taskId : String} (claims : Claims db first taskId)
    (again : Claims (reach turn (turn db first) middle) second taskId) :
    ∃ early t late, middle = early ++ t::late ∧
      ¬Queued taskId (reach turn (turn db first) early) ∧
      Queued taskId (reach turn (turn db first) (early ++ [t])) := by
  obtain ⟨task,rfl,source⟩ := claimSource claims
  obtain ⟨later,same,next⟩ := claimSource again
  obtain ⟨listed,queued⟩ := nextQueuedSource next.chosen
  refine beganAt turn (P := Queued task.id) ?_ ⟨later,same ▸ getMem listed,queued⟩
  rintro ⟨r,read,queued⟩
  obtain ⟨r',read',running⟩ := source.after
  cases Option.some.inj (read.symm.trans read')
  rw [queued] at running
  contradiction

end ControlCenter.TaskClaims
