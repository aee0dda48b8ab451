import ControlCenter.DbRuns
import ControlCenter.Transactions

/-! Recovery statement by statement. Each call is one transaction of the write lane, and
any of its statements may fail. -/
namespace ControlCenter.TaskRecovery
open JsonValue AccpEnvelope Protocol Table Db DbRuns ActionLogic Transactions

section
variable (fault : Nat → Option Fault) (m : Moment)

def select {α : Type} (read : ControlCenterDb → α) : Connection ControlCenterDb α :=
  statement fault fun db => .ok (read db,db)

-- UPDATE, which answers the number of rows it changed.
def update (changes : ControlCenterDb → Nat) (f : ControlCenterDb → ControlCenterDb) :
    Connection ControlCenterDb Nat := statement fault fun db => .ok (changes db,f db)

def insertEvent (taskId : String) (runId : Option String) (type message : String)
    (data : Json) : Connection ControlCenterDb Unit := statement fault fun db =>
  (db.insertEvent taskId runId type .warn message (some data) m.now).map fun next => ((),next)

def expectOne (changes : Nat) (message : String) : Connection ControlCenterDb Unit :=
  if changes = 1 then pure () else throw message

def addRun (events : List EventRow) (result : StaleRecoveryResult) (run : RunRow) :
    StaleRecoveryResult where
  taskIds := result.taskIds
  staleRunIds := result.staleRunIds ++ if run.status = .running then [run.id] else []
  failedRunIds := result.failedRunIds ++ if run.status = .running then [] else [run.id]
  processCandidates := result.processCandidates ++ processCandidate events run
  remoteCandidates := result.remoteCandidates ++ remoteCandidate run

variable (cause : RecoveryCause) (recoveredBy : String)

def isRun (taskId : String) (run r : RunRow) : Bool :=
  r.id == run.id && r.taskId == taskId && r.status == run.status

theorem closedKey (r : RunRow) : (closedRun m cause r).id = r.id := rfl

def closeRun (taskId : String) (run : RunRow) (result : StaleRecoveryResult) :
    Connection ControlCenterDb StaleRecoveryResult := do
  let events ← select fault ControlCenterDb.events
  let updated ← update fault (fun db => (db.runs.rows.filter (isRun taskId run)).length)
    fun db => {db with
      runs := db.runs.update (isRun taskId run) (closedRun m cause) (closedKey m cause)}
  expectOne updated s!"Run status changed during stale recovery: {run.id}"
  insertEvent fault m taskId (some run.id)
    (if run.status = .running then "run.stale" else "run.failed") (recoveryError cause run)
    (.object ([("previousStatus",.string run.status.text),("recoveredBy",.string recoveredBy)] ++
      cause.details))
  pure (addRun events result run)

def closeActiveRuns (taskId : String) : List RunRow → StaleRecoveryResult →
    Connection ControlCenterDb StaleRecoveryResult
  | [],result => pure result
  | run::rest,result => do
      let result ← closeRun fault m cause recoveredBy taskId run result
      closeActiveRuns taskId rest result

def isClaimed (task r : TaskRow) : Bool := r.id == task.id && (r.status == .running &&
  r.claimedAt == task.claimedAt && r.claimedBy == task.claimedBy)

def recoverStaleTask (task : TaskRow) (result : StaleRecoveryResult) :
    Connection ControlCenterDb StaleRecoveryResult := do
  let activeRuns ← select fault fun db => (listRuns task.id db).filter isOpen
  let closed ← closeActiveRuns fault m cause recoveredBy task.id activeRuns result
  let _ ← update fault (fun db =>
    (db.routeSteps.rows.filter fun s => s.taskId == task.id && s.status == .running).length)
    (failRunningSteps m task.id)
  let taskUpdate ← update fault (fun db => (db.tasks.rows.filter (isClaimed task)).length)
    fun db => {db with
      tasks := db.tasks.update (isClaimed task) (recoveredTask m cause) fun _ => rfl}
  expectOne taskUpdate s!"Task status changed during stale recovery: {task.id}"
  insertEvent fault m task.id none (recoveryEvent cause).1 (recoveryEvent cause).2
    (.object ([("claimedAt",orNull (task.claimedAt.map AccpIds.toISOString)),
      ("claimedBy",orNull task.claimedBy),("recoveredBy",.string recoveredBy)] ++ cause.details))
  pure {closed with taskIds := closed.taskIds ++ [task.id]}

def recoverStaleTasksOf : List TaskRow → StaleRecoveryResult →
    Connection ControlCenterDb StaleRecoveryResult
  | [],result => pure result
  | task::rest,result => do
      let result ← recoverStaleTask fault m cause recoveredBy task result
      recoverStaleTasksOf rest result

def staleTasks (db : ControlCenterDb) : List TaskRow :=
  (db.tasks.rows.filter cause.selects).insertionSort recoveryOrder

def recoverRunningTasks (recoveredByInput : String) :
    Connection ControlCenterDb StaleRecoveryResult :=
  let recoveredBy := trim recoveredByInput
  if recoveredBy = "" then throw "Worker id is required for task recovery"
  else withImmediateTransaction fault do
    let tasks ← select fault (staleTasks cause)
    recoverStaleTasksOf fault m cause recoveredBy tasks ⟨[],[],[],[],[]⟩

end

section
variable {fault : Nat → Option Fault} {m : Moment} {cause : RecoveryCause}
  {recoveredBy taskId : String} {db next : ControlCenterDb}

theorem performsExpect (changes : Nat) (message : String) :
    Performs (expectOne changes message) fun db =>
      if changes = 1 then .ok ((),db) else .error message := by
  unfold expectOne
  by_cases one : changes = 1
  · simpa only [if_pos one] using performsPure ()
  · simpa only [if_neg one] using performsThrow message

def verifying (e : EventRow) : Bool := e.type == "verification.process_started" ||
  e.type == "verification.succeeded" || e.type == "verification.failed"

theorem verifierQuiet {events : List EventRow} {e : EventRow} (quiet : verifying e = false)
    (runId : String) : verifierPid (events ++ [e]) runId = verifierPid events runId := by
  simp only [verifying,Bool.or_eq_false_iff] at quiet
  obtain ⟨⟨started,succeeded⟩,failed⟩ := quiet
  unfold verifierPid
  have same : ((events ++ [e]).filter fun e => e.runId == some runId).filter (fun started =>
      started.type == "verification.process_started" &&
        !((events ++ [e]).filter fun e => e.runId == some runId).any fun terminal =>
          decide (started.id < terminal.id) && (terminal.type == "verification.succeeded" ||
            terminal.type == "verification.failed")) =
      (events.filter fun e => e.runId == some runId).filter fun started =>
        started.type == "verification.process_started" &&
          !(events.filter fun e => e.runId == some runId).any fun terminal =>
            decide (started.id < terminal.id) && (terminal.type == "verification.succeeded" ||
              terminal.type == "verification.failed") := by
    rw [List.filter_append]
    by_cases mine : (e.runId == some runId) = true
    · simp [mine,started,succeeded,failed]
    · simp [mine]
  dsimp only
  rw [same]

theorem closedQuiet (run : RunRow) :
    (if run.status = .running then "run.stale" else "run.failed") ≠ "verification.process_started" ∧
    (if run.status = .running then "run.stale" else "run.failed") ≠ "verification.succeeded" ∧
    (if run.status = .running then "run.stale" else "run.failed") ≠ "verification.failed" := by
  split <;> decide

theorem listedRun {run : RunRow} (listed : run ∈ listRuns taskId db) :
    run ∈ db.runs ∧ run.taskId = taskId := by
  unfold listRuns at listed
  rw [List.mem_insertionSort,List.mem_filter] at listed
  exact ⟨listed.1,beq_iff_eq.mp listed.2⟩

theorem closeRunPerforms (run : RunRow) (result : StaleRecoveryResult) (own : run.taskId = taskId) :
    Performs (closeRun fault m cause recoveredBy taskId run result) fun db =>
      (closeRuns m cause recoveredBy [run] db).map fun next =>
        (addRun db.events result run,next) := by
  unfold closeRun
  refine (performsBind (performsStatement _) fun events _ =>
    performsBind (performsStatement _) fun updated _ =>
    performsBind (performsExpect _ _) fun _ _ =>
    performsBind (performsStatement _) fun _ _ => performsPure _).weaken ?_
  intro db a next h
  obtain ⟨⟨events,db₁⟩,read,h⟩ := exceptBind h
  cases Except.ok.inj read
  obtain ⟨⟨updated,db₂⟩,changed,h⟩ := exceptBind h
  cases Except.ok.inj changed
  obtain ⟨⟨_,db₃⟩,expected,h⟩ := exceptBind h
  dsimp only at expected
  split at expected
  · cases Except.ok.inj expected
    obtain ⟨⟨_,db₄⟩,logged,h⟩ := exceptBind h
    cases Except.ok.inj h
    obtain ⟨last,logged,same⟩ := mapSource logged
    cases same
    subst own
    unfold closeRuns
    unfold isRun at logged
    dsimp only
    rw [logged]
    rfl
  · contradiction

theorem addQuiet {events : List EventRow} {e : EventRow} (quiet : verifying e = false)
    (result : StaleRecoveryResult) (run : RunRow) :
    addRun (events ++ [e]) result run = addRun events result run := by
  simp only [addRun,processCandidate,verifierQuiet quiet]

theorem addAllQuiet {events : List EventRow} {e : EventRow} (quiet : verifying e = false)
    (runs : List RunRow) (result : StaleRecoveryResult) :
    runs.foldl (addRun (events ++ [e])) result = runs.foldl (addRun events) result := by
  have same : addRun (events ++ [e]) = addRun events := by
    funext result run
    exact addQuiet quiet result run
  rw [same]

theorem closeRunsPerforms {runs : List RunRow} (own : ∀ run ∈ runs, run.taskId = taskId)
    (result : StaleRecoveryResult) :
    Performs (closeActiveRuns fault m cause recoveredBy taskId runs result) fun db =>
      (closeRuns m cause recoveredBy runs db).map fun next =>
        (runs.foldl (addRun db.events) result,next) := by
  induction runs generalizing result with
  | nil => exact performsPure result
  | cons run rest ih =>
    unfold closeActiveRuns
    refine (performsBind (closeRunPerforms run result (own run List.mem_cons_self)) fun added _ =>
      ih (fun run listed => own run (List.mem_cons_of_mem _ listed)) added).weaken ?_
    intro db a next h
    obtain ⟨⟨added,middle⟩,first,h⟩ := exceptBind h
    obtain ⟨closed,first,same⟩ := mapSource first
    cases same
    obtain ⟨last,rest_,same⟩ := mapSource h
    cases same
    unfold closeRuns at first ⊢
    obtain ⟨logged,inserted,first⟩ := exceptBind first
    cases Except.ok.inj first
    dsimp only at inserted ⊢
    rw [inserted]
    show (closeRuns m cause recoveredBy rest middle).map _ = _
    rw [rest_]
    obtain ⟨_,_,last⟩ := exceptBind inserted
    cases Except.ok.inj last
    rw [List.foldl_cons,addAllQuiet]
    · rfl
    · obtain ⟨started,succeeded,failed⟩ := closedQuiet run
      simp [verifying,started,succeeded,failed]

theorem foldAdded (events : List EventRow) (runs : List RunRow) (result : StaleRecoveryResult) :
    {runs.foldl (addRun events) result with
      taskIds := (runs.foldl (addRun events) result).taskIds ++ [taskId]} =
      result.add taskId events runs := by
  induction runs generalizing result with
  | nil => simp [StaleRecoveryResult.add]
  | cons run rest ih =>
    rw [List.foldl_cons,ih]
    by_cases running : run.status = .running <;>
      simp [StaleRecoveryResult.add,addRun,running,List.append_assoc]

theorem updateClaimed {task : TaskRow} {tasks : Rows TaskRow}
    (one : (tasks.rows.filter (isClaimed task)).length = 1) :
    tasks.update (isClaimed task) (recoveredTask m cause) (fun _ => rfl) =
      tasks.update (fun r => r.id == task.id) (recoveredTask m cause) fun _ => rfl := by
  obtain ⟨r,only⟩ := List.length_eq_one_iff.mp one
  have passes : r ∈ tasks.rows.filter (isClaimed task) := by
    rw [only]
    exact List.mem_singleton_self r
  obtain ⟨listed,passes⟩ := List.mem_filter.mp passes
  have keyed : r.id = task.id := beq_iff_eq.mp (Bool.and_eq_true_iff.mp passes).1
  apply Rows.ext
  apply List.map_congr_left
  intro r' listed'
  by_cases keyed' : r'.id = task.id
  · have equal : r' = r := keyUnique listed' listed (keyed'.trans keyed.symm)
    simp [equal,keyed,passes]
  · simp [isClaimed,keyed']

theorem recoverTaskPerforms (task : TaskRow) (result : StaleRecoveryResult) :
    Performs (recoverStaleTask fault m cause recoveredBy task result) fun db =>
      (recoverTask m cause recoveredBy task db).map fun next =>
        (result.add task.id db.events ((listRuns task.id db).filter isOpen),next) := by
  unfold recoverStaleTask
  refine (performsBind (performsStatement _) fun activeRuns selected =>
    performsBind (closeRunsPerforms ?_ result) fun closed _ =>
    performsBind (performsStatement _) fun _ _ =>
    performsBind (performsStatement _) fun taskUpdate _ =>
    performsBind (performsExpect _ _) fun _ _ =>
    performsBind (performsStatement _) fun _ _ => performsPure _).weaken ?_
  · obtain ⟨_,_,selected⟩ := selected
    cases Except.ok.inj selected
    intro run listed
    exact (listedRun (List.mem_filter.mp listed).1).2
  intro db a next h
  obtain ⟨⟨activeRuns,db₁⟩,selected,h⟩ := exceptBind h
  cases Except.ok.inj selected
  obtain ⟨⟨closed,db₂⟩,closing,h⟩ := exceptBind h
  obtain ⟨closed,closing,same⟩ := mapSource closing
  cases same
  obtain ⟨⟨_,db₃⟩,failed,h⟩ := exceptBind h
  cases Except.ok.inj failed
  obtain ⟨⟨taskUpdate,db₄⟩,blocked,h⟩ := exceptBind h
  cases Except.ok.inj blocked
  obtain ⟨⟨_,db₅⟩,expected,h⟩ := exceptBind h
  dsimp only at expected
  split at expected
  · rename_i one
    cases Except.ok.inj expected
    obtain ⟨⟨_,db₆⟩,logged,h⟩ := exceptBind h
    cases Except.ok.inj h
    obtain ⟨last,logged,same⟩ := mapSource logged
    cases same
    rw [updateClaimed one] at logged
    unfold recoverTask ControlCenterDb.updateTask
    rw [closing]
    dsimp only
    rw [foldAdded]
    show (ControlCenterDb.insertEvent _ _ _ _ _ _ _ _).map _ = _
    rw [logged]
    rfl
  · contradiction

theorem recoverTasksPerforms (tasks : List TaskRow) (result : StaleRecoveryResult) :
    Performs (recoverStaleTasksOf fault m cause recoveredBy tasks result)
      (recoverTasks m cause recoveredBy tasks result) := by
  induction tasks generalizing result with
  | nil => exact performsPure result
  | cons task rest ih =>
    unfold recoverStaleTasksOf
    refine (performsBind (recoverTaskPerforms task result) fun added _ => ih added).weaken ?_
    intro db a next h
    obtain ⟨⟨added,middle⟩,first,h⟩ := exceptBind h
    obtain ⟨middle,first,same⟩ := mapSource first
    cases same
    unfold recoverTasks
    rw [first]
    exact h

theorem recoverySettles (recoveredByInput : String) (h : Handle ControlCenterDb) :
    Settled (Db.recoverRunningTasks m cause recoveredByInput) h
      (recoverRunningTasks fault m cause recoveredByInput h) := by
  unfold recoverRunningTasks Db.recoverRunningTasks
  dsimp only
  split
  · exact ⟨fun a run => by contradiction,fun _ _ => rfl⟩
  · apply transactionSettles
    refine (performsBind (performsStatement _) fun tasks _ => recoverTasksPerforms tasks _).weaken ?_
    intro db a next run
    exact run

theorem closeRunsRows {runs : List RunRow} (listed : ∀ run ∈ runs, run ∈ db.runs)
    (distinct : (runs.map RunRow.id).Nodup)
    (h : closeRuns m cause recoveredBy runs db = .ok next) :
    next.runs.rows = db.runs.rows.map fun r => if r ∈ runs then closedRun m cause r else r := by
  induction runs generalizing db with
  | nil =>
    cases Except.ok.inj h
    simp
  | cons run rest ih =>
    obtain ⟨closed,logged,h⟩ := exceptBind h
    rw [List.map_cons,List.nodup_cons] at distinct
    obtain ⟨fresh,distinct⟩ := distinct
    have runListed := listed run List.mem_cons_self
    have rows : closed.runs.rows = db.runs.rows.map fun r =>
        if r = run then closedRun m cause r else r := by
      obtain ⟨_,_,last⟩ := exceptBind logged
      cases Except.ok.inj last
      apply List.map_congr_left
      intro r member
      by_cases equal : r = run
      · simp [equal]
      · have other : ¬r.id = run.id := fun same => equal (keyUnique member runListed same)
        simp [equal,other]
    have kept : ∀ r ∈ rest, r ∈ closed.runs := by
      intro r member
      have other : ¬r = run := fun same => fresh (same ▸ List.mem_map_of_mem member)
      show r ∈ closed.runs.rows
      rw [rows,List.mem_map]
      exact ⟨r,listed r (List.mem_cons_of_mem _ member),if_neg other⟩
    rw [ih kept distinct h,rows,List.map_map]
    apply List.map_congr_left
    intro r member
    by_cases equal : r = run
    · subst equal
      have gone : closedRun m cause r ∉ rest := fun again =>
        fresh (List.mem_map.mpr ⟨_,again,rfl⟩)
      simp [gone]
    · simp [equal]

theorem eventAppended {runId : Option String} {type message : String} {level : EventLevel}
    {data : Option Json} {createdAt : Int}
    (h : db.insertEvent taskId runId type level message data createdAt = .ok next) :
    ∃ e, next = {db with events := db.events ++ [e]} ∧ e.taskId = taskId := by
  obtain ⟨_,_,last⟩ := exceptBind h
  cases Except.ok.inj last
  exact ⟨_,rfl,rfl⟩

theorem closeRunsFrame {runs : List RunRow} (own : ∀ run ∈ runs, run.taskId = taskId)
    (h : closeRuns m cause recoveredBy runs db = .ok next) :
    ∃ logged, next = {db with runs := next.runs,events := db.events ++ logged} ∧
      ∀ e ∈ logged, e.taskId = taskId := by
  induction runs generalizing db with
  | nil =>
    cases Except.ok.inj h
    exact ⟨[],by rw [List.append_nil],by simp⟩
  | cons run rest ih =>
    obtain ⟨closed,logging,h⟩ := exceptBind h
    obtain ⟨e,rfl,same⟩ := eventAppended logging
    obtain ⟨logged,shape,all⟩ := ih (fun run listed => own run (List.mem_cons_of_mem _ listed)) h
    refine ⟨e::logged,?_,?_⟩
    · rw [shape,List.append_assoc]
      rfl
    · intro e' listed
      rcases List.mem_cons.mp listed with rfl | listed
      · exact same.trans (own run List.mem_cons_self)
      · exact all e' listed

structure Closes (m : Moment) (cause : RecoveryCause) (taskIds : List String)
    (db next : ControlCenterDb) : Prop where
  tasks : next.tasks.rows = db.tasks.rows.map fun r =>
    if r.id ∈ taskIds then recoveredTask m cause r else r
  routeSteps : next.routeSteps.rows = db.routeSteps.rows.map fun s =>
    if s.taskId ∈ taskIds ∧ s.status = .running then {s with status := .failed,updatedAt := m.now}
    else s
  runs : next.runs.rows = db.runs.rows.map fun r =>
    if r.taskId ∈ taskIds ∧ isOpen r = true then closedRun m cause r else r
  events : ∃ logged, next.events = db.events ++ logged ∧ ∀ e ∈ logged, e.taskId ∈ taskIds
  evidence : next.artifacts = db.artifacts ∧ next.messages = db.messages ∧
    next.reviews = db.reviews

theorem Closes.none : Closes m cause [] db db where
  tasks := by simp
  routeSteps := by simp
  runs := by simp
  events := ⟨[],by simp,by simp⟩
  evidence := ⟨rfl,rfl,rfl⟩

theorem closedNotOpen (run : RunRow) : isOpen (closedRun m cause run) = false := by
  unfold isOpen closedRun closedStatus
  dsimp only
  split <;> rfl

theorem Closes.more {last : ControlCenterDb} {taskIds : List String}
    (first : Closes m cause [taskId] db next) (rest : Closes m cause taskIds next last) :
    Closes m cause (taskId::taskIds) db last where
  tasks := by
    rw [rest.tasks,first.tasks,List.map_map]
    apply List.map_congr_left
    intro r _
    by_cases here : r.id = taskId <;> by_cases there : r.id ∈ taskIds <;>
      simp [here,there,recoveredTask]
  routeSteps := by
    rw [rest.routeSteps,first.routeSteps,List.map_map]
    apply List.map_congr_left
    intro s _
    by_cases running : s.status = .running
    · by_cases here : s.taskId = taskId <;> simp [here,running]
    · simp [running]
  runs := by
    rw [rest.runs,first.runs,List.map_map]
    apply List.map_congr_left
    intro r _
    by_cases opened : isOpen r = true
    · by_cases here : r.taskId = taskId <;> simp [here,opened,closedNotOpen]
    · simp [opened]
  events := by
    obtain ⟨before,shape,own⟩ := first.events
    obtain ⟨after,shape',own'⟩ := rest.events
    refine ⟨before ++ after,by rw [shape',shape,List.append_assoc],fun e listed => ?_⟩
    rcases List.mem_append.mp listed with listed | listed
    · rw [List.mem_singleton.mp (own e listed)]
      exact List.mem_cons_self
    · exact List.mem_cons_of_mem _ (own' e listed)
  evidence := by
    obtain ⟨artifacts,messages,reviews⟩ := first.evidence
    obtain ⟨artifacts',messages',reviews'⟩ := rest.evidence
    exact ⟨artifacts'.trans artifacts,messages'.trans messages,reviews'.trans reviews⟩

theorem listedIds (runs : List RunRow) (distinct : (runs.map RunRow.id).Nodup)
    (test : RunRow → Bool) : ((runs.filter test).map RunRow.id).Nodup :=
  distinct.sublist (List.filter_sublist.map _)

theorem runIds (db : ControlCenterDb) (taskId : String) :
    ((listRuns taskId db).map RunRow.id).Nodup := by
  have sorted := (List.perm_insertionSort runOrder
    (db.runs.rows.filter fun r => r.taskId == taskId)).map RunRow.id
  exact sorted.nodup_iff.mpr (listedIds db.runs.rows db.runs.distinct _)

theorem recoverTaskCloses {task : TaskRow}
    (h : recoverTask m cause recoveredBy task db = .ok next) :
    Closes m cause [task.id] db next := by
  obtain ⟨closed,closing,logging⟩ := exceptBind h
  obtain ⟨e,rfl,same⟩ := eventAppended logging
  have own : ∀ run ∈ (listRuns task.id db).filter isOpen, run.taskId = task.id :=
    fun run listed => (listedRun (List.mem_filter.mp listed).1).2
  obtain ⟨logged,shape,all⟩ := closeRunsFrame own closing
  have rows := closeRunsRows (fun run listed => (listedRun (List.mem_filter.mp listed).1).1)
    (listedIds _ (runIds db task.id) isOpen) closing
  rw [shape]
  constructor
  · simp [ControlCenterDb.updateTask,failRunningSteps,Rows.update]
  · simp [ControlCenterDb.updateTask,failRunningSteps,Rows.update]
  · show closed.runs.rows = _
    rw [rows]
    apply List.map_congr_left
    intro r member
    have listed : r ∈ (listRuns task.id db).filter isOpen ↔
        r.taskId ∈ [task.id] ∧ isOpen r = true := by
      unfold listRuns
      rw [List.mem_filter,List.mem_insertionSort,List.mem_filter,List.mem_singleton,beq_iff_eq]
      exact and_congr_left fun _ => and_iff_right member
    simp only [listed]
  · refine ⟨logged ++ [e],(List.append_assoc _ _ _).symm ▸ rfl,fun e' listed => ?_⟩
    rw [List.mem_singleton]
    rcases List.mem_append.mp listed with listed | listed
    · exact all e' listed
    · rw [List.mem_singleton.mp listed,same]
  · exact ⟨rfl,rfl,rfl⟩

theorem recoverTasksCloses {tasks : List TaskRow} {result last : StaleRecoveryResult}
    (h : recoverTasks m cause recoveredBy tasks result db = .ok (last,next)) :
    Closes m cause (tasks.map TaskRow.id) db next := by
  induction tasks generalizing db result with
  | nil =>
    obtain ⟨_,rfl⟩ := Prod.mk.inj (Except.ok.inj h)
    exact .none
  | cons task rest ih =>
    obtain ⟨middle,recovered,h⟩ := exceptBind h
    exact (recoverTaskCloses recovered).more (ih h)

theorem filterKept {ρ : Type} {rows : List ρ} {p : ρ → Bool} {f : ρ → ρ}
    (each : ∀ r ∈ rows, f r = r ∨ (p r = false ∧ p (f r) = false)) :
    (rows.map f).filter p = rows.filter p := by
  induction rows with
  | nil => rfl
  | cons r rest ih =>
    have tail := ih fun r' listed => each r' (List.mem_cons_of_mem _ listed)
    rw [List.map_cons,List.filter_cons,List.filter_cons,tail]
    rcases each r List.mem_cons_self with same | ⟨before,after⟩
    · rw [same]
    · simp [before,after]

structure TaskRows where
  task : Option TaskRow
  routeSteps : List RouteStepRow
  runs : List RunRow
  events : List EventRow
  artifacts : List ArtifactRow
  messages : List MessageRow
  reviews : List ReviewRow

def rowsOf (taskId : String) (db : ControlCenterDb) : TaskRows where
  task := db.tasks.get taskId
  routeSteps := db.routeSteps.rows.filter fun s => s.taskId == taskId
  runs := db.runs.rows.filter fun r => r.taskId == taskId
  events := db.events.filter fun e => e.taskId == taskId
  artifacts := db.artifacts.rows.filter fun a => a.taskId == taskId
  messages := db.messages.rows.filter fun r => r.taskId == taskId
  reviews := db.reviews.rows.filter fun r => r.taskId == taskId

theorem Closes.getTask {taskIds : List String} (closes : Closes m cause taskIds db next) :
    next.tasks.get taskId = (db.tasks.get taskId).map fun r =>
      if r.id ∈ taskIds then recoveredTask m cause r else r := by
  have keyed : ∀ r, Keyed.key (recoveredTask m cause r) = Keyed.key r := fun _ => rfl
  have same : next.tasks = db.tasks.update (fun r => decide (r.id ∈ taskIds))
      (recoveredTask m cause) keyed := by
    apply Rows.ext
    rw [closes.tasks]
    simp [Rows.update]
  rw [same,getUpdate]
  simp

theorem Closes.runsKept {taskIds : List String} (closes : Closes m cause taskIds db next)
    (other : taskId ∉ taskIds) : (next.runs.rows.filter fun r => r.taskId == taskId) =
      db.runs.rows.filter fun r => r.taskId == taskId := by
  rw [closes.runs]
  apply filterKept
  intro r _
  by_cases here : r.taskId = taskId
  · left
    simp [here,other]
  · right
    constructor
    · simpa using here
    · split <;> simpa [closedRun] using here

theorem Closes.rowsKept {taskIds : List String} (closes : Closes m cause taskIds db next)
    (other : taskId ∉ taskIds) : rowsOf taskId next = rowsOf taskId db := by
  obtain ⟨artifacts,messages,reviews⟩ := closes.evidence
  unfold rowsOf
  congr 1
  · rw [closes.getTask]
    cases found : db.tasks.get taskId with
    | none => rfl
    | some r =>
      have keyed : r.id = taskId := (getSome.mp found).2
      simp [keyed,other]
  · rw [closes.routeSteps]
    apply filterKept
    intro s _
    by_cases here : s.taskId = taskId
    · left
      simp [here,other]
    · right
      constructor
      · simpa using here
      · split <;> simpa using here
  · exact closes.runsKept other
  · obtain ⟨logged,shape,own⟩ := closes.events
    rw [shape,List.filter_append,List.append_right_eq_self,List.filter_eq_nil_iff]
    intro e listed here
    exact other (beq_iff_eq.mp here ▸ own e listed)
  · rw [artifacts]
  · rw [messages]
  · rw [reviews]

def activeIds (taskId : String) (db : ControlCenterDb) : List String :=
  ((listRuns taskId db).filter isOpen).map RunRow.id

theorem activeMember {runId : String} : runId ∈ activeIds taskId db ↔
    ∃ r ∈ db.runs, r.taskId = taskId ∧ isOpen r = true ∧ r.id = runId := by
  unfold activeIds listRuns
  simp only [List.mem_map,List.mem_filter,List.mem_insertionSort,beq_iff_eq]
  constructor
  · rintro ⟨r,⟨⟨listed,own⟩,opened⟩,keyed⟩
    exact ⟨r,listed,own,opened,keyed⟩
  · rintro ⟨r,listed,own,opened,keyed⟩
    exact ⟨r,⟨⟨listed,own⟩,opened⟩,keyed⟩

def StaleRecoveryResult.closedIds (result : StaleRecoveryResult) : List String :=
  result.staleRunIds ++ result.failedRunIds

theorem addedIds (result : StaleRecoveryResult) (events : List EventRow) (runs : List RunRow) :
    (StaleRecoveryResult.closedIds (result.add taskId events runs)).Perm
      (StaleRecoveryResult.closedIds result ++ runs.map RunRow.id) := by
  have parts := ((runs.filter_append_perm fun r => r.status == .running).map RunRow.id)
  rw [List.map_append,List.perm_iff_count] at parts
  rw [List.perm_iff_count]
  intro runId
  have sum := parts runId
  simp only [StaleRecoveryResult.closedIds,StaleRecoveryResult.add,List.count_append,bne]
    at sum ⊢
  omega

theorem recoveredIds {tasks : List TaskRow} {result last : StaleRecoveryResult}
    (distinct : (tasks.map TaskRow.id).Nodup)
    (h : recoverTasks m cause recoveredBy tasks result db = .ok (last,next)) :
    (StaleRecoveryResult.closedIds last).Perm
      (StaleRecoveryResult.closedIds result ++ tasks.flatMap fun t => activeIds t.id db) := by
  induction tasks generalizing db result with
  | nil =>
    obtain ⟨rfl,_⟩ := Prod.mk.inj (Except.ok.inj h)
    rw [List.flatMap_nil,List.append_nil]
  | cons task rest ih =>
    obtain ⟨middle,recovered,h⟩ := exceptBind h
    rw [List.map_cons,List.nodup_cons] at distinct
    have kept : (rest.flatMap fun t => activeIds t.id middle) =
        rest.flatMap fun t => activeIds t.id db := by
      apply List.flatMap_congr
      intro t listed
      have other : t.id ∉ [task.id] := fun same =>
        distinct.1 (List.mem_singleton.mp same ▸ List.mem_map_of_mem listed)
      unfold activeIds listRuns
      rw [(recoverTaskCloses recovered).runsKept other]
    refine (ih distinct.2 h).trans ?_
    rw [kept,List.flatMap_cons,← List.append_assoc]
    exact (addedIds result db.events _).append_right _

theorem activeDistinct {tasks : List TaskRow} (distinct : (tasks.map TaskRow.id).Nodup) :
    (tasks.flatMap fun t => activeIds t.id db).Nodup := by
  rw [List.nodup_flatMap]
  constructor
  · intro t _
    exact listedIds _ (runIds db t.id) isOpen
  · refine (List.pairwise_map.mp distinct).imp ?_
    intro a b other runId first second
    obtain ⟨r,listed,own,_,keyed⟩ := activeMember.mp first
    obtain ⟨r',listed',own',_,keyed'⟩ := activeMember.mp second
    have same : r = r' := keyUnique listed listed' (keyed.trans keyed'.symm)
    exact other (own.symm.trans (same ▸ own'))

def terminal : RunStatus → Bool
  | .succeeded | .failed | .stopped | .stale => true
  | .queued | .starting | .running => false

structure Complete (cause : RecoveryCause) (db : ControlCenterDb) (result : StaleRecoveryResult)
    (next : ControlCenterDb) : Prop where
  blocked : ∀ task ∈ db.tasks, cause.selects task = true → ∃ r, next.tasks.get task.id = some r ∧
    r.status = .blocked ∧ r.claimedBy = none ∧ r.claimedAt = none
  idle : ∀ task ∈ db.tasks, cause.selects task = true → ∀ s ∈ next.routeSteps,
    s.taskId = task.id → s.status ≠ .running
  closed : ∀ task ∈ db.tasks, cause.selects task = true → ∀ r ∈ next.runs,
    r.taskId = task.id → terminal r.status = true
  listed : ∀ task ∈ db.tasks, cause.selects task = true → ∀ r ∈ db.runs,
    r.taskId = task.id → isOpen r = true →
      (result.staleRunIds ++ result.failedRunIds).count r.id = 1
  others : ∀ taskId, (∀ task ∈ db.tasks, cause.selects task = true → task.id ≠ taskId) →
    rowsOf taskId next = rowsOf taskId db

def NothingQueued (cause : RecoveryCause) (db : ControlCenterDb) : Prop :=
  ∀ task ∈ db.tasks, cause.selects task = true → ∀ r ∈ db.runs, r.taskId = task.id →
    r.status ≠ .queued

theorem selectedIds : taskId ∈ (staleTasks cause db).map TaskRow.id ↔
    ∃ task ∈ db.tasks, cause.selects task = true ∧ task.id = taskId := by
  unfold staleTasks
  simp only [List.mem_map,List.mem_insertionSort,List.mem_filter]
  constructor
  · rintro ⟨task,⟨listed,selected⟩,keyed⟩
    exact ⟨task,listed,selected,keyed⟩
  · rintro ⟨task,listed,selected,keyed⟩
    exact ⟨task,⟨listed,selected⟩,keyed⟩

theorem selectedDistinct (cause : RecoveryCause) (db : ControlCenterDb) :
    ((staleTasks cause db).map TaskRow.id).Nodup := by
  have sorted := (List.perm_insertionSort recoveryOrder
    (db.tasks.rows.filter cause.selects)).map TaskRow.id
  exact sorted.nodup_iff.mpr (db.tasks.distinct.sublist (List.filter_sublist.map _))

theorem closedTerminal (run : RunRow) :
    terminal (closedRun m cause run).status = true := by
  unfold closedRun closedStatus
  dsimp only
  split <;> rfl

theorem restTerminal {run : RunRow} (shut : isOpen run = false) :
    terminal run.status = true ↔ run.status ≠ .queued := by
  unfold isOpen at shut
  cases same : run.status <;> simp_all [terminal]

theorem Closes.complete {result : StaleRecoveryResult}
    (closes : Closes m cause ((staleTasks cause db).map TaskRow.id) db next)
    (ids : (StaleRecoveryResult.closedIds result).Perm
      ((staleTasks cause db).flatMap fun t => activeIds t.id db)) :
    Complete cause db result next ↔ NothingQueued cause db := by
  constructor
  · intro complete task listed selected r member own queued
    have shut : isOpen r = false := by
      unfold isOpen
      rw [queued]
      rfl
    have stays : r ∈ next.runs := by
      show r ∈ next.runs.rows
      rw [closes.runs,List.mem_map]
      exact ⟨r,member,by simp [shut]⟩
    have ended := complete.closed task listed selected r stays own
    rw [queued] at ended
    contradiction
  intro nothing
  constructor
  · intro task listed selected
    have here := selectedIds.mpr ⟨task,listed,selected,rfl⟩
    have found : db.tasks.get task.id = some task := getMem listed
    refine ⟨recoveredTask m cause task,?_,rfl,rfl,rfl⟩
    rw [closes.getTask,found,Option.map_some,if_pos here]
  · intro task listed selected s member own
    have here := selectedIds.mpr ⟨task,listed,selected,rfl⟩
    replace member : s ∈ next.routeSteps.rows := member
    rw [closes.routeSteps,List.mem_map] at member
    obtain ⟨s₀,_,rfl⟩ := member
    split
    · simp
    · rename_i outside
      rw [if_neg outside] at own
      exact fun running => outside ⟨own ▸ here,running⟩
  · intro task listed selected r member own
    have here := selectedIds.mpr ⟨task,listed,selected,rfl⟩
    replace member : r ∈ next.runs.rows := member
    rw [closes.runs,List.mem_map] at member
    obtain ⟨r₀,before,rfl⟩ := member
    split
    · exact closedTerminal r₀
    · rename_i outside
      rw [if_neg outside] at own
      have shut : isOpen r₀ = false := by
        rw [← Bool.not_eq_true]
        exact fun opened => outside ⟨own ▸ here,opened⟩
      exact (restTerminal shut).mpr (nothing task listed selected r₀ before own)
  · intro task listed selected r member own opened
    obtain ⟨task',chosen,keyed⟩ := List.mem_map.mp (selectedIds.mpr ⟨task,listed,selected,rfl⟩)
    have once : ((staleTasks cause db).flatMap fun t => activeIds t.id db).count r.id = 1 := by
      apply List.count_eq_one_of_mem (activeDistinct (selectedDistinct cause db))
      rw [List.mem_flatMap]
      exact ⟨task',chosen,activeMember.mpr ⟨r,member,own.trans keyed.symm,opened,rfl⟩⟩
    rw [← once]
    exact ids.count_eq r.id
  · intro taskId others
    apply closes.rowsKept
    intro selected
    obtain ⟨task,listed,selects,keyed⟩ := selectedIds.mp selected
    exact others task listed selects keyed

theorem completes {result : StaleRecoveryResult} {recoveredByInput : String}
    (h : Db.recoverRunningTasks m cause recoveredByInput db = .ok (result,next)) :
    Complete cause db result next ↔ NothingQueued cause db := by
  unfold Db.recoverRunningTasks at h
  dsimp only at h
  split at h
  · contradiction
  · have ids := recoveredIds (selectedDistinct cause db) h
    exact (recoverTasksCloses h).complete ids

theorem updatedSome {ρ : Type} [Keyed ρ String] {rows : Rows ρ} {test : ρ → Bool} {f : ρ → ρ}
    {k : String} (keyed : ∀ r, Keyed.key (f r) = Keyed.key r) :
    ((rows.update test f keyed).get k).isSome = (rows.get k).isSome := by
  rw [getUpdate]
  exact Option.isSome_map

theorem eventLogged (runId : Option String) (task : db.hasTask taskId = true)
    (run : db.hasRun runId = true) (type : String) (level : EventLevel) (message : String)
    (data : Option Json) (createdAt : Int) :
    ∃ e, db.insertEvent taskId runId type level message data createdAt =
      .ok {db with events := db.events ++ [e]} := by
  unfold ControlCenterDb.insertEvent references
  rw [task,run]
  exact ⟨_,rfl⟩

theorem closeRunsTotal {runs : List RunRow} (task : db.hasTask taskId = true)
    (own : ∀ run ∈ runs, run.taskId = taskId)
    (known : ∀ run ∈ runs, db.hasRun (some run.id) = true) :
    ∃ next, closeRuns m cause recoveredBy runs db = .ok next ∧ next.hasTask taskId = true := by
  induction runs generalizing db with
  | nil => exact ⟨db,rfl,task⟩
  | cons run rest ih =>
    have keyed : ∀ r, Keyed.key (closedRun m cause r) = Keyed.key r := fun _ => rfl
    let closed : ControlCenterDb := {db with runs := Rows.update (fun r => r.id == run.id &&
      r.taskId == run.taskId && r.status == run.status) (closedRun m cause) keyed db.runs}
    have knows (r : RunRow) (listed : r ∈ run::rest) : closed.hasRun (some r.id) = true :=
      (updatedSome keyed).trans (known r listed)
    have here : closed.hasTask run.taskId = true := by
      rw [own run List.mem_cons_self]
      exact task
    obtain ⟨e,logged⟩ := eventLogged (some run.id) here (knows run List.mem_cons_self)
      (if run.status = .running then "run.stale" else "run.failed") .warn
      (recoveryError cause run) (some (.object ([("previousStatus",.string run.status.text),
        ("recoveredBy",.string recoveredBy)] ++ cause.details))) m.now
    obtain ⟨last,closing,task⟩ := ih
      (show ControlCenterDb.hasTask {closed with events := closed.events ++ [e]} taskId = true
        from task)
      (fun run listed => own run (List.mem_cons_of_mem _ listed))
      (fun r listed => knows r (List.mem_cons_of_mem _ listed))
    refine ⟨last,?_,task⟩
    unfold closeRuns
    show (closed.insertEvent _ _ _ _ _ _ _).bind _ = _
    rw [logged]
    exact closing

theorem recoverTaskTotal {task : TaskRow} (known : db.hasTask task.id = true) :
    ∃ next, recoverTask m cause recoveredBy task db = .ok next := by
  have listed (run : RunRow) (member : run ∈ (listRuns task.id db).filter isOpen) :=
    listedRun (List.mem_filter.mp member).1
  obtain ⟨closed,closing,stays⟩ : ∃ closed, closeRuns m cause recoveredBy
      ((listRuns task.id db).filter isOpen) db = .ok closed ∧ closed.hasTask task.id = true :=
    closeRunsTotal known (fun run member => (listed run member).2) fun run member =>
      Option.isSome_iff_exists.mpr ⟨run,getMem (listed run member).1⟩
  have keyed : ∀ r, (recoveredTask m cause r).id = r.id := fun _ => rfl
  have blocked : ((failRunningSteps m task.id closed).updateTask task.id (recoveredTask m cause)
      keyed).hasTask task.id = true := by
    unfold ControlCenterDb.hasTask
    rw [getUpdated,Option.isSome_map]
    exact stays
  obtain ⟨e,logged⟩ := eventLogged none blocked rfl (recoveryEvent cause).1 .warn
    (recoveryEvent cause).2 (some (.object ([("claimedAt",orNull (task.claimedAt.map
      AccpIds.toISOString)),("claimedBy",orNull task.claimedBy),
      ("recoveredBy",.string recoveredBy)] ++ cause.details))) m.now
  unfold recoverTask
  rw [closing]
  exact ⟨_,logged⟩

theorem recoverTasksTotal {tasks : List TaskRow} {result : StaleRecoveryResult}
    (known : ∀ task ∈ tasks, db.hasTask task.id = true) :
    ∃ last next, recoverTasks m cause recoveredBy tasks result db = .ok (last,next) := by
  induction tasks generalizing db result with
  | nil => exact ⟨result,db,rfl⟩
  | cons task rest ih =>
    obtain ⟨middle,recovered⟩ : ∃ middle, recoverTask m cause recoveredBy task db = .ok middle :=
      recoverTaskTotal (known task List.mem_cons_self)
    have stays (r : TaskRow) (listed : r ∈ rest) : middle.hasTask r.id = true := by
      unfold ControlCenterDb.hasTask
      rw [(recoverTaskCloses recovered).getTask,Option.isSome_map]
      exact known r (List.mem_cons_of_mem _ listed)
    unfold recoverTasks
    rw [recovered]
    exact ih stays

theorem recoveryTotal {claimedBy recoveredByInput : String} (named : trim claimedBy ≠ "")
    (by_ : trim recoveredByInput ≠ "") : ∃ result next,
      Db.recoverTasksOwnedBy m claimedBy recoveredByInput db = .ok (result,next) := by
  unfold Db.recoverTasksOwnedBy Db.recoverRunningTasks
  dsimp only
  rw [if_neg named,if_neg by_]
  apply recoverTasksTotal
  intro task listed
  rw [List.mem_insertionSort,List.mem_filter] at listed
  exact Option.isSome_iff_exists.mpr ⟨task,getMem listed.1⟩

theorem recoveredIdle {claimedBy recoveredByInput : String} {result : StaleRecoveryResult}
    (h : Db.recoverTasksOwnedBy m claimedBy recoveredByInput db = .ok (result,next)) :
    ∀ r ∈ next.tasks, r.status = .running → r.claimedBy ≠ some (trim claimedBy) := by
  unfold Db.recoverTasksOwnedBy Db.recoverRunningTasks at h
  dsimp only at h
  split at h
  · contradiction
  split at h
  · contradiction
  have closes := recoverTasksCloses h
  intro r listed running held
  replace listed : r ∈ next.tasks.rows := listed
  rw [closes.tasks,List.mem_map] at listed
  obtain ⟨r₀,member,rfl⟩ := listed
  split at running
  · contradiction
  · rename_i outside
    rw [if_neg outside] at held
    refine outside (selectedIds.mpr ⟨r₀,member,?_,rfl⟩)
    simp [RecoveryCause.selects,running,held]

end

inductive RecoveryCall where
  | recoverStaleTasks (cutoffMs : Option Int) (recoveredBy : String)
  | recoverTasksOwnedBy (claimedBy recoveredBy : String)

def RecoveryCall.perform (fault : Nat → Option Fault) (m : Moment) :
    RecoveryCall → Connection ControlCenterDb StaleRecoveryResult
  | .recoverStaleTasks none _ => throw "Invalid stale-task cutoff"
  | .recoverStaleTasks (some cutoff) recoveredBy =>
      recoverRunningTasks fault m (.heartbeatExpired cutoff) recoveredBy
  | .recoverTasksOwnedBy claimedByInput recoveredBy =>
      if trim claimedByInput = "" then throw "Claimed worker id is required for owner recovery"
      else recoverRunningTasks fault m (.deadOwner (trim claimedByInput)) recoveredBy

def RecoveryCall.cause : RecoveryCall → RecoveryCause
  | .recoverStaleTasks cutoffMs _ => .heartbeatExpired (cutoffMs.getD 0)
  | .recoverTasksOwnedBy claimedByInput _ => .deadOwner (trim claimedByInput)

theorem callSettles (fault : Nat → Option Fault) (m : Moment) (call : RecoveryCall)
    (h : Handle ControlCenterDb) :
    ∃ recoveredBy, Settled (Db.recoverRunningTasks m call.cause recoveredBy) h
      (call.perform fault m h) := by
  cases call with
  | recoverStaleTasks cutoffMs recoveredBy =>
    cases cutoffMs with
    | none => exact ⟨recoveredBy,fun result run => (by contradiction),fun _ _ => rfl⟩
    | some cutoff => exact ⟨recoveredBy,recoverySettles recoveredBy h⟩
  | recoverTasksOwnedBy claimedByInput recoveredBy =>
    refine ⟨recoveredBy,?_⟩
    by_cases blank : trim claimedByInput = ""
    · simp only [RecoveryCall.perform,if_pos blank]
      exact ⟨fun result run => (by contradiction),fun _ _ => rfl⟩
    · simp only [RecoveryCall.perform,if_neg blank]
      exact recoverySettles recoveredBy h

theorem recoveryCloses (fault : Nat → Option Fault) (m : Moment) (call : RecoveryCall)
    (h : Handle ControlCenterDb) :
    (∀ result after, call.perform fault m h = (.ok result,after) →
      (Complete call.cause h.committed result after.committed ↔
        NothingQueued call.cause h.committed)) ∧
    ∀ e after, call.perform fault m h = (.error e,after) → after.committed = h.committed := by
  obtain ⟨recoveredBy,settled⟩ := callSettles fault m call h
  constructor
  · intro result after run
    rw [run] at settled
    exact completes (settled.ok result rfl).2.1
  · intro e after run
    rw [run] at settled
    exact settled.error e rfl

def crashedInput : TaskPayload :=
  ⟨none,"Fix the parser","/repo","main",.codex,.normal,none,[],none,true⟩

def crashedPlan : RoutePlan := ⟨.single,.normal,["codex"],
  [⟨"step_1",0,.codex,.execute,true,"Codex executes."⟩]⟩

def crashedTurns : List Turn := [
  ⟨⟨1000,"1"⟩,.createTask crashedInput crashedPlan⟩,
  ⟨⟨1001,"2"⟩,.appendEvent ⟨"task_1",none,"route.decided",.info,"codex",none⟩⟩,
  ⟨⟨1002,"3"⟩,.claimNextTask "worker-1"⟩,
  ⟨⟨1003,"4"⟩,.heartbeatTask "task_1" "worker-1"⟩,
  ⟨⟨1004,"5"⟩,.createRun ⟨"task_1","step_1",.codex,.execute⟩⟩]

def crashed : ControlCenterDb := RunLogic.reach turn .empty crashedTurns

def crashedRecovery : RecoveryCall := .recoverTasksOwnedBy "worker-1" "worker-2"

def leavesQueued (cause : RecoveryCause) (db : ControlCenterDb) : Bool :=
  db.tasks.rows.any fun task => cause.selects task &&
    db.runs.rows.any fun r => r.taskId == task.id && r.status == .queued

theorem queuedRunLeft : ∃ result after,
    crashedRecovery.perform (fun _ => none) ⟨2000,"6"⟩ ⟨crashed,none,0⟩ = (.ok result,after) ∧
      ¬Complete crashedRecovery.cause crashed result after.committed := by
  have checked : ((crashedRecovery.perform (fun _ => none) ⟨2000,"6"⟩ ⟨crashed,none,0⟩).1.isOk &&
      leavesQueued crashedRecovery.cause crashed) = true := by decide +kernel
  obtain ⟨commits,left⟩ := Bool.and_eq_true_iff.mp checked
  rcases ran : crashedRecovery.perform (fun _ => none) ⟨2000,"6"⟩ ⟨crashed,none,0⟩ with
    ⟨e | result,after⟩
  · rw [ran] at commits
    contradiction
  refine ⟨result,after,rfl,fun complete => ?_⟩
  obtain ⟨recoveredBy,settled⟩ := callSettles (fun _ => none) ⟨2000,"6"⟩ crashedRecovery
    ⟨crashed,none,0⟩
  rw [ran] at settled
  have nothing := (completes (settled.ok result rfl).2.1).mp complete
  unfold leavesQueued at left
  simp only [List.any_eq_true,Bool.and_eq_true,beq_iff_eq] at left
  obtain ⟨task,listed,selects,r,member,own,queued⟩ := left
  exact nothing task listed selects r member own queued

end ControlCenter.TaskRecovery
