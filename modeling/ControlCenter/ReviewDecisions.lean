import ControlCenter.StatusMachines

/-! The two decisions on a review, statement by statement. Each is one transaction of the
write lane, any of its statements may fail, and other calls come before and after it. -/
namespace ControlCenter.ReviewDecisions
open JsonValue AccpEnvelope Protocol Table Db DbReviews DbRuns ActionLogic Transactions
open TaskRecovery StatusMachines RunLogic

section
variable (fault : Nat → Option Fault) (m : Moment)

def lift {α : Type} : Outcome α → Connection ControlCenterDb α
  | .ok a => pure a
  | .error e => throw e

def isPending (taskId : String) (review : ReviewRow) (expected : Option Expected)
    (r : ReviewRow) : Bool :=
  r.id == review.id && (r.taskId == taskId && r.status == .pending &&
    expected.all fun e => r.updatedAt == e.updatedAt)

def isWaiting (taskId : String) (r : TaskRow) : Bool :=
  r.id == taskId && r.status == .needsReview

def waiting (taskId : String) (task : TaskRow) : Outcome Unit :=
  if task.status ≠ .needsReview then .error s!"Task {taskId} is not waiting for review" else .ok ()

def unchanged (expected : Option Expected) (review : ReviewRow) : Outcome ReviewRow :=
  if review.status ≠ .pending ∨ expected.any fun e => review.updatedAt != e.updatedAt then
    .error s!"Review changed concurrently: {review.id}"
  else .ok review

def selectReview (taskId : String) (expected : Option Expected) :
    Connection ControlCenterDb ReviewRow := do
  let task ← select fault fun db => db.tasks.get taskId
  let task ← lift (found s!"Task not found: {taskId}" task)
  lift (waiting taskId task)
  let review ← select fault (expectedReview taskId expected)
  let review ← lift (found s!"Task {taskId} has no pending review" review)
  lift (unchanged expected review)

theorem decidedKey (status : ReviewStatus) (note : Option String) (r : ReviewRow) :
    (decided m status note r).id = r.id := rfl

def decidePending (taskId : String) (review : ReviewRow) (expected : Option Expected)
    (status : ReviewStatus) (note : Option String) (db : ControlCenterDb) : ControlCenterDb :=
  let reviews := db.reviews.update (isPending taskId review expected) (decided m status note)
    (decidedKey m status note)
  {db with reviews}

def releaseWaiting (taskId : String) (status : TaskStatus) (latestUpdate : String)
    (db : ControlCenterDb) : ControlCenterDb :=
  let tasks := db.tasks.update (isWaiting taskId) (released m status latestUpdate) fun _ => rfl
  {db with tasks}

def updateReview (taskId : String) (review : ReviewRow) (expected : Option Expected)
    (status : ReviewStatus) (note : Option String) : Connection ControlCenterDb Unit := do
  let changes ← update fault
    (fun db => (db.reviews.rows.filter (isPending taskId review expected)).length)
    (decidePending m taskId review expected status note)
  expectOne changes s!"Review changed concurrently: {review.id}"

def updateTask (taskId : String) (status : TaskStatus) (latestUpdate : String) :
    Connection ControlCenterDb Unit := do
  let changes ← update fault (fun db => (db.tasks.rows.filter (isWaiting taskId)).length)
    (releaseWaiting m taskId status latestUpdate)
  expectOne changes s!"Task status changed concurrently: {taskId}"

def selectDecided (review : ReviewRow) : Connection ControlCenterDb ReviewRow := do
  let row ← select fault fun db => db.reviews.get review.id
  lift (found s!"Review disappeared after decision: {review.id}" row)

def approveTaskReview (taskId : String) (note : Option String) (expected : Option Expected) :
    Connection ControlCenterDb ReviewRow := withImmediateTransaction fault do
  let review ← selectReview fault taskId expected
  updateReview fault m taskId review expected .approved (cleaned note)
  updateTask fault m taskId .done ((cleaned note).getD "Approved by human reviewer.")
  selectDecided fault review

def requestTaskRework (taskId note : String) (expected : Option Expected) :
    Connection ControlCenterDb ReviewRow :=
  let cleanNote := trim note
  if cleanNote = "" then throw "Rework note is required"
  else withImmediateTransaction fault do
    let review ← selectReview fault taskId expected
    updateReview fault m taskId review expected .reworkRequested (some cleanNote)
    statement fault fun db => (db.insertMessage ⟨"message_" ++ m.uuid,taskId,review.runId,
      "system","reviewer",cleanNote,"queued",m.now⟩).map fun next => ((),next)
    let _ ← update fault (fun db => (db.routeSteps.rows.filter fun s => s.taskId == taskId).length)
      (resetSteps m fun s => s.taskId == taskId)
    updateTask fault m taskId .queued cleanNote
    selectDecided fault review

end

inductive DecisionCall where
  | approveTaskReview (taskId : String) (note : Option String) (expected : Option Expected)
  | requestTaskRework (taskId note : String) (expected : Option Expected)

namespace DecisionCall
variable (call : DecisionCall)

def taskId : DecisionCall → String
  | .approveTaskReview taskId _ _ | .requestTaskRework taskId _ _ => taskId

def expected : DecisionCall → Option Expected
  | .approveTaskReview _ _ expected | .requestTaskRework _ _ expected => expected

def noted : DecisionCall → Prop
  | .approveTaskReview .. => True
  | .requestTaskRework _ note _ => trim note ≠ ""

def script (fault : Nat → Option Fault) (m : Moment) :
    DecisionCall → Connection ControlCenterDb ReviewRow
  | .approveTaskReview taskId note expected =>
      ReviewDecisions.approveTaskReview fault m taskId note expected
  | .requestTaskRework taskId note expected =>
      ReviewDecisions.requestTaskRework fault m taskId note expected

def perform (m : Moment) (db : ControlCenterDb) : DecisionCall → Outcome (ReviewRow × ControlCenterDb)
  | .approveTaskReview taskId note expected =>
      DbReviews.approveTaskReview m taskId note expected db
  | .requestTaskRework taskId note expected =>
      DbReviews.requestTaskRework m taskId note expected db

end DecisionCall

structure Admitted (taskId : String) (expected : Option Expected) (db : ControlCenterDb)
    (review : ReviewRow) : Prop where
  waits : ∃ task, db.tasks.get taskId = some task ∧ task.status = .needsReview
  addressed : expectedReview taskId expected db = some review
  pending : review.status = .pending
  current : ∀ e, expected = some e → review.updatedAt = e.updatedAt

section
variable {taskId : String} {expected : Option Expected} {db : ControlCenterDb}
  {review : ReviewRow}

theorem reviewAdmitted : reviewToDecide taskId expected db = .ok review ↔
    Admitted taskId expected db review := by
  constructor
  · intro h
    obtain ⟨task,held,h⟩ := exceptBind h
    split at h
    · contradiction
    next waits =>
      obtain ⟨row,addressed,h⟩ := exceptBind h
      split at h
      · contradiction
      next same =>
        cases Except.ok.inj h
        simp only [not_or,not_not,Bool.not_eq_true] at same
        refine ⟨⟨task,foundSource held,not_not.mp waits⟩,foundSource addressed,same.1,?_⟩
        rintro e rfl
        simpa using same.2
  · rintro ⟨⟨task,held,waits⟩,addressed,pending,current⟩
    unfold reviewToDecide
    rw [held,addressed]
    have same : expected.any (fun e => review.updatedAt != e.updatedAt) = false := by
      cases expected with
      | none => rfl
      | some e => simp [current e rfl]
    simp [found,bind,Except.bind,waits,pending,same]

theorem latestListed {rows : List ReviewRow} {best : Option ReviewRow}
    (latest : rows.foldl (fun best r => match best with
      | some b => if b.createdAt ≤ r.createdAt then some r else some b
      | none => some r) best = some review) : review ∈ rows ∨ best = some review := by
  induction rows generalizing best with
  | nil => exact .inr latest
  | cons r rest ih =>
    rcases ih latest with later | now
    · exact .inl (List.mem_cons_of_mem _ later)
    · cases best with
      | some b =>
        dsimp only at now
        split at now
        · exact .inl (Option.some.inj now ▸ List.mem_cons_self)
        · exact .inr now
      | none => exact .inl (Option.some.inj now ▸ List.mem_cons_self)

theorem addressedOwn (addressed : expectedReview taskId expected db = some review) :
    review ∈ db.reviews ∧ review.taskId = taskId := by
  unfold expectedReview at addressed
  split at addressed
  · obtain ⟨held,own⟩ := Option.filter_eq_some_iff.mp addressed
    exact ⟨(getSome.mp held).1,by simpa using own⟩
  · rcases latestListed addressed with listed | none_
    · obtain ⟨inside,own⟩ := List.mem_filter.mp listed
      simp only [Bool.and_eq_true,beq_iff_eq] at own
      exact ⟨inside,own.1⟩
    · cases none_

end

section
variable {fault : Nat → Option Fault} {m : Moment} {taskId : String}
  {expected : Option Expected}

theorem runsLift {α : Type} (o : Outcome α) :
    Runs fault (lift o) fun db => o.map fun a => (a,db) := by
  cases o with
  | ok a => exact runsPure a
  | error e =>
    refine ⟨performsThrow e,fun _ h w a w' _ run => ?_⟩
    cases run

theorem runsExpect (changes : Nat) (message : String) : Runs fault (expectOne changes message)
    fun db => if changes = 1 then .ok ((),db) else .error message := by
  unfold expectOne
  by_cases one : changes = 1
  · simpa only [if_pos one] using runsPure ()
  · simp only [if_neg one]
    exact runsLift (.error message)

theorem runsSelect {α : Type} (read : ControlCenterDb → α) :
    Runs fault (select fault read) fun db => .ok (read db,db) := runsStatement _

theorem runsUpdate (changes : ControlCenterDb → Nat) (f : ControlCenterDb → ControlCenterDb) :
    Runs fault (update fault changes f) fun db => .ok (changes db,f db) := runsStatement _

theorem runsSelectReview : Runs fault (selectReview fault taskId expected) fun db =>
    (reviewToDecide taskId expected db).map fun review => (review,db) := by
  refine (runsBind (runsSelect _) fun _ => runsBind (runsLift _) fun _ =>
    runsBind (runsLift _) fun _ => runsBind (runsSelect _) fun _ =>
    runsBind (runsLift _) fun _ => runsLift _).same fun db => ?_
  unfold reviewToDecide waiting unchanged
  simp only [bind,Except.bind,Except.map]
  cases db.tasks.get taskId with
  | none => rfl
  | some task =>
    by_cases waits : task.status = .needsReview
    · simp only [found,waits,ne_eq,not_true_eq_false,if_false]
      cases expectedReview taskId expected db with
      | none => rfl
      | some review => rfl
    · simp only [found,ne_eq,waits,not_false_eq_true,if_true]

theorem runsUpdateReview {review : ReviewRow} {status : ReviewStatus} {note : Option String} :
    Runs fault (updateReview fault m taskId review expected status note) fun db =>
      if (db.reviews.rows.filter (isPending taskId review expected)).length = 1 then
        .ok ((),decidePending m taskId review expected status note db)
      else .error s!"Review changed concurrently: {review.id}" :=
  (runsBind (runsUpdate _ _) fun _ => runsExpect _ _).same fun _ => rfl

theorem runsUpdateTask {status : TaskStatus} {latestUpdate : String} :
    Runs fault (updateTask fault m taskId status latestUpdate) fun db =>
      if (db.tasks.rows.filter (isWaiting taskId)).length = 1 then
        .ok ((),releaseWaiting m taskId status latestUpdate db)
      else .error s!"Task status changed concurrently: {taskId}" :=
  (runsBind (runsUpdate _ _) fun _ => runsExpect _ _).same fun _ => rfl

theorem runsSelectDecided {review : ReviewRow} : Runs fault (selectDecided fault review) fun db =>
    (found s!"Review disappeared after decision: {review.id}" (db.reviews.get review.id)).map
      fun row => (row,db) :=
  (runsBind (runsSelect _) fun _ => runsLift _).same fun _ => rfl

theorem messageReviews {db next : ControlCenterDb} {message : MessageRow}
    (h : db.insertMessage message = .ok next) : next.reviews = db.reviews := by
  obtain ⟨_,_,h⟩ := exceptBind h
  obtain ⟨_,_,last⟩ := exceptBind h
  cases Except.ok.inj last
  rfl

theorem pendingOne {db : ControlCenterDb} {review : ReviewRow}
    (admitted : Admitted taskId expected db review) (status : ReviewStatus) (note : Option String) :
    (db.reviews.rows.filter (isPending taskId review expected)).length = 1 ∧
      decidePending m taskId review expected status note db =
        DbReviews.decideReview m review status note db := by
  obtain ⟨listed,own⟩ := addressedOwn admitted.addressed
  have passes : isPending taskId review expected review = true := by
    cases expected with
    | none => simp [isPending,own,admitted.pending]
    | some e => simp [isPending,own,admitted.pending,admitted.current e rfl]
  have each : ∀ r ∈ db.reviews, isPending taskId review expected r = true ↔
      Keyed.key r = Keyed.key review := by
    intro r inside
    constructor
    · intro own
      exact beq_iff_eq.mp (Bool.and_eq_true_iff.mp own).1
    · intro same
      rw [keyUnique inside listed same]
      exact passes
  constructor
  · rw [filterKeyed listed each]
    rfl
  · unfold decidePending DbReviews.decideReview
    have rows : db.reviews.update (isPending taskId review expected) (decided m status note)
        (fun _ => rfl) = db.reviews.update (fun r => r.id == review.id) (decided m status note)
        fun _ => rfl := by
      refine updateCongr (fun _ => by rfl) fun r inside => ?_
      rw [Bool.eq_iff_iff,each r inside]
      exact beq_iff_eq.symm
    rw [rows]

theorem waitingOne {db : ControlCenterDb} {task : TaskRow}
    (held : db.tasks.get taskId = some task) (waits : task.status = .needsReview)
    (status : TaskStatus) (latestUpdate : String) :
    (db.tasks.rows.filter (isWaiting taskId)).length = 1 ∧
      releaseWaiting m taskId status latestUpdate db =
        release m taskId status latestUpdate db := by
  obtain ⟨listed,keyed⟩ := getSome.mp held
  have keyed : task.id = taskId := keyed
  have each : ∀ r ∈ db.tasks, isWaiting taskId r = true ↔ Keyed.key r = Keyed.key task := by
    intro r inside
    constructor
    · intro own
      exact (beq_iff_eq.mp (Bool.and_eq_true_iff.mp own).1).trans keyed.symm
    · intro same
      rw [keyUnique inside listed same]
      simp [isWaiting,keyed,waits]
  constructor
  · rw [filterKeyed listed each]
    rfl
  · unfold releaseWaiting release ControlCenterDb.updateTask
    have rows : db.tasks.update (isWaiting taskId) (released m status latestUpdate)
        (fun _ => rfl) = db.tasks.update (fun r => r.id == taskId) (released m status latestUpdate)
        fun _ => rfl := by
      refine updateCongr (fun _ => by rfl) fun r inside => ?_
      rw [Bool.eq_iff_iff,each r inside,beq_iff_eq,← keyed]
      exact Iff.rfl
    rw [rows]

theorem decidedRead {db : ControlCenterDb} {review : ReviewRow}
    (admitted : Admitted taskId expected db review) (status : ReviewStatus)
    (note : Option String) : (DbReviews.decideReview m review status note db).reviews.get review.id =
      some (decided m status note review) := by
  obtain ⟨listed,_⟩ := addressedOwn admitted.addressed
  have held : db.reviews.get review.id = some review := getMem listed
  have read : (DbReviews.decideReview m review status note db).reviews.get review.id =
      (db.reviews.get review.id).map fun r => if r.id == review.id then decided m status note r
        else r := @getUpdate _ _ _ _ _ _ _ (decided m status note) fun _ => rfl
  rw [read,held]
  simp

theorem approveRuns (note : Option String) : Runs fault (do
    let review ← selectReview fault taskId expected
    updateReview fault m taskId review expected .approved (cleaned note)
    updateTask fault m taskId .done ((cleaned note).getD "Approved by human reviewer.")
    selectDecided fault review) (DbReviews.approveTaskReview m taskId note expected) := by
  refine (runsBind runsSelectReview fun _ => runsBind runsUpdateReview fun _ =>
    runsBind runsUpdateTask fun _ => runsSelectDecided).same fun db => ?_
  unfold DbReviews.approveTaskReview
  cases checked : reviewToDecide taskId expected db with
  | error e => rfl
  | ok review =>
    have admitted := reviewAdmitted.mp checked
    obtain ⟨one,decides⟩ := pendingOne (m := m) admitted .approved (cleaned note)
    obtain ⟨task,held,waits⟩ := admitted.waits
    have held : (DbReviews.decideReview m review .approved (cleaned note) db).tasks.get taskId =
        some task := held
    obtain ⟨alone,releases⟩ := waitingOne (m := m) held waits .done
      ((cleaned note).getD "Approved by human reviewer.")
    have read := decidedRead (m := m) admitted .approved (cleaned note)
    simp only [bind,Except.bind,Except.map,one,decides,if_true,alone,releases]
    show (found _ ((DbReviews.decideReview m review .approved (cleaned note) db).reviews.get
      review.id)).map _ = _
    rw [read]
    rfl

theorem reworkRuns (note : String) : Runs fault (do
    let review ← selectReview fault taskId expected
    updateReview fault m taskId review expected .reworkRequested (some (trim note))
    statement fault fun db => (db.insertMessage ⟨"message_" ++ m.uuid,taskId,review.runId,
      "system","reviewer",trim note,"queued",m.now⟩).map fun next => ((),next)
    let _ ← update fault (fun db => (db.routeSteps.rows.filter fun s => s.taskId == taskId).length)
      (resetSteps m fun s => s.taskId == taskId)
    updateTask fault m taskId .queued (trim note)
    selectDecided fault review) fun db => (do
      let review ← reviewToDecide taskId expected db
      let noted ← (DbReviews.decideReview m review .reworkRequested (some (trim note)) db).insertMessage
        ⟨"message_" ++ m.uuid,taskId,review.runId,"system","reviewer",trim note,"queued",m.now⟩
      let next := release m taskId .queued (trim note)
        (resetSteps m (fun s => s.taskId == taskId) noted)
      .ok (decided m .reworkRequested (some (trim note)) review,next)) := by
  refine (runsBind runsSelectReview fun _ => runsBind runsUpdateReview fun _ =>
    runsBind (runsStatement _) fun _ => runsBind (runsUpdate _ _) fun _ =>
    runsBind runsUpdateTask fun _ => runsSelectDecided).same fun db => ?_
  cases checked : reviewToDecide taskId expected db with
  | error e => rfl
  | ok review =>
    have admitted := reviewAdmitted.mp checked
    obtain ⟨one,decides⟩ := pendingOne (m := m) admitted .reworkRequested (some (trim note))
    obtain ⟨task,held,waits⟩ := admitted.waits
    have read := decidedRead (m := m) admitted .reworkRequested (some (trim note))
    simp only [bind,Except.bind,Except.map,one,decides,if_true]
    cases noting : (DbReviews.decideReview m review .reworkRequested (some (trim note))
        db).insertMessage ⟨"message_" ++ m.uuid,taskId,review.runId,"system","reviewer",trim note,
          "queued",m.now⟩ with
    | error e => rfl
    | ok noted =>
      have tasks := messageTasks noting
      have held : (resetSteps m (fun s => s.taskId == taskId) noted).tasks.get taskId =
          some task := by
        show noted.tasks.get taskId = some task
        rw [tasks]
        exact held
      obtain ⟨alone,releases⟩ := waitingOne (m := m) held waits .queued (trim note)
      simp only [alone,if_true,releases]
      have reviews := messageReviews noting
      show (found _ (noted.reviews.get review.id)).map _ = _
      rw [reviews,read]
      rfl

end

structure ReviewsMove (db next : ControlCenterDb) : Prop where
  known : ∀ id r, db.reviews.get id = some r → ∃ r', next.reviews.get id = some r' ∧
    r'.taskId = r.taskId ∧ (r.status ≠ .pending → r' = r)
  named : ∀ r' ∈ next.reviews, (∃ r ∈ db.reviews, r.runId = r'.runId) ∨
    db.hasRun r'.runId = true

section
variable {m : Moment} {db next : ControlCenterDb}

theorem reviewsSame (same : next.reviews = db.reviews) : ReviewsMove db next where
  known id r held := ⟨r,by rw [same,held],rfl,fun _ => rfl⟩
  named r' listed := .inl ⟨r',by rwa [← same],rfl⟩

theorem ReviewsMove.through {other : ControlCenterDb} (moves : ReviewsMove db next)
    (same : other.reviews = next.reviews) : ReviewsMove db other where
  known id r held := by rw [same]; exact moves.known id r held
  named r' listed := moves.named r' (same ▸ listed)

theorem decideMoves {review : ReviewRow} (listed : review ∈ db.reviews)
    (pending : review.status = .pending) (status : ReviewStatus) (note : Option String) :
    ReviewsMove db (DbReviews.decideReview m review status note db) where
  known id r held := by
    refine ⟨if r.id == review.id then decided m status note r else r,?_,?_,fun final => ?_⟩
    · have read : (DbReviews.decideReview m review status note db).reviews.get id =
          (db.reviews.get id).map fun r => if r.id == review.id then decided m status note r
            else r := @getUpdate _ _ _ _ _ _ _ (decided m status note) fun _ => rfl
      rw [read,held]
      rfl
    · split <;> rfl
    · refine if_neg fun same => final ?_
      have equal : r = review := keyUnique (getSome.mp held).1 listed (beq_iff_eq.mp same)
      rw [equal,pending]
  named r' inside := by
    obtain ⟨r,old,same⟩ := List.mem_map.mp inside
    refine .inl ⟨r,old,?_⟩
    rw [← same]
    split <;> rfl

theorem insertMoves {review : ReviewRow} {reviews : Rows ReviewRow}
    (inserted : db.reviews.insert review = some reviews) (same : next.reviews = reviews)
    (refers : db.hasRun review.runId = true) : ReviewsMove db next where
  known id r held := by
    obtain ⟨listed,keyed⟩ := getSome.mp held
    have other := (insertSome inserted).1 r listed
    refine ⟨r,?_,rfl,fun _ => rfl⟩
    rw [same,getInsert inserted,if_neg fun equal => other (keyed.trans equal.symm),held]
  named r' listed := by
    rw [same] at listed
    rcases ((insertSome inserted).2 r').mp listed with old | rfl
    · exact .inl ⟨r',old,rfl⟩
    · exact .inr refers

theorem eventReviews {taskId : String} {runId : Option String} {type : String}
    {level : EventLevel} {message : String} {data : Option Json} {createdAt : Int}
    (h : db.insertEvent taskId runId type level message data createdAt = .ok next) :
    next.reviews = db.reviews := by
  obtain ⟨_,_,last⟩ := exceptBind h
  cases Except.ok.inj last
  rfl

theorem referred {task run : Bool} (h : references (task && run) = .ok ()) : run = true := by
  unfold references at h
  split at h
  next both => exact (Bool.and_eq_true_iff.mp both).2
  next => contradiction

theorem approveSource {taskId : String} {note : Option String} {expected : Option Expected}
    (h : DbReviews.approveTaskReview m taskId note expected db = .ok (row,next)) :
    ∃ review, Admitted taskId expected db review ∧
      row = decided m .approved (cleaned note) review ∧
      next = release m taskId .done ((cleaned note).getD "Approved by human reviewer.")
        (DbReviews.decideReview m review .approved (cleaned note) db) := by
  obtain ⟨review,checked,h⟩ := exceptBind h
  obtain ⟨same,equal⟩ := Prod.mk.inj (Except.ok.inj h)
  exact ⟨review,reviewAdmitted.mp checked,same.symm,equal.symm⟩

theorem reworkSource {taskId note : String} {expected : Option Expected}
    (h : DbReviews.requestTaskRework m taskId note expected db = .ok (row,next)) :
    ∃ review noted, trim note ≠ "" ∧ Admitted taskId expected db review ∧
      row = decided m .reworkRequested (some (trim note)) review ∧
      (DbReviews.decideReview m review .reworkRequested (some (trim note)) db).insertMessage
        ⟨"message_" ++ m.uuid,taskId,review.runId,"system","reviewer",trim note,"queued",m.now⟩ =
        .ok noted ∧
      next = release m taskId .queued (trim note)
        (resetSteps m (fun s => s.taskId == taskId) noted) := by
  unfold DbReviews.requestTaskRework at h
  dsimp only at h
  split at h
  · contradiction
  next filled =>
    obtain ⟨review,checked,h⟩ := exceptBind h
    obtain ⟨noted,noting,h⟩ := exceptBind h
    obtain ⟨same,equal⟩ := Prod.mk.inj (Except.ok.inj h)
    exact ⟨review,noted,filled,reviewAdmitted.mp checked,same.symm,noting,equal.symm⟩

theorem approveMoves {target : String} {note : Option String} {expected : Option Expected}
    {row : ReviewRow}
    (h : DbReviews.approveTaskReview m target note expected db = .ok (row,next)) :
    ReviewsMove db next := by
  obtain ⟨review,admitted,_,rfl⟩ := approveSource h
  exact (decideMoves (addressedOwn admitted.addressed).1 admitted.pending _ _).through rfl

theorem reworkMoves {target note : String} {expected : Option Expected} {row : ReviewRow}
    (h : DbReviews.requestTaskRework m target note expected db = .ok (row,next)) :
    ReviewsMove db next := by
  obtain ⟨review,noted,_,admitted,_,noting,rfl⟩ := reworkSource h
  have same := messageReviews noting
  exact (decideMoves (addressedOwn admitted.addressed).1 admitted.pending _ _).through same

structure Adds (m : Moment) (input : ArtifactInput) (db : ControlCenterDb) : Prop where
  digest : sha256Text input.artifact.sha256 = true
  size : (ZodSchema.safeInteger input.artifact.sizeBytes &&
    decide (0 ≤ input.artifact.sizeBytes)) = true
  metadata : (artifactError input.metadata).isOk = true
  unrecorded : recordedArtifact input.artifact db = none
  refers : (db.hasTask input.artifact.taskId && db.hasRun (some input.artifact.runId)) = true
  fresh : db.artifacts.get ("artifact_" ++ m.uuid) = none

inductive EvidenceMoves (m : Moment) (db next : ControlCenterDb) : DbCall → Prop
  | same {call : DbCall} (artifacts : next.artifacts = db.artifacts)
      (reviews : next.reviews = db.reviews) : EvidenceMoves m db next call
  | added {input : ArtifactInput} {row : ArtifactRow} (adds : Adds m input db)
      (own : row.taskId = input.artifact.taskId)
      (rows : next.artifacts.rows = db.artifacts.rows ++ [row])
      (reviews : next.reviews = db.reviews) : EvidenceMoves m db next (.addArtifact input)
  | opened {call : DbCall} {review : ReviewRow} (artifacts : next.artifacts = db.artifacts)
      (inserted : db.reviews.insert review = some next.reviews)
      (refers : db.hasRun review.runId = true) : EvidenceMoves m db next call
  | decided {call : DbCall} {review : ReviewRow} {status : ReviewStatus} {note : Option String}
      (artifacts : next.artifacts = db.artifacts) (listed : review ∈ db.reviews)
      (pending : review.status = .pending) (final : status ≠ .pending)
      (reviews : next.reviews = (DbReviews.decideReview m review status note db).reviews) :
      EvidenceMoves m db next call

theorem eventArtifacts {taskId : String} {runId : Option String} {type : String}
    {level : EventLevel} {message : String} {data : Option Json} {createdAt : Int}
    (h : db.insertEvent taskId runId type level message data createdAt = .ok next) :
    next.artifacts = db.artifacts := by
  obtain ⟨_,_,last⟩ := exceptBind h
  cases Except.ok.inj last
  rfl

theorem messageArtifacts {message : MessageRow} (h : db.insertMessage message = .ok next) :
    next.artifacts = db.artifacts := by
  obtain ⟨_,_,h⟩ := exceptBind h
  obtain ⟨_,_,last⟩ := exceptBind h
  cases Except.ok.inj last
  rfl

theorem recoveryEvidence {call : DbCall} {cause : RecoveryCause} {recoveredBy : String}
    {result : StaleRecoveryResult}
    (h : Db.recoverRunningTasks m cause recoveredBy db = .ok (result,next)) :
    EvidenceMoves m db next call := by
  unfold Db.recoverRunningTasks at h
  dsimp only at h
  split at h
  · contradiction
  · obtain ⟨artifacts,_,reviews⟩ := (recoverTasksCloses h).evidence
    exact .same artifacts reviews

theorem artifactEvidence {input : ArtifactInput} {row : ArtifactRow}
    (h : DbReviews.addArtifact m input db = .ok (row,next)) :
    EvidenceMoves m db next (.addArtifact input) := by
  unfold DbReviews.addArtifact at h
  split at h
  · contradiction
  next digest =>
    split at h
    · contradiction
    next size =>
      obtain ⟨metadata,serialized,h⟩ := exceptBind h
      split at h
      · split at h
        · obtain ⟨_,rfl⟩ := Prod.mk.inj (Except.ok.inj h)
          exact .same rfl rfl
        · contradiction
      next unrecorded =>
        obtain ⟨_,refers,h⟩ := exceptBind h
        obtain ⟨artifacts,inserting,h⟩ := exceptBind h
        obtain ⟨rfl,rfl⟩ := Prod.mk.inj (Except.ok.inj h)
        have inserted := uniqueSource inserting
        refine .added ⟨?_,?_,?_,unrecorded,?_,?_⟩ rfl (insertRows inserted) rfl
        · simpa using digest
        · simpa using size
        · rw [serialized]
          rfl
        · unfold references at refers
          split at refers
          · assumption
          · contradiction
        · exact getNone.mpr (insertSome inserted).1

theorem decisionEvidence (call : DecisionCall) {other : DbCall} {row : ReviewRow}
    (h : call.perform m db = .ok (row,next)) : EvidenceMoves m db next other := by
  cases call with
  | approveTaskReview taskId note expected =>
    obtain ⟨review,admitted,_,rfl⟩ := approveSource h
    exact .decided rfl (addressedOwn admitted.addressed).1 admitted.pending (by decide) rfl
  | requestTaskRework taskId note expected =>
    obtain ⟨review,noted,_,admitted,_,noting,rfl⟩ := reworkSource h
    have artifacts := messageArtifacts noting
    have reviews := messageReviews noting
    exact .decided artifacts (addressedOwn admitted.addressed).1 admitted.pending (by decide) reviews

theorem createEvidence {call : DbCall} {input : TaskPayload} {plan : RoutePlan} {id : String}
    (h : Db.createTask m input plan db = .ok (id,next)) : EvidenceMoves m db next call := by
  obtain ⟨_,_,h⟩ := exceptBind h
  obtain ⟨_,_,h⟩ := exceptBind h
  obtain ⟨_,_,h⟩ := exceptBind h
  obtain ⟨_,_,h⟩ := exceptBind h
  obtain ⟨last,logged,h⟩ := exceptBind h
  obtain ⟨rfl,rfl⟩ := Prod.mk.inj (Except.ok.inj h)
  have artifacts := eventArtifacts logged
  have reviews := eventReviews logged
  exact .same artifacts reviews

theorem claimEvidence {call : DbCall} {workerId : String} {claimed : Option String}
    (h : Db.claimNextTask m workerId db = .ok (claimed,next)) : EvidenceMoves m db next call := by
  unfold Db.claimNextTask at h
  split at h
  · obtain ⟨_,rfl⟩ := Prod.mk.inj (Except.ok.inj h)
    exact .same rfl rfl
  · obtain ⟨last,logged,h⟩ := exceptBind h
    obtain ⟨_,rfl⟩ := Prod.mk.inj (Except.ok.inj h)
    have artifacts := eventArtifacts logged
    have reviews := eventReviews logged
    exact .same artifacts reviews

theorem heartbeatEvidence {call : DbCall} {taskId workerId : String} {at_ : Int}
    (h : Db.heartbeatTask m taskId workerId db = .ok (at_,next)) : EvidenceMoves m db next call := by
  unfold Db.heartbeatTask at h
  dsimp only at h
  split at h
  · contradiction
  split at h
  · obtain ⟨_,rfl⟩ := Prod.mk.inj (Except.ok.inj h)
    exact .same rfl rfl
  · contradiction

theorem finalizeEvidence {call : DbCall} {taskId latestUpdate : String}
    {runId : Option String} {status : FinalStatus}
    (h : DbReviews.finalizeTaskExecution m taskId status latestUpdate runId db = .ok next) :
    EvidenceMoves m db next call := by
  obtain ⟨task,_,h⟩ := exceptBind h
  dsimp only at h
  split at h
  · contradiction
  cases status with
  | done =>
    cases Except.ok.inj h
    exact .same rfl rfl
  | needsReview =>
    obtain ⟨reviewed,opening,last⟩ := exceptBind h
    cases Except.ok.inj last
    obtain ⟨_,refers,opening⟩ := exceptBind opening
    obtain ⟨reviews,inserting,opened⟩ := exceptBind opening
    cases Except.ok.inj opened
    exact .opened rfl (uniqueSource inserting) (referred refers)

theorem retryEvidence {call : DbCall} {taskId : String} {note : Option String} {allow : Bool}
    {body : String} (h : DbReviews.retryBlockedTask m taskId note allow db = .ok (body,next)) :
    EvidenceMoves m db next call := by
  obtain ⟨_,_,h⟩ := exceptBind h
  split at h
  · contradiction
  split at h
  · contradiction
  obtain ⟨noted,noting,h⟩ := exceptBind h
  obtain ⟨_,rfl⟩ := Prod.mk.inj (Except.ok.inj h)
  have artifacts := messageArtifacts noting
  have reviews := messageReviews noting
  exact .same artifacts reviews

theorem callEvidence {call : DbCall} (h : call.perform m db = .ok next) :
    EvidenceMoves m db next call := by
  cases call with
  | createTask input plan => exact createEvidence (secondSource h).choose_spec
  | claimNextTask workerId => exact claimEvidence (secondSource h).choose_spec
  | heartbeatTask target workerId => exact heartbeatEvidence (secondSource h).choose_spec
  | recoverStaleTasks cutoffMs recoveredBy =>
    obtain ⟨result,h⟩ := secondSource h
    cases cutoffMs with
    | none => contradiction
    | some cutoff => exact recoveryEvidence h
  | recoverTasksOwnedBy claimedBy recoveredBy =>
    obtain ⟨result,h⟩ := secondSource h
    unfold Db.recoverTasksOwnedBy at h
    dsimp only at h
    split at h
    · contradiction
    · exact recoveryEvidence h
  | updateTaskStatus target status latestUpdate =>
    obtain ⟨_,_,h⟩ := exceptBind h
    obtain ⟨_,_,last⟩ := exceptBind h
    cases Except.ok.inj last
    exact .same rfl rfl
  | updateRouteStep stepId patch =>
    obtain ⟨_,_,last⟩ := exceptBind h
    cases Except.ok.inj last
    exact .same rfl rfl
  | createRun | updateRun =>
    obtain ⟨run,h⟩ := secondSource h
    obtain ⟨_,_,h⟩ := exceptBind h
    obtain ⟨_,_,h⟩ := exceptBind h
    obtain ⟨_,rfl⟩ := Prod.mk.inj (Except.ok.inj h)
    exact .same rfl rfl
  | appendEvent input => exact .same (eventArtifacts h) (eventReviews h)
  | addArtifact input => exact artifactEvidence (secondSource h).choose_spec
  | finalizeTaskExecution target status latestUpdate runId => exact finalizeEvidence h
  | approveTaskReview target note expected =>
    exact decisionEvidence (.approveTaskReview target note expected) (secondSource h).choose_spec
  | requestTaskRework target note expected =>
    exact decisionEvidence (.requestTaskRework target note expected) (secondSource h).choose_spec
  | retryBlockedTask target note allow => exact retryEvidence (secondSource h).choose_spec

theorem EvidenceMoves.reviewsMove {call : DbCall} (moves : EvidenceMoves m db next call) :
    ReviewsMove db next := by
  cases moves with
  | same artifacts reviews => exact reviewsSame reviews
  | added adds own rows reviews => exact reviewsSame reviews
  | opened artifacts inserted refers => exact insertMoves inserted rfl refers
  | decided artifacts listed pending final reviews =>
    exact (decideMoves listed pending _ _).through reviews

theorem callReviews {call : DbCall} (h : call.perform m db = .ok next) : ReviewsMove db next :=
  (callEvidence h).reviewsMove

theorem asideReviews {call : AsideCall} (h : call.perform m db = .ok next) :
    ReviewsMove db next := by
  cases call with
  | resetRouteSteps taskId =>
    cases Except.ok.inj h
    exact reviewsSame rfl
  | addMessage taskId runId direction role body deliveryStatus =>
    have h : db.insertMessage _ = .ok next := h
    exact reviewsSame (messageReviews h)
  | updateMessageDelivery messageId deliveryStatus =>
    obtain ⟨_,_,last⟩ := exceptBind h
    cases Except.ok.inj last
    exact reviewsSame rfl
  | createReview taskId runId reviewer =>
    obtain ⟨_,refers,h⟩ := exceptBind h
    obtain ⟨reviews,inserting,last⟩ := exceptBind h
    cases Except.ok.inj last
    exact insertMoves (uniqueSource inserting) rfl (referred refers)
  | decideReview reviewId status note =>
    have h : StatusMachines.decideReview m db reviewId status note = .ok next := h
    unfold StatusMachines.decideReview at h
    split at h
    next review held =>
      split at h
      next pending =>
        cases Except.ok.inj h
        exact decideMoves (getSome.mp held).1 pending _ _
      next => contradiction
    next => contradiction

end

structure Attempt where
  fault : Nat → Option Fault
  moment : Moment
  call : DecisionCall
  working : Option ControlCenterDb
  issued : Nat

def Attempt.run (a : Attempt) (db : ControlCenterDb) :
    Except String ReviewRow × Handle ControlCenterDb :=
  a.call.script a.fault a.moment ⟨db,a.working,a.issued⟩

inductive Event where
  | decision (a : Attempt)
  | other (e : StatusMachines.Event)

structure History where
  store : Store
  decided : List String

def History.initial : History := ⟨.initial,[]⟩

def returned {α : Type} : Except String ReviewRow × α → List String
  | (.ok review,_) => [review.id]
  | (.error _,_) => []

def decides (db : ControlCenterDb) : StatusMachines.Event → List String
  | .turn ⟨m,.approveTaskReview taskId note expected⟩ =>
      match DbReviews.approveTaskReview m taskId note expected db with
      | .ok (review,_) => [review.id]
      | .error _ => []
  | .turn ⟨m,.requestTaskRework taskId note expected⟩ =>
      match DbReviews.requestTaskRework m taskId note expected db with
      | .ok (review,_) => [review.id]
      | .error _ => []
  | .aside m (.decideReview reviewId status note) =>
      match StatusMachines.decideReview m db reviewId status note with
      | .ok _ => [reviewId]
      | .error _ => []
  | _ => []

def step (h : History) : Event → History
  | .decision a => ⟨{h.store with db := (a.run h.store.db).2.committed},
      h.decided ++ returned (a.run h.store.db)⟩
  | .other e => ⟨StatusMachines.step h.store e,h.decided ++ decides h.store.db e⟩

def Decides (db next : ControlCenterDb) (id : String) : Prop :=
  (∃ r, db.reviews.get id = some r ∧ r.status = .pending) ∧
    ∃ r, next.reviews.get id = some r ∧ r.status ≠ .pending

section
variable {m : Moment} {db next : ControlCenterDb} {row : ReviewRow}

theorem secondPerformed {α : Type} {x : Outcome (α × ControlCenterDb)} {a : α}
    (performed : x = .ok (a,next)) : x.map Prod.snd = .ok next := by
  rw [performed]
  rfl

theorem decisionDecides {taskId : String} {expected : Option Expected} {review : ReviewRow}
    (admitted : Admitted taskId expected db review) {status : ReviewStatus}
    (final : status ≠ .pending) (note : Option String)
    (same : next.reviews = (DbReviews.decideReview m review status note db).reviews) :
    Decides db next review.id := by
  have listed := (addressedOwn admitted.addressed).1
  refine ⟨⟨review,getMem listed,admitted.pending⟩,decided m status note review,?_,final⟩
  rw [same]
  exact decidedRead admitted status note

theorem approveDecides {taskId : String} {note : Option String} {expected : Option Expected}
    (h : DbReviews.approveTaskReview m taskId note expected db = .ok (row,next)) :
    Decides db next row.id := by
  obtain ⟨review,admitted,rfl,rfl⟩ := approveSource h
  show Decides db _ review.id
  exact decisionDecides admitted (by decide) (cleaned note) rfl

theorem reworkDecides {taskId note : String} {expected : Option Expected}
    (h : DbReviews.requestTaskRework m taskId note expected db = .ok (row,next)) :
    Decides db next row.id := by
  obtain ⟨review,noted,_,admitted,rfl,noting,rfl⟩ := reworkSource h
  have same := messageReviews noting
  show Decides db _ review.id
  exact decisionDecides admitted (by decide) (some (trim note)) same

theorem verdictDecides {reviewId : String} {status : Verdict} {note : Option String}
    (h : StatusMachines.decideReview m db reviewId status note = .ok next) :
    Decides db next reviewId := by
  unfold StatusMachines.decideReview at h
  split at h
  next review held =>
    split at h
    next pending =>
      cases Except.ok.inj h
      have keyed : review.id = reviewId := (getSome.mp held).2
      have read : (DbReviews.decideReview m review status.status (cleaned note) db).reviews.get
          reviewId = (db.reviews.get reviewId).map fun r =>
            if r.id == review.id then decided m status.status (cleaned note) r else r :=
        @getUpdate _ _ _ _ _ _ _ (decided m status.status (cleaned note)) fun _ => rfl
      rw [held,Option.map_some,if_pos (beq_self_eq_true review.id)] at read
      refine ⟨⟨review,held,pending⟩,_,read,?_⟩
      cases status <;> nofun
    next => contradiction
  next => contradiction

theorem performDecides {call : DecisionCall} (h : call.perform m db = .ok (row,next)) :
    Decides db next row.id := by
  cases call with
  | approveTaskReview taskId note expected => exact approveDecides h
  | requestTaskRework taskId note expected => exact reworkDecides h

theorem performMoves {call : DecisionCall} (h : call.perform m db = .ok (row,next)) :
    ReviewsMove db next ∧ Follows db next := by
  cases call with
  | approveTaskReview taskId note expected => exact ⟨approveMoves h,approveFollows h⟩
  | requestTaskRework taskId note expected => exact ⟨reworkMoves h,reworkFollows h⟩

theorem performAdmitted {call : DecisionCall} (h : call.perform m db = .ok (row,next)) :
    call.noted ∧ ∃ review, Admitted call.taskId call.expected db review ∧ row.id = review.id := by
  cases call with
  | approveTaskReview taskId note expected =>
    obtain ⟨review,admitted,rfl,_⟩ := approveSource h
    exact ⟨trivial,review,admitted,rfl⟩
  | requestTaskRework taskId note expected =>
    obtain ⟨review,_,filled,admitted,rfl,_⟩ := reworkSource h
    exact ⟨filled,review,admitted,rfl⟩

theorem performReturns {call : DecisionCall} {review : ReviewRow} (noted : call.noted)
    (admitted : Admitted call.taskId call.expected db review)
    (refers : db.hasRun review.runId = true)
    (fresh : db.messages.get ("message_" ++ m.uuid) = none) :
    (call.perform m db).isOk = true := by
  have checked := reviewAdmitted.mpr admitted
  cases call with
  | approveTaskReview taskId note expected =>
    have checked : reviewToDecide taskId expected db = .ok review := checked
    show (DbReviews.approveTaskReview m taskId note expected db).isOk = true
    unfold DbReviews.approveTaskReview
    rw [checked]
    rfl
  | requestTaskRework taskId note expected =>
    have checked : reviewToDecide taskId expected db = .ok review := checked
    obtain ⟨task,held,_⟩ := admitted.waits
    have held : db.tasks.get taskId = some task := held
    have known : db.hasTask taskId = true := by
      unfold ControlCenterDb.hasTask
      rw [held]
      rfl
    let message : MessageRow := ⟨"message_" ++ m.uuid,taskId,review.runId,"system","reviewer",
      trim note,"queued",m.now⟩
    obtain ⟨messages,inserted⟩ := insertFresh message fresh
    let working := DbReviews.decideReview m review .reworkRequested (some (trim note)) db
    have noting : working.insertMessage message = .ok {working with messages} := by
      have known : working.hasTask message.taskId = true := known
      have refers : working.hasRun message.runId = true := refers
      have inserted : working.messages.insert message = some messages := inserted
      unfold ControlCenterDb.insertMessage
      rw [known,refers,inserted]
      rfl
    show (DbReviews.requestTaskRework m taskId note expected db).isOk = true
    unfold DbReviews.requestTaskRework
    dsimp only
    rw [if_neg noted,checked]
    show (working.insertMessage message >>= _).isOk = true
    rw [noting]
    rfl

theorem reworkTurn {taskId note : String} {expected : Option Expected}
    (filled : trim note ≠ "") (db : ControlCenterDb) :
    (do
      let review ← reviewToDecide taskId expected db
      let noted ← (DbReviews.decideReview m review .reworkRequested (some (trim note)) db).insertMessage
        ⟨"message_" ++ m.uuid,taskId,review.runId,"system","reviewer",trim note,"queued",m.now⟩
      let next := release m taskId .queued (trim note)
        (resetSteps m (fun s => s.taskId == taskId) noted)
      .ok (decided m .reworkRequested (some (trim note)) review,next)) =
      DbReviews.requestTaskRework m taskId note expected db := by
  unfold DbReviews.requestTaskRework
  exact (if_neg filled).symm

end

theorem attemptSettles (a : Attempt) (db : ControlCenterDb) :
    Settled (fun db => a.call.perform a.moment db) ⟨db,a.working,a.issued⟩ (a.run db) := by
  obtain ⟨fault,moment,call,working,issued⟩ := a
  cases call with
  | approveTaskReview taskId note expected =>
    exact transactionSettles (approveRuns note).performs _
  | requestTaskRework taskId note expected =>
    by_cases blank : trim note = ""
    · have ran : requestTaskRework fault moment taskId note expected ⟨db,working,issued⟩ =
          (.error "Rework note is required",⟨db,working,issued⟩) := by
        unfold requestTaskRework
        rw [if_pos blank]
        rfl
      refine ⟨fun row returned => ?_,fun e failed => ?_⟩
      · have returned : (requestTaskRework fault moment taskId note expected
            ⟨db,working,issued⟩).1 = .ok row := returned
        rw [ran] at returned
        cases returned
      · show (requestTaskRework fault moment taskId note expected
          ⟨db,working,issued⟩).2.committed = db
        rw [ran]
    · have runs : Runs fault _ (DbReviews.requestTaskRework moment taskId note expected) :=
        (reworkRuns note).same (reworkTurn blank)
      have settles := @transactionSettles _ _ fault _ _ runs.performs ⟨db,working,issued⟩
      have ran : requestTaskRework fault moment taskId note expected = _ := if_neg blank
      show Settled _ _ (requestTaskRework fault moment taskId note expected ⟨db,working,issued⟩)
      rw [ran]
      exact settles

structure Undisturbed (a : Attempt) (db : ControlCenterDb) : Prop where
  unfailing : ∀ n, a.fault n = none
  idle : a.working = none
  fresh : db.messages.get ("message_" ++ a.moment.uuid) = none

theorem attemptReturns {a : Attempt} {db next : ControlCenterDb} {row : ReviewRow}
    (undisturbed : Undisturbed a db) (performed : a.call.perform a.moment db = .ok (row,next)) :
    (a.run db).1 = .ok row := by
  obtain ⟨fault,moment,call,working,issued⟩ := a
  obtain ⟨unfailing,idle,_⟩ := undisturbed
  cases call with
  | approveTaskReview taskId note expected =>
    exact transactionCompletes unfailing ((approveRuns note).completes unfailing) idle performed
  | requestTaskRework taskId note expected =>
    obtain ⟨_,_,filled,_⟩ := reworkSource performed
    have runs : Runs fault _ (DbReviews.requestTaskRework moment taskId note expected) :=
      (reworkRuns note).same (reworkTurn filled)
    have completes := transactionCompletes unfailing (runs.completes unfailing)
      (h := ⟨db,working,issued⟩) idle performed
    have ran : requestTaskRework fault moment taskId note expected = _ := if_neg filled
    show (requestTaskRework fault moment taskId note expected ⟨db,working,issued⟩).1 = _
    rw [ran]
    exact completes

structure Reworked (m : Moment) (taskId note : String) (db next : ControlCenterDb)
    (row : ReviewRow) : Prop where
  review : next.reviews.get row.id = some row ∧ row.status = .reworkRequested ∧ row.note = some note
  task : ∃ task, next.tasks.get taskId = some task ∧ task.status = .queued ∧
    task.claimedBy = none ∧ task.latestUpdate = note
  steps : ∀ id step, db.routeSteps.get id = some step → step.taskId = taskId →
    ∃ step', next.routeSteps.get id = some step' ∧ step'.status = .pending ∧ step'.runId = none
  message : next.messages.rows = db.messages.rows ++
    [⟨"message_" ++ m.uuid,taskId,row.runId,"system","reviewer",note,"queued",m.now⟩]

structure Approved (taskId : String) (note : Option String) (next : ControlCenterDb)
    (row : ReviewRow) : Prop where
  review : next.reviews.get row.id = some row ∧ row.status = .approved ∧ row.note = note
  task : ∃ task, next.tasks.get taskId = some task ∧ task.status = .done ∧
    task.claimedBy = none ∧ task.latestUpdate = note.getD "Approved by human reviewer."

def DecisionCall.Done (m : Moment) (db next : ControlCenterDb) (row : ReviewRow) :
    DecisionCall → Prop
  | .approveTaskReview taskId note _ => Approved taskId (cleaned note) next row
  | .requestTaskRework taskId note _ => Reworked m taskId (trim note) db next row

section
variable {m : Moment} {db next : ControlCenterDb} {row : ReviewRow}

theorem releasedRead {taskId latestUpdate : String} {status : TaskStatus} {task : TaskRow}
    (held : db.tasks.get taskId = some task) :
    (release m taskId status latestUpdate db).tasks.get taskId =
      some (released m status latestUpdate task) := by
  have read : (release m taskId status latestUpdate db).tasks.get taskId =
      (db.tasks.get taskId).map fun r => if r.id == taskId then released m status latestUpdate r
        else r := @getUpdate _ _ _ _ _ _ _ (released m status latestUpdate) fun _ => rfl
  have keyed : task.id = taskId := (getSome.mp held).2
  rw [read,held]
  simp [keyed]

theorem approveDone {taskId : String} {note : Option String} {expected : Option Expected}
    (h : DbReviews.approveTaskReview m taskId note expected db = .ok (row,next)) :
    Approved taskId (cleaned note) next row := by
  obtain ⟨review,admitted,rfl,rfl⟩ := approveSource h
  obtain ⟨task,held,_⟩ := admitted.waits
  exact ⟨⟨decidedRead admitted .approved (cleaned note),rfl,rfl⟩,_,releasedRead held,rfl,rfl,rfl⟩

theorem reworkDone {taskId note : String} {expected : Option Expected}
    (h : DbReviews.requestTaskRework m taskId note expected db = .ok (row,next)) :
    Reworked m taskId (trim note) db next row := by
  obtain ⟨review,noted,_,admitted,rfl,noting,rfl⟩ := reworkSource h
  obtain ⟨task,held,_⟩ := admitted.waits
  obtain ⟨_,_,noting⟩ := exceptBind noting
  obtain ⟨messages,inserting,last⟩ := exceptBind noting
  cases Except.ok.inj last
  refine ⟨⟨decidedRead admitted .reworkRequested (some (trim note)),rfl,rfl⟩,
    ⟨_,releasedRead held,rfl,rfl,rfl⟩,fun id step held own => ?_,
    insertRows (uniqueSource inserting)⟩
  let reset : RouteStepRow → RouteStepRow := fun s =>
    {s with status := .pending,runId := none,updatedAt := m.now}
  have read : (db.routeSteps.update (fun s => s.taskId == taskId) reset fun _ => rfl).get id =
      (db.routeSteps.get id).map fun s => if s.taskId == taskId then reset s else s :=
    @getUpdate _ _ _ _ _ _ _ reset fun _ => rfl
  rw [held] at read
  exact ⟨reset step,read.trans (congrArg some (if_pos (beq_iff_eq.mpr own))),rfl,rfl⟩

theorem performDone {call : DecisionCall} (h : call.perform m db = .ok (row,next)) :
    call.Done m db next row := by
  cases call with
  | approveTaskReview taskId note expected => exact approveDone h
  | requestTaskRework taskId note expected => exact reworkDone h

end

structure Settles (h : History) : Prop where
  checked : Checked h.store
  refers : ∀ r ∈ h.store.db.reviews, h.store.db.hasRun r.runId = true
  final : ∀ id ∈ h.decided, ∃ r, h.store.db.reviews.get id = some r ∧ r.status ≠ .pending
  once : h.decided.Nodup

theorem runHeld {db next : ControlCenterDb} (follows : Follows db next) {runId : Option String}
    (held : db.hasRun runId = true) : next.hasRun runId = true := by
  cases runId with
  | none => rfl
  | some id =>
    obtain ⟨r,found⟩ := Option.isSome_iff_exists.mp held
    obtain ⟨r',found',_⟩ := follows.runs id r found
    exact Option.isSome_iff_exists.mpr ⟨r',found'⟩

theorem settlesNext {h : History} (settles : Settles h) {next : Store} (checked : Checked next)
    (moves : ReviewsMove h.store.db next.db) (follows : Follows h.store.db next.db)
    {new : List String} (single : new.length ≤ 1)
    (decides : ∀ id ∈ new, Decides h.store.db next.db id) :
    Settles ⟨next,h.decided ++ new⟩ where
  checked := checked
  refers r listed := by
    rcases moves.named r listed with ⟨old,inside,same⟩ | held
    · rw [← same]
      exact runHeld follows (settles.refers old inside)
    · exact runHeld follows held
  final id listed := by
    rcases List.mem_append.mp listed with old | fresh
    · obtain ⟨r,held,final⟩ := settles.final id old
      obtain ⟨r',held',_,same⟩ := moves.known id r held
      exact ⟨r',held',by rwa [same final]⟩
    · exact (decides id fresh).2
  once := by
    refine List.nodup_append.mpr ⟨settles.once,?_,fun a old b fresh same => ?_⟩
    · match new,single with
      | [],_ => exact List.nodup_nil
      | [id],_ => exact List.nodup_singleton id
    · subst same
      obtain ⟨r,held,final⟩ := settles.final a old
      obtain ⟨⟨r',held',pending⟩,_⟩ := decides a fresh
      cases held.symm.trans held'
      exact final pending

theorem storeReviews (s : Store) (e : StatusMachines.Event) :
    ReviewsMove s.db (StatusMachines.step s e).db := by
  cases e with
  | turn t =>
    show ReviewsMove s.db (DbRuns.turn s.db t)
    unfold DbRuns.turn
    split
    next next performed => exact callReviews performed
    next => exact reviewsSame rfl
  | aside m call =>
    simp only [StatusMachines.step]
    split
    next performed => exact asideReviews performed
    next => exact reviewsSame rfl
  | selectRun runId patch =>
    simp only [StatusMachines.step]
    split
    · split <;> exact reviewsSame rfl
    · exact reviewsSame rfl
  | updateRun i m =>
    simp only [StatusMachines.step]
    split <;> exact reviewsSame rfl
  | selectTask taskId status latestUpdate =>
    simp only [StatusMachines.step]
    split
    · split <;> exact reviewsSame rfl
    · exact reviewsSame rfl
  | updateTask i m =>
    simp only [StatusMachines.step]
    split <;> exact reviewsSame rfl

theorem otherDecides (s : Store) (e : StatusMachines.Event) :
    (decides s.db e).length ≤ 1 ∧
      ∀ id ∈ decides s.db e, Decides s.db (StatusMachines.step s e).db id := by
  have none_ : ([] : List String).length ≤ 1 ∧
      ∀ id ∈ ([] : List String), Decides s.db (StatusMachines.step s e).db id :=
    ⟨Nat.zero_le 1,fun _ listed => absurd listed List.not_mem_nil⟩
  have one (id : String) (decided : Decides s.db (StatusMachines.step s e).db id) :
      [id].length ≤ 1 ∧ ∀ id' ∈ [id], Decides s.db (StatusMachines.step s e).db id' :=
    ⟨Nat.le_refl 1,fun id' listed => by rwa [List.mem_singleton.mp listed]⟩
  cases e with
  | turn t =>
    obtain ⟨m,call⟩ := t
    cases call with
    | approveTaskReview taskId note expected =>
      simp only [decides]
      split
      next row next performed =>
        refine one row.id ?_
        have turned : DbRuns.turn s.db ⟨m,.approveTaskReview taskId note expected⟩ = next :=
          turnPerformed (secondPerformed performed)
        show Decides s.db (DbRuns.turn s.db ⟨m,.approveTaskReview taskId note expected⟩) row.id
        rw [turned]
        exact approveDecides performed
      next => exact none_
    | requestTaskRework taskId note expected =>
      simp only [decides]
      split
      next row next performed =>
        refine one row.id ?_
        have turned : DbRuns.turn s.db ⟨m,.requestTaskRework taskId note expected⟩ = next :=
          turnPerformed (secondPerformed performed)
        show Decides s.db (DbRuns.turn s.db ⟨m,.requestTaskRework taskId note expected⟩) row.id
        rw [turned]
        exact reworkDecides performed
      next => exact none_
    | _ => exact none_
  | aside m call =>
    cases call with
    | decideReview reviewId status note =>
      simp only [decides]
      split
      next next performed =>
        refine one reviewId ?_
        have stepped : StatusMachines.step s (.aside m (.decideReview reviewId status note)) =
            {s with db := next} := by
          simp only [StatusMachines.step,AsideCall.perform,performed]
        rw [stepped]
        exact verdictDecides performed
      next => exact none_
    | _ => exact none_
  | _ => exact none_

theorem settlesStep (h : History) (e : Event) (settles : Settles h) : Settles (step h e) := by
  cases e with
  | decision a =>
    obtain ⟨ok,error⟩ := attemptSettles a h.store.db
    have checked : Checked {h.store with db := (a.run h.store.db).2.committed} :=
      ⟨settles.checked.runs,settles.checked.tasks⟩
    simp only [step]
    cases answered : (a.run h.store.db).1 with
    | ok row =>
      obtain ⟨_,performed,_⟩ := ok row answered
      obtain ⟨moves,follows⟩ := performMoves performed
      have new : returned (a.run h.store.db) = [row.id] := by
        unfold returned
        split <;> simp_all
      rw [new]
      refine settlesNext settles checked moves follows (Nat.le_refl 1) fun id listed => ?_
      rw [List.mem_singleton.mp listed]
      exact performDecides performed
    | error e =>
      have same := error e answered
      have new : returned (a.run h.store.db) = [] := by
        unfold returned
        split <;> simp_all
      rw [new]
      refine settlesNext settles checked (reviewsSame ?_) ?_ (Nat.zero_le 1)
        fun id listed => absurd listed List.not_mem_nil
      · exact congrArg ControlCenterDb.reviews same
      · exact followsSame (congrArg ControlCenterDb.runs same)
          (congrArg ControlCenterDb.tasks same)
  | other e =>
    obtain ⟨single,decided⟩ := otherDecides h.store e
    exact settlesNext settles (checkedStep h.store e settles.checked) (storeReviews h.store e)
      (stepFollows h.store e settles.checked) single decided

theorem settlesReached (front : List Event) : Settles (reach step .initial front) :=
  reachKept step settlesStep ⟨⟨fun _ listed => absurd listed List.not_mem_nil,
    fun _ listed => absurd listed List.not_mem_nil⟩,fun _ listed => absurd listed memEmpty,
    fun _ listed => absurd listed List.not_mem_nil,List.nodup_nil⟩ front

/-- After any run of decisions and other calls, a decision that succeeds does so for a task
in review and its own pending review as the caller saw it, and does everything the
decision is; one that fails changes nothing; one that nothing disturbs succeeds whenever
it is admitted; and no review has been decided twice. -/
theorem reviewDecisions (front : List Event) :
    (reach step .initial front).decided.Nodup ∧
    ∀ a : Attempt, let db := (reach step .initial front).store.db
      (∀ row, (a.run db).1 = .ok row → a.call.noted ∧
        (∃ review, Admitted a.call.taskId a.call.expected db review ∧ row.id = review.id) ∧
        a.call.Done a.moment db (a.run db).2.committed row) ∧
      (∀ e, (a.run db).1 = .error e → (a.run db).2.committed = db) ∧
      (Undisturbed a db → ((∃ row, (a.run db).1 = .ok row) ↔
        a.call.noted ∧ ∃ review, Admitted a.call.taskId a.call.expected db review)) := by
  have settles := settlesReached front
  refine ⟨settles.once,fun a => ?_⟩
  have refers := settles.refers
  generalize (reach step .initial front).store.db = db at *
  obtain ⟨ok,error⟩ := attemptSettles a db
  have succeeded (row : ReviewRow) (answered : (a.run db).1 = .ok row) := (ok row answered).2.1
  refine ⟨fun row answered => ?_,error,fun undisturbed => ⟨?_,?_⟩⟩
  · obtain ⟨noted,admitted⟩ := performAdmitted (succeeded row answered)
    exact ⟨noted,admitted,performDone (succeeded row answered)⟩
  · rintro ⟨row,answered⟩
    obtain ⟨noted,review,admitted,_⟩ := performAdmitted (succeeded row answered)
    exact ⟨noted,review,admitted⟩
  · rintro ⟨noted,review,admitted⟩
    have returns := performReturns noted admitted
      (refers review (addressedOwn admitted.addressed).1) undisturbed.fresh
    cases performed : a.call.perform a.moment db with
    | error e =>
      rw [performed] at returns
      exact absurd returns Bool.false_ne_true
    | ok out => exact ⟨out.1,attemptReturns undisturbed performed⟩

end ControlCenter.ReviewDecisions
