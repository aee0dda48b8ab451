import ControlCenter.OwnerFencing

/-! What the control database is at any moment of any run: every reference is to a row that is
there, events count up from one, and so do the attempts at a step; and how it grows: no row
goes, and what identifies a row never changes. -/
namespace ControlCenter.StoreHistory
open AccpEnvelope Protocol Table Db DbReviews DbRuns Ports ControlCenter.System
open Interference CallSources

def taskColumns (r : TaskRow) : TaskRow := {r with
  status := .queued
  latestUpdate := ""
  claimedBy := none
  claimedAt := none
  updatedAt := 0}

def stepColumns (s : RouteStepRow) : RouteStepRow := {s with
  status := .pending
  runId := none
  updatedAt := 0}

def runColumns (r : RunRow) : RunRow := {r with
  adapterRunId := none
  status := .queued
  pid := none
  worktreePath := none
  branch := none
  baseCommit := none
  stdoutPath := none
  stderrPath := none
  resultPath := none
  exitCode := none
  signal := none
  summary := none
  error := none
  usageJson := none
  startedAt := none
  finishedAt := none
  updatedAt := 0}

def reviewColumns (r : ReviewRow) : ReviewRow := {r with
  status := .pending
  note := none
  updatedAt := 0}

structure Extends (db next : ControlCenterDb) : Prop where
  tasks : db.tasks.rows.map taskColumns <+: next.tasks.rows.map taskColumns
  routeSteps : db.routeSteps.rows.map stepColumns <+: next.routeSteps.rows.map stepColumns
  runs : db.runs.rows.map runColumns <+: next.runs.rows.map runColumns
  events : db.events <+: next.events
  artifacts : db.artifacts.rows <+: next.artifacts.rows
  messages : db.messages.rows <+: next.messages.rows
  reviews : db.reviews.rows.map reviewColumns <+: next.reviews.rows.map reviewColumns

def attempts (stepId : String) (runs : Rows RunRow) : List Nat :=
  (runs.rows.filter fun r => r.routeStepId == stepId).map RunRow.attempt

structure Sound (db : ControlCenterDb) : Prop where
  routeSteps : ∀ s ∈ db.routeSteps, db.hasTask s.taskId = true
  runs : ∀ r ∈ db.runs, db.hasTask r.taskId = true ∧
    (db.routeSteps.get r.routeStepId).isSome = true
  events : ∀ e ∈ db.events, db.hasTask e.taskId = true ∧ db.hasRun e.runId = true
  artifacts : ∀ a ∈ db.artifacts, db.hasTask a.taskId = true ∧ db.hasRun a.runId = true
  messages : ∀ r ∈ db.messages, db.hasTask r.taskId = true ∧ db.hasRun r.runId = true
  reviews : ∀ r ∈ db.reviews, db.hasTask r.taskId = true ∧ db.hasRun r.runId = true
  counted : db.events.map EventRow.id = List.range' 1 db.events.length
  attempted : ∀ stepId, ∃ count, attempts stepId db.runs = List.range' 1 count
  paths : (db.artifacts.rows.map fun a => (a.runId,a.path)).Nodup

structure Grows (db next : ControlCenterDb) : Prop where
  extends_ : Extends db next
  sound : Sound db → Sound next

section
variable {m : Moment} {db next last : ControlCenterDb}

theorem extendsSame : Extends db db := ⟨List.prefix_rfl,List.prefix_rfl,List.prefix_rfl,
  List.prefix_rfl,List.prefix_rfl,List.prefix_rfl,List.prefix_rfl⟩

theorem Extends.trans (first : Extends db next) (second : Extends next last) : Extends db last where
  tasks := first.tasks.trans second.tasks
  routeSteps := first.routeSteps.trans second.routeSteps
  runs := first.runs.trans second.runs
  events := first.events.trans second.events
  artifacts := first.artifacts.trans second.artifacts
  messages := first.messages.trans second.messages
  reviews := first.reviews.trans second.reviews

theorem growsSame : Grows db db := ⟨extendsSame,id⟩

theorem Grows.trans (first : Grows db next) (second : Grows next last) : Grows db last :=
  ⟨first.extends_.trans second.extends_,second.sound ∘ first.sound⟩

theorem keyColumns {ρ κ : Type} [Keyed ρ κ] [DecidableEq κ] {c : ρ → ρ}
    (key : ∀ r, Keyed.key (c r) = Keyed.key r) {t u : Rows ρ}
    (longer : t.rows.map c <+: u.rows.map c) {k : κ} (held : (t.get k).isSome = true) :
    (u.get k).isSome = true := by
  have keys (v : Rows ρ) : v.rows.map Keyed.key = (v.rows.map c).map Keyed.key := by
    rw [List.map_map]
    exact List.map_congr_left fun r _ => (key r).symm
  rw [keyHeld,keys] at held ⊢
  exact (longer.map _).subset held

theorem keptRow {ρ κ : Type} [Keyed ρ κ] [DecidableEq κ] {c : ρ → ρ}
    (key : ∀ r, Keyed.key (c r) = Keyed.key r) {t u : Rows ρ}
    (longer : t.rows.map c <+: u.rows.map c) {k : κ} {r : ρ} (held : t.get k = some r) :
    ∃ r', u.get k = some r' ∧ c r' = c r := by
  obtain ⟨listed,keyed⟩ := getSome.mp held
  obtain ⟨r',inside,same⟩ := List.mem_map.mp (longer.subset (List.mem_map_of_mem listed))
  refine ⟨r',getSome.mpr ⟨inside,?_⟩,same⟩
  rw [← key r',same,key r]
  exact keyed

theorem Extends.task (longer : Extends db next) {taskId : String}
    (held : db.hasTask taskId = true) : next.hasTask taskId = true :=
  keyColumns (c := taskColumns) (fun _ => rfl) longer.tasks held

theorem Extends.step (longer : Extends db next) {stepId : String}
    (held : (db.routeSteps.get stepId).isSome = true) :
    (next.routeSteps.get stepId).isSome = true :=
  keyColumns (c := stepColumns) (fun _ => rfl) longer.routeSteps held

theorem Extends.run (longer : Extends db next) {runId : Option String}
    (held : db.hasRun runId = true) : next.hasRun runId = true := by
  cases runId with
  | none => rfl
  | some id => exact keyColumns (c := runColumns) (fun _ => rfl) longer.runs held

theorem updateColumns {ρ κ : Type} [Keyed ρ κ] {c f : ρ → ρ} {test : ρ → Bool}
    {same : ∀ r, Keyed.key (f r) = Keyed.key r} (kept : ∀ r, c (f r) = c r) (t : Rows ρ) :
    (t.update test f same).rows.map c = t.rows.map c := StoredPlans.updateMapped same kept t

theorem updatedColumns {ρ κ : Type} [Keyed ρ κ] {c f : ρ → ρ} {test : ρ → Bool}
    {same : ∀ r, Keyed.key (f r) = Keyed.key r} (kept : ∀ r, c (f r) = c r) {t : Rows ρ} :
    t.rows.map c <+: (t.update test f same).rows.map c :=
  (updateColumns kept t).symm ▸ List.prefix_rfl

theorem updatedRow {ρ κ : Type} [Keyed ρ κ] {c f : ρ → ρ} {test : ρ → Bool}
    {same : ∀ r, Keyed.key (f r) = Keyed.key r} (kept : ∀ r, c (f r) = c r) {t : Rows ρ} {r : ρ}
    (listed : r ∈ t.update test f same) : ∃ old ∈ t, c r = c old := by
  obtain ⟨old,inside,rfl⟩ := memUpdate.mp listed
  refine ⟨old,inside,?_⟩
  split
  · exact kept old
  · rfl

theorem insertColumns {ρ κ : Type} [Keyed ρ κ] [DecidableEq κ] {row : ρ} {t u : Rows ρ}
    (h : t.insert row = some u) (c : ρ → ρ) : t.rows.map c <+: u.rows.map c := by
  rw [insertRows h]
  exact (List.prefix_append _ _).map c

theorem Extends.both (longer : Extends db next) {taskId : String} {runId : Option String}
    (held : db.hasTask taskId = true ∧ db.hasRun runId = true) :
    next.hasTask taskId = true ∧ next.hasRun runId = true := ⟨longer.task held.1,longer.run held.2⟩

theorem tasksGrow {tasks : Rows TaskRow}
    (longer : db.tasks.rows.map taskColumns <+: tasks.rows.map taskColumns) :
    Grows db {db with tasks} := by
  have longer : Extends db {db with tasks} := {extendsSame with tasks := longer}
  exact ⟨longer,fun sound => {
    routeSteps := fun s listed => longer.task (sound.routeSteps s listed)
    runs := fun r listed => (sound.runs r listed).imp longer.task longer.step
    events := fun e listed => longer.both (sound.events e listed)
    artifacts := fun a listed => longer.both (sound.artifacts a listed)
    messages := fun r listed => longer.both (sound.messages r listed)
    reviews := fun r listed => longer.both (sound.reviews r listed)
    counted := sound.counted
    attempted := sound.attempted
    paths := sound.paths}⟩

theorem stepsGrow {routeSteps : Rows RouteStepRow}
    (longer : db.routeSteps.rows.map stepColumns <+: routeSteps.rows.map stepColumns)
    (owned : ∀ s ∈ routeSteps, (∃ old ∈ db.routeSteps, stepColumns s = stepColumns old) ∨
      db.hasTask s.taskId = true) : Grows db {db with routeSteps} := by
  have longer : Extends db {db with routeSteps} := {extendsSame with routeSteps := longer}
  refine ⟨longer,fun sound => {sound with
    routeSteps := fun s listed => ?_
    runs := fun r listed => (sound.runs r listed).imp longer.task longer.step}⟩
  rcases owned s listed with ⟨old,inside,same⟩ | held
  · have task := congrArg RouteStepRow.taskId same
    have same : s.taskId = old.taskId := task
    rw [same]
    exact sound.routeSteps old inside
  · exact held

theorem runsGrow {runs : Rows RunRow}
    (longer : db.runs.rows.map runColumns <+: runs.rows.map runColumns)
    (owned : ∀ r ∈ runs, (∃ old ∈ db.runs, runColumns r = runColumns old) ∨
      (db.hasTask r.taskId = true ∧ (db.routeSteps.get r.routeStepId).isSome = true))
    (numbered : ∀ stepId count, attempts stepId db.runs = List.range' 1 count →
      ∃ count, attempts stepId runs = List.range' 1 count) : Grows db {db with runs} := by
  have longer : Extends db {db with runs} := {extendsSame with runs := longer}
  refine ⟨longer,fun sound => {
    routeSteps := sound.routeSteps
    runs := fun r listed => ?_
    events := fun e listed => longer.both (sound.events e listed)
    artifacts := fun a listed => longer.both (sound.artifacts a listed)
    messages := fun r listed => longer.both (sound.messages r listed)
    reviews := fun r listed => longer.both (sound.reviews r listed)
    counted := sound.counted
    attempted := fun stepId => (sound.attempted stepId).elim (numbered stepId)
    paths := sound.paths}⟩
  rcases owned r listed with ⟨old,inside,same⟩ | held
  · have task := congrArg RunRow.taskId same
    have step := congrArg RunRow.routeStepId same
    have same : r.taskId = old.taskId ∧ r.routeStepId = old.routeStepId := ⟨task,step⟩
    rw [same.1,same.2]
    exact sound.runs old inside
  · exact held

theorem reviewsGrow {reviews : Rows ReviewRow}
    (longer : db.reviews.rows.map reviewColumns <+: reviews.rows.map reviewColumns)
    (owned : ∀ r ∈ reviews, (∃ old ∈ db.reviews, reviewColumns r = reviewColumns old) ∨
      (db.hasTask r.taskId = true ∧ db.hasRun r.runId = true)) : Grows db {db with reviews} := by
  refine ⟨{extendsSame with reviews := longer},fun sound => {sound with
    reviews := fun r listed => ?_}⟩
  rcases owned r listed with ⟨old,inside,same⟩ | held
  · have task := congrArg ReviewRow.taskId same
    have run := congrArg ReviewRow.runId same
    have same : r.taskId = old.taskId ∧ r.runId = old.runId := ⟨task,run⟩
    rw [same.1,same.2]
    exact sound.reviews old inside
  · exact held

theorem referencesSource {holds : Bool} (h : references holds = .ok ()) : holds = true := by
  unfold references at h
  split at h
  · assumption
  · cases h

theorem eventGrows {taskId : String} {runId : Option String} {type : String} {level : EventLevel}
    {message : String} {data : Option JsonValue.Json} {createdAt : Int}
    (h : db.insertEvent taskId runId type level message data createdAt = .ok next) :
    Grows db next := by
  obtain ⟨_,refers,last⟩ := exceptBind h
  cases Except.ok.inj last
  refine ⟨{extendsSame with events := List.prefix_append _ _},fun sound => {sound with
    events := fun e listed => ?_
    counted := ?_}⟩
  · rcases List.mem_append.mp listed with old | new
    · exact sound.events e old
    · cases List.mem_singleton.mp new
      exact Bool.and_eq_true_iff.mp (referencesSource refers)
  · show (db.events ++ [_]).map EventRow.id = List.range' 1 (db.events ++ [_]).length
    rw [List.map_append,sound.counted,List.length_append,List.length_singleton,
      List.range'_1_concat,Nat.add_comm 1]
    rfl

theorem messageGrows {message : MessageRow} (h : db.insertMessage message = .ok next) :
    Grows db next := by
  obtain ⟨_,refers,h⟩ := exceptBind h
  obtain ⟨messages,inserting,last⟩ := exceptBind h
  cases Except.ok.inj last
  have inserted := uniqueSource inserting
  refine ⟨{extendsSame with messages := ?_},fun sound => {sound with
    messages := fun r listed => ?_}⟩
  · show _ <+: messages.rows
    rw [insertRows inserted]
    exact List.prefix_append _ _
  · rcases (insertSome inserted).2 r |>.mp listed with old | rfl
    · exact sound.messages r old
    · exact Bool.and_eq_true_iff.mp (referencesSource refers)

theorem taskGrows {taskId : String} {f : TaskRow → TaskRow} {same : ∀ r, (f r).id = r.id}
    (kept : ∀ r, taskColumns (f r) = taskColumns r) : Grows db (db.updateTask taskId f same) :=
  tasksGrow (updatedColumns kept)

theorem stepGrows {test : RouteStepRow → Bool} {f : RouteStepRow → RouteStepRow}
    {same : ∀ s, (f s).id = s.id} (kept : ∀ s, stepColumns (f s) = stepColumns s) :
    Grows db {db with routeSteps := db.routeSteps.update test f same} :=
  stepsGrow (updatedColumns kept) fun _ listed => .inl (updatedRow kept listed)

theorem runGrows {test : RunRow → Bool} {f : RunRow → RunRow} {same : ∀ r, (f r).id = r.id}
    (kept : ∀ r, runColumns (f r) = runColumns r) :
    Grows db {db with runs := db.runs.update test f same} := by
  refine runsGrow (updatedColumns kept) (fun _ listed => .inl (updatedRow kept listed))
    fun stepId count numbered => ⟨count,?_⟩
  have columns (runs : Rows RunRow) : attempts stepId runs =
      ((runs.rows.map runColumns).filter fun r => r.routeStepId == stepId).map RunRow.attempt := by
    rw [List.filter_map,List.map_map]
    rfl
  rw [columns,updateColumns kept,← columns]
  exact numbered

theorem reviewGrows {test : ReviewRow → Bool} {f : ReviewRow → ReviewRow}
    {same : ∀ r, (f r).id = r.id} (kept : ∀ r, reviewColumns (f r) = reviewColumns r) :
    Grows db {db with reviews := db.reviews.update test f same} :=
  reviewsGrow (updatedColumns kept) fun _ listed => .inl (updatedRow kept listed)

theorem claimGrows {workerId : String} {claimed : Option String}
    (h : Db.claimNextTask m workerId db = .ok (claimed,next)) : Grows db next := by
  unfold Db.claimNextTask at h
  split at h
  · cases Except.ok.inj h
    exact growsSame
  next candidate _ =>
    obtain ⟨last,logged,h⟩ := exceptBind h
    cases Except.ok.inj h
    have claims : Grows db (db.updateTask candidate.id (claimedRow m workerId)
      (claimedKept m workerId)) := taskGrows fun _ => rfl
    exact claims.trans (eventGrows logged)

theorem insertedSteps {taskId : String} {createdAt : Int} {steps : List RouteStep}
    {routeSteps : Rows RouteStepRow} (there : db.hasTask taskId = true)
    (h : ControlCenterDb.insertSteps taskId createdAt steps db.routeSteps = .ok routeSteps) :
    Grows db {db with routeSteps} := by
  induction steps generalizing db with
  | nil =>
    cases Except.ok.inj h
    exact growsSame
  | cons s rest ih =>
    obtain ⟨added,inserting,h⟩ := exceptBind h
    have inserted := uniqueSource inserting
    have first : Grows db {db with routeSteps := added} :=
      stepsGrow (insertColumns inserted _) fun r listed => by
        rcases (insertSome inserted).2 r |>.mp listed with old | rfl
        · exact .inl ⟨r,old,rfl⟩
        · exact .inr there
    have later : Grows {db with routeSteps := added} {db with routeSteps} := by
      refine ih ?_ h
      exact there
    exact first.trans later

theorem createGrows {input : TaskPayload} {plan : RoutePlan} {id : String}
    (h : Db.createTask m input plan db = .ok (id,next)) : Grows db next := by
  obtain ⟨task,_,h⟩ := exceptBind h
  obtain ⟨plan,_,h⟩ := exceptBind h
  obtain ⟨tasks,inserting,h⟩ := exceptBind h
  obtain ⟨routeSteps,stepping,h⟩ := exceptBind h
  obtain ⟨last,logged,h⟩ := exceptBind h
  cases Except.ok.inj h
  have inserted := uniqueSource inserting
  have there : ({db with tasks} : ControlCenterDb).hasTask (task.id.getD ("task_" ++ m.uuid)) = true :=
    Option.isSome_iff_exists.mpr ⟨_,getMem (((insertSome inserted).2 _).mpr (.inr rfl))⟩
  have first : Grows db {db with tasks} := tasksGrow (insertColumns inserted _)
  have second : Grows {db with tasks} {db with tasks,routeSteps} := by
    refine insertedSteps ?_ stepping
    exact there
  exact first.trans (second.trans (eventGrows logged))

theorem heartbeatGrows {taskId workerId : String} {at_ : Int}
    (h : Db.heartbeatTask m taskId workerId db = .ok (at_,next)) : Grows db next := by
  obtain ⟨_,_,_,rfl⟩ := heartbeatSource h
  exact taskGrows fun _ => rfl

theorem closeGrows {cause : RecoveryCause} {recoveredBy : String} {runs : List RunRow}
    (h : closeRuns m cause recoveredBy runs db = .ok next) : Grows db next := by
  induction runs generalizing db with
  | nil =>
    cases Except.ok.inj h
    exact growsSame
  | cons run rest ih =>
    obtain ⟨closed,logged,h⟩ := exceptBind h
    have closes : Grows db {db with
      runs := db.runs.update
        (fun r => r.id == run.id && r.taskId == run.taskId && r.status == run.status)
        (closedRun m cause) fun _ => rfl} := runGrows fun _ => rfl
    exact closes.trans ((eventGrows logged).trans (ih h))

theorem recoverGrows {cause : RecoveryCause} {recoveredBy : String} {tasks : List TaskRow}
    {result after : StaleRecoveryResult}
    (h : recoverTasks m cause recoveredBy tasks result db = .ok (after,next)) : Grows db next := by
  induction tasks generalizing db result with
  | nil =>
    cases Except.ok.inj h
    exact growsSame
  | cons task rest ih =>
    obtain ⟨middle,recovered,h⟩ := exceptBind h
    obtain ⟨closed,closing,logged⟩ := exceptBind recovered
    have failed : Grows closed (failRunningSteps m task.id closed) := stepGrows fun _ => rfl
    have blocked : Grows (failRunningSteps m task.id closed) ((failRunningSteps m task.id
      closed).updateTask task.id (recoveredTask m cause) fun _ => rfl) := taskGrows fun _ => rfl
    exact (closeGrows closing).trans (failed.trans (blocked.trans
      ((eventGrows logged).trans (ih h))))

theorem recoveryGrows {cause : RecoveryCause} {recoveredBy : String}
    {result : StaleRecoveryResult}
    (h : recoverRunningTasks m cause recoveredBy db = .ok (result,next)) : Grows db next := by
  unfold recoverRunningTasks at h
  dsimp only at h
  split at h
  · cases h
  · exact recoverGrows h

theorem foldMaximum (count : Nat) : (List.range' 1 count).foldl max 0 = count := by
  induction count with
  | zero => rfl
  | succ count ih =>
    rw [List.range'_1_concat,List.foldl_append,ih]
    show max count (1 + count) = count + 1
    omega

theorem newRunGrows {input : CreateRunInput} {run : RunRow}
    (h : Db.createRun m input db = .ok (run,next)) : Grows db next := by
  obtain ⟨rfl,refers,runs,inserted,rfl⟩ := newRunSource h
  refine runsGrow (insertColumns inserted _) (fun r listed => ?_) fun stepId count numbered => ?_
  · rcases (insertSome inserted).2 r |>.mp listed with old | rfl
    · exact .inl ⟨r,old,rfl⟩
    · exact .inr (Bool.and_eq_true_iff.mp refers)
  · have rows := insertRows inserted
    unfold attempts at numbered ⊢
    rw [rows,List.filter_append,List.map_append,numbered]
    by_cases own : input.routeStepId = stepId
    · subst own
      refine ⟨count + 1,?_⟩
      have attempt : nextAttempt input.routeStepId db = count + 1 := by
        unfold nextAttempt
        rw [numbered,foldMaximum]
      have only : [queuedRun m input (nextAttempt input.routeStepId db)].filter
          (fun r => r.routeStepId == input.routeStepId) =
          [queuedRun m input (nextAttempt input.routeStepId db)] :=
        List.filter_eq_self.mpr fun r inside => by
          cases List.mem_singleton.mp inside
          exact beq_self_eq_true _
      rw [only,List.range'_1_concat,Nat.add_comm 1]
      exact congrArg (fun n => List.range' 1 count ++ [n]) attempt
    · refine ⟨count,?_⟩
      have none_ : [queuedRun m input (nextAttempt input.routeStepId db)].filter
          (fun r => r.routeStepId == stepId) = [] :=
        List.filter_eq_nil_iff.mpr fun r inside => by
          cases List.mem_singleton.mp inside
          exact fun same => own (beq_iff_eq.mp same)
      rw [none_]
      exact List.append_nil _

theorem updatedRunGrows {runId : String} {patch : RunPatch} {run : RunRow}
    (h : Db.updateRun m runId patch db = .ok (run,next)) : Grows db next := by
  obtain ⟨_,_,_,_,rfl⟩ := runSource h
  exact runGrows fun _ => rfl

theorem artifactGrows {input : ArtifactInput} {row : ArtifactRow}
    (h : DbReviews.addArtifact m input db = .ok (row,next)) : Grows db next := by
  unfold DbReviews.addArtifact at h
  split at h
  · cases h
  split at h
  · cases h
  obtain ⟨metadata,_,h⟩ := exceptBind h
  split at h
  · split at h
    · cases Except.ok.inj h
      exact growsSame
    · cases h
  next fresh =>
    obtain ⟨_,refers,h⟩ := exceptBind h
    obtain ⟨artifacts,inserting,h⟩ := exceptBind h
    cases Except.ok.inj h
    have inserted := uniqueSource inserting
    have rows := insertRows inserted
    refine ⟨{extendsSame with artifacts := rows ▸ List.prefix_append _ _},fun sound => {sound with
      artifacts := fun a listed => ?_
      paths := ?_}⟩
    · rcases (insertSome inserted).2 a |>.mp listed with old | rfl
      · exact sound.artifacts a old
      · exact Bool.and_eq_true_iff.mp (referencesSource refers)
    · show (artifacts.rows.map fun a => (a.runId,a.path)).Nodup
      rw [rows,List.map_append]
      refine sound.paths.append (List.nodup_singleton _) ?_
      rw [List.map_singleton,List.disjoint_singleton]
      intro taken
      obtain ⟨a,listed,same⟩ := List.mem_map.mp taken
      obtain ⟨run,path⟩ := Prod.mk.inj same
      have other := List.find?_eq_none.mp fresh a listed
      have run : a.runId = some input.artifact.runId := run
      have path : a.path = input.artifact.path := path
      simp [run,path] at other

theorem openedGrows {taskId : String} {runId : Option String}
    (h : openReview m taskId runId db = .ok next) : Grows db next := by
  obtain ⟨_,refers,h⟩ := exceptBind h
  obtain ⟨reviews,inserting,last⟩ := exceptBind h
  cases Except.ok.inj last
  have inserted := uniqueSource inserting
  refine reviewsGrow (insertColumns inserted _) fun r listed => ?_
  rcases (insertSome inserted).2 r |>.mp listed with old | rfl
  · exact .inl ⟨r,old,rfl⟩
  · exact .inr (Bool.and_eq_true_iff.mp (referencesSource refers))

theorem releaseGrows {taskId latestUpdate : String} {status : TaskStatus} :
    Grows db (release m taskId status latestUpdate db) := taskGrows fun _ => rfl

theorem finalizeGrows {taskId latestUpdate : String} {status : FinalStatus}
    {runId : Option String}
    (h : DbReviews.finalizeTaskExecution m taskId status latestUpdate runId db = .ok next) :
    Grows db next := by
  obtain ⟨task,_,h⟩ := exceptBind h
  dsimp only at h
  split at h
  · cases h
  cases status with
  | done =>
    cases Except.ok.inj h
    exact releaseGrows
  | needsReview =>
    obtain ⟨reviewed,opening,h⟩ := exceptBind h
    cases Except.ok.inj h
    exact (openedGrows opening).trans releaseGrows

theorem decisionGrows {review : ReviewRow} {status : ReviewStatus} {note : Option String} :
    Grows db (decideReview m review status note db) := reviewGrows fun _ => rfl

theorem approveGrows {taskId : String} {note : Option String} {expected : Option Expected}
    {review : ReviewRow}
    (h : DbReviews.approveTaskReview m taskId note expected db = .ok (review,next)) :
    Grows db next := by
  obtain ⟨_,_,h⟩ := exceptBind h
  cases Except.ok.inj h
  exact decisionGrows.trans releaseGrows

theorem resetGrows (test : RouteStepRow → Bool) : Grows db (resetSteps m test db) :=
  stepGrows fun _ => rfl

theorem reworkGrows {taskId note : String} {expected : Option Expected} {review : ReviewRow}
    (h : DbReviews.requestTaskRework m taskId note expected db = .ok (review,next)) :
    Grows db next := by
  unfold DbReviews.requestTaskRework at h
  dsimp only at h
  split at h
  · cases h
  obtain ⟨review',_,h⟩ := exceptBind h
  obtain ⟨noted,noting,h⟩ := exceptBind h
  cases Except.ok.inj h
  exact decisionGrows.trans ((messageGrows noting).trans ((resetGrows _).trans releaseGrows))

theorem retryGrows {taskId body : String} {note : Option String} {allow : Bool}
    (h : DbReviews.retryBlockedTask m taskId note allow db = .ok (body,next)) : Grows db next := by
  obtain ⟨task,_,h⟩ := exceptBind h
  split at h
  · cases h
  split at h
  · cases h
  obtain ⟨noted,noting,h⟩ := exceptBind h
  cases Except.ok.inj h
  exact (messageGrows noting).trans ((resetGrows _).trans releaseGrows)

theorem callGrows {call : DbCall} (h : call.perform m db = .ok next) : Grows db next := by
  cases call with
  | createTask input plan => exact createGrows (secondSource h).choose_spec
  | claimNextTask workerId => exact claimGrows (secondSource h).choose_spec
  | heartbeatTask taskId workerId => exact heartbeatGrows (secondSource h).choose_spec
  | recoverStaleTasks cutoffMs recoveredBy =>
    obtain ⟨result,h⟩ := secondSource h
    cases cutoffMs with
    | none => cases h
    | some cutoff => exact recoveryGrows h
  | recoverTasksOwnedBy claimedBy recoveredBy =>
    obtain ⟨result,h⟩ := secondSource h
    unfold Db.recoverTasksOwnedBy at h
    dsimp only at h
    split at h
    · cases h
    · exact recoveryGrows h
  | updateTaskStatus taskId status latestUpdate =>
    obtain ⟨_,_,_,rfl⟩ := statusSource h
    exact taskGrows fun _ => rfl
  | updateRouteStep stepId patch =>
    obtain ⟨_,_,rfl⟩ := stepSource h
    exact stepGrows fun _ => rfl
  | createRun input => exact newRunGrows (secondSource h).choose_spec
  | updateRun runId patch => exact updatedRunGrows (secondSource h).choose_spec
  | appendEvent input => exact eventGrows h
  | addArtifact input => exact artifactGrows (secondSource h).choose_spec
  | finalizeTaskExecution taskId status latestUpdate runId => exact finalizeGrows h
  | approveTaskReview taskId note expected => exact approveGrows (secondSource h).choose_spec
  | requestTaskRework taskId note expected => exact reworkGrows (secondSource h).choose_spec
  | retryBlockedTask taskId note allow => exact retryGrows (secondSource h).choose_spec

theorem respondGrows {i : Who} {c : Choice} {w : World} {q : Question} :
    Grows w.db (respond i c w q).2.db := by
  rcases respondAnswered i c w q with same | ⟨_,call,_,performed⟩
  · rw [same]
    exact growsSame
  · exact callGrows performed

end

theorem emptySound : Sound .empty where
  routeSteps _ listed := absurd listed memEmpty
  runs _ listed := absurd listed memEmpty
  events _ listed := absurd listed List.not_mem_nil
  artifacts _ listed := absurd listed memEmpty
  messages _ listed := absurd listed memEmpty
  reviews _ listed := absurd listed memEmpty
  counted := rfl
  attempted _ := ⟨0,rfl⟩
  paths := List.nodup_nil

section
variable {fleet : Nat → Coordinator.Options} {fair : Center → Event → Prop} {s s' : Center}

theorem stepGrown {e : Event} (h : step fleet s e = some s') : Grows s.world.db s'.world.db := by
  cases e with
  | start process call =>
    cases Option.some.inj h
    exact growsSame
  | turn id pick c =>
    rcases turnWorld h with same | ⟨i,q,_,_,same⟩
    · rw [same]
      exact growsSame
    · rw [same]
      exact respondGrows
  | crash process =>
    cases Option.some.inj h
    exact growsSame

theorem reachGrown (reach : Reach fleet fair s s') : Grows s.world.db s'.world.db := by
  induction reach with
  | refl => exact growsSame
  | tail _ moves ih =>
    obtain ⟨_,_,moved⟩ := moves
    exact ih.trans (stepGrown moved)

end

end ControlCenter.StoreHistory
