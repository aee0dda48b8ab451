import ControlCenter.Attempts
import ControlCenter.StepEvidence
import ControlCenter.StoreHistory

/-! Any number of workers, whose writes come while their claims stand. A task waits for its
review, or is done, only with every step settled; and a step that succeeded has a run with
what was asked of it. -/
namespace ControlCenter.EvidenceGate
open AccpEnvelope Protocol Table Db DbReviews DbRuns Dialogue Reliance Ports Coordinator Execution Operations
open ControlCenter.System TaskRecovery CallSources Guarantees Interference StoreHistory
open ExecutionQuestions Hearing StepEvidence Attempts
open ReviewDecisions (approveSource reworkSource)
open OwnerFencing (Owns Recorded timely about applies ending respondHands ownsKept)

def Settled (s : RouteStepRow) : Prop :=
  s.status = .succeeded ∨ (s.required = false ∧ (s.status = .failed ∨ s.status = .skipped))

def Fits : TaskStatus → RouteStepRow → Prop
  | .queued,s => s.status = .pending ∨ Settled s
  | .running,_ => True
  | .blocked,s => s.status ≠ .running
  | .needsReview,s | .done,s => Settled s

def Verified (db : ControlCenterDb) (runId : String) : Prop :=
  ∃ e ∈ db.events, e.runId = some runId ∧ e.type = verdict

def Demands (db : ControlCenterDb) (s : RouteStepRow) : Prop := s.role = .execute ∧
  ∃ r, db.tasks.get s.taskId = some r ∧ (nonempty r.verificationCommand).isSome = true

-- The run of a step that succeeded: it was made for the step, its agent was collected and
-- the source then found unchanged, and what had to be verified was.
structure Evident (w : World) (s : RouteStepRow) (runId : String) : Prop where
  linked : s.runId = some runId
  run : ∃ run, w.db.runs.get runId = some run ∧ run.routeStepId = s.id
  checked : runId ∈ w.trail.checked
  verified : Demands w.db s → Verified w.db runId

def stepsOf (taskId : String) (db : ControlCenterDb) : List RouteStepRow :=
  db.routeSteps.rows.filter fun s => s.taskId == taskId

structure StepGate (w : World) (status : TaskStatus) (s : RouteStepRow) : Prop where
  optional : s.status = .skipped → s.required = false
  evident : s.status = .succeeded → ∃ runId, Evident w s runId
  fits : Fits status s

structure Gate (fleet : Nat → Options) (w : World) : Prop where
  recorded : Recorded fleet w
  sound : Sound w.db
  steps : ∀ taskId r, w.db.tasks.get taskId = some r → ∀ s ∈ stepsOf taskId w.db,
    StepGate w r.status s

def Supported (w : World) (s : RouteStepRow) (patch : StepPatch) : Prop :=
  match patch.status with
  | some .running | some .failed => True
  | some .skipped => s.required = false
  | some .succeeded => patch.runId = none ∧ ∃ runId, Evident w s runId
  | _ => False

def May (fleet : Nat → Options) (i : Who) (q : Question) (w : World) : Prop :=
  OwnerFencing.May fleet i q w ∧ match q with
    | .updateTaskStatus taskId status _ => status = .blocked ∧
        (i.thread ∉ w.trail.lost → ∀ s ∈ stepsOf taskId w.db, s.status ≠ .running)
    | .finalizeTaskExecution taskId .. =>
        i.thread ∉ w.trail.lost → ∀ s ∈ stepsOf taskId w.db, Settled s
    | .updateRouteStep stepId patch => i.member = some stepId ∧
        (i.thread ∉ w.trail.lost → ∀ s, w.db.routeSteps.get stepId = some s → Supported w s patch)
    | _ => True

def terms (fleet : Nat → Options) : Terms where
  may := May fleet
  fair := timely
  holds := Gate fleet

def patched (m : Moment) (stepId : String) (patch : StepPatch) (s : RouteStepRow) : RouteStepRow :=
  if s.id == stepId then patch.apply m s else s

def reset (m : Moment) (s : RouteStepRow) : RouteStepRow :=
  {s with status := .pending,runId := none,updatedAt := m.now}

def interrupted (m : Moment) (s : RouteStepRow) : RouteStepRow :=
  {s with status := .failed,updatedAt := m.now}

def statusOf (taskId : String) (db : ControlCenterDb) : Option TaskStatus :=
  (db.tasks.get taskId).map TaskRow.status

inductive Touch (w : World) (taskId : String) : Question → World → Prop
  | none {q : Question} {after : World} (status : statusOf taskId after.db = statusOf taskId w.db)
      (steps : stepsOf taskId after.db = stepsOf taskId w.db) : Touch w taskId q after
  | created {q : Question} {after : World} (fresh : w.db.tasks.get taskId = .none)
      (status : statusOf taskId after.db = some .queued)
      (steps : ∀ s ∈ stepsOf taskId after.db, s.status = .pending ∧ s.runId = .none) :
      Touch w taskId q after
  | claimed {q : Question} {after : World} (before : statusOf taskId w.db = some .queued)
      (status : statusOf taskId after.db = some .running)
      (steps : stepsOf taskId after.db = stepsOf taskId w.db) : Touch w taskId q after
  | written {after : World} {given : TaskStatus} {text : String}
      (status : statusOf taskId after.db = some given)
      (steps : stepsOf taskId after.db = stepsOf taskId w.db)
      (applied : applies w.db (.updateTaskStatus taskId given text) = true) :
      Touch w taskId (.updateTaskStatus taskId given text) after
  | finalized {after : World} {given : FinalStatus} {text : String} {runId : Option String}
      (status : statusOf taskId after.db = some given.status)
      (steps : stepsOf taskId after.db = stepsOf taskId w.db)
      (applied : applies w.db (.finalizeTaskExecution taskId given text runId) = true) :
      Touch w taskId (.finalizeTaskExecution taskId given text runId) after
  | approved {q : Question} {after : World} (before : statusOf taskId w.db = some .needsReview)
      (status : statusOf taskId after.db = some .done)
      (steps : stepsOf taskId after.db = stepsOf taskId w.db) : Touch w taskId q after
  | reworked {q : Question} {after : World} {m : Moment}
      (before : statusOf taskId w.db = some .needsReview)
      (status : statusOf taskId after.db = some .queued)
      (steps : stepsOf taskId after.db = (stepsOf taskId w.db).map (reset m)) :
      Touch w taskId q after
  | retried {q : Question} {after : World} {m : Moment}
      (before : statusOf taskId w.db = some .blocked)
      (status : statusOf taskId after.db = some .queued)
      (steps : stepsOf taskId after.db = (stepsOf taskId w.db).map fun s =>
        if s.status = .failed then reset m s else s) : Touch w taskId q after
  | recovered {q : Question} {after : World} {m : Moment} {result : StaleRecoveryResult}
      (selected : taskId ∈ result.taskIds) (trail : after.trail = w.trail.recover result)
      (status : statusOf taskId after.db = some .blocked)
      (steps : stepsOf taskId after.db = (stepsOf taskId w.db).map fun s =>
        if s.status = .running then interrupted m s else s) : Touch w taskId q after
  | patched {after : World} {stepId : String} {patch : StepPatch} {m : Moment} {s : RouteStepRow}
      (held : w.db.routeSteps.get stepId = some s) (own : s.taskId = taskId)
      (status : statusOf taskId after.db = statusOf taskId w.db)
      (steps : stepsOf taskId after.db = (stepsOf taskId w.db).map (patched m stepId patch)) :
      Touch w taskId (.updateRouteStep stepId patch) after

section
variable {w after : World} {taskId : String} {q : Question} {db next : ControlCenterDb}
  {m : Moment}

theorem touchSame (tasks : after.db.tasks = w.db.tasks)
    (steps : after.db.routeSteps = w.db.routeSteps) : Touch w taskId q after :=
  .none (by rw [statusOf,statusOf,tasks]) (by rw [stepsOf,stepsOf,steps])

theorem touchUpdated {target : String} (f : TaskRow → TaskRow) (keyed : ∀ r, (f r).id = r.id)
    (tasks : after.db.tasks = w.db.tasks.update (fun r => r.id == target) f keyed)
    (steps : ∀ id ≠ target, stepsOf id after.db = stepsOf id w.db) {r : TaskRow}
    (held : w.db.tasks.get target = some r)
    (here : statusOf target after.db = some (f r).status → Touch w target q after) :
    Touch w taskId q after := by
  have read (id : String) : after.db.tasks.get id =
      (w.db.tasks.get id).map fun r => if r.id == target then f r else r := by
    rw [tasks]
    exact @getUpdate _ _ _ _ _ _ _ f keyed
  by_cases own : taskId = target
  · subst own
    have keyed : r.id = taskId := (getSome.mp held).2
    refine here ?_
    rw [statusOf,read,held,Option.map_some,if_pos (beq_iff_eq.mpr keyed)]
    rfl
  · refine .none ?_ (steps taskId own)
    rw [statusOf,read,statusOf]
    cases held : w.db.tasks.get taskId with
    | none => rfl
    | some r =>
      have keyed : r.id = taskId := (getSome.mp held).2
      simp [keyed,own]

theorem insertedRows {createdAt : Int} {steps : List RouteStep} {rows inserted : Rows RouteStepRow}
    (h : ControlCenterDb.insertSteps taskId createdAt steps rows = .ok inserted) :
    ∃ fresh, inserted.rows = rows.rows ++ fresh ∧
      ∀ s ∈ fresh, s.taskId = taskId ∧ s.status = .pending ∧ s.runId = none := by
  induction steps generalizing rows with
  | nil =>
    cases Except.ok.inj h
    exact ⟨[],(List.append_nil _).symm,fun _ listed => absurd listed List.not_mem_nil⟩
  | cons s rest ih =>
    obtain ⟨added,inserting,h⟩ := exceptBind h
    obtain ⟨fresh,same,each⟩ := ih h
    refine ⟨⟨s.id,taskId,s.sequence,s.agent,s.role,s.required,s.reason,.pending,none,createdAt,
      createdAt⟩::fresh,?_,fun s' listed => ?_⟩
    · rw [same,insertRows (uniqueSource inserting),List.append_assoc]
      rfl
    · rcases List.mem_cons.mp listed with rfl | later
      · exact ⟨rfl,rfl,rfl⟩
      · exact each s' later

theorem createTouch {input : TaskPayload} {plan : RoutePlan} {id : String} {trail : Trail}
    (sound : Sound w.db) (h : Db.createTask m input plan w.db = .ok (id,next)) :
    Touch w taskId q {w with db := next, trail} := by
  obtain ⟨task,tasks,routeSteps,events,_,_,inserted,stepping,rfl⟩ := createSource h
  obtain ⟨fresh,rows,each⟩ := insertedRows stepping
  obtain ⟨free,_⟩ := insertSome inserted
  have kept (other : taskId ≠ id) : fresh.filter (fun s => s.taskId == taskId) = [] :=
    List.filter_eq_nil_iff.mpr fun s listed same =>
      other ((beq_iff_eq.mp same).symm.trans (each s listed).1)
  by_cases own : taskId = id
  · subst own
    have none_ : w.db.tasks.get taskId = none := getNone.mpr free
    refine .created none_ ?_ fun s listed => ?_
    · show (tasks.get taskId).map TaskRow.status = _
      rw [getInsert inserted]
      exact congrArg (Option.map TaskRow.status) (if_pos rfl)
    · obtain ⟨listed,mine⟩ := List.mem_filter.mp listed
      have listed : s ∈ w.db.routeSteps.rows ++ fresh := rows ▸ listed
      rcases List.mem_append.mp listed with old | new
      · have there := sound.routeSteps s old
        rw [beq_iff_eq.mp mine,ControlCenterDb.hasTask,none_] at there
        cases there
      · exact (each s new).2
  · refine .none ?_ ?_
    · show (tasks.get taskId).map TaskRow.status = (w.db.tasks.get taskId).map TaskRow.status
      rw [getInsert inserted]
      exact congrArg (Option.map TaskRow.status) (if_neg fun same => own same.symm)
    · show routeSteps.rows.filter _ = _
      rw [rows,List.filter_append,kept own,List.append_nil]
      rfl

theorem claimTouch {workerId : String} {claimed : Option String} {trail : Trail}
    (h : Db.claimNextTask m workerId w.db = .ok (claimed,next)) :
    Touch w taskId q {w with db := next, trail} := by
  rcases claimSource h with ⟨_,rfl⟩ | ⟨task,listed,queued,_,events,rfl⟩
  · exact touchSame rfl rfl
  · have held : w.db.tasks.get task.id = some task := getMem listed
    have before : statusOf task.id w.db = some .queued := by rw [statusOf,held,← queued]; rfl
    exact touchUpdated (claimedRow m workerId) (claimedKept m workerId) rfl (fun _ _ => rfl) held
      fun status => .claimed before status rfl

theorem heartbeatTouch {target workerId : String} {at_ : Int} {trail : Trail}
    (h : Db.heartbeatTask m target workerId w.db = .ok (at_,next)) :
    Touch w taskId q {w with db := next, trail} := by
  obtain ⟨r,held,running,rfl⟩ := heartbeatSource h
  exact touchUpdated (fun r => {r with claimedAt := some m.now,updatedAt := m.now})
    (fun _ => rfl) rfl (fun _ _ => rfl) held fun status => .none
    (status.trans (congrArg (Option.map TaskRow.status) held).symm) rfl

theorem statusTouch {target text : String} {status : TaskStatus} {trail : Trail}
    (h : Db.updateTaskStatus m target status text w.db = .ok next) :
    Touch w taskId (.updateTaskStatus target status text) {w with db := next, trail} := by
  have applied := OwnerFencing.statusApplies h
  obtain ⟨r,held,_,rfl⟩ := statusSource h
  exact touchUpdated (StatusMachines.writtenTask m status text) (fun _ => rfl) rfl
    (fun _ _ => rfl) held fun given => .written given rfl applied

theorem finalizeTouch {target text : String} {status : FinalStatus} {runId : Option String}
    {trail : Trail} (h : DbReviews.finalizeTaskExecution m target status text runId w.db = .ok next) :
    Touch w taskId (.finalizeTaskExecution target status text runId) {w with db := next, trail} := by
  have applied := OwnerFencing.finalizeApplies h
  obtain ⟨r,held,_,reviews,_,_,rfl⟩ := finalizeSource h
  exact touchUpdated (released m status.status text) (fun _ => rfl) rfl (fun _ _ => rfl) held
    fun given => .finalized given rfl applied

theorem approveTouch {target : String} {note : Option String} {expected : Option Expected}
    {row : ReviewRow} {trail : Trail}
    (h : DbReviews.approveTaskReview m target note expected w.db = .ok (row,next)) :
    Touch w taskId q {w with db := next, trail} := by
  obtain ⟨review,admitted,_,rfl⟩ := approveSource h
  obtain ⟨r,held,waits⟩ := admitted.waits
  have before : statusOf target w.db = some .needsReview := by rw [statusOf,held,← waits]; rfl
  exact touchUpdated (released m .done _) (fun _ => rfl) rfl (fun _ _ => rfl) held
    fun status => .approved before status rfl

section
variable (test : RouteStepRow → Bool) (f : RouteStepRow → RouteStepRow)
  (owned : ∀ s, (f s).taskId = s.taskId)
  (steps : next.routeSteps.rows = db.routeSteps.rows.map fun s => if test s then f s else s)
  (id : String)
include owned steps

theorem stepsUpdated :
    stepsOf id next = (stepsOf id db).map fun s => if test s then f s else s := by
  have kept (s : RouteStepRow) : (if test s then f s else s).taskId = s.taskId := by
    split
    · exact owned s
    · rfl
  unfold stepsOf
  rw [steps,List.filter_map]
  refine congrArg _ (List.filter_congr fun s _ => ?_)
  rw [Function.comp_apply,kept]

theorem stepsOwn {g : RouteStepRow → RouteStepRow}
    (each : ∀ s ∈ db.routeSteps, s.taskId = id → (if test s then f s else s) = g s) :
    stepsOf id next = (stepsOf id db).map g := by
  rw [stepsUpdated test f owned steps]
  refine List.map_congr_left fun s listed => ?_
  obtain ⟨listed,own⟩ := List.mem_filter.mp listed
  exact each s listed (beq_iff_eq.mp own)

theorem stepsOthers (fails : ∀ s ∈ db.routeSteps, s.taskId = id → test s = false) :
    stepsOf id next = stepsOf id db := by
  rw [stepsOwn test f owned steps id (g := fun s => s) fun s listed own =>
    if_neg (by simp [fails s listed own])]
  exact List.map_id' _

end

theorem reworkTouch {target note : String} {expected : Option Expected} {row : ReviewRow}
    {trail : Trail} (h : DbReviews.requestTaskRework m target note expected w.db = .ok (row,next)) :
    Touch w taskId q {w with db := next, trail} := by
  obtain ⟨review,noted,_,admitted,_,noting,rfl⟩ := reworkSource h
  obtain ⟨r,held,waits⟩ := admitted.waits
  obtain ⟨messages,_,rfl⟩ := messageSource noting
  have before : statusOf target w.db = some .needsReview := by rw [statusOf,held,← waits]; rfl
  refine touchUpdated (released m .queued _) (fun _ => rfl) rfl (fun id other => ?_) held
    fun status => .reworked (m := m) before status ?_
  · exact stepsOthers (fun s => s.taskId == target) (reset m) (fun _ => rfl) rfl id
      fun s _ own => beq_eq_false_iff_ne.mpr fun same => other (own.symm.trans same)
  · exact stepsOwn (fun s => s.taskId == target) (reset m) (fun _ => rfl) rfl target
      fun s _ own => if_pos (beq_iff_eq.mpr own)

theorem retryTouch {target body : String} {note : Option String} {allow : Bool} {trail : Trail}
    (h : DbReviews.retryBlockedTask m target note allow w.db = .ok (body,next)) :
    Touch w taskId q {w with db := next, trail} := by
  obtain ⟨r,held,blocked,_,messages,rfl⟩ := retrySource h
  have before : statusOf target w.db = some .blocked := by rw [statusOf,held,← blocked]; rfl
  refine touchUpdated (released m .queued _) (fun _ => rfl) rfl (fun id other => ?_) held
    fun status => .retried (m := m) before status ?_
  · refine stepsOthers (fun s => s.taskId == target && s.status == .failed) (reset m)
      (fun _ => rfl) rfl id fun s _ own => ?_
    rw [beq_eq_false_iff_ne.mpr fun same => other (own.symm.trans same)]
    rfl
  · refine stepsOwn (fun s => s.taskId == target && s.status == .failed) (reset m)
      (fun _ => rfl) rfl target fun s _ own => ?_
    simp [own]

theorem patchTouch {stepId : String} {patch : StepPatch} {trail : Trail}
    (h : Db.updateRouteStep m stepId patch w.db = .ok next) :
    Touch w taskId (.updateRouteStep stepId patch) {w with db := next, trail} := by
  obtain ⟨s,held,rfl⟩ := stepSource h
  by_cases own : s.taskId = taskId
  · exact .patched (m := m) held own rfl (stepsOwn (fun s => s.id == stepId) (patch.apply m)
      (fun _ => rfl) rfl taskId fun _ _ _ => rfl)
  · refine .none rfl (stepsOthers (fun s => s.id == stepId) (patch.apply m) (fun _ => rfl) rfl taskId
      fun s' listed mine => beq_eq_false_iff_ne.mpr fun same => own ?_)
    have read : w.db.routeSteps.get stepId = some s' := getSome.mpr ⟨listed,same⟩
    cases Option.some.inj (held.symm.trans read)
    exact mine

theorem recoverTouch {cause : RecoveryCause} {recoveredBy : String} {result : StaleRecoveryResult}
    (h : Db.recoverRunningTasks m cause recoveredBy w.db = .ok (result,next)) :
    Touch w taskId q {w with db := next, trail := w.trail.recover result} := by
  obtain ⟨closes,named⟩ := recoverySource h
  rw [← named] at closes
  have rows : next.routeSteps.rows = w.db.routeSteps.rows.map fun s =>
      if decide (s.taskId ∈ result.taskIds ∧ s.status = .running) then interrupted m s else s := by
    simp only [closes.routeSteps,decide_eq_true_eq]
    rfl
  have status (r : TaskRow) (held : w.db.tasks.get taskId = some r) :
      statusOf taskId next = if taskId ∈ result.taskIds then some .blocked else some r.status := by
    have own : r.id = taskId := (getSome.mp held).2
    rw [statusOf,closes.getTask,held,Option.map_some,own]
    split <;> rfl
  by_cases selected : taskId ∈ result.taskIds
  · obtain ⟨r,listed,_,own⟩ := selectedIds.mp (named ▸ selected)
    have held : w.db.tasks.get taskId = some r := getSome.mpr ⟨listed,own⟩
    refine .recovered (m := m) selected rfl ((status r held).trans (if_pos selected)) ?_
    exact stepsOwn _ (interrupted m) (fun _ => rfl) rows taskId fun s _ own => by
      simp [own,selected]
  · refine .none ?_ (stepsOthers _ (interrupted m) (fun _ => rfl) rows taskId fun s _ own => by
      simp [own,selected])
    cases held : w.db.tasks.get taskId with
    | none =>
      show statusOf taskId next = _
      rw [statusOf,closes.getTask,statusOf,held]
      rfl
    | some r =>
      show statusOf taskId next = _
      rw [status r held,if_neg selected,statusOf,held]
      rfl

theorem touchRefl : Touch w taskId q w := touchSame rfl rfl

theorem answerTouch {i : Who} {c : Choice} (sound : Sound w.db) :
    Touch w taskId q (answer i c w q).2 := by
  cases q with
  | createTask input plan => exact storedKept touchRefl fun id db performed => createTouch sound performed
  | claimNextTask workerId => exact storedKept touchRefl fun claimed db performed => claimTouch performed
  | heartbeatTask target workerId =>
    exact storedKept touchRefl fun at_ db performed => heartbeatTouch performed
  | recoverStaleTasks cutoffMs recoveredBy =>
    refine storedKept touchRefl fun result db performed => ?_
    cases cutoffMs with
    | none => contradiction
    | some cutoff => exact recoverTouch performed
  | recoverTasksOwnedBy claimedBy recoveredBy =>
    refine storedKept touchRefl fun result db performed => ?_
    unfold Db.recoverTasksOwnedBy at performed
    dsimp only at performed
    split at performed
    · contradiction
    · exact recoverTouch performed
  | updateTaskStatus target status text =>
    exact writtenKept touchRefl fun db performed => statusTouch performed
  | updateRouteStep stepId patch => exact writtenKept touchRefl fun db performed => patchTouch performed
  | createRun input =>
    refine storedKept touchRefl fun run db performed => ?_
    obtain ⟨_,_,runs,_,rfl⟩ := newRunSource performed
    exact touchSame rfl rfl
  | updateRun runId patch =>
    refine storedKept touchRefl fun run db performed => ?_
    obtain ⟨current,_,_,_,rfl⟩ := runSource performed
    exact touchSame rfl rfl
  | appendEvent input =>
    refine writtenKept touchRefl fun db performed => ?_
    cases eventSource performed
    exact touchSame rfl rfl
  | addArtifact input =>
    refine storedKept touchRefl fun row db performed => ?_
    obtain ⟨artifacts,rfl⟩ := artifactSource performed
    exact touchSame rfl rfl
  | finalizeTaskExecution target status text runId =>
    exact writtenKept touchRefl fun db performed => finalizeTouch performed
  | approveTaskReview target note expected =>
    exact storedKept touchRefl fun row db performed => approveTouch performed
  | requestTaskRework target note expected =>
    exact storedKept touchRefl fun row db performed => reworkTouch performed
  | retryBlockedTask target note allow =>
    exact storedKept touchRefl fun body db performed => retryTouch performed
  | createWorktree target runId repo baseRef =>
    exact worktreeKept touchRefl fun info _ => touchSame rfl rfl
  | stopAdapter | collectResult | assertSourceUnchanged =>
    exact repliedKept touchRefl fun _ _ => touchSame rfl rfl
  | memory change => exact touchSame rfl rfl
  | _ => exact touchRefl

theorem respondTouch {i : Who} {c : Choice} (sound : Sound w.db) :
    Touch w taskId q (respond i c w q).2 :=
  respondKept touchRefl (answerTouch sound)

structure Seen (w after : World) : Prop where
  collected : w.trail.collected ⊆ after.trail.collected
  checked : w.trail.checked ⊆ after.trail.checked

theorem seenSame : Seen w w := ⟨List.Subset.refl _,List.Subset.refl _⟩

theorem seenTrail (collected : after.trail.collected = w.trail.collected)
    (checked : after.trail.checked = w.trail.checked) : Seen w after := by
  refine ⟨?_,?_⟩
  · rw [collected]
    exact List.Subset.refl _
  · rw [checked]
    exact List.Subset.refl _

theorem seenLeave {taskId : String} {status : TaskStatus} :
    Seen w {w with db, trail := w.trail.leave taskId status} := by
  unfold Trail.leave
  split <;> exact seenTrail rfl rfl

theorem respondSeen {i : Who} {c : Choice} : Seen w (respond i c w q).2 := by
  refine respondKept seenSame ?_
  cases q with
  | claimNextTask workerId =>
    refine storedKept seenSame fun claimed _ _ => ?_
    cases claimed <;> exact seenTrail rfl rfl
  | createTask | heartbeatTask | recoverStaleTasks | recoverTasksOwnedBy | createRun
  | updateRun | addArtifact | approveTaskReview | requestTaskRework | retryBlockedTask =>
    exact storedKept seenSame fun _ _ _ => seenTrail rfl rfl
  | updateTaskStatus | finalizeTaskExecution => exact writtenKept seenSame fun _ _ => seenLeave
  | updateRouteStep | appendEvent => exact writtenKept seenSame fun _ _ => seenTrail rfl rfl
  | createWorktree => exact worktreeKept seenSame fun _ _ => seenTrail rfl rfl
  | stopAdapter => exact repliedKept seenSame fun _ _ => seenTrail rfl rfl
  | collectResult runId agent adapterRunId =>
    exact repliedKept seenSame fun _ _ => ⟨List.subset_cons_self _ _,List.Subset.refl _⟩
  | assertSourceUnchanged runId snapshot =>
    refine repliedKept seenSame fun _ _ => ?_
    show Seen w {w with trail := w.trail.check runId}
    unfold Trail.check
    split
    · exact ⟨List.Subset.refl _,List.subset_cons_self _ _⟩
    · exact seenSame
  | memory change => exact seenTrail rfl rfl
  | _ => exact seenSame

structure Later (w after : World) : Prop where
  sound : Sound w.db
  seen : Seen w after
  longer : Extends w.db after.db

theorem respondLater {i : Who} {c : Choice} (sound : Sound w.db) : Later w (respond i c w q).2 :=
  ⟨sound,respondSeen,respondGrows.extends_⟩

theorem Later.verified (later : Later w after) {runId : String} (held : Verified w.db runId) :
    Verified after.db runId := by
  obtain ⟨e,listed,of⟩ := held
  exact ⟨e,later.longer.events.subset listed,of⟩

theorem Later.run (later : Later w after) {stepId runId : String}
    (held : ∃ run, w.db.runs.get runId = some run ∧ run.routeStepId = stepId) :
    ∃ run, after.db.runs.get runId = some run ∧ run.routeStepId = stepId := by
  obtain ⟨run,held,own⟩ := held
  obtain ⟨run',found,same⟩ := keptRow (c := runColumns) (fun _ => rfl) later.longer.runs held
  have step := congrArg RunRow.routeStepId same
  exact ⟨run',found,Eq.trans step own⟩

theorem Later.task (later : Later w after) {r : TaskRow} (held : w.db.tasks.get taskId = some r) :
    ∃ r', after.db.tasks.get taskId = some r' ∧
      r'.verificationCommand = r.verificationCommand := by
  obtain ⟨r',found,same⟩ := keptRow (c := taskColumns) (fun _ => rfl) later.longer.tasks held
  have command := congrArg TaskRow.verificationCommand same
  exact ⟨r',found,command⟩

theorem Later.demands (later : Later w after) {s : RouteStepRow} (listed : s ∈ w.db.routeSteps)
    (demands : Demands after.db s) : Demands w.db s := by
  obtain ⟨role,r',found,command⟩ := demands
  obtain ⟨r,held⟩ := Option.isSome_iff_exists.mp (later.sound.routeSteps s listed)
  obtain ⟨r'',found',same⟩ := later.task held
  cases Option.some.inj (found.symm.trans found')
  exact ⟨role,r,held,same ▸ command⟩

theorem Later.evident (later : Later w after) {s s' : RouteStepRow} (listed : s ∈ w.db.routeSteps)
    (same : s'.id = s.id ∧ s'.taskId = s.taskId ∧ s'.role = s.role ∧ s'.runId = s.runId)
    {runId : String} (evident : Evident w s runId) : Evident after s' runId := by
  obtain ⟨id,task,role,run⟩ := same
  refine ⟨run.trans evident.linked,?_,later.seen.checked evident.checked,fun demands => ?_⟩
  · rw [id]
    exact later.run evident.run
  · refine later.verified (evident.verified (later.demands listed ?_))
    unfold Demands at demands ⊢
    rwa [role,task] at demands

theorem Later.step (later : Later w after) {s : RouteStepRow} (listed : s ∈ w.db.routeSteps)
    {status status' : TaskStatus} (gate : StepGate w status s) (fits : Fits status' s) :
    StepGate after status' s :=
  ⟨gate.optional,fun succeeded => (gate.evident succeeded).imp fun _ evident =>
    later.evident listed ⟨rfl,rfl,rfl,rfl⟩ evident,fits⟩

theorem plainStep {s : RouteStepRow} {status : TaskStatus} (skipped : s.status ≠ .skipped)
    (succeeded : s.status ≠ .succeeded) (fits : Fits status s) : StepGate after status s :=
  ⟨fun same => absurd same skipped,fun same => absurd same succeeded,fits⟩

theorem fitsReset {s : RouteStepRow} : Fits .queued (reset m s) := .inl rfl

theorem stepsListed {s : RouteStepRow} (inside : s ∈ stepsOf taskId db) :
    s ∈ db.routeSteps ∧ s.taskId = taskId :=
  ⟨(List.mem_filter.mp inside).1,beq_iff_eq.mp (List.mem_filter.mp inside).2⟩

theorem statusHeld {status : TaskStatus} (is : statusOf taskId db = some status) :
    ∃ r, db.tasks.get taskId = some r ∧ r.status = status :=
  Option.map_eq_some_iff.mp is

theorem patchedStep {s : RouteStepRow} (later : Later w after) (listed : s ∈ w.db.routeSteps)
    {patch : StepPatch} (supported : Supported w s patch) {r : TaskRow}
    (running : r.status = .running) : StepGate after r.status (patch.apply m s) := by
  have fits : Fits r.status (patch.apply m s) := by rw [running]; trivial
  obtain ⟨status,runId⟩ := patch
  match status,supported with
  | some .running,_ => exact plainStep nofun nofun fits
  | some .failed,_ => exact plainStep nofun nofun fits
  | some .skipped,required => exact ⟨fun _ => required,nofun,fits⟩
  | some .succeeded,⟨same,id,evident⟩ =>
    have unlinked : runId = none := same
    subst unlinked
    have kept : Evident after {s with status := .succeeded,updatedAt := m.now} id := by
      refine later.evident listed ?_ evident
      exact ⟨rfl,rfl,rfl,rfl⟩
    exact ⟨nofun,fun _ => ⟨id,kept⟩,fits⟩

section
variable {fleet : Nat → Options} {i : Who}

theorem heldRunning (recorded : Recorded fleet w) (owns : Owns w taskId i.thread)
    (kept : i.thread ∉ w.trail.lost) :
    ∃ r, w.db.tasks.get taskId = some r ∧ r.status = .running := by
  obtain ⟨r,held,running,_⟩ := recorded taskId i.thread (owns.resolve_right kept)
  exact ⟨r,held,running⟩

theorem statusNow {r : TaskRow} {status : TaskStatus}
    (held : after.db.tasks.get taskId = some r) (is : statusOf taskId after.db = some status) :
    r.status = status := by
  rw [statusOf,held] at is
  exact Option.some.inj is

theorem statusFound {r : TaskRow} (held : w.db.tasks.get taskId = some r) :
    statusOf taskId w.db = some r.status := congrArg (Option.map TaskRow.status) held

section
variable {status status' : TaskStatus} {s : RouteStepRow}

theorem Gate.gated (gate : Gate fleet w) (found : statusOf taskId w.db = some status)
    (inside : s ∈ stepsOf taskId w.db) : StepGate w status s := by
  obtain ⟨old,there,rfl⟩ := statusHeld found
  exact gate.steps taskId old there s inside

theorem Gate.moved (gate : Gate fleet w) (later : Later w after)
    (found : statusOf taskId w.db = some status) (inside : s ∈ stepsOf taskId w.db)
    (fits : Fits status' s) : StepGate after status' s :=
  later.step (stepsListed inside).1 (gate.gated found inside) fits

theorem Gate.retried (gate : Gate fleet w) (later : Later w after)
    (was : statusOf taskId w.db = some .blocked) (inside : s ∈ stepsOf taskId w.db) :
    StepGate after .queued (if s.status = .failed then reset m s else s) := by
  have kept := gate.gated was inside
  split
  next => exact plainStep nofun nofun fitsReset
  next sound =>
    refine gate.moved later was inside ?_
    cases stands : s.status with
    | pending => exact .inl stands
    | running => exact absurd stands kept.fits
    | succeeded => exact .inr (.inl stands)
    | failed => exact absurd stands sound
    | skipped => exact .inr (.inr ⟨kept.optional stands,.inr stands⟩)

theorem Gate.recovered (gate : Gate fleet w) (later : Later w after)
    (inside : s ∈ stepsOf taskId w.db) :
    StepGate after .blocked (if s.status = .running then interrupted m s else s) := by
  split
  next => exact plainStep nofun nofun nofun
  next idle =>
    cases found : w.db.tasks.get taskId with
    | none =>
      have there := later.sound.routeSteps s (stepsListed inside).1
      rw [(stepsListed inside).2,ControlCenterDb.hasTask,found] at there
      cases there
    | some row => exact gate.moved later (statusFound found) inside idle

theorem Gate.patched (gate : Gate fleet w) (later : Later w after) {stepId : String}
    {patch : StepPatch} (supported : ∀ s, w.db.routeSteps.get stepId = some s → Supported w s patch)
    {r : TaskRow} (found : w.db.tasks.get taskId = some r) (running : r.status = .running)
    (inside : s ∈ stepsOf taskId w.db) : StepGate after r.status (patched m stepId patch s) := by
  unfold EvidenceGate.patched
  split
  next same =>
    have listed := (stepsListed inside).1
    exact patchedStep later listed
      (supported s (getSome.mpr ⟨listed,beq_iff_eq.mp same⟩)) running
  next =>
    refine gate.moved later (statusFound found) inside ?_
    rw [running]
    trivial

end

theorem gateTouch (gate : Gate fleet w) (may : May fleet i q w)
    (fair : applies w.db q = true → i.thread ∉ w.trail.lost) (later : Later w after)
    (touch : Touch w taskId q after) {r : TaskRow} (held : after.db.tasks.get taskId = some r) :
    ∀ s ∈ stepsOf taskId after.db, StepGate after r.status s := by
  intro s inside
  cases touch with
  | none status steps =>
    rw [statusOf,held] at status
    rw [steps] at inside
    exact gate.moved later status.symm inside (gate.gated status.symm inside).fits
  | created fresh status steps =>
    have pending := (steps s inside).1
    rw [statusNow held status]
    exact plainStep (by rw [pending]; nofun) (by rw [pending]; nofun) (.inl pending)
  | claimed was status steps =>
    rw [steps] at inside
    rw [statusNow held status]
    exact gate.moved later was inside trivial
  | written status steps applied =>
    obtain ⟨owned,blocked,idle⟩ := may
    obtain ⟨old,found,running⟩ := heldRunning gate.recorded owned.2 (fair applied)
    rw [steps] at inside
    rw [statusNow held status,blocked]
    exact gate.moved later (statusFound found) inside (idle (fair applied) s inside)
  | @finalized _ given _ _ status steps applied =>
    obtain ⟨owned,settled⟩ := may
    obtain ⟨old,found,running⟩ := heldRunning gate.recorded owned.2 (fair applied)
    rw [steps] at inside
    rw [statusNow held status]
    refine gate.moved later (statusFound found) inside ?_
    cases given <;> exact settled (fair applied) s inside
  | approved was status steps =>
    rw [steps] at inside
    rw [statusNow held status]
    exact gate.moved later was inside (gate.gated was inside).fits
  | reworked was status steps =>
    rw [steps] at inside
    obtain ⟨old,_,rfl⟩ := List.mem_map.mp inside
    rw [statusNow held status]
    exact plainStep nofun nofun fitsReset
  | retried was status steps =>
    rw [steps] at inside
    obtain ⟨old,listed,rfl⟩ := List.mem_map.mp inside
    rw [statusNow held status]
    exact gate.retried later was listed
  | recovered selected trail status steps =>
    rw [steps] at inside
    obtain ⟨old,listed,rfl⟩ := List.mem_map.mp inside
    rw [statusNow held status]
    exact gate.recovered later listed
  | @patched _ stepId patch m s0 row own status steps =>
    obtain ⟨owned,member,supported⟩ := may
    have applied : applies w.db (.updateRouteStep stepId patch) = true := by
      rw [applies,row]
      rfl
    obtain ⟨task,found,running⟩ := heldRunning gate.recorded (own ▸ owned s0 row) (fair applied)
    rw [steps] at inside
    obtain ⟨old,listed,rfl⟩ := List.mem_map.mp inside
    rw [statusNow held (status.trans (statusFound found))]
    exact gate.patched later (supported (fair applied)) found running listed

theorem turnTouch {c : Choice} (sound : Sound w.db) (fair : timely i c q w) :
    (respond i c w q).2 = w ∨ (applies w.db q = true → i.thread ∉ w.trail.lost) ∧
      ∀ taskId, Touch w taskId q (respond i c w q).2 := by
  cases busy : c.busy with
  | none => exact .inr ⟨fair busy,fun _ => respondTouch sound⟩
  | some error =>
    by_cases stored : storage q = true
    · exact .inl (OwnerFencing.busySame busy stored)
    · refine .inr ⟨fun applied => absurd ?_ stored,fun _ => respondTouch sound⟩
      cases q <;> first | rfl | exact absurd applied Bool.false_ne_true

theorem gateKept {c : Choice} (gate : Gate fleet w) (may : May fleet i q w)
    (fair : timely i c q w) : Gate fleet (respond i c w q).2 := by
  have later : Later w (respond i c w q).2 := respondLater gate.sound
  rcases turnTouch gate.sound fair with same | ⟨fair,touch⟩
  · rwa [same]
  · exact ⟨OwnerFencing.termsKept gate.recorded may.1,respondGrows.sound gate.sound,
      fun taskId r held => gateTouch gate may fair later (touch taskId) held⟩

end

end

end ControlCenter.EvidenceGate
