import ControlCenter.ExecutionQuestions
import ControlCenter.StoredPlans

/-! An attempt at a task that is answered as it asks comes to its end: it finds the task
at each reading, and what it could not write down it survives. -/
namespace ControlCenter.ExecutionProgress
open Protocol Table Db Dialogue Ports Coordinator Execution ScriptRuns StoredPlans

def Reads (I : ControlCenterDb → Prop) : (q : Question) → Answer q → Prop
  | .snapshot,db => I db
  | _,_ => True

def ReadsJointly (I : ControlCenterDb → Prop) :
    (q : Joint Question Answer String StepOutcome) →
      JointAnswer Question Answer String StepOutcome q → Prop
  | .inl q,a => Reads I q a
  | .inr _,_ => True

structure Stored (taskId : String) (db : ControlCenterDb) : Prop where
  planned : Planned db
  there : db.hasTask taskId = true

instance (taskId : String) (db : ControlCenterDb) : Decidable (Stored taskId db) :=
  decidable_of_iff (Planned db ∧ db.hasTask taskId = true)
    ⟨fun h => ⟨h.1,h.2⟩,fun h => ⟨h.planned,h.there⟩⟩

abbrev EndsWith {α : Type} (I : ControlCenterDb → Prop) (post : α → Prop) (p : Dialog α) : Prop :=
  Succeeds (fun _ => True) (Reads I) post p

abbrev Ends {α : Type} (I : ControlCenterDb → Prop) (p : Dialog α) : Prop :=
  EndsWith I (fun _ => True) p

abbrev JointlyEnds {α : Type} (I : ControlCenterDb → Prop) (post : α → Prop) (p : TaskCrew α) :
    Prop := Succeeds (fun _ => True) (ReadsJointly I) post p

section
variable {I : ControlCenterDb → Prop} {taskId : String}

theorem endsAlone {α : Type} {p : Dialog α} {post : α → Prop}
    (h : EndsWith I post p) : JointlyEnds I post p.alone :=
  succeedsAlone (fun _ asked => asked) (fun _ _ known => known) h

theorem readingEnds {α : Type} (f : ControlCenterDb → α) :
    EndsWith I (fun a => ∃ db, I db ∧ a = f db) (reading f) :=
  ⟨trivial,fun db held => ⟨db,held,rfl⟩⟩

theorem askEnds (q : Question) : Ends I (ask q) := succeedsAny (succeedsCall trivial)

theorem recalledEnds {α : Type} (f : Memory → α) : Ends I (recalled f) := ⟨trivial,fun _ _ => trivial⟩

theorem publishEnds (input : EventInput) : Ends I (publish input) := ⟨trivial,fun _ _ => trivial⟩

theorem attemptEnds {α : Type} (p : Dialog α) : Ends I p.attempt := succeedsAttempt (asksAny p)

def Found (I : ControlCenterDb → Prop) (taskId : String) (found : Option TaskAggregate) : Prop :=
  ∃ aggregate, found = some aggregate ∧
    ∃ db row, I db ∧ db.tasks.get taskId = some row ∧ aggregate.task = taskFromRow row

theorem getTaskEnds (stored : ∀ db, I db → Stored taskId db) :
    EndsWith I (Found I taskId) (getTask taskId) := by
  refine succeedsBind (readingEnds _) fun found ⟨db,held,same⟩ => ?_
  subst same
  obtain ⟨row,there⟩ := Option.isSome_iff_exists.mp (stored db held).there
  rw [there]
  refine succeedsBind (readingEnds _) fun steps ⟨later,kept,same⟩ => ?_
  subst same
  refine succeedsBind (readingEnds _) fun runs _ => succeedsBind (readingEnds _) fun artifacts _ =>
    succeedsBind (readingEnds _) fun messages _ => succeedsBind (readingEnds _) fun reviews _ => ?_
  rw [planRead (stored later kept).planned (stored later kept).there]
  exact ⟨_,rfl,db,row,held,there,rfl⟩

theorem failureEnds (failure : StepOutcome) (outcomes : List StepOutcome) :
    Ends I (blockForFailure taskId failure outcomes) :=
  succeedsBind (attemptEnds _) fun _ _ => succeedsBind (askEnds _) fun _ _ =>
    succeedsBind (publishEnds _) fun _ _ => trivial

section
variable (stored : ∀ db, I db → Stored taskId db) (outcomes : List StepOutcome)
include stored

theorem shutdownEnds : Ends I (blockForShutdown taskId outcomes) := by
  refine succeedsBind (attemptEnds _) fun handoff _ =>
    succeedsBind (getTaskEnds stored) fun found ⟨aggregate,same,_⟩ => ?_
  subst same
  dsimp only
  split
  · exact succeedsBind (askEnds _) fun _ _ => succeedsBind (publishEnds _) fun _ _ => trivial
  · exact succeedsBind (publishEnds _) fun _ _ => trivial

theorem finishEnds : Ends I (finishExecution taskId outcomes) := by
  refine succeedsBind (recalledEnds _) fun stopping _ => ?_
  split
  · exact shutdownEnds stored outcomes
  refine succeedsBind (getTaskEnds stored) fun found ⟨refreshed,same,_⟩ => ?_
  subst same
  refine succeedsBind (attemptEnds _) fun handoff _ => ?_
  cases handoff with
  | error error =>
    exact succeedsBind (askEnds _) fun _ _ => succeedsBind (publishEnds _) fun _ _ => trivial
  | ok path =>
    exact succeedsBind (askEnds _) fun _ _ => succeedsBind (publishEnds _) fun _ _ => trivial

end

theorem sequencesEnd {task : TaskRow} (stored : ∀ db, I db → Stored task.id db) (o : Options)
    (pending : List RouteStepRow) (sequences : List Nat) (c : Carried) :
    JointlyEnds I (fun _ => True) (runSequences o task pending sequences c) := by
  induction sequences generalizing c with
  | nil => exact endsAlone (finishEnds stored _)
  | cons sequence rest ih =>
    refine succeedsBind (endsAlone (recalledEnds _)) fun stopping _ => ?_
    split
    · exact endsAlone (shutdownEnds stored _)
    refine succeedsBind (M := fun _ => True) ⟨trivial,fun _ _ => trivial⟩ fun outcomes _ =>
      succeedsBind (endsAlone (recalledEnds _)) fun stopping _ => ?_
    split
    · exact endsAlone (shutdownEnds stored _)
    · split
      · exact endsAlone (failureEnds _ _)
      · exact ih _

def executeFound (o : Options) (taskId : String) : Option TaskAggregate → TaskCrew RunTaskResult
  | none => .fail s!"Task not found: {taskId}"
  | some aggregate =>
    if aggregate.task.status ≠ .running then
      .fail s!"Task {taskId} must be claimed before execution"
    else if aggregate.task.claimedBy ≠ some o.workerId then
      .fail (s!"Task {taskId} is claimed by " ++ aggregate.task.claimedBy.getD "nobody" ++
        s!", not {o.workerId}")
    else do
      if ← shutdownRequested.alone then (blockForShutdown taskId []).alone
      else do
        let _ ← (ask (.heartbeatTask taskId o.workerId)).alone
        executeClaimedTask o aggregate

theorem executeParts (o : Options) (taskId : String) :
    executeTask o taskId = (getTask taskId).alone >>= executeFound o taskId := rfl

theorem executionTaskId (aggregate : TaskAggregate) :
    (executionTask aggregate).id = aggregate.task.id := by
  unfold executionTask
  dsimp only
  split <;> rfl

theorem foundEnds {aggregate : TaskAggregate} {o : Options}
    (stored : ∀ db, I db → Stored aggregate.task.id db) (running : aggregate.task.status = .running)
    (mine : aggregate.task.claimedBy = some o.workerId) :
    JointlyEnds I (fun _ => True) (executeFound o aggregate.task.id (some aggregate)) := by
  unfold executeFound
  dsimp only
  rw [if_neg (not_not_intro running),if_neg (not_not_intro mine)]
  refine succeedsBind (endsAlone (recalledEnds _)) fun stopping _ => ?_
  split
  · exact endsAlone (shutdownEnds stored _)
  · refine succeedsBind (endsAlone (askEnds _)) fun _ _ => sequencesEnd ?_ o _ _ _
    rw [executionTaskId]
    exact stored

end

end ControlCenter.ExecutionProgress
