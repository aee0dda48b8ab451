import ControlCenter.StepOrder

/-! A shutdown in the middle of an attempt, and the retry of the blocked task: which of the
attempt's steps the next attempt runs. -/
namespace ControlCenter.Interruptions
open Protocol Table Db DbReviews DbRuns Dialogue Reliance Ports Coordinator Execution
open ControlCenter.System ExecutionQuestions RunLogic StepOrder Interference
open AccpEnvelope (exceptBind)

def stepState (db : ControlCenterDb) (stepId : String) : Option (String × RouteStepStatus) :=
  (db.routeSteps.get stepId).map fun s => (s.taskId,s.status)

def taskStatus (db : ControlCenterDb) (taskId : String) : Option TaskStatus :=
  (db.tasks.get taskId).map TaskRow.status

structure Claimed (aggregate : TaskAggregate) (db : ControlCenterDb) : Prop where
  running : taskStatus db aggregate.task.id = some .running
  pending : ∀ t ∈ pendingSteps aggregate, stepState db t.id = some (aggregate.task.id,.pending)

structure Leaves (aggregate : TaskAggregate) (w next : World) : Prop where
  task : taskStatus next.db aggregate.task.id = taskStatus w.db aggregate.task.id
  steps : ∀ t ∈ pendingSteps aggregate, stepState next.db t.id = stepState w.db t.id

def Undisturbed (aggregate : TaskAggregate) (a : Attempt) : StepOrder.Event → Prop
  | .others world => Leaves aggregate a.world world
  | _ => True

def Attempts : Question → Prop
  | .createTask .. | .claimNextTask _ | .heartbeatTask .. | .recoverStaleTasks ..
  | .recoverTasksOwnedBy .. | .approveTaskReview .. | .requestTaskRework ..
  | .retryBlockedTask .. => False
  | _ => True

def movesTask : Question → Bool
  | .updateTaskStatus .. | .finalizeTaskExecution .. => true
  | _ => false

def movesStep (stepId : String) : Question → Bool
  | .updateRouteStep target _ => target == stepId
  | _ => false

theorem closesAttempts {q : Question} (closes : Closes q) : Attempts q := by
  cases q <;> trivial

theorem closesSteps {q : Question} (closes : Closes q) (stepId : String) :
    movesStep stepId q = false := by
  cases q <;> first | rfl | exact closes.elim

theorem mayAttempts {t : RouteStepRow} {prior : List PriorResult} {s : Seen} {q : Question}
    (may : MayAsk t prior s q) : Attempts q := by
  cases q <;> trivial

theorem mayTask {t : RouteStepRow} {prior : List PriorResult} {s : Seen} {q : Question}
    (may : MayAsk t prior s q) : movesTask q = false := by
  cases q <;> first | rfl | exact may.elim

theorem maySteps {t : RouteStepRow} {prior : List PriorResult} {s : Seen} {q : Question}
    (may : MayAsk t prior s q) {stepId : String} (other : stepId ≠ t.id) :
    movesStep stepId q = false := by
  cases q with
  | updateRouteStep target patch =>
    have own : target = t.id := may
    exact beq_eq_false_iff_ne.mpr fun same => other (same.symm.trans own)
  | _ => rfl

section
variable {m : Moment} {db next : ControlCenterDb}

theorem artifactSteps {input : ArtifactInput} {row : ArtifactRow}
    (h : DbReviews.addArtifact m input db = .ok (row,next)) : next.routeSteps = db.routeSteps := by
  unfold DbReviews.addArtifact at h
  split at h
  · cases h
  split at h
  · cases h
  obtain ⟨_,_,h⟩ := exceptBind h
  split at h
  · split at h
    · cases Except.ok.inj h
      rfl
    · cases h
  · obtain ⟨_,_,h⟩ := exceptBind h
    obtain ⟨_,_,h⟩ := exceptBind h
    cases Except.ok.inj h
    rfl

theorem newRunSteps {input : CreateRunInput} {run : RunRow}
    (h : Db.createRun m input db = .ok (run,next)) : next.routeSteps = db.routeSteps := by
  obtain ⟨_,_,h⟩ := exceptBind h
  obtain ⟨_,_,h⟩ := exceptBind h
  cases Except.ok.inj h
  rfl

theorem runSteps {runId : String} {patch : RunPatch} {run : RunRow}
    (h : Db.updateRun m runId patch db = .ok (run,next)) : next.routeSteps = db.routeSteps := by
  obtain ⟨_,_,h⟩ := exceptBind h
  obtain ⟨_,_,h⟩ := exceptBind h
  cases Except.ok.inj h
  rfl

theorem eventSteps {taskId : String} {runId : Option String} {type : String} {level : EventLevel}
    {message : String} {data : Option JsonValue.Json} {createdAt : Int}
    (h : db.insertEvent taskId runId type level message data createdAt = .ok next) :
    next.routeSteps = db.routeSteps := by
  obtain ⟨_,_,last⟩ := exceptBind h
  cases Except.ok.inj last
  rfl

theorem statusSteps {taskId latestUpdate : String} {status : TaskStatus}
    (h : Db.updateTaskStatus m taskId status latestUpdate db = .ok next) :
    next.routeSteps = db.routeSteps := by
  obtain ⟨_,_,h⟩ := exceptBind h
  obtain ⟨_,_,last⟩ := exceptBind h
  cases Except.ok.inj last
  rfl

theorem finalizeSteps {taskId latestUpdate : String} {status : FinalStatus}
    {runId : Option String}
    (h : DbReviews.finalizeTaskExecution m taskId status latestUpdate runId db = .ok next) :
    next.routeSteps = db.routeSteps := by
  obtain ⟨task,_,h⟩ := exceptBind h
  dsimp only at h
  split at h
  · cases h
  cases status with
  | done =>
    cases Except.ok.inj h
    rfl
  | needsReview =>
    obtain ⟨reviewed,opening,h⟩ := exceptBind h
    cases Except.ok.inj h
    obtain ⟨_,_,opening⟩ := exceptBind opening
    obtain ⟨_,_,opened⟩ := exceptBind opening
    cases Except.ok.inj opened
    rfl

theorem updatedState {test : RouteStepRow → Bool} {f : RouteStepRow → RouteStepRow}
    {same : ∀ s, (f s).id = s.id} (stepId : String) :
    stepState {db with routeSteps := db.routeSteps.update test f same} stepId =
      (db.routeSteps.get stepId).map fun s =>
        ((if test s then f s else s).taskId,(if test s then f s else s).status) := by
  show ((db.routeSteps.update test f same).get stepId).map _ = _
  rw [getUpdate,Option.map_map]
  rfl

theorem writtenState {stepId : String} {patch : StepPatch}
    (h : Db.updateRouteStep m stepId patch db = .ok next) (other : String) :
    stepState next other = if stepId = other then
      (stepState db other).map fun s => (s.1,patch.status.getD s.2) else stepState db other := by
  obtain ⟨_,_,last⟩ := exceptBind h
  cases Except.ok.inj last
  refine (updatedState other).trans ?_
  unfold stepState
  cases found : db.routeSteps.get other with
  | none =>
    split <;> rfl
  | some row =>
    have keyed : row.id = other := (getSome.mp found).2
    by_cases same : stepId = other
    · have here : (row.id == stepId) = true := beq_iff_eq.mpr (keyed.trans same.symm)
      simp only [Option.map_some,here,if_true,if_pos same]
      rfl
    · have elsewhere : (row.id == stepId) = false :=
        beq_eq_false_iff_ne.mpr fun equal => same (equal.symm.trans keyed)
      simp only [Option.map_some,elsewhere,Bool.false_eq_true,if_false,if_neg same]

end

section
variable {n : ThreadId} {who : Option String} {c : Choice} {w : World} {P : ControlCenterDb → Prop}

theorem storedKept {α : Type} {note : α → Trail} {r : Outcome (α × ControlCenterDb)}
    (before : P w.db) (after : ∀ a db, r = .ok (a,db) → P db) : P (stored w note r).2.db := by
  rcases r with error | ⟨a,db⟩
  · exact before
  · exact after a db rfl

theorem writtenKept {note : Trail} {r : Outcome ControlCenterDb} (before : P w.db)
    (after : ∀ db, r = .ok db → P db) : P (written w note r).2.db := by
  cases r with
  | error error => exact before
  | ok db => exact after db rfl

theorem answerState {q : Question} (attempts : Attempts q) {stepId : String}
    (still : movesStep stepId q = false) :
    stepState (answer ⟨n,who⟩ c w q).2.db stepId = stepState w.db stepId := by
  have kept {db : ControlCenterDb} (same : db.routeSteps = w.db.routeSteps) :
      stepState db stepId = stepState w.db stepId := by
    unfold stepState
    rw [same]
  let Q (db : ControlCenterDb) : Prop := stepState db stepId = stepState w.db stepId
  cases q with
  | updateRouteStep target patch =>
    have other : ¬target = stepId := by simpa [movesStep] using still
    exact writtenKept (P := Q) rfl
      fun db h => (writtenState h stepId).trans (if_neg other)
  | createRun => exact storedKept (P := Q) rfl fun _ _ h => kept (newRunSteps h)
  | updateRun => exact storedKept (P := Q) rfl fun _ _ h => kept (runSteps h)
  | addArtifact => exact storedKept (P := Q) rfl fun _ _ h => kept (artifactSteps h)
  | appendEvent => exact writtenKept (P := Q) rfl fun _ h => kept (eventSteps h)
  | updateTaskStatus => exact writtenKept (P := Q) rfl fun _ h => kept (statusSteps h)
  | finalizeTaskExecution => exact writtenKept (P := Q) rfl fun _ h => kept (finalizeSteps h)
  | createWorktree => exact congrArg (stepState · stepId) newWorktreeSame
  | stopAdapter => exact congrArg (stepState · stepId) repliedSame
  | collectResult => exact congrArg (stepState · stepId) repliedSame
  | assertSourceUnchanged => exact congrArg (stepState · stepId) repliedSame
  | createTask | claimNextTask | heartbeatTask | recoverStaleTasks | recoverTasksOwnedBy
  | approveTaskReview | requestTaskRework | retryBlockedTask => exact attempts.elim
  | _ => rfl

theorem answerTask {q : Question} (attempts : Attempts q) (still : movesTask q = false)
    (taskId : String) : taskStatus (answer ⟨n,who⟩ c w q).2.db taskId = taskStatus w.db taskId := by
  have kept {db : ControlCenterDb} (same : db.tasks = w.db.tasks) :
      taskStatus db taskId = taskStatus w.db taskId := by
    unfold taskStatus
    rw [same]
  let Q (db : ControlCenterDb) : Prop := taskStatus db taskId = taskStatus w.db taskId
  cases q with
  | updateRouteStep => exact writtenKept (P := Q) rfl fun _ h => kept (stepTasks h)
  | createRun => exact storedKept (P := Q) rfl fun _ _ h => kept (newRunTasks h)
  | updateRun => exact storedKept (P := Q) rfl fun _ _ h => kept (runTasks h)
  | addArtifact => exact storedKept (P := Q) rfl fun _ _ h => kept (artifactTasks h)
  | appendEvent => exact writtenKept (P := Q) rfl fun _ h => kept (eventTasks h)
  | createWorktree => exact congrArg (taskStatus · taskId) newWorktreeSame
  | stopAdapter => exact congrArg (taskStatus · taskId) repliedSame
  | collectResult => exact congrArg (taskStatus · taskId) repliedSame
  | assertSourceUnchanged => exact congrArg (taskStatus · taskId) repliedSame
  | createTask | claimNextTask | heartbeatTask | recoverStaleTasks | recoverTasksOwnedBy
  | approveTaskReview | requestTaskRework | retryBlockedTask => exact attempts.elim
  | updateTaskStatus | finalizeTaskExecution => exact absurd still.symm Bool.false_ne_true
  | _ => rfl

theorem respondState {q : Question} (attempts : Attempts q) {stepId : String}
    (still : movesStep stepId q = false) :
    stepState (respond ⟨n,who⟩ c w q).2.db stepId = stepState w.db stepId := by
  unfold respond
  split
  · split
    · rfl
    · exact answerState attempts still
  · exact answerState attempts still

theorem respondTask {q : Question} (attempts : Attempts q) (still : movesTask q = false)
    (taskId : String) :
    taskStatus (respond ⟨n,who⟩ c w q).2.db taskId = taskStatus w.db taskId := by
  unfold respond
  split
  · split
    · rfl
    · exact answerTask attempts still taskId
  · exact answerTask attempts still taskId

theorem respondOwn {t : RouteStepRow} {prior : List PriorResult} {s : Seen} {q : Question}
    (may : MayAsk t prior s q) {taskId : String} (held : stepState w.db t.id = some (taskId,s.status)) :
    stepState (respond ⟨n,who⟩ c w q).2.db t.id =
      some (taskId,(s.hears q (respond ⟨n,who⟩ c w q).1).status) := by
  by_cases own : ∃ patch, q = .updateRouteStep t.id patch
  · obtain ⟨patch,rfl⟩ := own
    have wrote : stepState (answer ⟨n,who⟩ c w (.updateRouteStep t.id patch)).2.db t.id =
        some (taskId,(s.hears (.updateRouteStep t.id patch)
          (answer ⟨n,who⟩ c w (.updateRouteStep t.id patch)).1).status) := by
      show stepState (written w w.trail (Db.updateRouteStep ⟨c.now,c.uuid⟩ t.id patch w.db)).2.db
        t.id = some (taskId,(s.hears (.updateRouteStep t.id patch) (written w w.trail
          (Db.updateRouteStep ⟨c.now,c.uuid⟩ t.id patch w.db)).1).status)
      cases written_ : Db.updateRouteStep ⟨c.now,c.uuid⟩ t.id patch w.db with
      | error error => exact held
      | ok db =>
        refine (writtenState written_ t.id).trans ?_
        rw [if_pos rfl,held]
        rfl
    unfold respond
    split
    · rw [if_pos (show storage (.updateRouteStep t.id patch) = true from rfl)]
      exact held
    · exact wrote
  · have still : movesStep t.id q = false := by
      cases q with
      | updateRouteStep target patch =>
        have same : target = t.id := may
        exact absurd ⟨patch,by rw [same]⟩ own
      | _ => rfl
    have heard (r : Except String (Answer q)) : (s.hears q r).status = s.status := by
      cases q with
      | updateRouteStep target patch =>
        have same : target = t.id := may
        exact absurd ⟨patch,by rw [same]⟩ own
      | _ => cases r <;> rfl
    rw [heard,respondState (mayAttempts may) still]
    exact held

end

structure Tally (o : Options) (aggregate : TaskAggregate) (db : ControlCenterDb) (log : List Mark) :
    Prop where
  rows : ∀ t ∈ pendingSteps aggregate,
    stepState db t.id = some (aggregate.task.id,(seen t.id log).status)
  finished : ∀ t ∈ pendingSteps aggregate, ∀ out ∈ endings t.id log,
    Finished o t (seen t.id log) out

structure Closed (a : Attempt) : Prop where
  alone : Asks Alone a.job.main
  orphans : a.job.orphans = []
  ended : ∀ stepId ∈ begun a.log, endings stepId a.log ≠ []

structure Held (o : Options) (aggregate : TaskAggregate) (a : Attempt) : Prop where
  tally : Tally o aggregate a.world.db a.log
  closing : Asks Alone a.job.main → (∃ error, a.job.main = .fail error) ∨ Closed a
  working : taskStatus a.world.db aggregate.task.id = some .running ∨ Closed a

section
variable {n : ThreadId} {o : Options} {aggregate : TaskAggregate} {log : List Mark}

theorem stageEnded {q : Question} {next : Except String (Answer q) → TaskCrew Unit}
    (stage : Stage o aggregate log (.ask (.inl q) next)) :
    ∀ stepId ∈ begun log, endings stepId log ≠ [] := by
  have each {before : List Nat} {c : Carried} (carries : Carries aggregate before c log)
      (started : Started aggregate before log) :
      ∀ stepId ∈ begun log, endings stepId log ≠ [] := by
    intro stepId inside
    rw [started] at inside
    obtain ⟨t,listed,rfl⟩ := List.mem_map.mp inside
    obtain ⟨outcome,ends⟩ := carries.ended t listed
    rw [ends]
    exact List.cons_ne_nil _ _
  generalize same : (.ask (.inl q) next : TaskCrew Unit) = main at stage
  cases stage with
  | ready _ carries _ started _ => exact each carries started
  | checking _ carries _ started _ => exact each carries started
  | working => cases same

theorem stageAsks {q : Question} {next : Except String (Answer q) → TaskCrew Unit}
    (stage : Stage o aggregate log (.ask (.inl q) next)) : Closes q ∧ movesTask q = false := by
  generalize same : (.ask (.inl q) next : TaskCrew Unit) = main at stage
  cases stage with
  | ready _ _ _ _ equal =>
    rw [equal,sequencesLook] at same
    cases same
    exact ⟨fun _ => rfl,rfl⟩
  | checking _ _ _ _ equal =>
    rw [equal,groupLook] at same
    cases same
    exact ⟨fun _ => rfl,rfl⟩
  | working => cases same

theorem tallyApart {db : ControlCenterDb} {mark : Mark} (tally : Tally o aggregate db log)
    (apart : ∀ stepId, Apart stepId mark) : Tally o aggregate db (log ++ [mark]) where
  rows t listed := by
    rw [seenAppend,(apart t.id).2]
    exact tally.rows t listed
  finished t listed out inside := by
    rw [endingsApart (apart t.id).1] at inside
    rw [seenAppend,(apart t.id).2]
    exact tally.finished t listed out inside

theorem tallyStates {db next : ControlCenterDb} (tally : Tally o aggregate db log)
    (same : ∀ t ∈ pendingSteps aggregate, stepState next t.id = stepState db t.id) :
    Tally o aggregate next log where
  rows t listed := (same t listed).trans (tally.rows t listed)
  finished := tally.finished

theorem endedApart {mark : Mark} (ended : ∀ stepId ∈ begun log, endings stepId log ≠ [])
    (quiet : begunOf mark = []) (apart : ∀ stepId, endingOf stepId mark = none) :
    ∀ stepId ∈ begun (log ++ [mark]), endings stepId (log ++ [mark]) ≠ [] := by
  intro stepId inside
  rw [endingsApart (apart stepId)]
  rw [begunAppend] at inside
  simp only [begun,List.flatMap_cons,List.flatMap_nil,quiet,List.append_nil] at inside
  exact ended stepId inside

@[simp] theorem lastSeen (stepId other : String) (c : Script Question Answer StepOutcome) :
    seen other (log ++ lastMark stepId c) = seen other log := by
  cases c with
  | done outcome => exact seenAppend
  | fail error => exact congrArg (seen other) (List.append_nil log)
  | ask q next => exact congrArg (seen other) (List.append_nil log)

theorem flightTally (distinct : ((pendingSteps aggregate).map RouteStepRow.id).Nodup)
    {stepId : String} {q : Question} {next : Except String (Answer q) → Script Question Answer StepOutcome}
    {c : Choice} {w : World} (flies : Flies o aggregate log (stepId,.ask q next))
    (tally : Tally o aggregate w.db log) :
    Tally o aggregate (respond ⟨n,some stepId⟩ c w q).2.db
      (log ++ [.asked (some stepId) q (respond ⟨n,some stepId⟩ c w q).1] ++
        lastMark stepId (next (respond ⟨n,some stepId⟩ c w q).1)) ∧
    taskStatus (respond ⟨n,some stepId⟩ c w q).2.db aggregate.task.id =
      taskStatus w.db aggregate.task.id := by
  obtain ⟨⟨t,rfl,owned⟩,flies'⟩ := fliesAsked flies (respond ⟨n,some stepId⟩ c w q).1
  obtain ⟨first,members,rest,_,_,may⟩ := owned.may
  refine ⟨⟨fun t' listed => ?_,fun t' listed out inside => ?_⟩,
    respondTask (mayAttempts may) (mayTask may) _⟩
  · rw [lastSeen,seenAppend]
    by_cases same : t.id = t'.id
    · have equal : t' = t := List.inj_on_of_nodup_map distinct listed owned.pending same.symm
      subst equal
      rw [hears,if_pos rfl]
      exact respondOwn may (tally.rows t' listed)
    · rw [hears,if_neg same,respondState (mayAttempts may) (maySteps may (Ne.symm same))]
      exact tally.rows t' listed
  · have asked_ : endings t'.id (log ++ [.asked (some t.id) q (respond ⟨n,some t.id⟩ c w q).1]) =
        endings t'.id log := endingsApart rfl
    rw [endingsAppend,asked_] at inside
    by_cases same : t.id = t'.id
    · have equal : t' = t := List.inj_on_of_nodup_map distinct listed owned.pending same.symm
      subst equal
      rw [owned.unended,List.nil_append] at inside
      cases script : next (respond ⟨n,some t'.id⟩ c w q).1 with
      | done outcome =>
        rw [script] at inside flies'
        have ended : out = outcome := by simpa [lastMark,endings,endingOf] using inside
        subst ended
        obtain ⟨t₂,known,own,_,_,_,_,_,leads⟩ := flies'.goes
        have equal : t₂ = t' := List.inj_on_of_nodup_map distinct known listed own.symm
        subst equal
        exact fliesFinished leads
      | fail error =>
        rw [script] at inside
        cases inside
      | ask q' next' =>
        rw [script] at inside
        cases inside
    · have none_ : endings t'.id (lastMark t.id (next (respond ⟨n,some t.id⟩ c w q).1)) = [] := by
        cases next (respond ⟨n,some t.id⟩ c w q).1 with
        | done outcome => simp [lastMark,endings,endingOf,same]
        | _ => rfl
      rw [none_,List.append_nil] at inside
      rw [lastSeen,seenAppend,hears,if_neg same]
      exact tally.finished t' listed out inside

theorem settledTally {db : ControlCenterDb} {job : Job} (tally : Tally o aggregate db log) :
    Tally o aggregate db (log ++ settled .main job) := by
  obtain ⟨main,orphans⟩ := job
  have none_ (same : settled .main ⟨main,orphans⟩ = []) :
      Tally o aggregate db (log ++ settled .main ⟨main,orphans⟩) := by
    rw [same,List.append_nil]
    exact tally
  cases main with
  | ask q next =>
    cases q with
    | inl q => exact none_ rfl
    | inr members => exact tallyApart tally fun _ => ⟨rfl,fun _ => rfl⟩
  | done a => exact none_ rfl
  | fail error => exact none_ rfl

theorem turnHeld (distinct : ((pendingSteps aggregate).map RouteStepRow.id).Nodup)
    {pick : Pick String} {c : Choice} {job job' : Job} {w after : World}
    (standing : Standing n o aggregate ⟨job,w,log⟩) (held : Held o aggregate ⟨job,w,log⟩)
    (moved : Moved (fun who q w => respond ⟨n,who⟩ c w q) w pick job job' after) :
    Held o aggregate
      ⟨job',after,log ++ answered n c w (asked pick job) ++ settled pick job'⟩ := by
  obtain ⟨tally,closing,working⟩ := held
  cases moved with
  | @main q next orphans =>
    have marks : answered n c w (asked .main ⟨(.ask (.inl q) next : TaskCrew Unit),orphans⟩) =
        [.asked none q (respond ⟨n,none⟩ c w q).1] := rfl
    rw [marks]
    have known : Closes q ∧ orphans = [] ∧ (∀ stepId ∈ begun log, endings stepId log ≠ []) ∧
        (movesTask q = false ∨ Asks Alone (.ask (.inl q) next : TaskCrew Unit)) := by
      rcases standing.stage with ⟨none_,stage⟩ | asks
      · obtain ⟨closes,still⟩ := stageAsks stage
        exact ⟨closes,none_,stageEnded stage,.inl still⟩
      · rcases closing asks with ⟨error,same⟩ | closed
        · cases same
        · exact ⟨asks.1,closed.orphans,closed.ended,.inr asks⟩
    obtain ⟨closes,none_,ended,moves⟩ := known
    have closed (alone : Asks Alone (next (respond ⟨n,none⟩ c w q).1)) :
        Closed ⟨⟨next (respond ⟨n,none⟩ c w q).1,orphans⟩,(respond ⟨n,none⟩ c w q).2,
          log ++ [.asked none q (respond ⟨n,none⟩ c w q).1] ++
            settled .main ⟨next (respond ⟨n,none⟩ c w q).1,orphans⟩⟩ := by
      rw [settledAlone alone,List.append_nil]
      exact ⟨alone,none_,endedApart ended rfl fun _ => rfl⟩
    have states : Tally o aggregate (respond ⟨n,none⟩ c w q).2.db log :=
      tallyStates tally fun t _ => respondState (closesAttempts closes) (closesSteps closes t.id)
    refine ⟨settledTally (tallyApart states askedApart),fun alone => .inr (closed alone),?_⟩
    rcases moves with still | asks
    · rcases working with running | before
      · exact .inl ((respondTask (closesAttempts closes) still _).trans running)
      · exact .inr (closed (before.alone.2 _))
    · exact .inr (closed (asks.2 _))
  | @member stepId members orphans q next rest found =>
    rw [memberAdds found]
    obtain ⟨tally,task⟩ := flightTally distinct (c := c) (standing.flights _
      (List.mem_append_left _ (memberListed found))) tally
    refine ⟨tally,fun alone => alone.1.elim,.inl (task.trans (working.resolve_right ?_))⟩
    exact fun closed => closed.alone.1.elim
  | @join members orphans all next joined =>
    show Held o aggregate ⟨⟨next (.ok all),orphans⟩,w,log ++ [] ++ []⟩
    rw [List.append_nil,List.append_nil]
    have running := working.resolve_right fun closed => closed.alone.1.elim
    obtain ⟨rfl,stage⟩ := waitingStage standing
    obtain ⟨stage,f,same⟩ := joinStage distinct stage joined fun m inside =>
      standing.flights m (List.mem_append_left _ inside)
    refine ⟨tally,fun alone => .inr ⟨alone,rfl,?_⟩,.inl running⟩
    rw [same] at stage
    exact stageEnded stage
  | @reject stepId members orphans error next failed =>
    show Held o aggregate ⟨⟨next (.error error),_⟩,w,log ++ [] ++ []⟩
    rw [List.append_nil,List.append_nil]
    have running := working.resolve_right fun closed => closed.alone.1.elim
    obtain ⟨_,stage⟩ := waitingStage standing
    obtain ⟨_,_,_,_,works⟩ := workingSource stage
    exact ⟨tally,fun _ => .inl ⟨error,works.rejects error⟩,.inl running⟩
  | @orphan stepId main orphans q rest found =>
    rw [orphanAdds found]
    have left (closed : Closed ⟨⟨main,orphans⟩,w,log⟩) : False := by
      have none_ : orphans = [] := closed.orphans
      rw [none_] at found
      cases found
    obtain ⟨tally,task⟩ := flightTally distinct (c := c) (standing.flights _
      (List.mem_append_right _ (memberListed found))) tally
    exact ⟨tally,fun alone => .inl ((closing alone).resolve_right left),
      .inl (task.trans (working.resolve_right left))⟩

theorem stepHeld (distinct : ((pendingSteps aggregate).map RouteStepRow.id).Nodup) (a : Attempt)
    (e : StepOrder.Event) (standing : Standing n o aggregate a) (held : Held o aggregate a)
    (undisturbed : Undisturbed aggregate a e) : Held o aggregate (step n a e) := by
  cases e with
  | turn pick c =>
    simp only [StepOrder.step]
    split
    next job world advanced => exact turnHeld distinct standing held (advanceMoved advanced)
    next => exact held
  | others world =>
    exact ⟨tallyStates held.tally undisturbed.steps,
      fun alone => (held.closing alone).imp id fun closed => ⟨closed.alone,closed.orphans,closed.ended⟩,
      held.working.imp undisturbed.task.trans
        fun closed => ⟨closed.alone,closed.orphans,closed.ended⟩⟩
  | requestShutdown =>
    have stays (closed : Closed a) : Closed (step n a .requestShutdown) :=
      ⟨closed.alone,closed.orphans,endedApart closed.ended rfl fun _ => rfl⟩
    exact ⟨tallyApart held.tally fun _ => ⟨rfl,fun _ => rfl⟩,
      fun alone => (held.closing alone).imp id stays,held.working.imp id stays⟩

end

def toRun (taskId : String) (db : ControlCenterDb) : List RouteStepRow :=
  (listRouteSteps taskId db).filter fun s => s.status == .pending

theorem toRunIff {taskId stepId : String} {db : ControlCenterDb} :
    stepId ∈ (toRun taskId db).map RouteStepRow.id ↔
      stepState db stepId = some (taskId,.pending) := by
  unfold toRun listRouteSteps stepState
  constructor
  · intro inside
    obtain ⟨row,listed,rfl⟩ := List.mem_map.mp inside
    obtain ⟨listed,pending⟩ := List.mem_filter.mp listed
    obtain ⟨there,own⟩ := List.mem_filter.mp ((List.mem_insertionSort _).mp listed)
    have found : db.routeSteps.get row.id = some row := getSome.mpr ⟨there,rfl⟩
    rw [found,Option.map_some,beq_iff_eq.mp own,beq_iff_eq.mp pending]
  · intro state
    obtain ⟨row,found,same⟩ := Option.map_eq_some_iff.mp state
    obtain ⟨rfl,pending⟩ := Prod.mk.inj same
    obtain ⟨there,rfl⟩ := getSome.mp found
    refine List.mem_map.mpr ⟨row,List.mem_filter.mpr ⟨?_,beq_iff_eq.mpr pending⟩,rfl⟩
    exact (List.mem_insertionSort _).mpr (List.mem_filter.mpr ⟨there,beq_self_eq_true _⟩)

inductive Resumed (o : Options) (aggregate : TaskAggregate) (log : List Mark)
    (db : ControlCenterDb) (t : RouteStepRow) : Prop
  | again (listed : t.id ∈ (toRun aggregate.task.id db).map RouteStepRow.id)
  | finished (succeeded : stepState db t.id = some (aggregate.task.id,.succeeded))
  | unavailable (skipped : stepState db t.id = some (aggregate.task.id,.skipped))
      (cause : o.registered t.agent = false ∨ (seen t.id log).unavailable = true)

section
variable {m : Moment} {db next : ControlCenterDb} {taskId body : String} {note : Option String}
  {allow : Bool}

theorem retriedBlocked (h : DbReviews.retryBlockedTask m taskId note allow db = .ok (body,next)) :
    taskStatus db taskId = some .blocked := by
  obtain ⟨task,found_,h⟩ := exceptBind h
  unfold taskStatus
  cases held : db.tasks.get taskId with
  | none =>
    rw [held] at found_
    cases found_
  | some row =>
    rw [held] at found_
    cases Except.ok.inj found_
    split at h
    · cases h
    next blocked => exact congrArg some (not_not.mp blocked)

theorem retriedState (h : DbReviews.retryBlockedTask m taskId note allow db = .ok (body,next))
    {stepId : String} {status : RouteStepStatus} (state : stepState db stepId = some (taskId,status)) :
    stepState next stepId =
      some (taskId,if status = .failed then .pending else status) := by
  obtain ⟨task,_,h⟩ := exceptBind h
  split at h
  · cases h
  split at h
  · cases h
  obtain ⟨noted,noting,h⟩ := exceptBind h
  cases Except.ok.inj h
  have same : noted.routeSteps = db.routeSteps := by
    obtain ⟨_,_,noting⟩ := exceptBind noting
    obtain ⟨_,_,last⟩ := exceptBind noting
    cases Except.ok.inj last
    rfl
  show stepState (resetSteps m (fun s => s.taskId == taskId && s.status == .failed) noted) stepId = _
  refine (updatedState stepId).trans ?_
  unfold stepState at state
  rw [same]
  obtain ⟨row,found,held⟩ := Option.map_eq_some_iff.mp state
  obtain ⟨rfl,rfl⟩ := Prod.mk.inj held
  rw [found,Option.map_some,beq_self_eq_true,Bool.true_and]
  by_cases failed : row.status = .failed
  · rw [if_pos failed,if_pos (beq_iff_eq.mpr failed)]
  · rw [if_neg failed,if_neg (by simpa using failed)]

end

section
variable {n : ThreadId} {o : Options} {aggregate : TaskAggregate}

theorem attemptHeld (w : World) (claimed : Claimed aggregate w.db) :
    Held o aggregate (attempt n o aggregate w) := by
  have standing := attemptStanding (n := n) o aggregate w
  have unbegun (stepId : String) : stepId ∉ begun (attempt n o aggregate w).log := by
    unfold attempt
    dsimp only
    split <;> exact List.not_mem_nil
  refine ⟨⟨fun t listed => ?_,fun t listed out inside => ?_⟩,
    fun alone => .inr ⟨alone,rfl,fun stepId inside => absurd inside (unbegun stepId)⟩,
    .inl claimed.running⟩
  · rw [(standing.logged.silent t.id (unbegun t.id)).2]
    exact claimed.pending t listed
  · rw [(standing.logged.silent t.id (unbegun t.id)).1] at inside
    exact absurd inside List.not_mem_nil

theorem closedStep {a : Attempt} (standing : Standing n o aggregate a) (held : Held o aggregate a)
    (closed : Closed a) {t : RouteStepRow} (listed : t ∈ pendingSteps aggregate) :
    (seen t.id a.log = .initial) ∨ ∃ out, Finished o t (seen t.id a.log) out := by
  by_cases started : t.id ∈ begun a.log
  · obtain ⟨out,inside⟩ := List.exists_mem_of_ne_nil _ (closed.ended t.id started)
    exact .inr ⟨out,held.tally.finished t listed out inside⟩
  · exact .inl (standing.logged.silent t.id started).2

/-- A blocked attempt's steps are all run again by a retry, or have succeeded or could not
run, exactly when no optional step found the shutdown flag set before its run. -/
theorem retriedSteps (n : ThreadId) (o : Options) (aggregate : TaskAggregate) (db : ControlCenterDb)
    (read : aggregate.routeSteps = listRouteSteps aggregate.task.id db) (w : World)
    (claimed : Claimed aggregate w.db) (events : List StepOrder.Event)
    (undisturbed : ∀ front e back, events = front ++ e::back →
      Undisturbed aggregate (reach (StepOrder.step n) (attempt n o aggregate w) front) e)
    (m : Moment) (note : Option String) (allow : Bool) (body : String) (next : ControlCenterDb)
    (retried : DbReviews.retryBlockedTask m aggregate.task.id note allow
      (reach (StepOrder.step n) (attempt n o aggregate w) events).world.db = .ok (body,next)) :
    (∀ t ∈ pendingSteps aggregate, Resumed o aggregate
      (reach (StepOrder.step n) (attempt n o aggregate w) events).log next t) ↔
    ∀ t ∈ pendingSteps aggregate, t.required = false → o.registered t.agent = true →
      (seen t.id (reach (StepOrder.step n) (attempt n o aggregate w) events).log).told = false := by
  have distinct := pendingDistinct read
  have reached : Standing n o aggregate (reach (StepOrder.step n) (attempt n o aggregate w) events) ∧
      Held o aggregate (reach (StepOrder.step n) (attempt n o aggregate w) events) :=
    reachMet (StepOrder.step n) (I := fun a => Standing n o aggregate a ∧ Held o aggregate a)
      (fun a e known here => ⟨stepStanding distinct a e known.1,
        stepHeld distinct a e known.1 known.2 here⟩)
      ⟨attemptStanding o aggregate w,attemptHeld w claimed⟩ undisturbed events []
      (List.append_nil _).symm
  generalize reach (StepOrder.step n) (attempt n o aggregate w) events = a at *
  obtain ⟨standing,held⟩ := reached
  have closed : Closed a := by
    refine held.working.resolve_left fun running => ?_
    rw [retriedBlocked retried] at running
    cases running
  have each (t : RouteStepRow) (listed : t ∈ pendingSteps aggregate) :
      Resumed o aggregate a.log next t ↔ (t.required = false → o.registered t.agent = true →
        (seen t.id a.log).told = false) := by
    have row := retriedState retried (held.tally.rows t listed)
    rcases closedStep standing held closed listed with unseen | ⟨out,_,_,ended⟩
    · rw [unseen] at row ⊢
      exact iff_of_true (.again (toRunIff.mpr row)) fun _ _ => rfl
    rcases ended with ⟨skipped,optional_,_,cause⟩ | ⟨failed,_,required⟩ | ⟨succeeded,_,untold⟩
    · rw [skipped,if_neg (by decide)] at row
      constructor
      · rintro (listed | succeeded | ⟨-,cause'⟩) _ registered
        · rw [toRunIff.mp listed] at row
          cases row
        · rw [succeeded] at row
          cases row
        · rcases cause with ⟨_,available⟩ | ⟨untold,_⟩
          · rcases cause' with unregistered | unavailable
            · exact absurd (registered.symm.trans unregistered) (by decide)
            · exact absurd (unavailable.symm.trans available) (by decide)
          · exact untold
      · intro untold
        rcases cause with ⟨told,_⟩ | ⟨_,cause⟩
        · cases registered : o.registered t.agent with
          | false => exact .unavailable row (.inl registered)
          | true => exact absurd (told.symm.trans (untold optional_ registered)) (by decide)
        · exact .unavailable row cause.symm
    · rw [failed,if_pos rfl] at row
      refine iff_of_true (.again (toRunIff.mpr row)) fun optional_ _ => ?_
      cases told : (seen t.id a.log).told with
      | false => rfl
      | true => exact absurd (optional_.symm.trans (required told)) (by decide)
    · rw [succeeded,if_neg (by decide)] at row
      exact iff_of_true (.finished row) fun _ _ => untold
  exact forall₂_congr each

end

section
def reviewed : ControlCenterDb := reach turn .empty
  [⟨⟨1000,"1"⟩,.createTask ⟨some "task_1","Change the login","/repo","main",.auto,.high,none,[],none,
      false⟩ (Router.reviewedPlan (fun n => toString n) .auto)⟩,
   ⟨⟨1000,"2"⟩,.claimNextTask "worker-1"⟩,
   ⟨⟨1000,"3"⟩,.updateRouteStep "step_0" ⟨some .succeeded,none⟩⟩,
   ⟨⟨1000,"4"⟩,.updateRouteStep "step_1" ⟨some .succeeded,none⟩⟩]

def approving : TaskAggregate where
  task := (reviewed.tasks.get "task_1").getD planned.task
  routeSteps := listRouteSteps "task_1" reviewed
  runs := []
  artifacts := []
  messages := []
  reviews := []

def reachable : Choice := ⟨2000,"5",none,fun q => match q with
  | .availability _ => .ok (⟨true,"local",none⟩ : AdapterAvailability)
  | _ => .error "nothing answers"⟩

def ran (events : List StepOrder.Event) : Attempt :=
  reach (StepOrder.step ⟨0,0⟩) (attempt ⟨0,0⟩ crew approving (idleWorld reviewed)) events

def retry (a : Attempt) : Outcome (String × ControlCenterDb) :=
  DbReviews.retryBlockedTask ⟨3000,"6"⟩ "task_1" none false a.world.db

def isTurn : StepOrder.Event → Bool
  | .others _ => false
  | _ => true

theorem undisturbedTurns {n : ThreadId} {o : Options} {aggregate : TaskAggregate} {w : World}
    {events : List StepOrder.Event} (own : events.all isTurn = true) (front : List StepOrder.Event)
    (e : StepOrder.Event) (back : List StepOrder.Event) (split : events = front ++ e::back) :
    Undisturbed aggregate (reach (StepOrder.step n) (attempt n o aggregate w) front) e := by
  have here := List.all_eq_true.mp own e (by rw [split]; simp)
  cases e with
  | others world => exact absurd here.symm Bool.true_eq_false.mp
  | turn pick choice => trivial
  | requestShutdown => trivial

theorem outcomeOk {α : Type} {r : Outcome α} (ok : r.isOk = true) : ∃ a, r = .ok a := by
  cases r with
  | error error => cases ok
  | ok a => exact ⟨a,rfl⟩

def stoppedFirst : List StepOrder.Event :=
  .requestShutdown :: List.replicate 20 (.turn .main reachable)

theorem approvalResumed : ∃ body next, retry (ran stoppedFirst) = .ok (body,next) ∧
    ∀ t ∈ pendingSteps approving, Resumed crew approving (ran stoppedFirst).log next t := by
  obtain ⟨⟨body,next⟩,retried⟩ : ∃ r, retry (ran stoppedFirst) = .ok r :=
    outcomeOk (by decide +kernel)
  exact ⟨body,next,retried,(retriedSteps ⟨0,0⟩ crew approving reviewed (by rfl) (idleWorld reviewed)
    ⟨by decide +kernel,by decide +kernel⟩ stoppedFirst (undisturbedTurns (by decide)) ⟨3000,"6"⟩ none
    false body next retried).mpr (by decide +kernel)⟩

def stoppedBetween : List StepOrder.Event :=
  [.turn .main reachable,.turn (.member "step_2") reachable,.turn (.member "step_2") reachable,
    .requestShutdown] ++ List.replicate 3 (.turn (.member "step_2") reachable) ++
    .turn .join reachable :: List.replicate 20 (.turn .main reachable)

theorem approvalConsumed : ∃ body next, retry (ran stoppedBetween) = .ok (body,next) ∧
    ¬∀ t ∈ pendingSteps approving, Resumed crew approving (ran stoppedBetween).log next t := by
  obtain ⟨⟨body,next⟩,retried⟩ : ∃ r, retry (ran stoppedBetween) = .ok r :=
    outcomeOk (by decide +kernel)
  refine ⟨body,next,retried,fun every => ?_⟩
  have facts : ∃ t ∈ pendingSteps approving,
      stepState (ran stoppedBetween).world.db t.id = some ("task_1",.skipped) ∧
        (seen t.id (ran stoppedBetween).log).unavailable = false := by decide +kernel
  obtain ⟨t,listed,state,available⟩ := facts
  have own : approving.task.id = "task_1" := by decide +kernel
  have row := retriedState retried state
  rw [if_neg (by decide)] at row
  cases every t listed with
  | again inside =>
    rw [own,toRunIff,row] at inside
    cases inside
  | finished succeeded =>
    rw [row] at succeeded
    cases succeeded
  | unavailable _ cause =>
    rcases cause with unregistered | unavailable
    · cases unregistered
    · rw [available] at unavailable
      cases unavailable

end

end ControlCenter.Interruptions
