import ControlCenter.Attempts
import ControlCenter.CallSources
import ControlCenter.EvidenceRevisions
import ControlCenter.StoredPlans

/-! Which worker an execution writes for. A claim gives a task to a thread until the thread
lets it go or a recovery takes it away; the writes of an execution look at no owner. -/
namespace ControlCenter.OwnerFencing
open Protocol Table Db DbReviews DbRuns Dialogue Reliance Ports Coordinator Execution Operations
open ControlCenter.System RunLogic TaskRecovery CallSources Guarantees Interference
open ReviewDecisions (approveSource reworkSource)
open ExecutionQuestions StoredPlans Attempts
open StatusMachines (TaskEdge writtenTask assertedTask)

def about (db : ControlCenterDb) : Question → Option String
  | .updateTaskStatus taskId .. => some taskId
  | .finalizeTaskExecution taskId .. => some taskId
  | .updateRouteStep stepId _ => (db.routeSteps.get stepId).map RouteStepRow.taskId
  | _ => none

def applies (db : ControlCenterDb) : Question → Bool
  | .updateTaskStatus taskId status _ =>
      (db.tasks.get taskId).any fun r => (assertTaskTransition r.status status).isOk
  | .finalizeTaskExecution taskId .. =>
      (db.tasks.get taskId).any fun r => r.status == .running
  | .updateRouteStep stepId _ => (db.routeSteps.get stepId).isSome
  | _ => false

def ending : Question → Option String
  | .updateTaskStatus taskId .. | .finalizeTaskExecution taskId .. => some taskId
  | _ => none

def wrote (s : Center) : Event → Option (ThreadId × String)
  | .turn id pick c => do
      let (i,q) ← asking s (.turn id pick c)
      let taskId ← about s.world.db q
      if (respond i c s.world q).1.isOk then some (id,taskId) else none
  | _ => none

def Fenced (fleet : Nat → Options) (s : Center) (e : Event) : Prop :=
  ∀ id taskId, wrote s e = some (id,taskId) → ∃ r, s.world.db.tasks.get taskId = some r ∧
    r.claimedBy = some (fleet id.process).workerId

def timely (i : Who) (c : Choice) (q : Question) (w : World) : Prop :=
  c.busy = none → applies w.db q = true → i.thread ∉ w.trail.lost

def Timely (s : Center) : Event → Prop
  | .turn id pick c => ∀ i q, asking s (.turn id pick c) = some (i,q) → timely i c q s.world
  | _ => True

def Owns (w : World) (taskId : String) (n : ThreadId) : Prop :=
  w.trail.holder taskId = some n ∨ n ∈ w.trail.lost

def May (fleet : Nat → Options) (i : Who) (q : Question) (w : World) : Prop :=
  match q with
  | .claimNextTask workerId => workerId = (fleet i.thread.process).workerId
  | .updateTaskStatus taskId .. | .finalizeTaskExecution taskId .. =>
      i.member = none ∧ Owns w taskId i.thread
  | .updateRouteStep stepId _ => ∀ s, w.db.routeSteps.get stepId = some s →
      Owns w s.taskId i.thread
  | _ => True

def Recorded (fleet : Nat → Options) (w : World) : Prop :=
  ∀ taskId n, w.trail.holder taskId = some n → ∃ r, w.db.tasks.get taskId = some r ∧
    r.status = .running ∧ r.claimedBy = some (fleet n.process).workerId

def terms (fleet : Nat → Options) : Terms where
  may := May fleet
  fair := timely
  holds := Recorded fleet

def ClaimsKept (db next : ControlCenterDb) : Prop :=
  ∀ taskId r, db.tasks.get taskId = some r → r.status = .running →
    ∃ r', next.tasks.get taskId = some r' ∧ r'.status = .running ∧ r'.claimedBy = r.claimedBy

def OthersKept (taskIds : List String) (db next : ControlCenterDb) : Prop :=
  ∀ taskId ∉ taskIds, next.tasks.get taskId = db.tasks.get taskId

inductive Hands (i : Who) (w after : World) : Question → Prop
  | kept {q : Question} (holder : after.trail.holder = w.trail.holder)
      (lost : after.trail.lost = w.trail.lost) (rows : ClaimsKept w.db after.db) :
      Hands i w after q
  | claimed {workerId taskId : String} (queued : ∃ r, w.db.tasks.get taskId = some r ∧
        r.status = .queued)
      (row : ∃ r, after.db.tasks.get taskId = some r ∧ r.status = .running ∧
        r.claimedBy = some workerId)
      (others : OthersKept [taskId] w.db after.db)
      (trail : after.trail = w.trail.hold taskId (some i.thread)) :
      Hands i w after (.claimNextTask workerId)
  | recovered {q : Question} {result : StaleRecoveryResult}
      (others : OthersKept result.taskIds w.db after.db)
      (trail : after.trail = w.trail.recover result) : Hands i w after q
  | left {q : Question} {taskId : String} (ends : ending q = some taskId)
      (applied : applies w.db q = true)
      (others : OthersKept [taskId] w.db after.db)
      (trail : after.trail = w.trail.hold taskId none) : Hands i w after q

section
variable {i : Who} {c : Choice} {w after : World} {q : Question} {db next : ControlCenterDb}

theorem claimsSame (same : next.tasks = db.tasks) : ClaimsKept db next :=
  fun taskId r found running => ⟨r,by rw [same,found],running,rfl⟩

theorem handsSame : Hands i w w q := .kept rfl rfl (claimsSame rfl)

theorem othersUpdated (start : ControlCenterDb) {target : String} {f : TaskRow → TaskRow}
    {keyed : ∀ r, (f r).id = r.id} (same : start.tasks = db.tasks) :
    OthersKept [target] db (start.updateTask target f keyed) := by
  intro taskId other
  have other : taskId ≠ target := fun same => other (List.mem_singleton.mpr same)
  rw [getUpdated,same]
  cases found : db.tasks.get taskId with
  | none => rfl
  | some r =>
    have keyed : r.id = taskId := (getSome.mp found).2
    simp [keyed,other]

theorem claimsEach {target : String} {f : TaskRow → TaskRow} {keyed : ∀ r, (f r).id = r.id}
    (each : ∀ r, r.status = .running → (f r).status = .running ∧ (f r).claimedBy = r.claimedBy) :
    ClaimsKept db (db.updateTask target f keyed) := by
  intro taskId r found running
  refine ⟨if r.id == target then f r else r,by rw [getUpdated,found]; rfl,?_⟩
  split
  · exact each r running
  · exact ⟨running,rfl⟩

theorem claimsUpdated {target : String} {f : TaskRow → TaskRow} {keyed : ∀ r, (f r).id = r.id}
    (same : next.tasks = db.tasks) {r : TaskRow} (held : db.tasks.get target = some r)
    (idle : r.status ≠ .running) : ClaimsKept db (next.updateTask target f keyed) := by
  intro taskId r' found running
  refine ⟨r',?_,running,rfl⟩
  have other : r'.id ≠ target := fun keyed => idle <| by
    have own : r'.id = taskId := (getSome.mp found).2
    rw [← own,keyed,held] at found
    exact Option.some.inj found ▸ running
  rw [getUpdated,same,found]
  simp [other]

theorem storedHands {α : Type} {note : α → Trail} {r : Outcome (α × ControlCenterDb)}
    (each : ∀ a db, r = .ok (a,db) → Hands i w {w with db, trail := note a} q) :
    Hands i w (stored w note r).2 q := by
  rcases r with error | ⟨a,db⟩
  · exact handsSame
  · exact each a db rfl

theorem writtenHands {note : Trail} {r : Outcome ControlCenterDb}
    (each : ∀ db, r = .ok db → Hands i w {w with db, trail := note} q) :
    Hands i w (written w note r).2 q := by
  cases r with
  | error error => exact handsSame
  | ok db => exact each db rfl

theorem repliedHands {α : Type} {note : α → Trail} {r : Except String α}
    (holder : ∀ a, (note a).holder = w.trail.holder) (lost : ∀ a, (note a).lost = w.trail.lost) :
    Hands i w (replied w note r).2 q := by
  cases r with
  | error error => exact handsSame
  | ok a => exact .kept (holder a) (lost a) (claimsSame rfl)

theorem checkKept {t : Trail} {runId : String} :
    (t.check runId).holder = t.holder ∧ (t.check runId).lost = t.lost := by
  unfold Trail.check
  split <;> exact ⟨rfl,rfl⟩

theorem worktreeHands {r : Except String WorktreeInfo} : Hands i w (newWorktree w r).2 q := by
  cases r with
  | error error => exact handsSame
  | ok info =>
    unfold newWorktree
    dsimp only
    split
    · exact handsSame
    · exact .kept rfl rfl (claimsSame rfl)

theorem recoveryHands {m : Moment} {cause : RecoveryCause} {recoveredBy : String}
    {result : StaleRecoveryResult}
    (h : Db.recoverRunningTasks m cause recoveredBy w.db = .ok (result,next)) :
    Hands i w {w with db := next, trail := w.trail.recover result} q := by
  obtain ⟨closes,named⟩ := recoverySource h
  refine .recovered (fun taskId other => ?_) rfl
  rw [named] at other
  show next.tasks.get taskId = _
  rw [closes.getTask]
  cases found : w.db.tasks.get taskId with
  | none => rfl
  | some r =>
    have keyed : r.id = taskId := (getSome.mp found).2
    rw [Option.map_some,keyed,if_neg other]

theorem createHands {m : Moment} {input : TaskPayload} {plan : RoutePlan} {id : String}
    (h : Db.createTask m input plan db = .ok (id,next)) : ClaimsKept db next := by
  obtain ⟨task,tasks,routeSteps,events,_,_,inserted,_,rfl⟩ := createSource h
  intro taskId r found running
  refine ⟨r,?_,running,rfl⟩
  have keyed := (getSome.mp found).2
  have listed := ((insertSome inserted).2 r).mpr (.inl (getSome.mp found).1)
  exact getSome.mpr ⟨listed,keyed⟩

theorem heartbeatHands {m : Moment} {target workerId : String} {at_ : Int}
    (h : Db.heartbeatTask m target workerId db = .ok (at_,next)) : ClaimsKept db next := by
  obtain ⟨held,found,running,rfl⟩ := heartbeatSource h
  exact claimsEach fun r active => ⟨active,rfl⟩

theorem statusApplies {m : Moment} {taskId latestUpdate : String} {status : TaskStatus}
    (h : Db.updateTaskStatus m taskId status latestUpdate db = .ok next) :
    applies db (.updateTaskStatus taskId status latestUpdate) = true := by
  obtain ⟨r,held,edge,_⟩ := statusSource h
  have asserted : assertTaskTransition r.status status = .ok () := if_pos edge
  simp only [applies,held,Option.any_some,asserted]
  rfl

theorem finalizeApplies {m : Moment} {taskId latestUpdate : String} {status : FinalStatus}
    {runId : Option String}
    (h : DbReviews.finalizeTaskExecution m taskId status latestUpdate runId db = .ok next) :
    applies db (.finalizeTaskExecution taskId status latestUpdate runId) = true := by
  obtain ⟨r,held,running,_⟩ := finalizeSource h
  simp [applies,held,running]

theorem answerHands : Hands i w (answer i c w q).2 q := by
  cases q with
  | createTask input plan =>
    exact storedHands fun id db performed => .kept rfl rfl (createHands performed)
  | claimNextTask workerId =>
    refine storedHands fun claimed db performed => ?_
    rcases claimSource performed with ⟨rfl,rfl⟩ | ⟨task,listed,queued,rfl,events,rfl⟩
    · exact handsSame
    · have held : w.db.tasks.get task.id = some task := getMem listed
      have others : OthersKept [task.id] w.db (w.db.updateTask task.id
          (claimedRow ⟨c.now,c.uuid⟩ workerId) (claimedKept _ _)) := othersUpdated w.db rfl
      have row : (w.db.updateTask task.id (claimedRow ⟨c.now,c.uuid⟩ workerId)
          (claimedKept _ _)).tasks.get task.id = some (claimedRow ⟨c.now,c.uuid⟩ workerId task) := by
        rw [getUpdated,held,Option.map_some,if_pos (beq_self_eq_true _)]
      exact .claimed ⟨task,held,queued⟩ ⟨_,row,rfl,rfl⟩ others rfl
  | heartbeatTask taskId workerId =>
    exact storedHands fun at_ db performed => .kept rfl rfl (heartbeatHands performed)
  | recoverStaleTasks cutoffMs recoveredBy =>
    refine storedHands fun result db performed => ?_
    cases cutoffMs with
    | none => contradiction
    | some cutoff => exact recoveryHands performed
  | recoverTasksOwnedBy claimedBy recoveredBy =>
    refine storedHands fun result db performed => ?_
    unfold Db.recoverTasksOwnedBy at performed
    dsimp only at performed
    split at performed
    · contradiction
    · exact recoveryHands performed
  | updateTaskStatus taskId status latestUpdate =>
    refine writtenHands fun db performed => ?_
    have applied := statusApplies performed
    obtain ⟨r,held,edge,rfl⟩ := statusSource performed
    by_cases stays : status = .running
    · have trail : w.trail.leave taskId status = w.trail := if_pos stays
      exact .kept (congrArg Trail.holder trail) (congrArg Trail.lost trail)
        (claimsEach fun r running => ⟨stays,if_pos stays⟩)
    · exact .left rfl applied (othersUpdated w.db rfl) (if_neg stays)
  | updateRouteStep stepId patch =>
    exact writtenHands fun db performed => .kept rfl rfl (claimsSame (stepTasks performed))
  | createRun input =>
    exact storedHands fun run db performed => .kept rfl rfl (claimsSame (newRunTasks performed))
  | updateRun runId patch =>
    exact storedHands fun run db performed => .kept rfl rfl (claimsSame (runTasks performed))
  | appendEvent input =>
    exact writtenHands fun db performed => .kept rfl rfl (claimsSame (eventTasks performed))
  | addArtifact input =>
    exact storedHands fun row db performed => .kept rfl rfl (claimsSame (artifactTasks performed))
  | finalizeTaskExecution taskId status latestUpdate runId =>
    refine writtenHands fun db performed => ?_
    have applied := finalizeApplies performed
    obtain ⟨r,held,running,reviews,_,_,rfl⟩ := finalizeSource performed
    have moves : status.status ≠ .running := by cases status <;> decide
    exact .left rfl applied (othersUpdated {w.db with reviews} rfl) (if_neg moves)
  | approveTaskReview taskId note expected =>
    refine storedHands fun row db performed => ?_
    obtain ⟨review,admitted,_,rfl⟩ := approveSource performed
    obtain ⟨r,held,waits⟩ := admitted.waits
    exact .kept rfl rfl (claimsUpdated rfl held (by rw [waits]; decide))
  | requestTaskRework taskId note expected =>
    refine storedHands fun row db performed => ?_
    obtain ⟨review,noted,_,admitted,_,noting,rfl⟩ := reworkSource performed
    obtain ⟨r,held,waits⟩ := admitted.waits
    have noted_ := messageTasks noting
    have same : noted.tasks = w.db.tasks := noted_
    exact .kept rfl rfl (claimsUpdated same held (by rw [waits]; decide))
  | retryBlockedTask taskId note allow =>
    refine storedHands fun body db performed => ?_
    obtain ⟨r,held,blocked,_,messages,rfl⟩ := retrySource performed
    exact .kept rfl rfl (claimsUpdated rfl held (by rw [blocked]; decide))
  | memory change => exact .kept rfl rfl (claimsSame rfl)
  | createWorktree taskId runId repo baseRef => exact worktreeHands
  | stopAdapter | collectResult => exact repliedHands (fun _ => rfl) fun _ => rfl
  | assertSourceUnchanged runId snapshot =>
    exact repliedHands (fun _ => checkKept.1) fun _ => checkKept.2
  | _ => exact handsSame

theorem respondHands : Hands i w (respond i c w q).2 q := by
  unfold respond
  split
  · split
    · exact handsSame
    · exact answerHands
  · exact answerHands

theorem respondApplies (subject : (about w.db q).isSome = true)
    (returned : (respond i c w q).1.isOk = true) : c.busy = none ∧ applies w.db q = true := by
  have stored : storage q = true := by
    cases q <;> first | rfl | exact absurd subject Bool.false_ne_true
  have idle : c.busy = none := by
    cases busy : c.busy with
    | none => rfl
    | some error =>
      unfold respond at returned
      rw [busy] at returned
      simp only [stored,if_true] at returned
      exact absurd returned Bool.false_ne_true
  refine ⟨idle,?_⟩
  cases q with
  | updateTaskStatus taskId status latestUpdate =>
    obtain ⟨next,performed⟩ := writtenReturned (respondReturned stored returned)
    exact statusApplies performed
  | finalizeTaskExecution taskId status latestUpdate runId =>
    obtain ⟨next,performed⟩ := writtenReturned (respondReturned stored returned)
    exact finalizeApplies performed
  | updateRouteStep stepId patch =>
    obtain ⟨next,performed⟩ := writtenReturned (respondReturned stored returned)
    obtain ⟨s,held,_⟩ := stepSource performed
    simp [applies,held]
  | _ => exact absurd subject Bool.false_ne_true

theorem busySame {error : String} (busy : c.busy = some error) (stored : storage q = true) :
    (respond i c w q).2 = w := by
  unfold respond
  rw [busy]
  simp only [stored,if_true]

end

section
variable {fleet : Nat → Options} {i : Who} {c : Choice} {w after : World} {q : Question}
  {taskId : String} {n : ThreadId}

theorem holdOther {holder : Option ThreadId} {t : Trail} {id : String} (other : id ≠ taskId) :
    (t.hold taskId holder).holder id = t.holder id := if_neg other

theorem recordedHands (recorded : Recorded fleet w) (may : May fleet i q w)
    (hands : Hands i w after q) : Recorded fleet after := by
  intro id n holds
  cases hands with
  | kept holder lost rows =>
    rw [holder] at holds
    obtain ⟨r,held,running,owner⟩ := recorded id n holds
    obtain ⟨r',held',running',same⟩ := rows id r held running
    exact ⟨r',held',running',same.trans owner⟩
  | @claimed workerId target queued row others trail =>
    rw [trail] at holds
    by_cases here : id = target
    · have owner : some i.thread = some n := (if_pos here).symm.trans holds
      cases Option.some.inj owner
      obtain ⟨r,held,running,owner⟩ := row
      have worker : workerId = (fleet i.thread.process).workerId := may
      exact ⟨r,here ▸ held,running,worker ▸ owner⟩
    · rw [holdOther here] at holds
      rw [others id (by simpa using here)]
      exact recorded id n holds
  | @recovered q result others trail =>
    rw [trail] at holds
    simp only [Trail.recover] at holds
    split at holds
    · contradiction
    next other =>
      rw [others id other]
      exact recorded id n holds
  | @left q target ends applied others trail =>
    rw [trail] at holds
    by_cases here : id = target
    · have owner : none = some n := (if_pos here).symm.trans holds
      contradiction
    · rw [holdOther here] at holds
      rw [others id (by simpa using here)]
      exact recorded id n holds

theorem ownsHands (recorded : Recorded fleet w) (may : May fleet i q w)
    (timely : applies w.db q = true → i.thread ∉ w.trail.lost)
    (apart : i ≠ ⟨n,none⟩ ∨ ending q = none) (owns : Owns w taskId n)
    (hands : Hands i w after q) : Owns after taskId n := by
  cases hands with
  | kept holder lost rows =>
    unfold Owns
    rwa [holder,lost]
  | @claimed workerId target queued row others trail =>
    rw [Owns,trail]
    refine owns.imp (fun holds => ?_) id
    have other : taskId ≠ target := by
      rintro rfl
      obtain ⟨r,held,queued⟩ := queued
      obtain ⟨r',held',running,_⟩ := recorded taskId n holds
      cases Option.some.inj (held.symm.trans held')
      rw [queued] at running
      contradiction
    rwa [holdOther other]
  | @recovered q result others trail =>
    rw [Owns,trail]
    rcases owns with holds | lost
    · by_cases here : taskId ∈ result.taskIds
      · exact .inr (List.mem_append_right _ (List.mem_filterMap.mpr ⟨taskId,here,holds⟩))
      · exact .inl ((if_neg here).trans holds)
    · exact .inr (List.mem_append_left _ lost)
  | @left q target ends applied others trail =>
    rw [Owns,trail]
    refine owns.imp (fun holds => ?_) id
    have mine : i.member = none ∧ Owns w target i.thread := by
      cases q <;> first | (cases Option.some.inj ends; exact may) | cases ends
    have other : taskId ≠ target := by
      rintro rfl
      have owner := mine.2.resolve_right (timely applied)
      have same : n = i.thread := Option.some.inj (holds.symm.trans owner)
      refine apart.elim (fun different => different ?_) fun idle => ?_
      · rw [same,← mine.1]
      · rw [idle] at ends
        contradiction
    rwa [holdOther other]

theorem termsKept (recorded : Recorded fleet w) (may : May fleet i q w) :
    Recorded fleet (respond i c w q).2 := recordedHands recorded may respondHands

theorem ownsKept (recorded : Recorded fleet w) (may : May fleet i q w) (fair : timely i c q w)
    (apart : i ≠ ⟨n,none⟩ ∨ ending q = none) (owns : Owns w taskId n) :
    Owns (respond i c w q).2 taskId n := by
  cases busy : c.busy with
  | none => exact ownsHands recorded may (fair busy) apart owns respondHands
  | some error =>
    by_cases stored : storage q = true
    · rwa [busySame busy stored]
    · refine ownsHands recorded may (fun applied => absurd ?_ stored) apart owns respondHands
      cases q <;> first | rfl | exact absurd applied Bool.false_ne_true

end

section
variable {fleet : Nat → Options} {n : ThreadId} {taskId : String} {steps : List RouteStepRow}
  {who : Who → Prop} {k : Option String} {w : World}

def StepsOf (taskId : String) (steps : List RouteStepRow) (w : World) : Prop :=
  ∀ s ∈ steps, ∃ p ∈ w.db.routeSteps.rows.map planOf, p.1 = taskId ∧ p.2.id = s.id

def Listed (taskId : String) (l : List RouteStepRow) (w : World) : Prop :=
  StepsOf taskId l w ∧ (l.map RouteStepRow.id).Nodup

def Working (n : ThreadId) (taskId : String) (steps : List RouteStepRow) (w : World) : Prop :=
  Owns w taskId n ∧ Listed taskId steps w

def rule (n : ThreadId) : Rule where
  begun taskId w := Owns w taskId n
  row _ _ := True
  listed := Listed
  work taskId steps _ := Working n taskId steps
  halt taskId w := Owns w taskId n

theorem stepsRespond {i : Who} {c : Choice} {q : Question} (steps_ : StepsOf taskId steps w) :
    StepsOf taskId steps (respond i c w q).2 := by
  intro s listed
  obtain ⟨p,stored,own⟩ := steps_ s listed
  refine ⟨p,?_,own⟩
  rcases respondTurned i c w q with same | ⟨t,turned⟩
  · rwa [same]
  · rw [turned]
    exact planStays p _ t stored

theorem listedAnswer {i : Who} {q : Question} {r : Except String (Answer q)} {now after : World}
    (answered : (terms fleet).setting.answers i q now r after) (listed : Listed taskId l now) :
    Listed taskId l after := by
  obtain ⟨_,c,_,answered⟩ := answered
  have kept : StepsOf taskId l (respond i c now q).2 := stepsRespond listed.1
  rw [answered] at kept
  exact ⟨kept,listed.2⟩

theorem listedStays (l : List RouteStepRow) : Stable (terms fleet).setting who (Listed taskId l) :=
  fun _ _ _ _ ⟨_,_,_,answered⟩ listed => listedAnswer answered listed

theorem listedRead : Listed taskId (listRouteSteps taskId w.db) w := by
  refine ⟨fun s member => ⟨planOf s,List.mem_map_of_mem ?_,?_,rfl⟩,listedDistinct taskId w.db⟩
  · exact (List.mem_filter.mp ((List.mem_insertionSort stepOrder).mp member)).1
  · exact beq_iff_eq.mp (List.mem_filter.mp ((List.mem_insertionSort stepOrder).mp member)).2

theorem ownsAnswer {i : Who} {q : Question} {r : Except String (Answer q)} {now after : World}
    (may : May fleet i q now) (apart : i ≠ ⟨n,none⟩ ∨ ending q = none)
    (answered : (terms fleet).setting.answers i q now r after) (owns : Owns now taskId n) :
    Owns after taskId n := by
  obtain ⟨recorded,c,fair,answered⟩ := answered
  have kept : Owns (respond i c now q).2 taskId n := ownsKept recorded may fair apart owns
  rwa [answered] at kept

theorem ownsStays (apart : ∀ i, who i → i ≠ ⟨n,none⟩) :
    Stable (terms fleet).setting who fun w => Owns w taskId n :=
  fun i member _ _ ⟨_,_,may,answered⟩ owns => ownsAnswer may (.inl (apart i member)) answered owns

theorem workingStays (apart : ∀ i, who i → i ≠ ⟨n,none⟩) :
    Stable (terms fleet).setting who (Working n taskId steps) :=
  bothStable (ownsStays apart) (listedStays steps)

theorem restsMay {i : Who} {q : Question} (rests : Rests q) (w : World) : May fleet i q w := by
  cases q <;> trivial

theorem restsEnding {q : Question} (rests : Rests q) : ending q = none := by
  cases q <;> first | rfl | exact rests.elim

theorem ownsUpheld : Upheld (terms fleet) n fun w => Owns w taskId n where
  stays := ownsStays outsideApart
  rests rests owns answered :=
    ownsAnswer (restsMay rests _) (.inr (restsEnding rests)) answered owns

theorem listedUpheld : Upheld (terms fleet) n (Listed taskId steps) where
  stays := listedStays steps
  rests _ listed answered := listedAnswer answered listed

theorem stepOwned {step : RouteStepRow} (listed : step ∈ steps)
    (working : Working n taskId steps w) {s : RouteStepRow}
    (found : w.db.routeSteps.get step.id = some s) : Owns w s.taskId n := by
  obtain ⟨p,stored,own,same⟩ := working.2.1 step listed
  obtain ⟨s',member,rfl⟩ := List.mem_map.mp stored
  have read : w.db.routeSteps.get step.id = some s' := getSome.mpr ⟨member,same⟩
  cases Option.some.inj (found.symm.trans read)
  have owner : s.taskId = taskId := own
  rw [owner]
  exact working.1

theorem stepMay {step : RouteStepRow} (listed : step ∈ steps) {key : String}
    {prior : List PriorResult} {q : Question} (asks : ∃ heard, MayAsk step prior heard q)
    (working : Working n taskId steps w) : May fleet ⟨n,some key⟩ q w := by
  obtain ⟨heard,asks⟩ := asks
  cases q with
  | updateRouteStep stepId patch =>
    have own : stepId = step.id := asks
    intro s found
    exact stepOwned listed working (own ▸ found)
  | claimNextTask | updateTaskStatus | finalizeTaskExecution => exact asks.elim
  | _ => trivial

theorem memberSafe (o : Options) (task : TaskRow) {step : RouteStepRow} (listed : step ∈ steps)
    (prior : List PriorResult) (inherited : Option WorktreeInfo)
    (working : Working n taskId steps w) :
    Safe (terms fleet).setting (besides n step.id) ⟨n,some step.id⟩
      (executeStep o task step prior inherited) (unpromised step.id) w := by
  have asks : Asks (fun q => ∃ heard, MayAsk step prior heard q)
    (executeStep o task step prior inherited) := leadsAsks (executeLeads task inherited)
  refine safeMono (safeAsks (workingStays besidesApart) (fun q asks now working => ?_) asks
    working) fun _ _ _ => trivial
  have may : May fleet ⟨n,some step.id⟩ q now := stepMay listed asks working
  refine ⟨may,fun r after answered => ⟨ownsAnswer may (.inl fun same => ?_) answered working.1,?_⟩⟩
  · cases same
  · exact listedAnswer answered working.2

theorem claimAnswer {workerId : String} {r : Except String (Option String)} {now after : World}
    (answered : (terms fleet).setting.answers ⟨n,none⟩ (.claimNextTask workerId) now r after)
    (claimed : r = .ok (some taskId)) : Owns after taskId n := by
  obtain ⟨_,c,_,answered⟩ := answered
  unfold respond at answered
  split at answered
  · obtain ⟨rfl,_⟩ := Prod.mk.inj answered
    cases claimed
  · have outcome : stored now (now.trail.claim n) (Db.claimNextTask ⟨c.now,c.uuid⟩ workerId now.db) =
      (r,after) := answered
    generalize Db.claimNextTask ⟨c.now,c.uuid⟩ workerId now.db = result at outcome
    obtain error | ⟨held,db⟩ := result
    · obtain ⟨rfl,_⟩ := Prod.mk.inj outcome
      cases claimed
    · obtain ⟨rfl,rfl⟩ := Prod.mk.inj outcome
      cases Except.ok.inj claimed
      exact .inl (if_pos rfl)

theorem ruleKept : (rule n).Kept (terms fleet) n (fleet n.process) where
  rests _ w rests := restsMay rests w
  begun _ := ownsUpheld
  row _ _ _ _ _ _ _ := trivial
  listed _ _ := listedUpheld
  work _ _ _ := ownsUpheld.both listedUpheld
  halt _ := ownsUpheld
  claims _ := rfl
  claimed _ _ _ answered := claimAnswer answered rfl
  readsRow _ _ _ _ _ := trivial
  readsSteps _ _ _ := listedRead
  opens _ _ _ owns listed := ⟨owns,listed⟩
  ready _ _ owns := owns
  halts _ _ _ _ working := working.1
  distinct _ _ _ _ working := working.2.2.sublist (List.filter_sublist.map _)
  blocks _ _ _ owns := ⟨rfl,owns⟩
  finalizes _ _ _ _ _ _ working _ _ := ⟨rfl,working.1⟩
  groups row task steps sequence rest c w _ _ working := by
    refine ⟨unpromised,fun s inside => ?_,fun after all acts _ => ?_⟩
    · have listed : s ∈ steps := List.mem_of_mem_filter (List.mem_of_mem_filter inside)
      exact memberSafe (fleet n.process) task listed _ _ working
    · have working := stableSteps (workingStays duringApart) acts working
      exact ⟨working.1,fun _ => working⟩

theorem startSafe (call : Call) (w : World) :
    SafeCrew (terms fleet).setting n (call.program (fleet n.process)) (fun _ _ => True) w := by
  by_cases executes : call = .runNext
  · subst executes
    exact Attempts.startSafe ruleKept
  · refine crewCalm (calmCall _ call executes) (fun q w calm => ?_) w
    cases q <;> trivial

theorem fencedTerms (fleet : Nat → Options) : (terms fleet).Kept fleet where
  initial := nofun
  kept _ _ _ _ recorded may _ := termsKept recorded may
  memory i change w := by
    refine ⟨trivial,⟨0,"",none,fun _ => .error ""⟩,fun _ applied => ?_⟩
    cases applied
  starts _ call w _ := startSafe call w

end

theorem timelyFair {fleet : Nat → Options} {s : Center} {e : Event} (timely : Timely s e) :
    (terms fleet).Fair s e := by
  cases e <;> exact timely

theorem timelyReached {fleet : Nat → Options} {s : Center}
    (reachable : Reachable fleet Timely s) : Standing (terms fleet) s :=
  standingReached (fencedTerms fleet) (Relation.ReflTransGen.mono
    (fun _ _ ⟨e,timely,moved⟩ => ⟨e,timelyFair timely,moved⟩) _ _ reachable)

theorem ownedRow {fleet : Nat → Options} {w : World} {taskId : String} {n : ThreadId}
    (recorded : Recorded fleet w) (owns : Owns w taskId n) (kept : n ∉ w.trail.lost) :
    ∃ r, w.db.tasks.get taskId = some r ∧ r.claimedBy = some (fleet n.process).workerId := by
  obtain ⟨r,held,_,owner⟩ := recorded taskId n (owns.resolve_right kept)
  exact ⟨r,held,owner⟩

theorem writesOwn {fleet : Nat → Options} {i : Who} {q : Question} {w : World} {taskId : String}
    (may : May fleet i q w) (subject : about w.db q = some taskId) : Owns w taskId i.thread := by
  cases q with
  | updateTaskStatus id status latestUpdate =>
    cases Option.some.inj subject
    exact may.2
  | finalizeTaskExecution id status latestUpdate runId =>
    cases Option.some.inj subject
    exact may.2
  | updateRouteStep stepId patch =>
    obtain ⟨s,found,rfl⟩ := Option.map_eq_some_iff.mp subject
    exact may s found
  | _ => cases subject

-- While no write comes after its claim was recovered, every write finds its own worker.
theorem ownersWrite (fleet : Nat → Options) (s : Center) (reachable : Reachable fleet Timely s)
    (e : Event) (timely : Timely s e) : Fenced fleet s e := by
  intro id taskId writes
  have standing := timelyReached reachable
  cases e with
  | start process call => cases writes
  | crash process => cases writes
  | turn id' pick c =>
    simp only [wrote,bind,Option.bind_eq_some_iff] at writes
    obtain ⟨⟨i,q⟩,asks,target,subject,writes⟩ := writes
    split at writes
    next returned =>
      obtain ⟨rfl,rfl⟩ := Prod.mk.inj (Option.some.inj writes)
      obtain ⟨may,rfl⟩ := askedMay standing asks
      obtain ⟨idle,applied⟩ := respondApplies (by rw [subject]; rfl) returned
      exact ownedRow standing.holds (writesOwn may subject) (timely i q asks idle applied)
    next => cases writes

def turns (thread process : Nat) (pick : Pick String) (first count : Nat) : List Event :=
  (List.range' first count).map fun k => .turn ⟨thread,process⟩ pick
    ⟨0,String.ofList (List.replicate k 'i'),none,EvidenceRevisions.reply⟩

def crews : Nat → Options
  | 0 => ⟨"worker-0",100,fun _ => true⟩
  | _ => ⟨"worker-1",100,fun _ => true⟩

def executing : List Event :=
  .start 0 (.createTask EvidenceRevisions.reviewable)::turns 0 0 .main 0 10 ++
  .start 0 .runNext::turns 1 0 .main 10 17 ++ turns 1 0 (.member "step_1") 27 5

def mark : Event := .turn ⟨1,0⟩ (.member "step_1") ⟨0,"mark",none,EvidenceRevisions.reply⟩

def after (events : List Event) : Center := reach (act crews) .initial events

def unrecovered (s : Center) (_ : Event) : Bool := s.world.trail.lost.isEmpty

theorem unrecoveredTimely {s : Center} {e : Event} (kept : unrecovered s e = true) :
    Timely s e := by
  have none_ : s.world.trail.lost = [] := List.isEmpty_iff.mp kept
  cases e with
  | start process call => trivial
  | crash process => trivial
  | turn id pick c =>
    intro i q _ _ _ listed
    rw [none_] at listed
    cases listed

theorem markOwn : wrote (after executing) mark = some (⟨1,0⟩,"task") ∧
    Fenced crews (after executing) mark := by
  have kept : everyStep (act crews) unrecovered .initial executing = true := by decide +kernel
  have reachable : Reachable crews Timely (after executing) :=
    actsReach executing fun _ _ _ split => unrecoveredTimely (everyStepSource _ kept split)
  have last : unrecovered (after executing) mark = true := by decide +kernel
  exact ⟨by decide +kernel,ownersWrite crews _ reachable mark (unrecoveredTimely last)⟩

def reclaimed : List Event := executing ++
  .start 1 (.recoverStale (some 1000) "worker-1")::turns 2 1 .main 50 1 ++
  .start 1 (.retryBlockedTask "task" none false)::turns 3 1 .main 60 2 ++
  .start 1 .runNext::turns 4 1 .main 70 3

def claimant (s : Center) : Option String :=
  (s.world.db.tasks.get "task").bind TaskRow.claimedBy

theorem strayWrite : ¬∀ s, Reachable crews (fun _ _ => True) s → ∀ e, Fenced crews s e := by
  intro fenced
  have reachable : Reachable crews (fun _ _ => True) (after reclaimed) :=
    actsReach reclaimed fun _ _ _ _ => trivial
  have writes : wrote (after reclaimed) mark = some (⟨1,0⟩,"task") := by decide +kernel
  have other : claimant (after reclaimed) = some "worker-1" := by decide +kernel
  obtain ⟨r,held,owner⟩ := fenced _ reachable mark _ _ writes
  rw [claimant,held,Option.bind_some,owner] at other
  exact absurd (Option.some.inj other) (by decide)

end ControlCenter.OwnerFencing
