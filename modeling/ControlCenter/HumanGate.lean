import ControlCenter.Attempts
import ControlCenter.CallSources
import ControlCenter.OwnerFencing
import ControlCenter.SingleRunner
import Mathlib.Data.List.Count

/-! Who decides on a finished task. While it waits it has its one pending review, and what was
asked for or is risky is done only by an approval of a person. -/
namespace ControlCenter.HumanGate
open Protocol Router Table Db DbReviews DbRuns Dialogue Reliance Ports Coordinator Execution
open ControlCenter.System TaskRecovery CallSources Guarantees Interference SingleRunner
open ExecutionQuestions Attempts
open ReviewDecisions (Admitted addressedOwn approveSource reworkSource callReviews messageReviews
  decidedRead)
open StatusMachines (TaskEdge writtenTask)

def awaits (db : ControlCenterDb) (taskId : String) : Bool :=
  (db.tasks.get taskId).any fun r => r.status == .needsReview

def pends (taskId : String) (r : ReviewRow) : Bool := r.taskId == taskId && r.status == .pending

def pendings (db : ControlCenterDb) (taskId : String) : List ReviewRow :=
  db.reviews.rows.filter (pends taskId)

def Approved (w : World) (taskId : String) : Prop := ∃ review ∈ w.db.reviews,
  review.taskId = taskId ∧ review.status = .approved ∧ review.id ∈ w.trail.approved

structure Kin (r r' : TaskRow) : Prop where
  handoff : r'.handoffRequired = r.handoffRequired
  risk : r'.risk = r.risk

def Made (w : World) (e : String × TaskPayload × RoutePlan) : Prop :=
  (∃ uuid, e.2.2 = routeTask uuid e.2.1) ∧ ∃ r, w.db.tasks.get e.1 = some r ∧
    r.handoffRequired = e.2.1.handoffRequired ∧ r.risk = e.2.2.risk

structure Gate (w : World) : Prop where
  waiting : ∀ taskId, (pendings w.db taskId).length = if awaits w.db taskId then 1 else 0
  made : ∀ e ∈ w.trail.created, Made w e
  decided : ∀ taskId r, w.db.tasks.get taskId = some r → r.status = .done →
    needsReview r = true → Approved w taskId

def finishes : Question → Option String
  | .finalizeTaskExecution taskId .. => some taskId
  | _ => none

structure Passage (q : Question) (w after : World) : Prop where
  rows : ∀ taskId r, w.db.tasks.get taskId = some r →
    ∃ r', after.db.tasks.get taskId = some r' ∧ Kin r r'
  count : ∀ taskId, (pendings after.db taskId).length + (if awaits w.db taskId then 1 else 0) =
    (pendings w.db taskId).length + if awaits after.db taskId then 1 else 0
  done : ∀ taskId r', after.db.tasks.get taskId = some r' → r'.status = .done →
    needsReview r' = true →
      (∃ r, w.db.tasks.get taskId = some r ∧ r.status = .done) ∨ Approved after taskId
  made : ∀ e ∈ after.trail.created, e ∈ w.trail.created ∨ Made after e
  approved : ∀ taskId, Approved w taskId → Approved after taskId
  waits : ∀ taskId, awaits after.db taskId = true →
    awaits w.db taskId = true ∨ finishes q = some taskId

section
variable {q : Question} {w after : World}

theorem kinSame (r : TaskRow) : Kin r r := ⟨rfl,rfl⟩

theorem Kin.trans {a b c : TaskRow} (first : Kin a b) (second : Kin b c) : Kin a c :=
  ⟨second.handoff.trans first.handoff,second.risk.trans first.risk⟩

theorem Kin.reviewed {r r' : TaskRow} (kin : Kin r r') : needsReview r' = needsReview r := by
  unfold needsReview
  rw [kin.handoff,kin.risk]

theorem gatePassage (gate : Gate w) (passage : Passage q w after) : Gate after where
  waiting taskId := by
    have count := passage.count taskId
    have waiting := gate.waiting taskId
    omega
  made e listed := by
    rcases passage.made e listed with old | new
    · obtain ⟨routed,r,held,handoff,risk⟩ := gate.made e old
      obtain ⟨r',held',kin⟩ := passage.rows _ r held
      exact ⟨routed,r',held',kin.handoff.trans handoff,kin.risk.trans risk⟩
    · exact new
  decided taskId r' held' done reviewed := by
    rcases passage.done taskId r' held' done reviewed with ⟨r,held,before⟩ | approved
    · obtain ⟨r'',same,kin⟩ := passage.rows taskId r held
      cases Option.some.inj (held'.symm.trans same)
      exact passage.approved taskId (gate.decided taskId r held before (kin.reviewed ▸ reviewed))
    · exact approved

theorem approvedSame {taskId : String} (reviews : after.db.reviews = w.db.reviews)
    (approved : after.trail.approved = w.trail.approved) (held : Approved w taskId) :
    Approved after taskId := by
  unfold Approved
  rwa [reviews,approved]

structure Idle (r r' : TaskRow) : Prop where
  kin : Kin r r'
  status : r'.status = r.status ∨
    (r.status ≠ .needsReview ∧ r'.status ≠ .needsReview ∧ r'.status ≠ .done)

theorem idleSame (r : TaskRow) : Idle r r := ⟨kinSame r,.inl rfl⟩

theorem Idle.waits {r r' : TaskRow} (idle : Idle r r') :
    (r'.status == .needsReview) = (r.status == .needsReview) := by
  rcases idle.status with same | ⟨before,now,_⟩
  · rw [same]
  · rw [beq_eq_false_iff_ne.mpr before,beq_eq_false_iff_ne.mpr now]

theorem passageMapped {g : TaskRow → TaskRow}
    (rows : ∀ taskId, after.db.tasks.get taskId = (w.db.tasks.get taskId).map g)
    (idle : ∀ taskId r, w.db.tasks.get taskId = some r → Idle r (g r))
    (reviews : after.db.reviews = w.db.reviews) (created : after.trail.created = w.trail.created)
    (approved : after.trail.approved = w.trail.approved) : Passage q w after := by
  have awaiting (taskId : String) : awaits after.db taskId = awaits w.db taskId := by
    unfold awaits
    rw [rows]
    cases held : w.db.tasks.get taskId with
    | none => rfl
    | some r => exact (idle taskId r held).waits
  refine ⟨fun taskId r held => ⟨g r,by rw [rows,held]; rfl,(idle taskId r held).kin⟩,
    fun taskId => ?_,fun taskId r' held' done _ => .inl ?_,fun e listed => .inl (created ▸ listed),
    fun _ => approvedSame reviews approved,fun taskId waits => .inl (awaiting taskId ▸ waits)⟩
  · rw [awaiting,pendings,reviews]
    rfl
  · rw [rows] at held'
    obtain ⟨r,held,rfl⟩ := Option.map_eq_some_iff.mp held'
    refine ⟨r,held,?_⟩
    rcases (idle taskId r held).status with same | ⟨_,_,other⟩
    · exact same.symm.trans done
    · exact absurd done other

theorem passageSame (tasks : after.db.tasks = w.db.tasks) (reviews : after.db.reviews = w.db.reviews)
    (created : after.trail.created = w.trail.created)
    (approved : after.trail.approved = w.trail.approved) : Passage q w after :=
  passageMapped (g := id) (fun taskId => by rw [tasks,Option.map_id,id]) (fun _ r _ => idleSame r)
    reviews created approved

theorem passageRefl : Passage q w w := passageSame rfl rfl rfl rfl

theorem passageUpdated (start : ControlCenterDb) (trail : Trail) {target : String}
    {f : TaskRow → TaskRow} {keyed : ∀ r, (f r).id = r.id} (tasks : start.tasks = w.db.tasks)
    (idle : ∀ r, w.db.tasks.get target = some r → Idle r (f r)) (reviews : start.reviews = w.db.reviews)
    (created : trail.created = w.trail.created) (approved : trail.approved = w.trail.approved) :
    Passage q w {w with db := start.updateTask target f keyed, trail} := by
  refine passageMapped (g := fun r => if r.id == target then f r else r) (fun taskId => ?_)
    (fun taskId r held => ?_) reviews created approved
  · show (start.updateTask target f keyed).tasks.get taskId = _
    rw [getUpdated,tasks]
  · split
    next own =>
      have keyed : r.id = taskId := (getSome.mp held).2
      rw [← keyed,beq_iff_eq.mp own] at held
      exact idle r held
    next => exact idleSame r

theorem passageOne {target : String} {r r' : TaskRow} (held : w.db.tasks.get target = some r)
    (now : after.db.tasks.get target = some r') (kin : Kin r r')
    (others : ∀ taskId ≠ target, after.db.tasks.get taskId = w.db.tasks.get taskId)
    (reviews : ∀ taskId ≠ target, pendings after.db taskId = pendings w.db taskId)
    (count : (pendings after.db target).length + (if r.status = .needsReview then 1 else 0) =
      (pendings w.db target).length + if r'.status = .needsReview then 1 else 0)
    (done : r'.status = .done → needsReview r' = true → r.status = .done ∨ Approved after target)
    (waits : r'.status = .needsReview → r.status = .needsReview ∨ finishes q = some target)
    (created : after.trail.created = w.trail.created)
    (approved : ∀ taskId, Approved w taskId → Approved after taskId) : Passage q w after := by
  have mine : awaits w.db target = decide (r.status = .needsReview) := by
    unfold awaits
    rw [held]
    exact Bool.beq_eq_decide_eq ..
  have later : awaits after.db target = decide (r'.status = .needsReview) := by
    unfold awaits
    rw [now]
    exact Bool.beq_eq_decide_eq ..
  refine ⟨fun taskId a found => ?_,fun taskId => ?_,fun taskId a found is reviewed => ?_,
    fun e listed => .inl (created ▸ listed),approved,fun taskId waiting => ?_⟩
  · by_cases here : taskId = target
    · subst here
      cases Option.some.inj (found.symm.trans held)
      exact ⟨r',now,kin⟩
    · exact ⟨a,(others taskId here).trans found,kinSame a⟩
  · by_cases here : taskId = target
    · subst here
      rw [mine,later]
      simpa only [decide_eq_true_eq] using count
    · unfold awaits
      rw [others taskId here,reviews taskId here]
  · by_cases here : taskId = target
    · subst here
      cases Option.some.inj (found.symm.trans now)
      exact (done is reviewed).imp (fun before => ⟨r,held,before⟩) id
    · exact .inl ⟨a,(others taskId here).symm.trans found,is⟩
  · by_cases here : taskId = target
    · subst here
      rw [later,decide_eq_true_eq] at waiting
      rw [mine,decide_eq_true_eq]
      exact waits waiting
    · refine .inl ?_
      unfold awaits at waiting ⊢
      rwa [others taskId here] at waiting

end

def Tame : Question → Prop
  | .claimNextTask _ | .updateTaskStatus .. | .finalizeTaskExecution .. => False
  | .createTask task plan => ∃ uuid, plan = routeTask uuid task
  | _ => True

def May (q : Question) (w : World) : Prop := match q with
  | .claimNextTask _ => True
  | .updateTaskStatus taskId status _ => status = .blocked ∧ awaits w.db taskId = false
  | .finalizeTaskExecution taskId status .. => status = .done →
      ∀ r, w.db.tasks.get taskId = some r → needsReview r = false
  | _ => False

section
variable {m : Moment} {c : Choice} {i : Who} {q : Question} {w : World}
  {db next : ControlCenterDb} {taskId : String}

theorem approvedCalled {call : DbCall} {trail : Trail} (performed : call.perform m w.db = .ok db)
    (kept : ∀ id ∈ w.trail.approved, id ∈ trail.approved) (held : Approved w taskId) :
    Approved {w with db, trail} taskId := by
  obtain ⟨review,listed,own,approved,named⟩ := held
  obtain ⟨r,found,_,same⟩ := (callReviews performed).known _ review (getMem listed)
  cases same (by rw [approved]; decide)
  exact ⟨review,(getSome.mp found).1,own,approved,kept _ named⟩

theorem pendingsDecided {review : ReviewRow} {status : ReviewStatus} {note : Option String}
    (listed : review ∈ db.reviews) (own : review.taskId = taskId) (pending : review.status = .pending)
    (decides : status ≠ .pending) :
    (pendings (decideReview m review status note db) taskId).length + 1 =
        (pendings db taskId).length ∧
      ∀ other ≠ taskId, pendings (decideReview m review status note db) other =
        pendings db other := by
  let f : ReviewRow → ReviewRow := fun r => if r.id == review.id then decided m status note r else r
  have rows (id : String) : pendings (decideReview m review status note db) id =
      (db.reviews.rows.filter (pends id ∘ f)).map f := List.filter_map
  have only (r : ReviewRow) (inside : r ∈ db.reviews) (same : (r.id == review.id) = true) :
      r = review := keyUnique inside listed (beq_iff_eq.mp same)
  constructor
  · have others : (db.reviews.rows.filter (pends taskId ∘ f)).length =
        ((db.reviews.rows.filter fun r => !(r.id == review.id)).filter (pends taskId)).length := by
      rw [List.filter_filter]
      refine congrArg List.length (List.filter_congr fun r inside => ?_)
      by_cases same : r.id = review.id
      · simp [f,pends,same,decided,decides]
      · simp [f,pends,same]
    have one : (db.reviews.rows.filter fun r => r.id == review.id) = [review] :=
      filterKeyed listed fun r _ => beq_iff_eq
    have split := List.countP_eq_countP_filter_add db.reviews.rows (pends taskId)
      fun r => r.id == review.id
    rw [one,List.countP_singleton,List.countP_eq_length_filter,List.countP_eq_length_filter] at split
    rw [rows,List.length_map,others,pendings,split,Nat.add_comm]
    have waits : pends taskId review = true := by simp [pends,own,pending]
    simp [waits]
  · intro other apart
    have quiet : pends other review = false := by simp [pends,own,apart.symm]
    rw [rows]
    have same : db.reviews.rows.filter (pends other ∘ f) = pendings db other :=
      List.filter_congr fun r inside => by
        by_cases mine : (r.id == review.id) = true
        · cases only r inside mine
          simp [f,quiet]
          simp [pends,decided,own,apart.symm]
        · exact congrArg (pends other) (if_neg mine)
    rw [same]
    refine (List.map_congr_left fun r inside => ?_).trans (List.map_id _)
    obtain ⟨listed,waits⟩ := List.mem_filter.mp inside
    refine if_neg fun mine => ?_
    rw [only r listed mine,quiet] at waits
    cases waits

theorem releasedOthers {status : TaskStatus} {latestUpdate other : String}
    (apart : other ≠ taskId) :
    (release m taskId status latestUpdate db).tasks.get other = db.tasks.get other := by
  have read : (release m taskId status latestUpdate db).tasks.get other =
      (db.tasks.get other).map fun r => if r.id == taskId then released m status latestUpdate r
        else r := @getUpdate _ _ _ _ _ _ _ (released m status latestUpdate) fun _ => rfl
  rw [read]
  cases found : db.tasks.get other with
  | none => rfl
  | some r =>
    have keyed : r.id = other := (getSome.mp found).2
    simp [keyed,apart]

theorem finalizePassage {target latestUpdate : String} {status : FinalStatus}
    {runId : Option String} {trail : Trail}
    (performed : DbReviews.finalizeTaskExecution m target status latestUpdate runId w.db = .ok next)
    (may : status = .done → ∀ r, w.db.tasks.get target = some r → needsReview r = false)
    (created : trail.created = w.trail.created) (approved : trail.approved = w.trail.approved) :
    Passage (.finalizeTaskExecution target status latestUpdate runId) w
      {w with db := next, trail} := by
  have called : DbCall.perform m w.db (.finalizeTaskExecution target status latestUpdate runId) =
    .ok next := performed
  obtain ⟨r,held,running,reviews,kept,opened,rfl⟩ := finalizeSource performed
  refine passageOne held (ReviewDecisions.releasedRead held) ⟨rfl,rfl⟩
    (fun other apart => releasedOthers apart) (fun other apart => ?_) ?_ (fun is reviewed => ?_)
    (fun _ => .inr rfl) created fun id => approvedCalled called (fun id named => approved ▸ named)
  · cases status with
    | done => rw [kept rfl]; rfl
    | needsReview =>
      show reviews.rows.filter (pends other) = _
      rw [insertRows (opened rfl),List.filter_append]
      simp [pends,pendingReview,apart.symm,pendings]
  · cases status with
    | done =>
      rw [kept rfl]
      simp [released,FinalStatus.status,running]
      rfl
    | needsReview =>
      show (reviews.rows.filter (pends target)).length + _ = _
      rw [insertRows (opened rfl),List.filter_append]
      simp [pends,pendingReview,pendings,released,FinalStatus.status,running]
  · cases status with
    | done =>
      have quiet : needsReview r = true := reviewed
      rw [may rfl r held] at quiet
      cases quiet
    | needsReview => cases is

theorem decisionPassage (verdict : ReviewStatus) (start : ControlCenterDb)
    {expected : Option Expected} {status : TaskStatus} {note : Option String}
    {latestUpdate : String} {trail : Trail} {review : ReviewRow} {call : DbCall} (admitted : Admitted taskId expected w.db review)
    (decides : verdict ≠ .pending) (leaves : status ≠ .needsReview)
    (reviews : start.reviews = (decideReview m review verdict note w.db).reviews)
    (tasks : start.tasks = w.db.tasks)
    (performed : call.perform m w.db = .ok (release m taskId status latestUpdate start))
    (created : trail.created = w.trail.created) (kept : ∀ id ∈ w.trail.approved, id ∈ trail.approved)
    (finished : status = .done → verdict = .approved ∧ review.id ∈ trail.approved) :
    Passage q w {w with db := release m taskId status latestUpdate start, trail} := by
  obtain ⟨r,held,waits⟩ := admitted.waits
  obtain ⟨listed,own⟩ := addressedOwn admitted.addressed
  obtain ⟨fewer,others⟩ := @pendingsDecided m w.db taskId review verdict note listed own
    admitted.pending decides
  have now : (release m taskId status latestUpdate start).tasks.get taskId =
      some (released m status latestUpdate r) := ReviewDecisions.releasedRead (by rw [tasks,held])
  have same (id : String) : pendings (release m taskId status latestUpdate start) id =
      pendings (decideReview m review verdict note w.db) id :=
    congrArg (fun rows : Rows ReviewRow => rows.rows.filter (pends id)) reviews
  refine passageOne held now ⟨rfl,rfl⟩ (fun other apart => ?_)
    (fun other apart => (same other).trans (others other apart)) ?_ (fun is _ => .inr ?_)
    (fun is => absurd is leaves) created fun id => approvedCalled performed kept
  · show (release m taskId status latestUpdate start).tasks.get other = _
    rw [releasedOthers apart,tasks]
  · rw [same,if_pos waits,fewer]
    exact (if_neg leaves).symm ▸ rfl
  · obtain ⟨approves,named⟩ := finished is
    subst approves
    refine ⟨decided m .approved note review,?_,own,rfl,named⟩
    show decided m .approved note review ∈ start.reviews
    rw [reviews]
    exact (getSome.mp (decidedRead admitted .approved note)).1

theorem approvePassage {note : Option String} {expected : Option Expected} {row : ReviewRow}
    (performed : DbReviews.approveTaskReview m taskId note expected w.db = .ok (row,next)) :
    Passage q w {w with db := next, trail := w.trail.approve row} := by
  have called : DbCall.perform m w.db (.approveTaskReview taskId note expected) = .ok next :=
    congrArg (Except.map Prod.snd) performed
  obtain ⟨review,admitted,rfl,rfl⟩ := approveSource performed
  exact decisionPassage .approved _ admitted (by decide) (by decide) rfl rfl called rfl
    (fun id named => List.mem_cons_of_mem _ named) fun _ => ⟨rfl,List.mem_cons_self⟩

theorem reworkPassage {note : String} {expected : Option Expected} {row : ReviewRow}
    (performed : DbReviews.requestTaskRework m taskId note expected w.db = .ok (row,next)) :
    Passage q w {w with db := next} := by
  have called : DbCall.perform m w.db (.requestTaskRework taskId note expected) = .ok next :=
    congrArg (Except.map Prod.snd) performed
  obtain ⟨review,noted,_,admitted,_,noting,rfl⟩ := reworkSource performed
  have tasks := messageTasks noting
  have reviews := messageReviews noting
  exact decisionPassage .reworkRequested (resetSteps m _ noted) admitted
    (by decide) (by decide) reviews tasks called rfl (fun _ named => named) fun is => by cases is

theorem createPassage {input : TaskPayload} {plan : RoutePlan} {id : String}
    (routed : ∃ uuid, plan = routeTask uuid input)
    (performed : Db.createTask m input plan w.db = .ok (id,next)) :
    Passage q w {w with db := next, trail := w.trail.create input plan id} := by
  obtain ⟨task,tasks,routeSteps,events,parsed,_,inserted,_,rfl⟩ := createSource performed
  have fresh (r : TaskRow) (held : w.db.tasks.get id = some r) : False :=
    (insertSome inserted).1 r (getSome.mp held).1 (getSome.mp held).2
  have others (taskId : String) (apart : taskId ≠ id) : tasks.get taskId = w.db.tasks.get taskId := by
    rw [getInsert inserted]
    exact if_neg apart.symm
  have mine : tasks.get id = some (queuedRow id task plan m.now) := by
    rw [getInsert inserted]
    exact if_pos rfl
  have awaiting (taskId : String) : awaits {w.db with tasks, routeSteps, events} taskId =
      awaits w.db taskId := by
    unfold awaits
    by_cases here : taskId = id
    · subst here
      show (tasks.get taskId).any _ = _
      rw [mine]
      cases held : w.db.tasks.get taskId with
      | none => rfl
      | some r => exact (fresh r held).elim
    · show (tasks.get taskId).any _ = _
      rw [others taskId here]
  refine ⟨fun taskId r held => ⟨r,?_,kinSame r⟩,fun taskId => ?_,fun taskId r held is _ => .inl ?_,
    fun e listed => ?_,fun _ => approvedSame rfl rfl,fun taskId waits => .inl (awaiting taskId ▸ waits)⟩
  · show tasks.get taskId = some r
    rw [others taskId (fun here => fresh r (here ▸ held)),held]
  · show _ = _ + if awaits {w.db with tasks, routeSteps, events} taskId then 1 else 0
    rw [awaiting]
    rfl
  · by_cases here : taskId = id
    · subst here
      cases Option.some.inj (mine.symm.trans held)
      cases is
    · exact ⟨r,(others taskId here).symm.trans held,is⟩
  · rcases List.mem_cons.mp listed with rfl | old
    · exact .inr ⟨routed,_,mine,Protocol.handoffKept parsed,rfl⟩
    · exact .inl old

theorem recoveryPassage {cause : RecoveryCause} {recoveredBy : String}
    {result : StaleRecoveryResult}
    (performed : Db.recoverRunningTasks m cause recoveredBy w.db = .ok (result,next)) :
    Passage q w {w with db := next, trail := w.trail.recover result} := by
  obtain ⟨closes,_⟩ := recoverySource performed
  refine passageMapped (fun taskId => closes.getTask) (fun taskId r held => ?_) closes.evidence.2.2
    rfl rfl
  split
  next selected =>
    obtain ⟨task,member,selects,keyed⟩ := selectedIds.mp selected
    cases keyUnique member (getSome.mp held).1 keyed
    simp only [RecoveryCause.selects,Bool.and_eq_true,beq_iff_eq] at selects
    have left : (recoveredTask m cause r).status = .blocked := rfl
    exact ⟨⟨rfl,rfl⟩,.inr ⟨by rw [selects.1]; decide,by simp [left],by simp [left]⟩⟩
  next => exact idleSame r

theorem leaveReviews {trail : Trail} {status : TaskStatus} :
    (trail.leave taskId status).created = trail.created ∧
      (trail.leave taskId status).approved = trail.approved := by
  unfold Trail.leave
  split <;> exact ⟨rfl,rfl⟩

theorem checkReviews {trail : Trail} {runId : String} :
    (trail.check runId).created = trail.created ∧
      (trail.check runId).approved = trail.approved := by
  unfold Trail.check
  split <;> exact ⟨rfl,rfl⟩

theorem answerPassage (allowed : Tame q ∨ May q w) : Passage q w (answer i c w q).2 := by
  cases q with
  | createTask input plan =>
    have routed : ∃ uuid, plan = routeTask uuid input := allowed.resolve_right False.elim
    exact storedKept passageRefl fun id db performed => createPassage routed performed
  | claimNextTask workerId =>
    refine storedKept passageRefl fun claimed db performed => ?_
    rcases claimSource performed with ⟨rfl,rfl⟩ | ⟨task,listed,queued,rfl,events,rfl⟩
    · exact passageRefl
    · show Passage _ w {w with
        db := {w.db with events}.updateTask task.id _ (claimedKept ⟨c.now,c.uuid⟩ workerId)
        trail := w.trail.claim i.thread (some task.id)}
      refine passageUpdated {w.db with events} _ rfl (fun r held => ?_) rfl rfl rfl
      cases Option.some.inj ((getMem listed).symm.trans held)
      exact ⟨⟨rfl,rfl⟩,.inr ⟨by rw [queued]; decide,nofun,nofun⟩⟩
  | heartbeatTask taskId workerId =>
    refine storedKept passageRefl fun at_ db performed => ?_
    obtain ⟨r,held,running,rfl⟩ := heartbeatSource performed
    exact passageUpdated w.db w.trail rfl (fun r _ => ⟨⟨rfl,rfl⟩,.inl rfl⟩) rfl rfl rfl
  | recoverStaleTasks cutoffMs recoveredBy =>
    refine storedKept passageRefl fun result db performed => ?_
    cases cutoffMs with
    | none => contradiction
    | some cutoff => exact recoveryPassage performed
  | recoverTasksOwnedBy claimedBy recoveredBy =>
    refine storedKept passageRefl fun result db performed => ?_
    unfold Db.recoverTasksOwnedBy at performed
    dsimp only at performed
    split at performed
    · contradiction
    · exact recoveryPassage performed
  | updateTaskStatus taskId status latestUpdate =>
    refine writtenKept passageRefl fun db performed => ?_
    obtain ⟨rfl,calm⟩ := allowed.resolve_left id
    obtain ⟨r,held,edge,rfl⟩ := statusSource performed
    refine passageUpdated w.db _ rfl (fun r held => ⟨⟨rfl,rfl⟩,.inr ⟨?_,nofun,nofun⟩⟩) rfl
      leaveReviews.1 leaveReviews.2
    unfold awaits at calm
    rw [held] at calm
    exact beq_eq_false_iff_ne.mp calm
  | updateRouteStep stepId patch =>
    refine writtenKept passageRefl fun db performed => ?_
    obtain ⟨s,held,rfl⟩ := stepSource performed
    exact passageSame rfl rfl rfl rfl
  | createRun input =>
    refine storedKept passageRefl fun run db performed => ?_
    obtain ⟨_,_,runs,_,rfl⟩ := newRunSource performed
    exact passageSame rfl rfl rfl rfl
  | updateRun runId patch =>
    refine storedKept passageRefl fun run db performed => ?_
    obtain ⟨current,_,_,_,rfl⟩ := runSource performed
    exact passageSame rfl rfl rfl rfl
  | appendEvent input =>
    refine writtenKept passageRefl fun db performed => ?_
    cases eventSource performed
    exact passageSame rfl rfl rfl rfl
  | addArtifact input =>
    refine storedKept passageRefl fun row db performed => ?_
    obtain ⟨artifacts,rfl⟩ := artifactSource performed
    exact passageSame rfl rfl rfl rfl
  | finalizeTaskExecution taskId status latestUpdate runId =>
    refine writtenKept passageRefl fun db performed => ?_
    exact finalizePassage performed (allowed.resolve_left id) leaveReviews.1 leaveReviews.2
  | approveTaskReview taskId note expected =>
    exact storedKept passageRefl fun row db performed => approvePassage performed
  | requestTaskRework taskId note expected =>
    exact storedKept passageRefl fun row db performed => reworkPassage performed
  | retryBlockedTask taskId note allow =>
    refine storedKept passageRefl fun body db performed => ?_
    obtain ⟨r,held,blocked,_,messages,rfl⟩ := retrySource performed
    refine passageUpdated (resetSteps _ _ {w.db with messages}) w.trail rfl
      (fun r' held' => ?_) rfl rfl rfl
    cases Option.some.inj (held.symm.trans held')
    exact ⟨⟨rfl,rfl⟩,.inr ⟨by rw [blocked]; decide,nofun,nofun⟩⟩
  | memory change => exact passageSame rfl rfl rfl rfl
  | createWorktree taskId runId repo baseRef =>
    exact worktreeKept passageRefl fun info _ => passageSame rfl rfl rfl rfl
  | stopAdapter | collectResult =>
    exact repliedKept passageRefl fun _ _ => passageSame rfl rfl rfl rfl
  | assertSourceUnchanged runId snapshot =>
    exact repliedKept passageRefl fun _ _ => passageSame rfl rfl checkReviews.1 checkReviews.2
  | _ => exact passageRefl

theorem respondPassage (allowed : Tame q ∨ May q w) : Passage q w (respond i c w q).2 :=
  respondKept passageRefl (answerPassage allowed)

end

def rules : Rules where
  tame := Tame
  may _ := May
  holds := Gate

def Known (row : TaskRow) (w : World) : Prop :=
  ∃ r, w.db.tasks.get row.id = some r ∧ Kin row r

def Unreviewed (taskId : String) (w : World) : Prop := awaits w.db taskId = false

def rule : Rule where
  begun := Unreviewed
  row := Known
  listed _ steps _ := (steps.map RouteStepRow.id).Nodup
  work taskId steps _ w := Unreviewed taskId w ∧ (steps.map RouteStepRow.id).Nodup
  halt := Unreviewed

section
variable {n : ThreadId} {i : Who} {c : Choice} {q : Question} {w after : World} {taskId : String}
  {r : Except String (Answer q)} {who : Who → Prop}

theorem answersPassage (allowed : Tame q ∨ May q w)
    (answered : (rules.terms n).setting.answers i q w r after) : Passage q w after := by
  obtain ⟨_,c,_,answered⟩ := answered
  have passage : Passage q w (respond i c w q).2 := respondPassage allowed
  rwa [answered] at passage

theorem tameFinishes (tame : Tame q) : finishes q = none := by
  cases q <;> first | rfl | exact tame.elim

theorem knownStays (row : TaskRow) : Stable (rules.terms n).setting who (Known row) := by
  rintro i _ w after ⟨q,r,may,answered⟩ ⟨known,held,kin⟩
  obtain ⟨now,held',kin'⟩ := (answersPassage (may.imp id And.right) answered).rows _ known held
  exact ⟨now,held',kin.trans kin'⟩

theorem tameUnreviewed (tame : Tame q) (answered : (rules.terms n).setting.answers i q w r after)
    (calm : Unreviewed taskId w) : Unreviewed taskId after := by
  refine Bool.eq_false_iff.mpr fun waits => ?_
  rcases (answersPassage (.inl tame) answered).waits taskId waits with before | ends
  · exact Bool.false_ne_true (calm.symm.trans before)
  · rw [tameFinishes tame] at ends
    cases ends

theorem unreviewedStays (apart : ∀ i, who i → i ≠ ⟨n,none⟩) :
    Stable (rules.terms n).setting who (Unreviewed taskId) := by
  rintro i member w after ⟨q,r,may,answered⟩ calm
  have tame : Tame q := may.resolve_right fun own => apart i member own.1
  exact tameUnreviewed tame answered calm

theorem restsTame (rests : Rests q) : Tame q := by
  cases q <;> trivial

theorem unreviewedUpheld : Upheld (rules.terms n) n (Unreviewed taskId) where
  stays := unreviewedStays outsideApart
  rests quiet calm answered := tameUnreviewed (restsTame quiet) answered calm

theorem claimUnreviewed {workerId : String} {now : World}
    (answered : (rules.terms n).setting.answers i (.claimNextTask workerId) now
      (.ok (some taskId)) after) : Unreviewed taskId after := by
  obtain ⟨_,c,_,answered⟩ := answered
  have outcome : respond i c now (.claimNextTask workerId) = answer i c now (.claimNextTask workerId) := by
    unfold respond at answered ⊢
    split at answered
    · obtain ⟨failed,_⟩ := Prod.mk.inj answered
      cases failed
    · rfl
  rw [outcome] at answered
  have claimed : stored now (now.trail.claim i.thread) (Db.claimNextTask ⟨c.now,c.uuid⟩ workerId now.db) =
    (.ok (some taskId),after) := answered
  generalize performed : Db.claimNextTask ⟨c.now,c.uuid⟩ workerId now.db = result at claimed
  obtain error | ⟨held,db⟩ := result
  · obtain ⟨failed,_⟩ := Prod.mk.inj claimed
    cases failed
  obtain ⟨same,rfl⟩ := Prod.mk.inj claimed
  cases Except.ok.inj same
  rcases claimSource performed with ⟨none_,_⟩ | ⟨task,listed,queued,same,events,rfl⟩
  · cases none_
  cases Option.some.inj same
  have read : (now.db.updateTask task.id (claimedRow ⟨c.now,c.uuid⟩ workerId)
      (claimedKept _ _)).tasks.get task.id = some (claimedRow ⟨c.now,c.uuid⟩ workerId task) := by
    have held : now.db.tasks.get task.id = some task := getMem listed
    rw [getUpdated,held]
    exact congrArg some (if_pos (beq_self_eq_true _))
  show ((now.db.updateTask task.id _ (claimedKept _ _)).tasks.get task.id).any _ = false
  rw [read]
  rfl

theorem memberTame {step : RouteStepRow} {prior : List PriorResult} {heard : Seen}
    (asks : MayAsk step prior heard q) : Tame q := by
  cases q <;> trivial

theorem ruleKept (o : Options) : rule.Kept (rules.terms n) n o where
  rests q w rests := .inl (restsTame rests)
  begun _ := unreviewedUpheld
  row row := knownStays row
  listed _ _ := .always
  work _ _ _ := unreviewedUpheld.both .always
  halt _ := unreviewedUpheld
  claims w := .inr ⟨rfl,trivial⟩
  claimed _ _ _ answered := claimUnreviewed answered
  readsRow taskId row w _ held := by
    have own : row.id = taskId := (getSome.mp held).2
    exact ⟨row,own ▸ held,kinSame row⟩
  readsSteps taskId w _ := listedDistinct taskId w.db
  opens _ _ _ begun distinct := ⟨begun,distinct⟩
  ready _ _ begun := begun
  halts _ _ _ _ work := work.1
  distinct _ _ _ _ work := work.2.sublist (List.filter_sublist.map _)
  blocks _ _ _ halt := .inr ⟨rfl,rfl,halt⟩
  finalizes taskId steps row text runId w _ seen own := by
    refine .inr ⟨rfl,fun final r held => ?_⟩
    obtain ⟨r',found,kin⟩ := seen
    cases Option.some.inj (held.symm.trans (own ▸ found))
    rw [kin.reviewed]
    unfold finalStatus at final
    split at final
    · cases final
    next calm => exact Bool.not_eq_true _ ▸ calm
  groups row task steps sequence rest c w _ _ work := by
    refine ⟨unpromised,fun s _ => ?_,fun after all acts _ => ?_⟩
    · have asks : Asks (fun q => ∃ heard, MayAsk s c.priorResults heard q)
        (executeStep o task s c.priorResults c.inheritedWorktree) :=
          leadsAsks (executeLeads task c.inheritedWorktree)
      have may (q : Question) (asks : ∃ heard, MayAsk s c.priorResults heard q) : Tame q := by
        obtain ⟨heard,asks⟩ := asks
        exact memberTame asks
      exact safeMono (safeAsks (P := fun _ => True) (anything _) (fun q asks now _ =>
        ⟨Or.inl (may q asks),fun _ _ _ => trivial⟩) asks trivial) fun _ _ _ => trivial
    · have calm := stableSteps (unreviewedStays duringApart) acts work.1
      exact ⟨calm,fun _ => ⟨calm,work.2⟩⟩

end

theorem emptyGate : Gate Center.initial.world where
  waiting _ := rfl
  made _ listed := absurd listed List.not_mem_nil
  decided _ _ held := by cases held

theorem calmTame {q : Question} (calm : Calm q) : Tame q := by
  cases q <;> first | exact True.intro | exact calm

theorem rulesKept (fleet : Nat → Options) : rules.Kept fleet where
  initial := emptyGate
  tame _ _ _ _ gate tame := gatePassage gate (respondPassage (.inl tame))
  may _ _ _ _ gate may := gatePassage gate (respondPassage (.inr may))
  memory _ := trivial
  calm _ := calmTame
  members o := runMembers o fun _ _ _ _ asks => memberTame asks
  starts _ _ _ := Attempts.startSafe (ruleKept _)

theorem gateReach {fleet : Nat → Options} {o : Office} (reach : Reach fleet .initial o) :
    Gate o.world :=
  (standingReach (rulesKept fleet) (initialStanding (rulesKept fleet)) reach).holds

theorem decidedMoves {fleet : Nat → Options} {o o' : Office} (moves : Moves fleet o o') {id : String}
    {review : ReviewRow} (held : o.world.db.reviews.get id = some review)
    (final : review.status ≠ .pending) : o'.world.db.reviews.get id = some review := by
  obtain ⟨e,moved⟩ := moves
  rcases stepWorld moved with same | ⟨i,c,q,same⟩ | ⟨process,same⟩
  · rwa [same]
  · rw [same]
    rcases respondAnswered i c o.world q with quiet | ⟨_,call,_,performed⟩
    · rwa [quiet]
    · obtain ⟨r,found,_,kept⟩ := (callReviews performed).known id review held
      rwa [kept final] at found
  · rw [same]
    exact held

theorem decidedReach {fleet : Nat → Options} {o o' : Office} (reach : Reach fleet o o')
    {id : String} {review : ReviewRow} (held : o.world.db.reviews.get id = some review)
    (final : review.status ≠ .pending) : o'.world.db.reviews.get id = some review := by
  induction reach with
  | refl => exact held
  | tail _ moves ih => exact decidedMoves moves ih final

/-- Wherever one worker loop and everybody else have got to: a task has one pending review
while it waits and none otherwise, a decided review stays as it is, and a task created with
a handoff or routed as risky is done only with a review of it that a person approved. -/
theorem humanGate (fleet : Nat → Options) {o o' : Office} (reach : Reach fleet .initial o)
    (later : Reach fleet o o') :
    (∀ taskId r, o.world.db.tasks.get taskId = some r →
      (pendings o.world.db taskId).length = if r.status = .needsReview then 1 else 0) ∧
    (∀ id review, o.world.db.reviews.get id = some review → review.status ≠ .pending →
      o'.world.db.reviews.get id = some review) ∧
    ∀ taskId input plan, (taskId,input,plan) ∈ o.world.trail.created →
      (∃ uuid, plan = routeTask uuid input) ∧ ∃ r, o.world.db.tasks.get taskId = some r ∧
        (input.handoffRequired = true ∨ plan.risk = .high → r.status = .done →
          Approved o.world taskId) := by
  have gate := gateReach reach
  refine ⟨fun taskId r held => ?_,fun id review held final => decidedReach later held final,
    fun taskId input plan listed => ?_⟩
  · have waiting := gate.waiting taskId
    unfold awaits at waiting
    rw [held] at waiting
    simpa using waiting
  · obtain ⟨routed,r,held,handoff,risk⟩ := gate.made _ listed
    refine ⟨routed,r,held,fun asks done => gate.decided taskId r held done ?_⟩
    unfold needsReview
    rcases asks with asked | risky
    · rw [handoff,asked]
      rfl
    · rw [risk,risky]
      exact Bool.or_true _

def waiting : List Event :=
  .start 0 (.createTask EvidenceRevisions.reviewable)::OwnerFencing.turns 0 0 .main 0 10 ++
  .start 0 .runNext::OwnerFencing.turns 1 0 .main 10 17 ++
  OwnerFencing.turns 1 0 (.member "step_1") 27 47 ++ OwnerFencing.turns 1 0 .join 74 1 ++
  OwnerFencing.turns 1 0 .main 75 18

def approving : List Event :=
  .start 1 (.approveTask "task" none)::OwnerFencing.turns 2 1 .main 100 2

def after (events : List Event) (o : Office) : Office :=
  RunLogic.reach (act OwnerFencing.crews) o events

def askedFor (o : Office) : Bool := o.world.trail.created.any fun e => e.1 == "task" &&
  e.2.1.handoffRequired

theorem waitsThenDone :
    (pendings (after waiting .initial).world.db "task").length = 1 ∧
      Approved (after approving (after waiting .initial)).world "task" := by
  have first : Reach OwnerFencing.crews .initial (after waiting .initial) := actsReach waiting
  have later : Reach OwnerFencing.crews (after waiting .initial)
    (after approving (after waiting .initial)) := actsReach approving
  have before := (humanGate OwnerFencing.crews first later).1 "task"
  have done := (humanGate OwnerFencing.crews (first.trans later) .refl).2.2
  have asked : askedFor (after approving (after waiting .initial)) = true := by decide +kernel
  obtain ⟨⟨id,input,plan⟩,listed,named⟩ := List.any_eq_true.mp asked
  obtain ⟨same,handoff⟩ := Bool.and_eq_true_iff.mp named
  cases beq_iff_eq.mp same
  obtain ⟨_,r,held,approved⟩ := done "task" input plan listed
  have statuses : ((after waiting .initial).world.db.tasks.get "task").map TaskRow.status =
      some .needsReview ∧ ((after approving (after waiting .initial)).world.db.tasks.get
        "task").map TaskRow.status = some .done := by decide +kernel
  obtain ⟨row,found,waits⟩ := Option.map_eq_some_iff.mp statuses.1
  refine ⟨(before row found).trans (if_pos waits),approved (.inl handoff) ?_⟩
  have finished := statuses.2
  rw [held] at finished
  exact Option.some.inj finished

end ControlCenter.HumanGate
