import ControlCenter.ExecutionQuestions
import ControlCenter.RunLogic
import ControlCenter.System

/-! Terms that all threads of all processes keep: what each may ask, and what holds of the
world between any two turns. A thread whose script is safe under the terms keeps them
wherever the others have got to, and a crash ends threads without breaking any. -/
namespace ControlCenter.Guarantees
open Db Dialogue Reliance Ports Coordinator Execution Operations ControlCenter.System
open ExecutionQuestions ScriptRuns

structure Terms where
  may : Who → Question → World → Prop
  fair : Who → Choice → Question → World → Prop
  holds : World → Prop

variable (t : Terms)

def Terms.setting : Setting Question Answer World ThreadId String where
  allowed := t.may
  answers i q w r after := t.holds w ∧ ∃ c, t.fair i c q w ∧ respond i c w q = (r,after)

def Terms.Fair (s : Center) : Event → Prop
  | .turn id pick c => ∀ i q, asking s (.turn id pick c) = some (i,q) → t.fair i c q s.world
  | _ => True

structure Terms.Kept (fleet : Nat → Options) : Prop where
  initial : t.holds Center.initial.world
  kept : ∀ i c q w, t.holds w → t.may i q w → t.fair i c q w → t.holds (respond i c w q).2
  memory : ∀ i change w, t.may i (.memory change) w ∧ ∃ c, t.fair i c (.memory change) w
  starts : ∀ n (call : Call) w, t.holds w →
    SafeCrew t.setting n (call.program (fleet n.process)) (fun _ _ => True) w

structure Standing (s : Center) : Prop where
  holds : t.holds s.world
  distinct : (s.pool.map Live.id).Nodup
  older : ∀ l ∈ s.pool, l.id.number < s.next
  good : ∀ l ∈ s.pool, Good t.setting l.id l.job s.world

section
variable {t} {fleet : Nat → Options} {s s' : Center}

theorem crashActs (kept : t.Kept fleet) (process : Nat) {w : World} (held : t.holds w) :
    Acts t.setting ⟨⟨0,process⟩,none⟩ w (setMemory w process .empty) := by
  obtain ⟨may,c,fair⟩ := kept.memory ⟨⟨0,process⟩,none⟩ (fun _ => .empty) w
  refine ⟨.memory fun _ => .empty,.ok (w.memory process),may,held,c,fair,?_⟩
  unfold respond
  split <;> rfl

theorem actsHold (kept : t.Kept fleet) {i : Who} {w after : World}
    (acts : Acts t.setting i w after) : t.holds after := by
  obtain ⟨q,r,may,held,c,fair,answered⟩ := acts
  have after := kept.kept i c q w held may fair
  rwa [answered] at after

theorem foundLive {id : ThreadId} {l : Live} (found : s.find id = some l) :
    l ∈ s.pool ∧ l.id = id :=
  ⟨List.mem_of_find?_eq_some found,by simpa using List.find?_some found⟩

theorem standingTurn (kept : t.Kept fleet) (standing : Standing t s) {id : ThreadId}
    {pick : Pick String} {c : Choice} (fair : t.Fair s (.turn id pick c))
    (h : step fleet s (.turn id pick c) = some s') : Standing t s' := by
  simp only [step,bind,Option.bind_eq_some_iff] at h
  obtain ⟨l,found,⟨job,world⟩,moved,last⟩ := h
  cases Option.some.inj last
  obtain ⟨listed,rfl⟩ := foundLive found
  have answers (k : Option String) (q : Question) (asks : asked pick l.job = some (k,q)) :
      t.setting.answers ⟨l.id,k⟩ q s.world (respond ⟨l.id,k⟩ c s.world q).1
        (respond ⟨l.id,k⟩ c s.world q).2 := by
    refine ⟨standing.holds,c,fair _ _ ?_,rfl⟩
    simp only [asking,found,asks,bind,Option.bind_some]
  obtain ⟨good,acts⟩ := goodStep answers (standing.good l listed) moved
  have others (l' : Live) (listed' : l' ∈ s.pool) (apart : l'.id ≠ l.id) :
      Good t.setting l'.id l'.job world := by
    rcases acts with rfl | ⟨k,acts⟩
    · exact standing.good l' listed'
    · exact goodStable (standing.good l' listed') (stepsOne (fun same => apart same.symm) acts)
  have names : (s.settle l.id job world).pool.map Live.id = s.pool.map Live.id := by
    refine (List.map_map ..).trans (List.map_congr_left fun l' _ => ?_)
    by_cases own : l'.id = l.id
    · simp [own]
    · simp [own]
  refine ⟨?_,names ▸ standing.distinct,?_,?_⟩
  · rcases acts with rfl | ⟨k,acts⟩
    · exact standing.holds
    · exact actsHold kept acts
  · intro l' inside
    obtain ⟨old,member,same⟩ := List.mem_map.mp (names ▸ List.mem_map_of_mem inside)
    exact same ▸ standing.older old member
  · intro l' inside
    obtain ⟨old,member,rfl⟩ := List.mem_map.mp inside
    by_cases own : old.id = l.id
    · rw [if_pos (beq_iff_eq.mpr own)]
      exact good
    · rw [if_neg (by simpa using own)]
      exact others old member own

theorem standingStart (kept : t.Kept fleet) (standing : Standing t s) (process : Nat)
    (call : Call) : Standing t {s with
      pool := s.pool ++ [⟨⟨s.next,process⟩,Thread.start (call.program (fleet process))⟩]
      next := s.next + 1} := by
  have fresh (l : Live) (listed : l ∈ s.pool) : l.id ≠ ⟨s.next,process⟩ := fun same => by
    have older := standing.older l listed
    rw [same] at older
    exact Nat.lt_irrefl _ older
  refine ⟨standing.holds,?_,?_,?_⟩
  · rw [List.map_append,List.nodup_append]
    refine ⟨standing.distinct,List.nodup_singleton _,fun a inside b one same => ?_⟩
    obtain ⟨l,listed,rfl⟩ := List.mem_map.mp inside
    cases List.mem_singleton.mp one
    exact fresh l listed same
  · intro l inside
    rcases List.mem_append.mp inside with old | one
    · exact Nat.lt_succ_of_lt (standing.older l old)
    · cases List.mem_singleton.mp one
      exact Nat.lt_succ_self _
  · intro l inside
    rcases List.mem_append.mp inside with old | one
    · exact standing.good l old
    · cases List.mem_singleton.mp one
      exact .working (kept.starts _ call _ standing.holds)

theorem standingCrash (kept : t.Kept fleet) (standing : Standing t s) (process : Nat) :
    Standing t {s with
      world := setMemory s.world process .empty
      pool := s.pool.filter fun l => l.id.process != process} := by
  have crashes := crashActs kept process standing.holds
  refine ⟨actsHold kept crashes,standing.distinct.sublist (List.filter_sublist.map _),
    fun l inside => standing.older l (List.mem_of_mem_filter inside),fun l inside => ?_⟩
  obtain ⟨listed,alive⟩ := List.mem_filter.mp inside
  refine goodStable (standing.good l listed) (stepsOne (fun same => ?_) crashes)
  rw [← same] at alive
  simp at alive

theorem standingStep (kept : t.Kept fleet) (standing : Standing t s) {e : Event}
    (fair : t.Fair s e) (h : step fleet s e = some s') : Standing t s' := by
  cases e with
  | start process call =>
    cases Option.some.inj h
    exact standingStart kept standing process call
  | turn id pick c => exact standingTurn kept standing fair h
  | crash process =>
    cases Option.some.inj h
    exact standingCrash kept standing process

theorem standingReached (kept : t.Kept fleet) (reachable : Reachable fleet t.Fair s) :
    Standing t s :=
  reachableInduct (P := Standing t)
    ⟨kept.initial,List.nodup_nil,fun _ inside => absurd inside List.not_mem_nil,
      fun _ inside => absurd inside List.not_mem_nil⟩
    (fun _ _ _ _ standing fair h => standingStep kept standing fair h) reachable

theorem askedMay (standing : Standing t s) {id : ThreadId} {pick : Pick String} {c : Choice}
    {i : Who} {q : Question} (asks : asking s (.turn id pick c) = some (i,q)) :
    t.may i q s.world ∧ i.thread = id := by
  simp only [asking,bind,Option.bind_eq_some_iff] at asks
  obtain ⟨l,found,⟨k,q'⟩,asked,last⟩ := asks
  cases Option.some.inj last
  obtain ⟨listed,rfl⟩ := foundLive found
  exact ⟨goodAsked (standing.good l listed) asked,rfl⟩

end

def Calm : Question → Prop
  | .createTask task plan => ∃ uuid, plan = Router.routeTask uuid task
  | .claimNextTask _ | .updateTaskStatus .. | .updateRouteStep .. | .createRun _ | .updateRun ..
  | .finalizeTaskExecution .. | .createWorktree .. | .captureSourceSnapshot _
  | .assertSourceUnchanged .. | .prepareRunDirectory .. | .startTask .. | .collectResult ..
  | .runVerifier .. | .captureReviewArtifacts .. => False
  | _ => True

def CalmJoint : Joint Question Answer String StepOutcome → Prop
  | .inl q => Calm q
  | .inr _ => False

theorem calmPublish (input : EventInput) : Asks Calm (publish input) :=
  asksBind (asksCall trivial) fun _ => asksDone _

theorem calmRecall {α : Type} (f : Memory → α) : Asks Calm (recalled f) :=
  asksBind (asksCall trivial) fun _ => asksDone _

theorem calmRemember (change : Memory → Memory) : Asks Calm (remember change) :=
  asksBind (asksCall trivial) fun _ => asksDone _

theorem calmEach {α : Type} {f : α → Dialog Unit} (each : ∀ a, Asks Calm (f a)) (l : List α) :
    Asks Calm (eachOf f l) := by
  induction l with
  | nil => exact asksDone _
  | cons a rest ih =>
    exact asksBind (asksAttempt (each a)) fun _ => asksBind ih fun _ => asksExcept _

theorem calmCreate (input : JsonValue.Json) : Asks Calm (createTask input) := by
  refine asksBind (asksExcept _) fun parsed => asksBind (asksCall trivial) fun repo =>
    asksBind (asksCall trivial) fun uuid => asksBind (asksCall ⟨uuid,rfl⟩) fun id =>
    asksBind (asksGetTask trivial _) fun created => ?_
  cases created with
  | none => exact asksFail _
  | some created => exact asksBind (calmPublish _) fun _ => asksDone _

theorem calmApproveReview (reviewId : String) (updatedAt : Int) (note : Option String) :
    Asks Calm (approveReview reviewId updatedAt note) := by
  refine asksBind (asksReading trivial _) fun review => ?_
  cases review with
  | none => exact asksFail _
  | some pending =>
    exact asksBind (asksCall trivial) fun _ => asksBind (calmPublish _) fun _ => asksDone _

theorem calmReviewRework (reviewId : String) (updatedAt : Int) (note : String) :
    Asks Calm (requestReviewRework reviewId updatedAt note) := by
  refine asksBind (asksReading trivial _) fun review => ?_
  cases review with
  | none => exact asksFail _
  | some pending =>
    exact asksBind (asksCall trivial) fun _ => asksBind (calmPublish _) fun _ => asksDone _

theorem calmScreenshot (o : Options) (input : Screenshot) :
    Asks Calm (attachScreenshot o input) := by
  refine asksBind (asksReading trivial _) fun run => ?_
  split
  · exact asksFail _
  split
  · exact asksFail _
  · exact asksBind (asksExcept _) fun _ => asksBind (asksCall trivial) fun _ =>
      asksBind (asksCall trivial) fun _ => asksBind (calmPublish _) fun _ => asksDone _

theorem calmStop (runId : String) : Asks Calm (stopRun runId) := by
  refine asksBind (asksReading trivial _) fun run => ?_
  cases run with
  | none => exact asksFail _
  | some run =>
    dsimp only
    split
    · exact asksDone _
    refine asksBind (calmRecall _) fun phase => ?_
    split
    · exact asksDone _
    refine asksBind (calmPublish _) fun _ => asksBind (calmRecall _) fun verifying => ?_
    split
    · exact asksBind (asksCall trivial) fun _ => asksDone _
    refine asksBind (calmRecall _) fun control => ?_
    cases control with
    | some control => exact asksBind (asksCall trivial) fun _ => asksDone _
    | none =>
      dsimp only
      split
      · exact asksBind (calmRemember _) fun _ => asksDone _
      · exact asksFail _

theorem calmShutdown : Asks Calm requestShutdown :=
  asksBind (calmRemember _) fun _ => asksBind (calmRecall _) fun runIds =>
    asksBind (asksAttempt (calmEach (fun runId => asksBind (calmStop runId) fun _ => asksDone _)
      runIds)) fun _ => asksDone _

theorem calmReconcile (recovered : StaleRecoveryResult) :
    Asks Calm (reconcileRecoveredRuns recovered) := by
  refine asksBind (calmEach (fun candidate => ?_) _) fun _ => calmEach (fun candidate => ?_) _
  · exact asksBind (asksCall trivial) fun cleanup => calmPublish _
  · exact asksBind (asksCall trivial) fun result => calmPublish _

theorem calmDiscard {α : Type} {p : Dialog α} (calm : Asks Calm p) :
    Asks CalmJoint (discard p) :=
  asksAlone (fun _ quiet => quiet) (asksBind calm fun _ => asksDone _)

theorem calmCall (o : Options) (call : Call) (other : call ≠ .runNext) :
    Asks CalmJoint (call.program o) := by
  cases call with
  | runNext => exact absurd rfl other
  | createTask input => exact calmDiscard (calmCreate input)
  | heartbeat taskId => exact calmDiscard (asksCall trivial)
  | recoverStale cutoffMs recoveredBy =>
    exact calmDiscard (asksBind (asksCall trivial) fun _ => calmReconcile _)
  | recoverDeadWorker workerId recoveredBy =>
    exact calmDiscard (asksBind (asksCall trivial) fun _ => calmReconcile _)
  | approveTask taskId note =>
    exact calmDiscard (asksBind (asksCall trivial) fun _ => calmPublish _)
  | approveReview reviewId updatedAt note => exact calmDiscard (calmApproveReview ..)
  | requestRework taskId note =>
    exact calmDiscard (asksBind (asksCall trivial) fun _ => calmPublish _)
  | requestReviewRework reviewId updatedAt note => exact calmDiscard (calmReviewRework ..)
  | retryBlockedTask taskId note allow =>
    exact calmDiscard (asksBind (asksCall trivial) fun _ => calmPublish _)
  | attachScreenshot input => exact calmDiscard (calmScreenshot o input)
  | addArtifact input => exact calmDiscard (asksCall trivial)
  | stopRun runId => exact calmDiscard (calmStop runId)
  | requestShutdown => exact calmDiscard calmShutdown

section
variable {S : Setting Question Answer World ThreadId String} {n : ThreadId}

def unpromised (_ : String) (_ : Except String StepOutcome) (_ : World) : Prop := True

theorem anything (who : Who → Prop) : Stable S who fun _ => True := fun _ _ _ _ _ _ => trivial

theorem crewCalm {α : Type} {p : TaskCrew α} (asks : Asks CalmJoint p)
    (may : ∀ q w, Calm q → S.allowed ⟨n,none⟩ q w) (w : World) :
    SafeCrew S n p (fun _ _ => True) w := by
  induction p generalizing w with
  | done a => exact fun _ _ => trivial
  | fail error => exact fun _ _ => trivial
  | ask q next ih =>
    cases q with
    | inl q => exact fun now _ => ⟨may q now asks.1,fun r after _ => ih r (asks.2 r) after⟩
    | inr members => exact asks.1.elim

end

section
variable {t : Terms} {who : Who → Prop} {i : Who} {P : World → Prop}

theorem snapshotAnswer {now after : World} {r : Except String ControlCenterDb}
    (answered : t.setting.answers i .snapshot now r after) :
    after = now ∧ ∀ db, r = .ok db → db = now.db := by
  obtain ⟨_,c,_,answered⟩ := answered
  unfold respond at answered
  split at answered
  · obtain ⟨rfl,rfl⟩ := Prod.mk.inj answered
    exact ⟨rfl,nofun⟩
  · obtain ⟨rfl,rfl⟩ := Prod.mk.inj answered
    exact ⟨rfl,fun db same => (Except.ok.inj same).symm⟩

theorem readingSafe {α : Type} {f : ControlCenterDb → α} (may : ∀ w, t.may i .snapshot w)
    (stable : Stable t.setting who P) {R : α → World → Prop}
    (stays : ∀ a, Stable t.setting who (R a)) (read : ∀ now, P now → R (f now.db) now)
    {w : World} (held : P w) : Safe t.setting who i (reading f) (fun r after => match r with
      | .ok a => P after ∧ R a after
      | .error _ => P after) w := by
  refine safeBind (safeCall stable (fun now _ => may now) (fun now r after last held answered
    steps => ?_) held)
  obtain ⟨rfl,reads⟩ := snapshotAnswer answered
  have kept : P last := stableSteps stable steps held
  cases r with
  | error error => exact kept
  | ok db =>
    cases reads db rfl
    have found := stableSteps (stays _) steps (read _ held)
    exact fun later more => ⟨stableSteps stable more kept,stableSteps (stays _) more found⟩

theorem bothStable {who : Who → Prop} {R : World → Prop} (first : Stable t.setting who P)
    (second : Stable t.setting who R) : Stable t.setting who fun w => P w ∧ R w :=
  fun i member w after acts held =>
    ⟨first i member w after acts held.1,second i member w after acts held.2⟩

theorem readSafe {α : Type} {f : ControlCenterDb → α} (may : ∀ w, t.may i .snapshot w)
    (stable : Stable t.setting who P) {w : World} (held : P w) :
    Safe t.setting who i (reading f) (fun _ => P) w := by
  refine safeMono (readingSafe may stable (fun _ => anything who) (fun _ _ => trivial) held) ?_
  rintro (error | a) after kept
  · exact kept
  · exact kept.1

theorem exceptSafe {α : Type} (stable : Stable t.setting who P) (r : Except String α) {w : World}
    (held : P w) : Safe t.setting who i (Script.ofExcept r) (fun _ => P) w := by
  cases r with
  | error error => exact safeFail stable (fun _ kept => kept) held
  | ok a => exact safeDone stable (fun _ kept => kept) held

structure Gathered (row : TaskRow → World → Prop) (steps : List RouteStepRow → World → Prop)
    (runs : List RunRow → World → Prop) (taskId : String) (aggregate : TaskAggregate)
    (w : World) : Prop where
  row : ∃ r, r.id = taskId ∧ row r w ∧ aggregate.task = taskFromRow r
  steps : steps aggregate.routeSteps w
  runs : runs aggregate.runs w

theorem getTaskSafe {row : TaskRow → World → Prop} {steps : List RouteStepRow → World → Prop}
    {runs : List RunRow → World → Prop} (taskId : String) (may : ∀ w, t.may i .snapshot w)
    (stable : Stable t.setting who P) (rowStays : ∀ r, Stable t.setting who (row r))
    (stepsStay : ∀ l, Stable t.setting who (steps l)) (runsStay : ∀ l, Stable t.setting who (runs l))
    (readsRow : ∀ now r, P now → now.db.tasks.get taskId = some r → row r now)
    (readsSteps : ∀ now, P now → steps (listRouteSteps taskId now.db) now)
    (readsRuns : ∀ now, P now → runs (listRuns taskId now.db) now) {w : World} (held : P w) :
    Safe t.setting who i (getTask taskId) (fun r after => P after ∧ ∀ aggregate,
      r = .ok (some aggregate) → Gathered row steps runs taskId aggregate after) w := by
  have found (a : Option TaskRow) :
      Stable t.setting who fun w => ∀ r, a = some r → r.id = taskId ∧ row r w :=
    fun i member w after acts holds r same =>
      ⟨(holds r same).1,rowStays r i member w after acts (holds r same).2⟩
  have first := readingSafe (i := i) (f := fun db => db.tasks.get taskId) may stable found
    (fun now kept r same => ⟨(Table.getSome.mp same).2,readsRow now r kept same⟩) held
  unfold getTask
  refine safeBind ?_
  refine safeMono first ?_
  intro r after kept
  obtain error | a := r
  · exact ⟨kept,fun _ same => by cases same⟩
  obtain ⟨kept,there⟩ := kept
  cases a with
  | none => exact safeDone stable (fun _ kept => ⟨kept,fun _ same => by cases same⟩) kept
  | some r =>
    have own := (there r rfl).1
    have stable₁ := bothStable stable (rowStays r)
    refine safeBind ?_
    refine safeMono (readingSafe may stable₁ stepsStay (fun now kept => readsSteps now kept.1)
      ⟨kept,(there r rfl).2⟩) ?_
    intro r after kept
    obtain error | routeSteps := r
    · exact ⟨kept.1,fun _ same => by cases same⟩
    have stable₂ := bothStable stable₁ (stepsStay routeSteps)
    refine safeBind ?_
    refine safeMono (readingSafe may stable₂ runsStay (fun now kept => readsRuns now kept.1.1)
      kept) ?_
    intro r after kept
    obtain error | read := r
    · exact ⟨kept.1.1,fun _ same => by cases same⟩
    have stable₃ := bothStable stable₂ (runsStay read)
    refine safeBind ?_
    refine safeMono (readSafe may stable₃ kept) ?_
    intro r after kept
    obtain error | artifacts := r
    · exact ⟨kept.1.1.1,fun _ same => by cases same⟩
    refine safeBind ?_
    refine safeMono (readSafe may stable₃ kept) ?_
    intro r after kept
    obtain error | messages := r
    · exact ⟨kept.1.1.1,fun _ same => by cases same⟩
    refine safeBind ?_
    refine safeMono (readSafe may stable₃ kept) ?_
    intro r after kept
    obtain error | reviews := r
    · exact ⟨kept.1.1.1,fun _ same => by cases same⟩
    refine safeBind ?_
    refine safeMono (exceptSafe stable₃ _ kept) ?_
    intro r after kept
    obtain error | plan := r
    · exact ⟨kept.1.1.1,fun _ same => by cases same⟩
    refine safeDone stable₃ (fun last kept => ⟨kept.1.1.1,fun aggregate same => ?_⟩) kept
    cases Option.some.inj (Except.ok.inj same)
    exact ⟨⟨r,own,kept.1.1.2,rfl⟩,kept.1.2,kept.2⟩

theorem Gathered.id {row : TaskRow → World → Prop} {steps : List RouteStepRow → World → Prop}
    {runs : List RunRow → World → Prop} {taskId : String} {aggregate : TaskAggregate} {w : World}
    (gathered : Gathered row steps runs taskId aggregate w) : aggregate.task.id = taskId := by
  obtain ⟨r,own,_,same⟩ := gathered.row
  rw [same]
  exact own

theorem anyRead {α : Type} {who : Who → Prop} (_ : α) : Stable t.setting who fun _ => True :=
  anything who

theorem getTaskKept (taskId : String) (may : ∀ w, t.may i .snapshot w)
    (stable : Stable t.setting who P) {w : World} (held : P w) :
    Safe t.setting who i (getTask taskId) (fun r after => P after ∧ ∀ aggregate,
      r = .ok (some aggregate) → aggregate.task.id = taskId) w := by
  have read := getTaskSafe (i := i) taskId may stable anyRead anyRead anyRead
    (fun _ _ _ _ => trivial) (fun _ _ => trivial) (fun _ _ => trivial) held
  exact safeMono read fun r after kept => ⟨kept.1,fun a same => (kept.2 a same).id⟩

end

def act (fleet : Nat → Options) (s : Center) (e : Event) : Center := (step fleet s e).getD s

theorem actsReach {fleet : Nat → Options} {fair : Center → Event → Prop} {s : Center}
    (events : List Event) (each : ∀ front e back, events = front ++ e::back →
      fair (RunLogic.reach (act fleet) s front) e) :
    Reach fleet fair s (RunLogic.reach (act fleet) s events) := by
  induction events generalizing s with
  | nil => exact .refl
  | cons e rest ih =>
    have later := ih (s := act fleet s e) fun front e' back split =>
      each (e::front) e' back (by rw [split]; rfl)
    cases moved : step fleet s e with
    | none =>
      have same : act fleet s e = s := by rw [act,moved]; rfl
      show Reach fleet fair s (RunLogic.reach (act fleet) (act fleet s e) rest)
      rwa [same] at later ⊢
    | some next =>
      have same : act fleet s e = next := by rw [act,moved]; rfl
      refine .head ⟨e,each [] e rest rfl,moved⟩ ?_
      show Reach fleet fair next (RunLogic.reach (act fleet) (act fleet s e) rest)
      rwa [same] at later ⊢

end ControlCenter.Guarantees
