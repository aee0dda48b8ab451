import ControlCenter.Guarantees
import ControlCenter.StepOrder

/-! What an attempt at a task keeps from its claim to its end. One rule for the loop over the
groups: an invariant says what holds with the sequences still to come, and what a group of
steps makes of it; the claim, the reads and the three ways out are here. -/
namespace ControlCenter.Attempts
open Protocol Table Db DbReviews Dialogue Reliance Ports Coordinator Execution
open ControlCenter.System Guarantees ExecutionQuestions

def Rests : Question → Prop
  | .snapshot | .memory _ | .appendEvent _ | .addArtifact _ | .writeArtifact ..
  | .heartbeatTask .. => True
  | _ => False

theorem restsPublish (input : EventInput) : Asks Rests (publish input) :=
  asksBind (asksCall trivial) fun _ => asksDone _

theorem restsHandoff (taskId : String) (status : HandoffStatus) (reason : Option String) :
    Asks Rests (writeHandoff taskId status reason) :=
  asksHandoff trivial (fun _ _ _ _ _ => trivial) (fun _ => trivial) taskId status reason

theorem restsShutdown : Asks Rests shutdownRequested :=
  asksBind (asksCall trivial) fun _ => asksDone _

theorem outsideApart {n : ThreadId} (i : Who) (member : outside n i) : i ≠ ⟨n,none⟩ := fun same => by
  rw [same] at member
  exact member rfl

theorem besidesApart {n : ThreadId} {key : String} (i : Who) (member : besides n key i) :
    i ≠ ⟨n,none⟩ := by
  rintro rfl
  rcases member with other | ⟨_,_,same⟩
  · exact other rfl
  · cases same

theorem duringApart {n : ThreadId} {keys : List String} (i : Who) (member : during n keys i) :
    i ≠ ⟨n,none⟩ := by
  rintro rfl
  rcases member with other | ⟨_,_,same⟩
  · exact other rfl
  · cases same

structure Upheld (t : Terms) (n : ThreadId) (P : World → Prop) : Prop where
  stays : Stable t.setting (outside n) P
  rests : ∀ {q : Question} {r : Except String (Answer q)} {now after : World}, Rests q → P now →
    t.setting.answers ⟨n,none⟩ q now r after → P after

structure Rule where
  begun : String → World → Prop
  row : TaskRow → World → Prop
  listed : String → List RouteStepRow → World → Prop
  work : String → List RouteStepRow → List Nat → World → Prop
  halt : String → World → Prop

structure Told (row task : TaskRow) : Prop where
  id : task.id = row.id
  verification : task.verificationCommand = nonempty row.verificationCommand

def pendingOf (steps : List RouteStepRow) : List RouteStepRow :=
  steps.filter fun s => s.status == .pending

def Rule.Grouped (r : Rule) (t : Terms) (n : ThreadId) (o : Options) (task : TaskRow)
    (steps members : List RouteStepRow) (rest : List Nat) (c : Carried) (w : World) : Prop :=
  ∃ promise : String → Except String StepOutcome → World → Prop,
    (∀ s ∈ members, Safe t.setting (besides n s.id) ⟨n,some s.id⟩
      (executeStep o task s c.priorResults c.inheritedWorktree) (promise s.id) w) ∧
    ∀ after all, Steps t.setting (during n (members.map RouteStepRow.id)) w after →
      List.Forall₂ (fun k outcome => promise k (.ok outcome) after)
        (members.map RouteStepRow.id) all →
      r.halt task.id after ∧ (failedStep all = none → r.work task.id steps rest after)

structure Rule.Kept (r : Rule) (t : Terms) (n : ThreadId) (o : Options) : Prop where
  rests : ∀ q w, Rests q → t.may ⟨n,none⟩ q w
  begun : ∀ taskId, Upheld t n (r.begun taskId)
  row : ∀ row, Stable t.setting (fun _ => True) (r.row row)
  listed : ∀ taskId steps, Upheld t n (r.listed taskId steps)
  work : ∀ taskId steps rest, Upheld t n (r.work taskId steps rest)
  halt : ∀ taskId, Upheld t n (r.halt taskId)
  claims : ∀ w, t.may ⟨n,none⟩ (.claimNextTask o.workerId) w
  claimed : ∀ taskId now after, t.setting.answers ⟨n,none⟩ (.claimNextTask o.workerId) now
    (.ok (some taskId)) after → r.begun taskId after
  readsRow : ∀ taskId row w, r.halt taskId w → w.db.tasks.get taskId = some row → r.row row w
  readsSteps : ∀ taskId w, r.begun taskId w → r.listed taskId (listRouteSteps taskId w.db) w
  opens : ∀ taskId steps w, r.begun taskId w → r.listed taskId steps w →
    r.work taskId steps (sequencesOf (pendingOf steps)) w
  ready : ∀ taskId w, r.begun taskId w → r.halt taskId w
  halts : ∀ taskId steps rest w, r.work taskId steps rest w → r.halt taskId w
  distinct : ∀ taskId steps rest w, r.work taskId steps rest w →
    ((pendingOf steps).map RouteStepRow.id).Nodup
  blocks : ∀ taskId text w, r.halt taskId w →
    t.may ⟨n,none⟩ (.updateTaskStatus taskId .blocked text) w
  finalizes : ∀ taskId steps row text runId w, r.work taskId steps [] w → r.row row w →
    row.id = taskId → t.may ⟨n,none⟩ (.finalizeTaskExecution taskId (finalStatus row) text runId) w
  groups : ∀ row task steps sequence rest c w, r.row row w → Told row task →
    r.work task.id steps (sequence::rest) w →
    r.Grouped t n o task steps (group (pendingOf steps) sequence) rest c w

section
variable {r : Rule} {t : Terms} {n : ThreadId} {o : Options} {P R : World → Prop} {w : World}
  {taskId : String} {steps : List RouteStepRow} {rest : List Nat}

theorem Upheld.always {A : Prop} : Upheld t n fun _ => A :=
  ⟨fun _ _ _ _ _ held => held,fun _ held _ => held⟩

theorem listedDistinct (taskId : String) (db : ControlCenterDb) :
    ((listRouteSteps taskId db).map RouteStepRow.id).Nodup := by
  unfold listRouteSteps
  rw [((List.perm_insertionSort stepOrder _).map _).nodup_iff]
  exact db.routeSteps.distinct.sublist (List.filter_sublist.map _)

theorem Upheld.both (first : Upheld t n P) (second : Upheld t n R) :
    Upheld t n fun w => P w ∧ R w where
  stays := bothStable first.stays second.stays
  rests quiet held answered := ⟨first.rests quiet held.1 answered,
    second.rests quiet held.2 answered⟩

theorem restsSafe (kept : r.Kept t n o) (upheld : Upheld t n P) {α : Type} {p : Dialog α}
    (asks : Asks Rests p) (held : P w) :
    Safe t.setting (outside n) ⟨n,none⟩ p (fun _ => P) w :=
  safeAsks upheld.stays (fun q quiet now held => ⟨kept.rests q now quiet,
    fun _ _ answered => upheld.rests quiet held answered⟩) asks held

theorem restsLast (kept : r.Kept t n o) {α : Type} {p : Dialog α} (asks : Asks Rests p) (w : World) :
    Safe t.setting (outside n) ⟨n,none⟩ p (fun _ _ => True) w :=
  safeAsks (anything _) (fun q quiet now _ => ⟨kept.rests q now quiet,fun _ _ _ => trivial⟩) asks
    trivial

theorem rowUpheld (kept : r.Kept t n o) (row : TaskRow) : Upheld t n (r.row row) where
  stays i _ now after acts := kept.row row i trivial now after acts
  rests quiet held answered := kept.row row _ trivial _ _ ⟨_,_,kept.rests _ _ quiet,answered⟩ held

theorem endsSafe (kept : r.Kept t n o) (upheld : Upheld t n P) {q : Question}
    (may : ∀ now, P now → t.may ⟨n,none⟩ q now) {α : Type} {f : Answer q → Dialog α}
    (reports : ∀ a, Asks Rests (f a)) (held : P w) :
    Safe t.setting (outside n) ⟨n,none⟩ (ask q >>= f) (fun _ _ => True) w := by
  refine safeBind (safeCall upheld.stays may (fun now r after last _ _ _ => ?_) held)
  cases r with
  | error error => trivial
  | ok a => exact restsLast kept (reports a) last

theorem interruptedSafe (kept : r.Kept t n o) (outcomes : List StepOutcome)
    (halt : r.halt taskId w) : Safe t.setting (outside n) ⟨n,none⟩
      (blockForShutdown taskId outcomes) (fun _ _ => True) w := by
  have upheld := kept.halt taskId
  unfold blockForShutdown
  refine safeBind ?_
  refine safeMono (restsSafe kept upheld (asksAttempt (restsHandoff ..)) halt) ?_
  intro r after halt
  cases r with
  | error error => trivial
  | ok handoff =>
    refine safeBind ?_
    refine safeMono (restsSafe kept upheld (asksGetTask trivial taskId) halt) ?_
    intro r after halt
    obtain error | aggregate := r
    · trivial
    cases aggregate with
    | none => exact restsLast kept (asksBind (restsPublish _) fun _ => asksDone _) after
    | some aggregate =>
      dsimp only
      split
      · exact endsSafe kept upheld (fun now => kept.blocks taskId _ now)
          (fun _ => asksBind (restsPublish _) fun _ => asksDone _) halt
      · exact restsLast kept (asksBind (restsPublish _) fun _ => asksDone _) after

theorem failureSafe (kept : r.Kept t n o) (failure : StepOutcome) (outcomes : List StepOutcome)
    (halt : r.halt taskId w) : Safe t.setting (outside n) ⟨n,none⟩
      (blockForFailure taskId failure outcomes) (fun _ _ => True) w := by
  have upheld := kept.halt taskId
  unfold blockForFailure
  refine safeBind ?_
  refine safeMono (restsSafe kept upheld (asksAttempt (restsHandoff ..)) halt) ?_
  intro r after halt
  cases r with
  | error error => trivial
  | ok handoff =>
    exact endsSafe kept upheld (fun now => kept.blocks taskId _ now)
      (fun _ => asksBind (restsPublish _) fun _ => asksDone _) halt

theorem finalizeSafe (kept : r.Kept t n o) {row : TaskRow} (own : row.id = taskId)
    {refreshed : TaskAggregate} (read : refreshed.task = taskFromRow row)
    (outcomes : List StepOutcome) (held : r.work taskId steps [] w ∧ r.row row w) :
    Safe t.setting (outside n) ⟨n,none⟩ (finalizeExecution refreshed taskId outcomes)
      (fun _ _ => True) w := by
  have upheld := (kept.work taskId steps []).both (rowUpheld kept row)
  unfold finalizeExecution
  refine safeBind ?_
  refine safeMono (restsSafe kept upheld (asksAttempt (restsHandoff ..)) held) ?_
  intro r after held
  obtain error | handoff | path := r
  · trivial
  · exact endsSafe kept upheld (fun now held => kept.blocks taskId _ now (kept.halts _ _ _ _ held.1))
      (fun _ => asksBind (restsPublish _) fun _ => asksDone _) held
  · refine endsSafe kept upheld (fun now held => ?_)
      (fun _ => asksBind (restsPublish _) fun _ => asksDone _) held
    rw [read]
    exact kept.finalizes taskId steps row _ _ now held.1 held.2 own

theorem taskSafe (kept : r.Kept t n o) (upheld : Upheld t n P) (halts : ∀ now, P now → r.halt taskId now)
    {L : List RouteStepRow → World → Prop} (stays : ∀ l, Stable t.setting (outside n) (L l))
    (reads : ∀ now, P now → L (listRouteSteps taskId now.db) now) (held : P w) :
    Safe t.setting (outside n) ⟨n,none⟩ (getTask taskId) (fun a after => P after ∧ ∀ aggregate,
      a = .ok (some aggregate) → Gathered r.row L (fun _ _ => True) taskId aggregate after) w :=
  getTaskSafe taskId (fun w => kept.rests _ w trivial) upheld.stays
    (fun row => (rowUpheld kept row).stays) stays anyRead
    (fun now row held found => kept.readsRow taskId row now (halts now held) found) reads
    (fun _ _ => trivial) held

theorem finishSafe (kept : r.Kept t n o) (outcomes : List StepOutcome)
    (work : r.work taskId steps [] w) : Safe t.setting (outside n) ⟨n,none⟩
      (finishExecution taskId outcomes) (fun _ _ => True) w := by
  have upheld := kept.work taskId steps []
  unfold finishExecution
  refine safeBind ?_
  refine safeMono (restsSafe kept upheld restsShutdown work) ?_
  intro a after work
  obtain error | stopping := a
  · trivial
  dsimp only
  split
  · exact interruptedSafe kept outcomes (kept.halts _ _ _ _ work)
  refine safeBind ?_
  refine safeMono (taskSafe kept upheld (fun now => kept.halts _ _ _ now)
    (L := fun _ _ => True) anyRead (fun _ _ => trivial) work) ?_
  rintro a after ⟨work,found⟩
  obtain error | aggregate := a
  · trivial
  cases aggregate with
  | none => exact fun _ _ => trivial
  | some refreshed =>
    obtain ⟨row,own,held,read⟩ := (found refreshed rfl).row
    exact finalizeSafe kept own read outcomes ⟨work,held⟩

theorem lookSafe (kept : r.Kept t n o) (upheld : Upheld t n P) {α : Type} {f : Bool → TaskCrew α}
    (held : P w)
    (next : ∀ stopping after, P after → SafeCrew t.setting n (f stopping) (fun _ _ => True) after) :
    SafeCrew t.setting n (shutdownRequested.alone >>= f) (fun _ _ => True) w := by
  refine crewBind (crewMono (crewAlone (restsSafe kept upheld restsShutdown held)) ?_)
  intro a after held
  cases a with
  | error error => trivial
  | ok stopping => exact next stopping after held

theorem sequencesSafe (kept : r.Kept t n o) {row task : TaskRow} (told : Told row task)
    (sequences : List Nat) (c : Carried) (held : r.work task.id steps sequences w ∧ r.row row w) :
    SafeCrew t.setting n (runSequences o task (pendingOf steps) sequences c) (fun _ _ => True) w := by
  induction sequences generalizing c w with
  | nil => exact crewAlone (finishSafe kept _ held.1)
  | cons sequence rest ih =>
    unfold runSequences
    refine lookSafe kept ((kept.work task.id steps _).both (rowUpheld kept row)) held
      fun stopping after held => ?_
    split
    · exact crewAlone (interruptedSafe kept _ (kept.halts _ _ _ _ held.1))
    obtain ⟨promise,each,settles⟩ := kept.groups row task steps sequence rest c after held.2 told
      held.1
    have members : ∀ m ∈ groupMembers o task c (group (pendingOf steps) sequence),
        Safe t.setting (besides n m.1) ⟨n,some m.1⟩ m.2 (promise m.1) after := by
      intro m inside
      obtain ⟨s,member,rfl⟩ := List.mem_map.mp inside
      exact each s member
    refine crewTogether ?_ members fun last all acts outcomes => ?_
    · rw [StepOrder.groupKeys]
      exact (kept.distinct _ _ _ _ held.1).sublist (List.filter_sublist.map _)
    rw [StepOrder.groupKeys] at acts outcomes
    obtain ⟨halt,work⟩ := settles last all acts outcomes
    have read : r.row row last :=
      stableSteps (kept.row row) (stepsMono (fun _ _ => trivial) acts) held.2
    have upheld : Upheld t n fun w => (r.halt task.id w ∧ r.row row w) ∧
        (failedStep all = none → r.work task.id steps rest w) := by
      refine ((kept.halt task.id).both (rowUpheld kept row)).both ⟨?_,?_⟩
      · exact fun i member now after acts held passed =>
          (kept.work task.id steps rest).stays i member now after acts (held passed)
      · exact fun quiet held answered passed =>
          (kept.work task.id steps rest).rests quiet (held passed) answered
    refine lookSafe kept upheld ⟨⟨halt,read⟩,work⟩ fun stopping after held => ?_
    split
    · exact crewAlone (interruptedSafe kept _ held.1.1)
    · split
      · exact crewAlone (failureSafe kept _ _ held.1.1)
      next passed => exact ih _ ⟨held.2 passed,held.1.2⟩

theorem executionTold {aggregate : TaskAggregate} {row : TaskRow}
    (read : aggregate.task = taskFromRow row) : Told row (executionTask aggregate) := by
  have id : (executionTask aggregate).id = aggregate.task.id ∧
      (executionTask aggregate).verificationCommand = aggregate.task.verificationCommand := by
    unfold executionTask
    dsimp only
    split <;> exact ⟨rfl,rfl⟩
  rw [read] at id
  exact ⟨id.1,id.2⟩

theorem executeSafe (kept : r.Kept t n o) (begun : r.begun taskId w) :
    SafeCrew t.setting n (executeTask o taskId) (fun _ _ => True) w := by
  have read := taskSafe kept (kept.begun taskId) (fun now => kept.ready taskId now)
    (L := r.listed taskId) (fun l => (kept.listed taskId l).stays)
    (fun now => kept.readsSteps taskId now) begun
  unfold executeTask
  refine crewBind (crewMono (crewAlone read) ?_)
  rintro a after ⟨begun,found⟩
  obtain error | aggregate := a
  · trivial
  cases aggregate with
  | none => exact fun _ _ => trivial
  | some aggregate =>
    obtain ⟨row,own,held,same⟩ := (found aggregate rfl).row
    have told := executionTold same
    have work : r.work taskId aggregate.routeSteps (sequencesOf (pendingOf aggregate.routeSteps))
        after := kept.opens _ _ _ begun (found aggregate rfl).steps
    have upheld := (kept.work taskId aggregate.routeSteps
      (sequencesOf (pendingOf aggregate.routeSteps))).both (rowUpheld kept row)
    dsimp only
    split
    · exact fun _ _ => trivial
    split
    · exact fun _ _ => trivial
    refine lookSafe kept upheld ⟨work,held⟩ fun stopping after held => ?_
    split
    · exact crewAlone (interruptedSafe kept _ (kept.halts _ _ _ _ held.1))
    refine crewBind (crewMono (crewAlone (restsSafe kept upheld (asksCall trivial) held)) ?_)
    intro a after held
    obtain error | at_ := a
    · trivial
    have named : (executionTask aggregate).id = taskId := told.id.trans own
    exact sequencesSafe kept told _ _ (by rwa [named])

theorem claimSafe (kept : r.Kept t n o) :
    Safe t.setting (outside n) ⟨n,none⟩ (claimNext o.workerId) (fun a after =>
      ∀ taskId, a = .ok (some taskId) → r.begun taskId after) w := by
  unfold claimNext
  refine safeBind ?_
  refine safeCall (anything _) (fun now _ => kept.claims now)
    (fun now a after last _ answered steps_ => ?_) trivial
  obtain error | claimed := a
  · exact fun _ same => by cases same
  cases claimed with
  | none => exact fun _ _ _ same => by cases same
  | some taskId =>
    have upheld := kept.begun taskId
    have begun : r.begun taskId last :=
      stableSteps upheld.stays steps_ (kept.claimed taskId now after answered)
    have read := getTaskKept (i := ⟨n,none⟩) (t := t) taskId (fun w => kept.rests _ w trivial)
      upheld.stays begun
    refine safeBind ?_
    refine safeMono read ?_
    intro a after held
    obtain error | aggregate := a
    · exact fun _ same => by cases same
    cases aggregate with
    | none => exact fun _ _ _ same => by cases same
    | some aggregate =>
      have own := held.2 aggregate rfl
      refine safeDone upheld.stays (fun later begun id same => ?_) held.1
      cases Option.some.inj (Except.ok.inj same)
      rw [own]
      exact begun

/-- A rule that is kept is kept by every attempt. -/
theorem runSafe (kept : r.Kept t n o) :
    SafeCrew t.setting n (runNext o) (fun _ _ => True) w := by
  unfold runNext
  refine crewBind (crewMono (crewAlone (restsLast kept restsShutdown w)) ?_)
  intro a after _
  obtain error | stopping := a
  · trivial
  dsimp only
  split
  · exact fun _ _ => trivial
  refine crewBind (crewMono (crewAlone (claimSafe kept)) ?_)
  intro a after begun
  obtain error | claimed := a
  · trivial
  cases claimed with
  | none => exact fun _ _ => trivial
  | some taskId =>
    refine crewBind (crewMono (executeSafe kept (begun taskId rfl)) ?_)
    intro a after _
    obtain error | result := a
    · trivial
    · exact fun _ _ => trivial

theorem startSafe (kept : r.Kept t n o) :
    SafeCrew t.setting n (Operations.Call.runNext.program o) (fun _ _ => True) w := by
  refine crewBind (crewMono (runSafe kept) fun a after _ => ?_)
  obtain error | result := a
  · trivial
  · exact fun _ _ => trivial

end

end ControlCenter.Attempts
