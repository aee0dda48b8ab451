import ControlCenter.ArtifactFiles
import ControlCenter.ExecutionQuestions
import ControlCenter.StoredPlans
import ControlCenter.TaskRecovery

/-! How an attempt ends whose steps are all done: its handoff is filed, recorded and then
the task leaves `running`. The files and the rows that earlier attempts left are there. -/
namespace ControlCenter.CompletionEvidence
open AccpEnvelope Protocol Table Db DbReviews DbRuns Dialogue Reliance Ports Coordinator Execution
open ControlCenter.System ScriptRuns Interference ArtifactFiles StoredPlans
open ExecutionQuestions (asksReading asksGetTask)

structure Home where
  world : World
  files : Files

abbrev TaskQuestion := Joint Question Answer String StepOutcome
abbrev TaskAnswer := JointAnswer Question Answer String StepOutcome

def Home.file (h : Home) (s : ArtifactStore) (input : ArtifactWriteInput) (now : Int) :
    Except String ArtifactMetadata × Home :=
  match s.write input now h.files with
  | .ok (artifact,files) => (.ok artifact,{h with files})
  | .error error => (.error error,h)

-- The database is not busy, and a random identifier names no row yet.
structure Unfailing (c : Choice) (db : ControlCenterDb) : Prop where
  idle : c.busy = none
  artifact : db.artifacts.get ("artifact_" ++ c.uuid) = none
  review : db.reviews.get ("review_" ++ c.uuid) = none

section
variable (s : ArtifactStore) (thread : ThreadId)

def answers : (q : Question) → Home → Except String (Answer q) → Home → Prop
  | .writeArtifact taskId runId kind name data,now,r,after =>
      ∃ at_, now.file s ⟨taskId,runId,kind,name,data⟩ at_ = (r,after)
  | q,now,r,after => after.files = now.files ∧ ∃ c, Unfailing c now.world.db ∧
      respond ⟨thread,none⟩ c now.world q = (r,after.world)

def environment : Environment TaskQuestion TaskAnswer Home where
  moves before now := Between before.world now.world
  answers
    | .inl q,now,r,after => answers s thread q now r after
    | .inr _,now,_,after => Between now.world after.world

abbrev Logged := Entry TaskQuestion TaskAnswer Home

def Undisturbed (log : List Logged) : Prop :=
  ∀ e ∈ log, (e.now.world.memory thread.process).shutdownRequested = false

end

def GroupDone : Logged → Prop
  | ⟨_,.inr _,r⟩ => ∃ outcomes, r = .ok outcomes ∧ failedStep outcomes = none
  | _ => True

def Completed (log : List Logged) : Prop := ∀ e ∈ log, GroupDone e

def Recorded (input : ArtifactInput) (db : ControlCenterDb) : Prop :=
  ZodSchema.safeInteger input.artifact.sizeBytes = true ∧
  ∀ row, recordedArtifact input.artifact db = some row →
    sameArtifact row input.artifact none = true

def Finds (s : ArtifactStore) : (q : Question) → Home → Prop
  | .writeArtifact taskId runId kind name data,now =>
      ArtifactStore.Safe ⟨taskId,runId,kind,name,data⟩ ∧
        s.Agrees ⟨taskId,runId,kind,name,data⟩ 0 now.files
  | .addArtifact input,now => Recorded input now.world.db
  | .finalizeTaskExecution taskId _ _ _,now =>
      (now.world.db.tasks.get taskId).map TaskRow.status = some .running
  | _,_ => True

def Agreeing (s : ArtifactStore) (log : List Logged) : Prop :=
  ∀ e ∈ log, ∀ q, e.question = .inl q → Finds s q e.now

def Finalised (s : ArtifactStore) (thread : ThreadId) (taskId : String) (log : List Logged)
    (outcome : Except String RunTaskResult) : Prop :=
  ∃ result status, outcome = .ok result ∧ result.status = FinalStatus.handoff status ∧
    ∃ e ∈ log, ∃ update runId after,
      e.question = .inl (.finalizeTaskExecution taskId status update runId) ∧
      (environment s thread).answers e.question e.now e.answer after ∧
      (after.world.db.tasks.get taskId).map TaskRow.status = some status.status

def Digests (s : ArtifactStore) : Prop := ∀ text, sha256Text (s.sha256Hex text) = true

section
variable {s : ArtifactStore} {thread : ThreadId} {taskId : String}

theorem fileReturns {input : ArtifactWriteInput} {now : Int} {h after : Home}
    {r : Except String ArtifactMetadata} (filed : h.file s input now = (r,after)) :
    r.isOk = true ↔ ArtifactStore.Safe input ∧ s.Agrees input 0 h.files := by
  have anytime : s.Agrees input 0 h.files ↔ s.Agrees input now h.files := Iff.rfl
  rw [anytime,← writeReturns]
  unfold Home.file at filed
  split at filed
  · rename_i written
    cases filed
    exact iff_of_true rfl (by rw [written]; rfl)
  · rename_i refused
    cases filed
    exact iff_of_false Bool.false_ne_true (by rw [refused]; exact Bool.false_ne_true)

theorem answersBetween {q : Question} {now after : Home} {r : Except String (Answer q)}
    (answered : answers s thread q now r after) : Between now.world after.world := by
  have turned (other : ∃ c, Unfailing c now.world.db ∧
      respond ⟨thread,none⟩ c now.world q = (r,after.world)) : Between now.world after.world := by
    obtain ⟨c,_,same⟩ := other
    have acts := Acts.asks ⟨thread,none⟩ c now.world q
    rw [same] at acts
    exact .single acts
  cases q with
  | writeArtifact taskId runId kind name data =>
    obtain ⟨at_,filed⟩ := answered
    unfold Home.file at filed
    split at filed <;> cases filed <;> exact .refl
  | _ => exact turned answered.2

theorem betweenThen {w mid last : World} (first : Between w mid) (second : Between mid last) :
    Between w last := first.trans second

theorem crewBetween {α : Type} {p : TaskCrew α} {w last : Home} {log : List Logged}
    {outcome : Option (Except String α)} (run : Run (environment s thread) p w log outcome last) :
    Between w.world last.world ∧ ∀ e ∈ log, Between w.world e.now.world := by
  refine run.kept (P := fun h : Home => Between w.world h.world)
    (fun before now moved held => ?_) (fun q now r after answered held => ?_) .refl
  · have moved : Between before.world now.world := moved
    exact betweenThen held moved
  cases q with
  | inl q => exact betweenThen held (answersBetween answered)
  | inr members => exact betweenThen held answered

structure Standing (taskId : String) (db : ControlCenterDb) : Prop where
  planned : Planned db
  there : db.hasTask taskId = true

section
variable {w after : World}

theorem standsLater (between : Between w after) (stands : Standing taskId w.db) :
    Standing taskId after.db where
  planned := betweenKept turnPlanned between stands.planned
  there := betweenKept (taskStays taskId) between stands.there

theorem runLater {runId : Option String} (between : Between w after)
    (there : w.db.hasRun runId = true) : after.db.hasRun runId = true := by
  cases runId with
  | none => rfl
  | some runId => exact betweenKept (runStays runId) between there

theorem answeredIdle {q : Question} {i : Who} {db : ControlCenterDb}
    {x : Except String (Answer q) × World}
    (answered : ∃ c, Unfailing c db ∧ respond i c w q = x) :
    ∃ c, Unfailing c db ∧ answer i c w q = x := by
  obtain ⟨c,unfailing,same⟩ := answered
  unfold respond at same
  rw [unfailing.idle] at same
  exact ⟨c,unfailing,same⟩

end

abbrev lone (s : ArtifactStore) (thread : ThreadId) : Environment Question Answer Home :=
  solo (environment s thread)

section
variable {α : Type} {w last : Home} {log : List (Entry Question Answer Home)}

theorem loneBetween {p : Dialog α} {outcome : Option (Except String α)}
    (run : Run (lone s thread) p w log outcome last) :
    Between w.world last.world ∧ ∀ e ∈ log, Between w.world e.now.world := by
  refine run.kept (P := fun h : Home => Between w.world h.world) (fun before now moved held => ?_)
    (fun _ _ _ _ answered held => betweenThen held (answersBetween answered)) .refl
  have moved : Between before.world now.world := moved
  exact betweenThen held moved

theorem readParts {β : Type} {f : ControlCenterDb → α} {g : α → Dialog β} {r : Except String β}
    (run : Run (lone s thread) (reading f >>= g) w log (some r) last) :
    ∃ now mid back, Between w.world now ∧ mid.world = now ∧
      Run (lone s thread) (g (f now.db)) mid back (some r) last := by
  have asked : Run (lone s thread) (ask .snapshot >>= fun db => g (f db)) w log (some r) last := by
    unfold reading at run
    rw [scriptAssoc] at run
    exact run
  rcases asked.parts with ⟨error,_,failed⟩ | ⟨db,mid,front,back,_,read,rest⟩
  · obtain ⟨now,_,answered,_⟩ := failed.called
    obtain ⟨c,_,same⟩ := answeredIdle answered.2
    cases congrArg Prod.fst same
  · obtain ⟨now,moved,answered,_⟩ := read.called
    obtain ⟨c,_,same⟩ := answeredIdle answered.2
    cases Except.ok.inj (congrArg Prod.fst same)
    exact ⟨now.world,mid,back,moved,(congrArg Prod.snd same).symm,rest⟩

theorem taskRead {r : Except String (Option TaskAggregate)}
    (stands : Standing taskId w.world.db)
    (run : Run (lone s thread) (getTask taskId) w log (some r) last) :
    ∃ aggregate, r = .ok (some aggregate) ∧
      ∀ run ∈ aggregate.runs, last.world.db.hasRun (some run.id) = true := by
  unfold getTask at run
  obtain ⟨now,mid,_,moved,same,run⟩ := readParts run
  have stands := standsLater moved stands
  obtain ⟨row,stored⟩ := Option.isSome_iff_exists.mp stands.there
  rw [show now.db.tasks.get taskId = some row from stored] at run
  dsimp only at run
  rw [← same] at stands
  obtain ⟨planning,mid,_,moved,same,run⟩ := readParts run
  have stands := standsLater moved stands
  obtain ⟨running,mid',_,moved,same',run⟩ := readParts run
  have later := (loneBetween run).1
  obtain ⟨_,_,_,_,_,run⟩ := readParts run
  obtain ⟨_,_,_,_,_,run⟩ := readParts run
  obtain ⟨_,_,_,_,_,run⟩ := readParts run
  rw [planRead stands.planned stands.there] at run
  cases run
  refine ⟨_,rfl,fun row listed => ?_⟩
  rw [same'] at later
  refine runLater later (keyHeld.mpr ?_)
  unfold listRuns at listed
  rw [List.mem_insertionSort,List.mem_filter] at listed
  exact List.mem_map_of_mem listed.1

theorem callRuns {q : Question} {a : α} {r : Except String α}
    (run : Run (lone s thread) (ask q >>= fun _ => pure a) w log (some r) last) :
    ∃ now given, Between w.world now.world ∧ log = [⟨now,q,given⟩] ∧
      answers s thread q now given last ∧ r.isOk = given.isOk := by
  rcases run.parts with ⟨error,rfl,failed⟩ | ⟨b,mid,front,back,rfl,called,rest⟩
  · obtain ⟨now,moved,answered,rfl⟩ := failed.called
    exact ⟨now,_,moved,rfl,answered,rfl⟩
  · obtain ⟨now,moved,answered,rfl⟩ := called.called
    cases rest
    exact ⟨now,_,moved,rfl,answered,rfl⟩

end

section
variable {w : World} {m : Moment} {db : ControlCenterDb}

theorem storedIsOk {α : Type} {note : α → Trail} {r : Outcome (α × ControlCenterDb)} :
    (stored w note r).1.isOk = r.isOk := by
  rcases r with error | ⟨a,db⟩ <;> rfl

theorem writtenIsOk {note : Trail} {r : Outcome ControlCenterDb} :
    (written w note r).1.isOk = r.isOk := by
  cases r <;> rfl

theorem eventReturns {taskId : String} {runId : Option String} {type : String} {level : EventLevel}
    {message : String} {data : Option JsonValue.Json} {createdAt : Int}
    (task : db.hasTask taskId = true) (ran : db.hasRun runId = true) :
    (db.insertEvent taskId runId type level message data createdAt).isOk = true := by
  unfold ControlCenterDb.insertEvent
  rw [task,ran]
  rfl

theorem artifactReturns {artifact : ArtifactMetadata}
    (fresh : db.artifacts.get ("artifact_" ++ m.uuid) = none)
    (digest : sha256Text artifact.sha256 = true) (size : 0 ≤ artifact.sizeBytes)
    (task : db.hasTask artifact.taskId = true) (ran : db.hasRun (some artifact.runId) = true) :
    (DbReviews.addArtifact m ⟨artifact,none⟩ db).isOk = true ↔ Recorded ⟨artifact,none⟩ db := by
  unfold DbReviews.addArtifact Recorded
  dsimp only
  rw [digest,decide_eq_true size,Bool.and_true]
  cases ZodSchema.safeInteger artifact.sizeBytes with
  | false => exact iff_of_false Bool.false_ne_true fun h => absurd h.1 Bool.false_ne_true
  | true =>
    cases recorded : recordedArtifact artifact db with
    | some row =>
      have exactly : (if sameArtifact row artifact none then (.ok (row,db) :
          Outcome (ArtifactRow × ControlCenterDb)) else .error ("Artifact database evidence must " ++
            "be identical for immutable path: " ++ artifact.path)).isOk = true ↔
          sameArtifact row artifact none = true := by
        split <;> simp_all [Except.isOk,Except.toBool]
      exact exactly.trans ⟨fun same => ⟨rfl,fun _ found => Option.some.inj found ▸ same⟩,
        fun all => all.2 row rfl⟩
    | none =>
      refine iff_of_true ?_ ⟨rfl,fun row found => by cases found⟩
      obtain ⟨u,inserted⟩ := insertFresh (insertedArtifact m artifact none) fresh
      have there : (db.hasTask artifact.taskId && db.hasRun (some artifact.runId)) = true := by
        rw [task,ran]
        rfl
      show (Except.bind (Db.references _) _).isOk = true
      rw [there]
      show (Except.bind (unique _ _) _).isOk = true
      rw [inserted]
      rfl

theorem finalizeReturns {taskId latestUpdate : String} {status : FinalStatus}
    {runId : Option String} (fresh : db.reviews.get ("review_" ++ m.uuid) = none)
    (ran : db.hasRun runId = true) :
    (DbReviews.finalizeTaskExecution m taskId status latestUpdate runId db).isOk = true ↔
      (db.tasks.get taskId).map TaskRow.status = some .running := by
  unfold DbReviews.finalizeTaskExecution
  cases held : db.tasks.get taskId with
  | none => exact iff_of_false Bool.false_ne_true nofun
  | some row =>
    show Except.isOk (if row.status ≠ .running then _ else _) = true ↔ _
    rw [Option.map_some,Option.some.injEq]
    split
    · exact iff_of_false Bool.false_ne_true ‹_›
    · rename_i running
      refine iff_of_true ?_ (not_not.mp running)
      cases status with
      | done => rfl
      | needsReview =>
        obtain ⟨u,inserted⟩ := insertFresh (pendingReview m taskId runId) fresh
        have there : (db.hasTask taskId && db.hasRun runId) = true := by
          rw [ran]
          unfold ControlCenterDb.hasTask
          rw [held]
          rfl
        unfold openReview
        rw [there,inserted]
        rfl

end

section
variable {w last : Home} {log front back : List (Entry Question Answer Home)}

def FindsAll (s : ArtifactStore) (log : List (Entry Question Answer Home)) : Prop :=
  ∀ e ∈ log, Finds s e.question e.now

theorem findsAppend : FindsAll s (front ++ back) ↔ FindsAll s front ∧ FindsAll s back :=
  List.forall_mem_append

theorem findsNone : FindsAll s [] := List.forall_mem_nil _

theorem findsOne {now : Home} {q : Question} {r : Except String (Answer q)} :
    FindsAll s [⟨now,q,r⟩] ↔ Finds s q now := List.forall_mem_singleton

def Quiet : Question → Prop
  | .writeArtifact .. | .addArtifact _ | .finalizeTaskExecution .. => False
  | _ => True

theorem quietFinds {q : Question} {now : Home} (quiet : Quiet q) : Finds s q now := by
  cases q <;> first | exact quiet.elim | trivial

theorem quietAll {α : Type} {p : Dialog α} {outcome : Option (Except String α)}
    (quiet : Asks Quiet p) (run : Run (lone s thread) p w log outcome last) : FindsAll s log :=
  fun e listed => quietFinds (run.asked quiet e listed)

theorem quietPublish (input : EventInput) : Asks Quiet (publish input) :=
  asksBind (asksCall trivial) fun _ => asksDone _

theorem quietRecall {α : Type} (f : Memory → α) : Asks Quiet (recalled f) :=
  asksBind (asksCall trivial) fun _ => asksDone _

theorem publishReturns {input : EventInput} {r : Except String Unit}
    (task : w.world.db.hasTask input.taskId = true) (ran : w.world.db.hasRun input.runId = true)
    (run : Run (lone s thread) (publish input) w log (some r) last) : r.isOk = true := by
  obtain ⟨now,given,moved,_,answered,same⟩ := callRuns run
  obtain ⟨c,_,stored⟩ := answeredIdle answered.2
  have first : (answer ⟨thread,none⟩ c now.world (.appendEvent input)).1 = given :=
    congrArg Prod.fst stored
  rw [same,← first]
  exact writtenIsOk.trans (eventReturns (betweenKept (taskStays _) moved task) (runLater moved ran))

theorem recordReturns {artifact : ArtifactMetadata} {r : Except String Unit}
    (digest : sha256Text artifact.sha256 = true) (size : 0 ≤ artifact.sizeBytes)
    (task : w.world.db.hasTask artifact.taskId = true)
    (ran : w.world.db.hasRun (some artifact.runId) = true)
    (run : Run (lone s thread) (addFile artifact none) w log (some r) last) :
    r.isOk = true ↔ FindsAll s log := by
  obtain ⟨now,given,moved,rfl,answered,same⟩ := callRuns run
  obtain ⟨c,unfailing,recorded⟩ := answeredIdle answered.2
  have first : (answer ⟨thread,none⟩ c now.world (.addArtifact ⟨artifact,none⟩)).1 = given :=
    congrArg Prod.fst recorded
  rw [same,findsOne,← first]
  refine (Bool.eq_iff_iff.mp storedIsOk).trans ?_
  exact artifactReturns unfailing.artifact digest size (betweenKept (taskStays _) moved task)
    (runLater moved ran)

theorem filedRecord {input : ArtifactWriteInput} {now : Int} {h after : Home}
    {artifact : ArtifactMetadata} (filed : h.file s input now = (.ok artifact,after)) :
    artifact.taskId = input.taskId ∧ artifact.runId = input.runId ∧
      artifact.sha256 = s.sha256Hex input.data ∧ artifact.sizeBytes = input.data.utf8ByteSize := by
  unfold Home.file at filed
  split at filed
  · rename_i written
    cases filed
    have same := writeRecord written
    unfold sameRecord at same
    simp only [Bool.and_eq_true,beq_iff_eq] at same
    obtain ⟨⟨⟨⟨⟨⟨⟨⟨task,ran⟩,_⟩,_⟩,_⟩,_⟩,_⟩,digest⟩,size⟩ := same
    exact ⟨task,ran,digest,size⟩
  · cases filed

theorem handoffReturns {status : HandoffStatus} {reason : Option String}
    {r : Except String (Option String)} (digests : Digests s)
    (stands : Standing taskId w.world.db)
    (run : Run (lone s thread) (writeHandoff taskId status reason) w log (some r) last) :
    r.isOk = true ↔ FindsAll s log := by
  unfold writeHandoff at run
  rcases run.parts with ⟨error,_,failed⟩ | ⟨found,mid,front,back,rfl,read,rest⟩
  · obtain ⟨aggregate,same,_⟩ := taskRead stands failed
    cases same
  obtain ⟨aggregate,same,known⟩ := taskRead stands read
  cases Except.ok.inj same
  have stands := standsLater (loneBetween read).1 stands
  have before : FindsAll s front := quietAll (asksGetTask trivial taskId) read
  dsimp only at rest
  cases latest : aggregate.runs.getLast? with
  | none =>
    rw [latest] at rest
    cases rest
    exact iff_of_true rfl (findsAppend.mpr ⟨before,findsNone⟩)
  | some latestRun =>
    rw [latest] at rest
    have ran := known latestRun (List.mem_of_getLast? latest)
    rw [findsAppend]
    rcases rest.parts with ⟨error,rfl,failed⟩ | ⟨artifact,mid',first,second,rfl,filed,adding⟩
    · obtain ⟨now,_,⟨at_,refused⟩,rfl⟩ := failed.called
      exact iff_of_false Bool.false_ne_true fun all =>
        Bool.false_ne_true ((fileReturns refused).mpr (findsOne.mp all.2))
    · have later := (loneBetween filed).1
      obtain ⟨now,_,⟨at_,written⟩,rfl⟩ := filed.called
      obtain ⟨task,own,digest,size⟩ := filedRecord written
      have recorded : FindsAll s [⟨now,_,.ok artifact⟩] :=
        findsOne.mpr ((fileReturns written).mp rfl)
      have task : mid'.world.db.hasTask artifact.taskId = true := by
        rw [task]
        exact (standsLater later stands).there
      have ran : mid'.world.db.hasRun (some artifact.runId) = true := by
        rw [own]
        exact runLater later ran
      have digest : sha256Text artifact.sha256 = true := by
        rw [digest]
        exact digests _
      have size : 0 ≤ artifact.sizeBytes := by
        rw [size]
        exact Int.natCast_nonneg _
      rw [findsAppend,and_iff_right before,and_iff_right recorded]
      rcases adding.parts with ⟨error,rfl,failed⟩ | ⟨_,_,_,_,rfl,added,ended⟩
      · exact recordReturns digest size task ran failed
      · cases ended
        rw [List.append_nil]
        exact recordReturns digest size task ran added

def Settled (r : Except String RunTaskResult) : Prop :=
  ∃ result status, r = .ok result ∧ result.status = FinalStatus.handoff status

theorem blockedUnsettled {path : Option String} {outcomes : List StepOutcome} :
    ¬Settled (.ok ⟨taskId,.blocked,path,outcomes⟩) := by
  rintro ⟨result,status,same,ended⟩
  cases Except.ok.inj same
  cases status <;> cases ended

theorem errorUnsettled {error : String} : ¬Settled (.error error) := by
  rintro ⟨result,status,same,_⟩
  cases same

theorem finalizedStatus {m : Moment} {db next : ControlCenterDb} {latestUpdate : String}
    {status : FinalStatus} {runId : Option String}
    (h : DbReviews.finalizeTaskExecution m taskId status latestUpdate runId db = .ok next) :
    (next.tasks.get taskId).map TaskRow.status = some status.status := by
  obtain ⟨row,found,h⟩ := exceptBind h
  have held : db.tasks.get taskId = some row := foundOk.mp found
  dsimp only at h
  split at h
  · cases h
  -- What opens a review leaves the tasks alone.
  have released (reviewed : ControlCenterDb) (same : reviewed.tasks = db.tasks) :
      ((release m taskId status.status latestUpdate reviewed).tasks.get taskId).map
        TaskRow.status = some status.status := by
    refine (congrArg (Option.map TaskRow.status) getUpdated).trans ?_
    have own : row.id = taskId := (getSome.mp held).2
    rw [same,held,Option.map_some,Option.map_some,if_pos (beq_iff_eq.mpr own)]
    rfl
  cases status with
  | done =>
    cases Except.ok.inj h
    exact released db rfl
  | needsReview =>
    obtain ⟨reviewed,opening,h⟩ := exceptBind h
    cases Except.ok.inj h
    obtain ⟨_,_,opening⟩ := exceptBind opening
    obtain ⟨_,_,opened⟩ := exceptBind opening
    cases Except.ok.inj opened
    exact released _ rfl

theorem finalizeAnswered {now after : Home} {status : FinalStatus} {update : String}
    {runId : Option String} {given : Except String Unit}
    (ran : now.world.db.hasRun runId = true)
    (answered : answers s thread (.finalizeTaskExecution taskId status update runId) now given after) :
    (given.isOk = true ↔ Finds s (.finalizeTaskExecution taskId status update runId) now) ∧
      (given.isOk = true →
        (after.world.db.tasks.get taskId).map TaskRow.status = some status.status) := by
  obtain ⟨c,unfailing,same⟩ := answeredIdle answered.2
  have exactly : (DbReviews.finalizeTaskExecution ⟨c.now,c.uuid⟩ taskId status update runId
      now.world.db).isOk = true ↔ Finds s (.finalizeTaskExecution taskId status update runId) now :=
    finalizeReturns unfailing.review ran
  change written _ _ (DbReviews.finalizeTaskExecution ⟨c.now,c.uuid⟩ taskId status update runId
    now.world.db) = (given,after.world) at same
  cases finalized : DbReviews.finalizeTaskExecution ⟨c.now,c.uuid⟩ taskId status update runId
      now.world.db with
  | error error =>
    rw [finalized] at same exactly
    cases congrArg Prod.fst same
    exact ⟨exactly,fun ok => absurd ok Bool.false_ne_true⟩
  | ok next =>
    rw [finalized] at same exactly
    cases congrArg Prod.fst same
    have last : {now.world with db := next, trail := now.world.trail.leave taskId status.status} =
        after.world := congrArg Prod.snd same
    refine ⟨exactly,fun _ => ?_⟩
    rw [← last]
    exact finalizedStatus finalized

theorem finalizeExactly {refreshed : TaskAggregate} {outcomes : List StepOutcome}
    {r : Except String RunTaskResult} (digests : Digests s) (stands : Standing taskId w.world.db)
    (known : ∀ run ∈ refreshed.runs, w.world.db.hasRun (some run.id) = true)
    (run : Run (lone s thread) (finalizeExecution refreshed taskId outcomes) w log (some r) last) :
    (Settled r → FindsAll s log) ∧
      (FindsAll s log → Finalised s thread taskId (log.map Entry.alone) r) := by
  unfold finalizeExecution at run
  dsimp only at run
  rcases run.parts with ⟨error,_,failed⟩ | ⟨handoff,mid,front,back,rfl,attempted,rest⟩
  · obtain ⟨_,same,_⟩ := failed.attempted
    cases same
  obtain ⟨outcome,same,filed⟩ := attempted.attempted
  obtain rfl := Except.ok.inj same
  have exactly := handoffReturns digests stands filed
  have later := (loneBetween filed).1
  have stands := standsLater later stands
  have ran : mid.world.db.hasRun ((refreshed.runs.reverse.find? fun run =>
      run.status == .succeeded).map RunRow.id) = true := by
    cases latest : refreshed.runs.reverse.find? fun run => run.status == .succeeded with
    | none => rfl
    | some run =>
      exact runLater later (known run (List.mem_reverse.mp (List.mem_of_find?_eq_some latest)))
  cases handoff with
  | error error =>
    have unsettled : ¬Settled r := by
      dsimp only at rest
      rcases rest.parts with ⟨_,rfl,_⟩ | ⟨_,_,_,_,_,_,publishing⟩
      · exact errorUnsettled
      rcases publishing.parts with ⟨_,rfl,_⟩ | ⟨_,_,_,_,_,_,ended⟩
      · exact errorUnsettled
      cases ended
      exact blockedUnsettled
    exact ⟨fun settled => absurd settled unsettled,
      fun all => absurd (exactly.mpr (findsAppend.mp all).1) Bool.false_ne_true⟩
  | ok path =>
    have before := exactly.mp rfl
    dsimp only at rest
    rcases rest.parts with ⟨error,rfl,failed⟩ | ⟨_,mid',first,second,rfl,called,publishing⟩
    · obtain ⟨now,moved,answered,rfl⟩ := failed.called
      have found := (finalizeAnswered (s := s) (runLater moved ran) answered).1
      exact ⟨fun settled => absurd settled errorUnsettled,fun all =>
        absurd (found.mpr (findsOne.mp (findsAppend.mp all).2)) Bool.false_ne_true⟩
    · have later := (loneBetween called).1
      obtain ⟨now,moved,answered,rfl⟩ := called.called
      obtain ⟨found,left⟩ := finalizeAnswered (s := s) (runLater moved ran) answered
      rcases publishing.parts with ⟨_,rfl,failed⟩ | ⟨_,_,third,_,rfl,published,ended⟩
      · have sent := publishReturns (betweenKept (taskStays _) later stands.there)
          (runLater later ran) failed
        exact absurd sent Bool.false_ne_true
      · cases ended
        have quiet : FindsAll s third := quietAll (quietPublish _) published
        refine ⟨fun _ => findsAppend.mpr ⟨before,findsAppend.mpr
          ⟨findsOne.mpr (found.mp rfl),findsAppend.mpr ⟨quiet,findsNone⟩⟩⟩,fun _ => ?_⟩
        refine ⟨_,finalStatus refreshed.task,rfl,rfl,_,List.mem_map_of_mem (List.mem_append_right _
          (List.mem_append_left _ (List.mem_singleton_self _))),_,_,mid',rfl,answered,left rfl⟩

def Calm (thread : ThreadId) (log : List (Entry Question Answer Home)) : Prop :=
  ∀ e ∈ log, (e.now.world.memory thread.process).shutdownRequested = false

theorem recallRuns {r : Except String Bool} (calm : Calm thread log)
    (run : Run (lone s thread) shutdownRequested w log (some r) last) : r = .ok false := by
  unfold shutdownRequested recalled at run
  rcases run.parts with ⟨error,_,failed⟩ | ⟨memory,_,_,_,rfl,asked,rest⟩
  · obtain ⟨now,_,answered,_⟩ := failed.called
    obtain ⟨c,_,same⟩ := answeredIdle answered.2
    cases congrArg Prod.fst same
  · obtain ⟨now,_,answered,rfl⟩ := asked.called
    obtain ⟨c,_,same⟩ := answeredIdle answered.2
    cases Except.ok.inj (congrArg Prod.fst same)
    cases rest
    exact congrArg Except.ok (calm _ List.mem_cons_self)

theorem finishExactly {outcomes : List StepOutcome} {r : Except String RunTaskResult}
    (digests : Digests s) (stands : Standing taskId w.world.db) (calm : Calm thread log)
    (run : Run (lone s thread) (finishExecution taskId outcomes) w log (some r) last) :
    (Settled r → FindsAll s log) ∧
      (FindsAll s log → Finalised s thread taskId (log.map Entry.alone) r) := by
  unfold finishExecution at run
  rcases run.parts with ⟨_,_,failed⟩ | ⟨stopping,mid,first,later,rfl,asked,rest⟩
  · cases recallRuns calm failed
  have quiet : FindsAll s first := quietAll (quietRecall _) asked
  cases Except.ok.inj (recallRuns (fun e listed => calm e (List.mem_append_left _ listed)) asked)
  have stands := standsLater (loneBetween asked).1 stands
  rw [if_neg Bool.false_ne_true] at rest
  rcases rest.parts with ⟨_,_,failed⟩ | ⟨found,mid',second,third,rfl,read,finalizing⟩
  · obtain ⟨aggregate,same,_⟩ := taskRead stands failed
    cases same
  obtain ⟨refreshed,same,known⟩ := taskRead stands read
  cases Except.ok.inj same
  have quiet' : FindsAll s second := quietAll (asksGetTask trivial taskId) read
  obtain ⟨finds,ends⟩ := finalizeExactly digests (standsLater (loneBetween read).1 stands) known
    finalizing
  refine ⟨fun settled => findsAppend.mpr ⟨quiet,findsAppend.mpr ⟨quiet',finds settled⟩⟩,
    fun all => ?_⟩
  obtain ⟨result,status,returned,left,e,listed,ending⟩ :=
    ends (findsAppend.mp (findsAppend.mp all).2).2
  refine ⟨result,status,returned,left,e,?_,ending⟩
  rw [List.map_append,List.map_append]
  exact List.mem_append_right _ (List.mem_append_right _ listed)

end

section
variable {w last : Home} {log front back : List Logged} {r : Except String RunTaskResult}

theorem agreeingAlone {own : List (Entry Question Answer Home)} :
    Agreeing s (own.map Entry.alone) ↔ FindsAll s own := by
  constructor
  · intro agreeing e listed
    exact agreeing _ (List.mem_map_of_mem listed) e.question rfl
  · intro finds e listed q same
    obtain ⟨e,own,rfl⟩ := List.mem_map.mp listed
    cases same
    exact finds e own

theorem settles (finalised : Finalised s thread taskId log r) : Settled r := by
  obtain ⟨result,status,returned,left,_⟩ := finalised
  exact ⟨result,status,returned,left⟩

def Exactly (s : ArtifactStore) (thread : ThreadId) (taskId : String) (log : List Logged)
    (r : Except String RunTaskResult) : Prop :=
  (Settled r → Agreeing s log) ∧ (Agreeing s log → Finalised s thread taskId log r)

theorem Exactly.after (front : List Logged) (quiet : Agreeing s front)
    (exactly : Exactly s thread taskId back r) : Exactly s thread taskId (front ++ back) r := by
  refine ⟨fun settled => List.forall_mem_append.mpr ⟨quiet,exactly.1 settled⟩,fun all => ?_⟩
  obtain ⟨result,status,returned,left,e,listed,ending⟩ :=
    exactly.2 (List.forall_mem_append.mp all).2
  exact ⟨result,status,returned,left,e,List.mem_append_right _ listed,ending⟩

theorem askedCalm {a : Except String Bool} (undisturbed : Undisturbed thread log)
    (run : Run (environment s thread) shutdownRequested.alone w log (some a) last) :
    a = .ok false ∧ Agreeing s log := by
  obtain ⟨own,rfl,asked⟩ := run.solo
  refine ⟨recallRuns (fun e listed => ?_) asked,agreeingAlone.mpr (quietAll (quietRecall _) asked)⟩
  exact undisturbed _ (List.mem_map_of_mem listed)

theorem groupRuns {members : List (Member Question Answer String StepOutcome)}
    {a : Except String (List StepOutcome)} (completed : Completed log)
    (run : Run (environment s thread) (together members) w log (some a) last) :
    (∃ outcomes, a = .ok outcomes ∧ failedStep outcomes = none) ∧ Agreeing s log := by
  unfold together at run
  cases run with
  | @ask q next w now after last answer log outcome moved answered rest =>
    obtain ⟨outcomes,same,none⟩ := completed _ List.mem_cons_self
    cases same
    cases rest
    refine ⟨⟨outcomes,rfl,none⟩,fun e listed q same => ?_⟩
    cases List.mem_singleton.mp listed
    cases same

theorem sequencesExactly {o : Options} {task : TaskRow} {pending : List RouteStepRow}
    {sequences : List Nat} {c : Carried} (digests : Digests s)
    (stands : Standing task.id w.world.db)
    (run : Run (environment s thread) (runSequences o task pending sequences c) w log (some r) last)
    (undisturbed : Undisturbed thread log) (completed : Completed log) :
    Exactly s thread task.id log r := by
  induction sequences generalizing c w log with
  | nil =>
    obtain ⟨own,rfl,finishing⟩ := run.solo
    unfold Exactly
    rw [agreeingAlone]
    exact finishExactly digests stands (fun e listed => undisturbed _ (List.mem_map_of_mem listed))
      finishing
  | cons sequence rest ih =>
    unfold runSequences at run
    rcases run.parts with ⟨_,_,failed⟩ | ⟨stopping,mid,first,later,rfl,asked,grouping⟩
    · cases (askedCalm undisturbed failed).1
    obtain ⟨undisturbed,undisturbed'⟩ := List.forall_mem_append.mp undisturbed
    obtain ⟨_,completed⟩ := List.forall_mem_append.mp completed
    obtain ⟨same,quiet⟩ := askedCalm undisturbed asked
    cases Except.ok.inj same
    have stands := standsLater (crewBetween asked).1 stands
    refine Exactly.after _ quiet ?_
    rw [if_neg Bool.false_ne_true] at grouping
    rcases grouping.parts with ⟨_,rfl,failed⟩ | ⟨outcomes,mid',second,later,rfl,grouped,going⟩
    · obtain ⟨⟨_,same,_⟩,_⟩ := groupRuns completed failed
      cases same
    obtain ⟨_,undisturbed⟩ := List.forall_mem_append.mp undisturbed'
    obtain ⟨done,completed⟩ := List.forall_mem_append.mp completed
    obtain ⟨⟨_,same,none⟩,quiet⟩ := groupRuns done grouped
    cases Except.ok.inj same
    have stands := standsLater (crewBetween grouped).1 stands
    refine Exactly.after _ quiet ?_
    dsimp only at going
    rcases going.parts with ⟨_,_,failed⟩ | ⟨stopping,mid,third,later,rfl,asked,going⟩
    · cases (askedCalm undisturbed failed).1
    obtain ⟨undisturbed,undisturbed'⟩ := List.forall_mem_append.mp undisturbed
    obtain ⟨_,completed⟩ := List.forall_mem_append.mp completed
    obtain ⟨same,quiet⟩ := askedCalm undisturbed asked
    cases Except.ok.inj same
    refine Exactly.after _ quiet ?_
    rw [if_neg Bool.false_ne_true,none] at going
    exact ih (standsLater (crewBetween asked).1 stands) going undisturbed' completed

end

def Historic (db : ControlCenterDb) : Prop := ∃ turns, db = RunLogic.reach turn .empty turns

theorem historicPlanned {db : ControlCenterDb} (historic : Historic db) : Planned db := by
  obtain ⟨turns,rfl⟩ := historic
  exact RunLogic.reachKept turn turnPlanned emptyPlanned turns

theorem historicTurn (db : ControlCenterDb) (t : Turn) (historic : Historic db) :
    Historic (turn db t) := by
  obtain ⟨turns,rfl⟩ := historic
  exact ⟨turns ++ [t],(RunLogic.reachLast turn _ turns t).symm⟩

-- An attempt whose steps are done is finalised exactly when the handoff it files and its
-- record agree with what is there, and the task is still its own.
theorem completionFiled {o : Options} {aggregate : TaskAggregate} {w last : Home}
    {log : List Logged} {r : Except String RunTaskResult} (digests : Digests s)
    (historic : Historic w.world.db) (there : w.world.db.hasTask aggregate.task.id = true)
    (run : Run (environment s thread) (executeClaimedTask o aggregate) w log (some r) last)
    (undisturbed : Undisturbed thread log) (completed : Completed log) :
    Finalised s thread aggregate.task.id log r ↔ Agreeing s log := by
  have same : (executionTask aggregate).id = aggregate.task.id := by
    unfold executionTask
    dsimp only
    split <;> rfl
  rw [← same] at there ⊢
  obtain ⟨finds,ends⟩ := sequencesExactly digests ⟨historicPlanned historic,there⟩ run undisturbed
    completed
  exact ⟨fun finalised => finds (settles finalised),ends⟩

end

def workedTurns : List Turn := TaskRecovery.crashedTurns ++ [
  ⟨⟨1005,"6"⟩,.updateRouteStep "step_1" ⟨some .running,some (some "run_5")⟩⟩,
  ⟨⟨1006,"7"⟩,.updateRun "run_5" {status := some .starting}⟩,
  ⟨⟨1007,"8"⟩,.updateRun "run_5" {status := some .running}⟩,
  ⟨⟨1008,"9"⟩,.updateRun "run_5" {status := some .succeeded,summary := some (some "Fixed.")}⟩,
  ⟨⟨1009,"10"⟩,.updateRouteStep "step_1" ⟨some .succeeded,none⟩⟩]

def worked : ControlCenterDb := RunLogic.reach turn .empty workedTurns

def handoffDigest (text : String) : String :=
  if text.utf8ByteSize = 350 then "221f1a50f72d41897f8bceba54b0f82e49635ff5073a84ad90068777bfe21752"
  else if text.utf8ByteSize = 321 then "c732113a4a223c60f2bc570b24867ef9a25b4a235a9a7fdbcf6dd0a569cf996a"
  else "2666af845fecb4f33595ff502ab0a309b2445fa39e4cd08e36f7ae734d8d0f6f"

def blockedRecord : ArtifactMetadata :=
  ⟨"task_1","run_5",.handoff,"handoff.md","/home/.acc/artifacts/task_1/run_5/handoff.md",
    "artifacts/task_1/run_5/handoff.md",
    "/home/.acc/artifacts/task_1/run_5/handoff.md.metadata.json",
    "221f1a50f72d41897f8bceba54b0f82e49635ff5073a84ad90068777bfe21752",350,2000⟩

def renderRecord (a : ArtifactMetadata) : String := lines
  ["\x7b",s!"  \"taskId\": \"{a.taskId}\",",s!"  \"runId\": \"{a.runId}\",",
   s!"  \"kind\": \"{a.kind.text}\",",s!"  \"name\": \"{a.name}\",",
   s!"  \"path\": \"{a.path}\",",s!"  \"relativePath\": \"{a.relativePath}\",",
   s!"  \"metadataPath\": \"{a.metadataPath}\",",s!"  \"sha256\": \"{a.sha256}\",",
   s!"  \"sizeBytes\": {a.sizeBytes},",
   s!"  \"createdAt\": \"{AccpIds.toISOString a.createdAt}\"","\x7d",""]

def store : ArtifactStore where
  realHome := "/home/.acc"
  realRoot := "/home/.acc/artifacts"
  sha256Hex := handoffDigest
  renderMetadata := renderRecord
  parseMetadata text := if text = renderRecord blockedRecord then some blockedRecord else none

theorem handoffDigests : Digests store := by
  intro text
  show sha256Text (handoffDigest text) = true
  unfold handoffDigest
  split
  · decide
  · split <;> decide

def drawn (now : Int) (h : Home) : Choice :=
  ⟨now,toString (h.world.db.artifacts.rows.length + h.world.db.reviews.rows.length),none,
    fun _ => .error "unavailable"⟩

def filing (now : Int) : Respond TaskQuestion TaskAnswer Home
  | .inl (.writeArtifact taskId runId kind name data),h =>
      h.file store ⟨taskId,runId,kind,name,data⟩ now
  | .inl q,h => ((respond ⟨⟨0,0⟩,none⟩ (drawn now h) h.world q).1,
      ⟨(respond ⟨⟨0,0⟩,none⟩ (drawn now h) h.world q).2,h.files⟩)
  | .inr _,h => (.error "no group",h)

def unused (now : Int) (h : Home) : Bool :=
  (h.world.db.artifacts.get ("artifact_" ++ (drawn now h).uuid)).isNone &&
    (h.world.db.reviews.get ("review_" ++ (drawn now h).uuid)).isNone

theorem filingRuns {α : Type} {now : Int} {n : Nat} {p : TaskCrew α} {h : Home}
    (fresh : ((play (filing now) n p h).1.all fun e => unused now e.now) = true) :
    Run (environment store ⟨0,0⟩) p h (play (filing now) n p h).1 (play (filing now) n p h).2.1
      (play (filing now) n p h).2.2 := by
  refine playMet (fun w => show Between _ _ from .refl) n p h fun e listed => ?_
  have unused := List.all_eq_true.mp fresh e listed
  obtain ⟨h,q,r⟩ := e
  obtain ⟨artifact,review⟩ := Bool.and_eq_true_iff.mp unused
  have unfailing : Unfailing (drawn now h) h.world.db :=
    ⟨rfl,Option.isNone_iff_eq_none.mp artifact,Option.isNone_iff_eq_none.mp review⟩
  cases q with
  | inr members => exact .refl
  | inl q =>
    cases q with
    | writeArtifact taskId runId kind name data => exact ⟨now,rfl⟩
    | _ =>
      refine ⟨rfl,drawn now h,unfailing,?_⟩
      dsimp only [filing]

def home (db : ControlCenterDb) (stopping : Bool) (files : Files) : Home :=
  ⟨⟨db,fun _ => {Memory.empty with shutdownRequested := stopping},.empty⟩,files⟩

def interruption :=
  play (filing 2000) 60 (finishExecution "task_1" []).alone (home worked true ∅)

def retried (db : ControlCenterDb) : ControlCenterDb := RunLogic.reach turn db
  [⟨⟨3000,"12"⟩,.retryBlockedTask "task_1" none false⟩,⟨⟨3001,"13"⟩,.claimNextTask "worker-2"⟩]

def resumed : Home := home (retried interruption.2.2.world.db) false interruption.2.2.files

def reading (h : Home) := play (filing 4000) 60 (getTask "task_1").alone h

def crew : Options := ⟨"worker-2",1000,fun _ => true⟩

def attempt (aggregate : TaskAggregate) (h : Home) :=
  play (filing 4000) 60 (executeClaimedTask crew aggregate) h

def endsAs (status : HandoffStatus) (h : Home) : Bool := h.world.db.hasTask "task_1" &&
  match (reading h).2.1 with
  | some (.ok (some aggregate)) => aggregate.task.id == "task_1" &&
      aggregate.task.status == .running &&
      aggregate.routeSteps.all (fun step => step.status == .succeeded) &&
      ((attempt aggregate h).1.all fun e => unused 4000 e.now &&
        !(e.now.world.memory 0).shutdownRequested && e.question.isLeft) &&
      (match (attempt aggregate h).2.1 with
        | some (.ok result) => result.status == status
        | _ => false)
  | _ => false

structure Ended (h : Home) (status : HandoffStatus) (aggregate : TaskAggregate) (log : List Logged)
    (r : Except String RunTaskResult) (last : Home) : Prop where
  there : h.world.db.hasTask aggregate.task.id = true
  claimed : aggregate.task.status = .running
  done : ∀ step ∈ aggregate.routeSteps, step.status = .succeeded
  run : Run (environment store ⟨0,0⟩) (executeClaimedTask crew aggregate) h log (some r) last
  undisturbed : Undisturbed ⟨0,0⟩ log
  completed : Completed log
  ends : ∃ result, r = .ok result ∧ result.status = status

theorem endsChecked {status : HandoffStatus} {h : Home} (checked : endsAs status h = true) :
    ∃ aggregate log r last, Ended h status aggregate log r last := by
  unfold endsAs at checked
  obtain ⟨there,checked⟩ := Bool.and_eq_true_iff.mp checked
  split at checked
  · rename_i aggregate _
    simp only [Bool.and_eq_true] at checked
    obtain ⟨⟨⟨⟨named,claimed⟩,done⟩,calm⟩,ended⟩ := checked
    split at ended
    · rename_i result returned
      have fresh : ((attempt aggregate h).1.all fun e => unused 4000 e.now) = true := by
        refine List.all_eq_true.mpr fun e listed => ?_
        have all := List.all_eq_true.mp calm e listed
        simp only [Bool.and_eq_true] at all
        exact all.1.1
      have run := filingRuns fresh
      rw [show (play (filing 4000) 60 (executeClaimedTask crew aggregate) h).2.1 =
        some (.ok result) from returned] at run
      refine ⟨aggregate,_,_,_,?_,beq_iff_eq.mp claimed,fun step listed =>
        beq_iff_eq.mp (List.all_eq_true.mp done step listed),run,fun e listed => ?_,
        fun e listed => ?_,result,rfl,beq_iff_eq.mp ended⟩
      · rw [beq_iff_eq.mp named]
        exact there
      · have all := List.all_eq_true.mp calm e listed
        simp only [Bool.and_eq_true,Bool.not_eq_true'] at all
        exact all.1.2
      · have all := List.all_eq_true.mp calm e listed
        simp only [Bool.and_eq_true] at all
        obtain ⟨now,q | members,r⟩ := e
        · trivial
        · exact absurd all.2 Bool.false_ne_true
    · exact absurd ended Bool.false_ne_true
  · exact absurd checked Bool.false_ne_true

theorem workedHistoric : Historic worked := ⟨workedTurns,rfl⟩

theorem retriedHistoric {db : ControlCenterDb} (historic : Historic db) : Historic (retried db) :=
  RunLogic.reachKept turn historicTurn historic _

theorem freshHandoffFiled : ∃ aggregate log r last,
    Ended (home worked false ∅) .needsReview aggregate log r last ∧
    (Finalised store ⟨0,0⟩ aggregate.task.id log r ↔ Agreeing store log) := by
  have checked : endsAs .needsReview (home worked false ∅) = true := by decide +kernel
  obtain ⟨aggregate,log,r,last,ended⟩ := endsChecked checked
  exact ⟨aggregate,log,r,last,ended,completionFiled handoffDigests workedHistoric ended.there
    ended.run ended.undisturbed ended.completed⟩

theorem handoffRefused :
    Run (environment store ⟨0,0⟩) (finishExecution "task_1" []).alone (home worked true ∅)
      interruption.1 interruption.2.1 interruption.2.2 ∧ Historic resumed.world.db ∧
    ∃ aggregate log r last, Ended resumed .blocked aggregate log r last ∧
      ¬Finalised store ⟨0,0⟩ aggregate.task.id log r := by
  have checked : ((interruption.1.all fun e => unused 2000 e.now) &&
      endsAs .blocked resumed) = true := by decide +kernel
  obtain ⟨fresh,ends⟩ := Bool.and_eq_true_iff.mp checked
  have interrupted : Run (environment store ⟨0,0⟩) (finishExecution "task_1" []).alone
      (home worked true ∅) interruption.1 interruption.2.1 interruption.2.2 := by
    unfold interruption at fresh ⊢
    exact filingRuns fresh
  have start : Historic (home worked true ∅).world.db := workedHistoric
  have moved : Between (home worked true ∅).world interruption.2.2.world :=
    (crewBetween interrupted).1
  have historic : Historic interruption.2.2.world.db :=
    betweenKept (P := Historic) historicTurn moved start
  have resumes : Historic resumed.world.db := by
    unfold resumed home
    dsimp only
    exact retriedHistoric historic
  obtain ⟨aggregate,log,r,last,ended⟩ := endsChecked ends
  refine ⟨interrupted,resumes,aggregate,log,r,last,ended,fun finalised => ?_⟩
  obtain ⟨result,rfl,blocked⟩ := ended.ends
  obtain ⟨_,status,same,left⟩ := settles finalised
  cases Except.ok.inj same
  rw [blocked] at left
  cases status <;> cases left

end ControlCenter.CompletionEvidence
