import ControlCenter.ExecutionQuestions
import ControlCenter.Hearing

/-! What a step of an attempt can show when it writes its row: the run it made, the agent it
collected, the source it then found unchanged, the verification that succeeded. -/
namespace ControlCenter.StepEvidence
open Protocol Db DbReviews Dialogue Reliance Ports Coordinator
open ExecutionQuestions Hearing

def verdict : String := "verification.succeeded"

structure Account where
  status : RouteStepStatus
  made : List String
  run : Option String
  collected : Bool
  checked : Bool
  verified : Bool
  deriving DecidableEq, Repr

def Account.initial : Account := ⟨.pending,[],none,false,false,false⟩

def Account.hears (s : Account) : (q : Question) → Except String (Answer q) → Account
  | .createRun _,.ok (run : RunRow) => {s with made := run.id::s.made}
  | .updateRouteStep _ patch,.ok _ => match patch.runId with
      | some run => ⟨patch.status.getD s.status,s.made,run,false,false,false⟩
      | none => {s with status := patch.status.getD s.status}
  | .collectResult runId _ _,.ok _ => {s with collected := s.collected || s.run == some runId}
  | .assertSourceUnchanged runId _,.ok _ =>
      {s with checked := s.checked || (s.collected && s.run == some runId)}
  | .appendEvent input,.ok _ =>
      {s with verified := s.verified ||
        (input.type == verdict && input.runId.isSome && s.run == input.runId)}
  | _,_ => s

def Shown (step : RouteStepRow) (needs : Prop) (s : Account) (patch : StepPatch) : Prop :=
  match patch.status with
  | some .running => ∃ id ∈ s.made, patch.runId = some (some id)
  | some .succeeded => patch.runId = none ∧ (∃ id ∈ s.made, s.run = some id) ∧
      s.checked = true ∧ (needs → s.verified = true)
  | some .failed => patch.runId = none
  | some .skipped => patch.runId = none ∧ step.required = false
  | _ => False

def MayAsk (step : RouteStepRow) (needs : Prop) (s : Account) : Question → Prop
  | .updateRouteStep stepId patch => stepId = step.id ∧ Shown step needs s patch
  | .createRun input => input.routeStepId = step.id
  | .availability _ | .startTask .. => True
  | q => Quiet q

def ear (step : RouteStepRow) (needs : Prop) : Ear Question Answer Account where
  hears := Account.hears
  may := MayAsk step needs
  -- The database returns the row it was asked to update.
  plain
    | .updateRun runId _,.ok (run : RunRow) => run.id = runId
    | _,_ => True

structure Stands (s s' : Account) : Prop where
  status : s'.status = s.status
  made : s'.made = s.made
  run : s'.run = s.run
  collected : s.collected = true → s'.collected = true
  checked : s.checked = true → s'.checked = true
  verified : s.verified = true → s'.verified = true

def Mild : Question → Prop
  | .startTask .. => True
  | q => Quiet q

section
variable {α β : Type} {step : RouteStepRow} {needs : Prop} {s s' : Account} {runId : String}

theorem standsSame : Stands s s := ⟨rfl,rfl,rfl,id,id,id⟩

theorem Stands.trans {last : Account} (first : Stands s s') (second : Stands s' last) :
    Stands s last where
  status := second.status.trans first.status
  made := second.made.trans first.made
  run := second.run.trans first.run
  collected held := second.collected (first.collected held)
  checked held := second.checked (first.checked held)
  verified held := second.verified (first.verified held)

theorem mildStands {q : Question} (mild : Mild q) (r : Except String (Answer q)) :
    Stands s (s.hears q r) := by
  have added {old new : Bool} (held : old = true) : (old || new) = true := by rw [held]; rfl
  cases q with
  | createRun | updateRouteStep => exact mild.elim
  | collectResult _ _ _ =>
    cases r with
    | ok _ => exact ⟨rfl,rfl,rfl,added,id,id⟩
    | error _ => exact standsSame
  | assertSourceUnchanged _ _ =>
    cases r with
    | ok _ => exact ⟨rfl,rfl,rfl,id,added,id⟩
    | error _ => exact standsSame
  | appendEvent _ =>
    cases r with
    | ok _ => exact ⟨rfl,rfl,rfl,id,id,added⟩
    | error _ => exact standsSame
  | _ => cases r <;> exact standsSame

theorem mildMay {q : Question} (mild : Mild q) : MayAsk step needs s q := by
  cases q <;> first | exact mild | exact mild.elim

theorem heardMild {p : Dialog α} (mild : Asks Mild p) :
    Heard (ear step needs) p (fun _ => Stands s) s :=
  heardAsks (fun _ mild _ stands => ⟨mildMay mild,fun r _ => stands.trans (mildStands mild r)⟩)
    mild standsSame

theorem quietMild {p : Dialog α} (quiet : Asks Quiet p) : Asks Mild p :=
  asksMono (fun q quiet => by cases q <;> first | exact quiet | exact quiet.elim) quiet

theorem heardAfter {p : Dialog α} {f : α → Dialog β} {post : Except String β → Account → Prop}
    (quiet : Asks Quiet p) (rest : ∀ a after, Stands s after → Heard (ear step needs) (f a) post after)
    (failed : ∀ error after, Stands s after → post (.error error) after) :
    Heard (ear step needs) (p >>= f) post s := by
  refine heardBind (heardMono (fun r after stands => ?_) (heardMild (quietMild quiet)))
  cases r with
  | ok a => exact rest a after stands
  | error error => exact failed error after stands

def Gains (step : RouteStepRow) (needs : Prop) (s : Account) (p : Dialog α)
    (post : α → Account → Prop) : Prop :=
  Heard (ear step needs) p (fun r after => Stands s after ∧ ∀ a, r = .ok a → post a after) s

theorem gainsBind {p : Dialog α} {f : α → Dialog β} {post : α → Account → Prop}
    {post' : β → Account → Prop} (first : Gains step needs s p post)
    (rest : ∀ a after, Stands s after → post a after → Gains step needs after (f a) post') :
    Gains step needs s (p >>= f) post' := by
  refine heardBind (heardMono (fun r after held => ?_) first)
  obtain ⟨stands,held⟩ := held
  cases r with
  | error error => exact ⟨stands,fun _ same => by cases same⟩
  | ok a =>
    exact heardMono (fun _ _ last => ⟨stands.trans last.1,last.2⟩) (rest a after stands (held a rfl))

theorem gainsMild {p : Dialog α} (mild : Asks Mild p) :
    Gains step needs s p fun _ _ => True :=
  heardMono (fun _ _ stands => ⟨stands,fun _ _ => trivial⟩) (heardMild mild)

theorem gainsQuiet {p : Dialog α} (quiet : Asks Quiet p) :
    Gains step needs s p fun _ _ => True := gainsMild (quietMild quiet)

theorem gainsDone {a : α} {post : α → Account → Prop} (held : post a s) :
    Gains step needs s (pure a) post := ⟨standsSame,fun _ same => Except.ok.inj same ▸ held⟩

theorem gainsFail {error : String} {post : α → Account → Prop} :
    Gains step needs s (.fail error) post := ⟨standsSame,fun _ same => by cases same⟩

theorem gainsAsk {q : Question} {post : Answer q → Account → Prop} (mild : Mild q)
    (held : ∀ a, (ear step needs).plain q (.ok a) → post a (s.hears q (.ok a))) :
    Gains step needs s (ask q) post := by
  refine heardCall (mildMay mild) fun r plain => ⟨mildStands mild r,?_⟩
  rintro a rfl
  exact held a plain

def Runs (step : RouteStepRow) (needs : Prop) (runId : String) (s : Account) (m : Guarded α)
    (post : α → Account → Prop) : Prop :=
  ∀ progress : Progress, progress.run.id = runId → Heard (ear step needs) (m progress)
    (fun r after => Stands s after ∧ ∀ next a, r = .ok (next,a) → next.run.id = runId ∧
      ∀ out, a = .ok out → post out after) s

def Steady (step : RouteStepRow) (needs : Prop) (runId : String) (m : Guarded α) : Prop :=
  ∀ s, Runs step needs runId s m fun _ _ => True

theorem runsBind {m : Guarded α} {f : α → Guarded β} {post : α → Account → Prop}
    {post' : β → Account → Prop} (first : Runs step needs runId s m post)
    (rest : ∀ a after, Stands s after → post a after → Runs step needs runId after (f a) post') :
    Runs step needs runId s (m >>= f) post' := by
  intro progress own
  refine heardBind (heardMono (fun r after held => ?_) (first progress own))
  obtain ⟨stands,kept⟩ := held
  obtain error | ⟨next,error | a⟩ := r
  · exact ⟨stands,fun _ _ same => by cases same⟩
  · refine ⟨stands,fun _ _ same => ?_⟩
    obtain ⟨rfl,rfl⟩ := Prod.mk.inj (Except.ok.inj same)
    exact ⟨(kept _ _ rfl).1,fun _ same => by cases same⟩
  · obtain ⟨own,held⟩ := kept _ _ rfl
    exact heardMono (fun _ _ last => ⟨stands.trans last.1,last.2⟩)
      (rest a after stands (held a rfl) next own)

theorem runsTrying {p : Dialog α} {post : α → Account → Prop} (gains : Gains step needs s p post) :
    Runs step needs runId s (trying p) post := by
  intro progress own
  refine heardBind (heardAttempt (heardMono (fun r after held => ?_) gains))
  refine ⟨held.1,fun _ _ same => ?_⟩
  obtain ⟨rfl,rfl⟩ := Prod.mk.inj (Except.ok.inj same)
  exact ⟨own,held.2⟩

theorem runsPure {a : α} {post : α → Account → Prop} (held : post a s) :
    Runs step needs runId s (pure a) post := by
  refine fun progress own => ⟨standsSame,fun _ _ same => ?_⟩
  obtain ⟨rfl,rfl⟩ := Prod.mk.inj (Except.ok.inj same)
  exact ⟨own,fun _ same => Except.ok.inj same ▸ held⟩

theorem steadyBind {m : Guarded α} {f : α → Guarded β} (first : Steady step needs runId m)
    (rest : ∀ a, Steady step needs runId (f a)) : Steady step needs runId (m >>= f) :=
  fun s => runsBind (first s) fun a after _ _ => rest a after

theorem steadyTrying {p : Dialog α} (mild : Asks Mild p) : Steady step needs runId (trying p) :=
  fun _ => runsTrying (gainsMild mild)

theorem steadyQuiet {p : Dialog α} (quiet : Asks Quiet p) : Steady step needs runId (trying p) :=
  steadyTrying (quietMild quiet)

theorem steadyPure (a : α) : Steady step needs runId (pure a) := fun _ => runsPure trivial

theorem steadyThrowing (error : String) : Steady step needs runId (throwing error : Guarded α) := by
  refine fun _ _ own => ⟨standsSame,fun _ _ same => ?_⟩
  obtain ⟨rfl,rfl⟩ := Prod.mk.inj (Except.ok.inj same)
  exact ⟨own,fun _ same => by cases same⟩

theorem runsProgress :
    Runs step needs runId s progress fun progress _ => progress.run.id = runId := by
  refine fun _ own => ⟨standsSame,fun _ _ same => ?_⟩
  obtain ⟨rfl,rfl⟩ := Prod.mk.inj (Except.ok.inj same)
  exact ⟨own,fun _ same => Except.ok.inj same ▸ own⟩

theorem steadyProgress : Steady step needs runId progress := fun _ progress own =>
  heardMono (fun _ _ held => ⟨held.1,fun _ _ same => ⟨(held.2 _ _ same).1,fun _ _ => trivial⟩⟩)
    (runsProgress progress own)

theorem runsAdvance {f : Progress → Progress}
    (keeps : ∀ progress, progress.run.id = runId → (f progress).run.id = runId) :
    Runs step needs runId s (advance f) fun _ _ => True := by
  refine fun progress own => ⟨standsSame,fun _ _ same => ?_⟩
  obtain ⟨rfl,rfl⟩ := Prod.mk.inj (Except.ok.inj same)
  exact ⟨keeps progress own,fun _ _ => trivial⟩

theorem patchGains (patch : RunPatch) :
    Gains step needs s (ask (.updateRun runId patch)) fun run _ => run.id = runId :=
  gainsAsk trivial fun _ plain => plain

theorem steadyPatch (patch : RunPatch) : Steady step needs runId (patchRun runId patch) := fun _ =>
  runsBind (runsTrying (patchGains patch)) fun _ _ _ own => runsAdvance fun _ _ => own

theorem steadyOutcome {m : Guarded α} (steady : Steady step needs runId m) :
    Steady step needs runId (outcomeOf m) := fun s progress own => by
  refine heardBind (heardMono (fun r after held => ?_) (steady s progress own))
  obtain error | ⟨next,r⟩ := r
  · exact ⟨held.1,fun _ _ same => by cases same⟩
  · refine ⟨held.1,fun _ _ same => ?_⟩
    obtain ⟨rfl,rfl⟩ := Prod.mk.inj (Except.ok.inj same)
    exact ⟨(held.2 _ _ rfl).1,fun _ _ => trivial⟩

theorem steadyAdvance {f : Progress → Progress}
    (keeps : ∀ progress, (f progress).run = progress.run) :
    Steady step needs runId (advance f) :=
  fun _ => runsAdvance fun progress own => (congrArg RunRow.id (keeps progress)).trans own

theorem steadyPersist (workingDirectory : String) (started : AdapterRun) :
    Steady step needs runId (persistStart step runId workingDirectory started) :=
  steadyBind (steadyPatch _) fun _ => steadyBind steadyProgress fun _ =>
    steadyQuiet (quietPublish _)

theorem steadyAdapterStart (workingDirectory : String) (started : AdapterRun)
    (state : StartPersistence) :
    Steady step needs runId (persistAdapterStart step runId workingDirectory started state) := by
  cases state with
  | none => exact steadyBind (steadyPersist _ _) fun _ => steadyPure _
  | failed error => exact steadyThrowing error
  | persisted before =>
    unfold persistAdapterStart
    dsimp only
    split
    · exact steadyThrowing _
    · exact steadyPure _

theorem steadyReported (workingDirectory : String) (started : List AdapterRun)
    (state : StartPersistence) :
    Steady step needs runId (reportedStarts step runId workingDirectory started state) := by
  induction started generalizing state with
  | nil => exact steadyPure _
  | cons first rest ih =>
    exact steadyBind (steadyOutcome (steadyAdapterStart _ _ _)) fun _ => ih _

theorem steadyStopping (error : String) : Steady step needs runId (stopIfShuttingDown error) := by
  refine steadyBind (steadyQuiet (quietRecall _)) fun stopping => ?_
  split
  · exact steadyThrowing error
  · exact steadyPure _

theorem steadyRequested : Steady step needs runId (stopIfRequested runId) := by
  refine steadyBind (steadyQuiet (quietTake runId)) fun requested => ?_
  split
  · exact steadyThrowing _
  · exact steadyPure _

theorem steadyWorktree (task : TaskRow) : Steady step needs runId (obtainWorktree task) := by
  refine steadyBind steadyProgress fun progress => ?_
  split
  · exact steadyPure _
  · exact steadyBind (steadyQuiet (asksCall trivial)) fun _ =>
      steadyBind (steadyAdvance fun _ => rfl) fun _ => steadyPure _

theorem steadyPrepare (task : TaskRow) (prior : List PriorResult) :
    Steady step needs runId (prepareAgent task step runId prior) :=
  steadyBind (steadyWorktree task) fun _ => steadyBind (steadyStopping _) fun _ =>
    steadyBind (steadyQuiet (asksCall trivial)) fun _ => steadyBind (steadyAdvance fun _ => rfl) fun _ =>
    steadyBind (steadyPatch _) fun _ => steadyBind (steadyQuiet (asksCall trivial)) fun _ =>
    steadyBind (steadyQuiet (asksCall trivial)) fun _ => steadyBind (steadyQuiet (quietFile _ _)) fun _ =>
    steadyBind steadyRequested fun _ => steadyPure _

theorem steadyStart (task : TaskRow) (worktree : WorktreeInfo) (prompt dir : String) :
    Steady step needs runId (startAgent task step runId worktree prompt dir) :=
  steadyBind (steadyTrying (asksCall trivial)) fun _ => steadyBind (steadyReported _ _ _) fun _ =>
    steadyBind (steadyTrying (asksExcept _)) fun _ => steadyBind (steadyAdvance fun _ => rfl) fun _ =>
    steadyBind (steadyAdapterStart _ _ _) fun _ =>
    steadyBind (steadyQuiet (quietRemember fun _ => rfl)) fun _ =>
    steadyBind (steadyQuiet (quietPhase ..)) fun _ => steadyPure _

theorem steadyDeliver (adapterRun : AdapterRun) :
    Steady step needs runId (deliverStop step runId adapterRun) := by
  refine steadyBind (steadyQuiet (quietTake runId)) fun requested => ?_
  split
  · exact steadyBind (steadyQuiet (asksCall trivial)) fun _ =>
      steadyQuiet (quietRemember fun _ => rfl)
  · exact steadyPure _

theorem collectRuns (linked : s.run = some runId) (task : TaskRow)
    (snapshot : SourceRepositorySnapshot) (adapterRun : AdapterRun) :
    Runs step needs runId s (collectAgent task step runId snapshot adapterRun)
      fun _ after => after.checked = true := by
  have collected (now : Account) (same : now.run = some runId) : Gains step needs now
      (ask (.collectResult runId step.agent adapterRun.id)) fun _ after => after.collected = true :=
    gainsAsk trivial fun result _ => by
      show (now.collected || now.run == some runId) = true
      rw [same,beq_self_eq_true,Bool.or_true]
  have checked (now : Account) (same : now.run = some runId) (held : now.collected = true) :
      Gains step needs now (ask (.assertSourceUnchanged runId snapshot))
        fun _ after => after.checked = true :=
    gainsAsk trivial fun done _ => by
      show (now.checked || (now.collected && now.run == some runId)) = true
      rw [same,held,beq_self_eq_true,Bool.and_true,Bool.or_true]
  refine runsBind (steadyDeliver adapterRun s) fun _ s first _ => ?_
  refine runsBind (steadyStopping _ s) fun _ s second _ => ?_
  have linked : s.run = some runId := second.run.trans (first.run.trans linked)
  refine runsBind (runsTrying (collected s linked)) fun result s stands held => ?_
  have linked : s.run = some runId := stands.run.trans linked
  refine runsBind (steadyQuiet (quietRemember fun _ => rfl) s) fun _ s first _ => ?_
  refine runsBind (steadyQuiet (quietPhase ..) s) fun _ s second _ => ?_
  refine runsBind (runsTrying (checked s (second.run.trans (first.run.trans linked))
    (second.collected (first.collected held)))) fun _ s _ held => ?_
  exact runsPure held

theorem verdictGains {run : RunRow} (linked : s.run = some run.id) (before after : GitSnapshot)
    (r : VerificationResult) : Gains step needs s (verificationVerdict run before after r)
      fun _ last => last.verified = true := by
  have published (input : EventInput) (own : input.runId = some run.id) :
      Gains step needs s (publish input) fun _ last => input.type = verdict → last.verified = true := by
    have appended : Gains step needs s (ask (.appendEvent input))
        fun _ last => input.type = verdict → last.verified = true :=
      gainsAsk trivial fun done _ type => by
        show (s.verified || (input.type == verdict && input.runId.isSome &&
          s.run == input.runId)) = true
        simp [type,own,linked]
    exact gainsBind appended fun _ _ _ held => gainsDone held
  unfold verificationVerdict
  split
  · exact gainsBind (published _ rfl) fun _ _ _ _ => gainsFail
  · refine gainsBind (published _ rfl) fun _ last _ held => ?_
    split
    next passed => exact gainsDone (held (if_pos passed))
    next => exact gainsFail

theorem verificationGains {run : RunRow} (linked : s.run = some run.id) (commandLine : String)
    (worktree : WorktreeInfo) : Gains step needs s (runVerification run commandLine worktree)
      fun _ last => last.verified = true := by
  have ends (now : Account) (same : now.run = some run.id) (before : GitSnapshot)
      (outcome : Except String VerificationResult) : Gains step needs now (do
        remember fun s => {s with activeVerifications := mapDelete run.id s.activeVerifications}
        let r ← Script.ofExcept outcome
        addFile r.artifact (some (verificationMetadata r))
        let after ← ask (.capture worktree.worktreePath worktree.baseCommit)
        verificationVerdict run before after r : Dialog VerificationResult)
      fun _ last => last.verified = true := by
    refine gainsBind (gainsQuiet (quietRemember fun _ => rfl)) fun _ _ first _ => ?_
    refine gainsBind (gainsQuiet (asksExcept _)) fun r _ second _ => ?_
    refine gainsBind (gainsQuiet (quietFile _ _)) fun _ _ third _ => ?_
    refine gainsBind (gainsQuiet (asksCall trivial)) fun after _ fourth _ => ?_
    exact verdictGains (fourth.run.trans (third.run.trans (second.run.trans (first.run.trans same))))
      before after r
  refine gainsBind (gainsQuiet (asksCall trivial)) fun before _ first _ => ?_
  refine gainsBind (gainsQuiet (quietRemember fun _ => rfl)) fun _ _ second _ => ?_
  refine gainsBind (gainsQuiet (quietPublish _)) fun _ _ third _ => ?_
  refine gainsBind (gainsQuiet (asksAttempt (asksCall trivial))) fun reply s fourth _ => ?_
  have linked : s.run = some run.id := fourth.run.trans (third.run.trans (second.run.trans
    (first.run.trans linked)))
  cases reply with
  | error error => exact ends s linked before (.error error)
  | ok r =>
    exact gainsBind (gainsQuiet (quietStarted _ _)) fun _ s stands _ =>
      ends s (stands.run.trans linked) before r.outcome

theorem verifyRuns {task : TaskRow} (asks : needs → step.role = .execute ∧
      (nonempty task.verificationCommand).isSome = true) (linked : s.run = some runId)
    (worktree : WorktreeInfo) (result : AdapterResult) :
    Runs step needs runId s (verifyStep task step runId worktree result)
      fun _ after => result.status = .succeeded → needs → after.verified = true := by
  unfold verifyStep
  split
  next idle =>
    refine runsPure fun succeeded needed => ?_
    obtain ⟨role,command⟩ := asks needed
    have none_ : nonempty task.verificationCommand = none := by
      rwa [needsVerification,if_pos ⟨succeeded,role⟩] at idle
    rw [none_] at command
    cases command
  next commandLine _ =>
    refine runsBind (steadyQuiet (quietPhase ..) s) fun _ s first _ => ?_
    refine runsBind runsProgress fun progress s second own => ?_
    have linked : s.run = some progress.run.id := by
      rw [own]
      exact second.run.trans (first.run.trans linked)
    refine runsBind (runsTrying (verificationGains linked commandLine worktree)) fun _ s _ held => ?_
    exact fun progress own => heardMono (fun _ _ last => ⟨last.1,fun _ _ same =>
      ⟨(last.2 _ _ same).1,fun _ _ _ _ => last.1.verified held⟩⟩)
      (steadyQuiet (quietPhase ..) s progress own)

structure Ended (step : RouteStepRow) (s : Account) (out : StepOutcome) : Prop where
  required : out.step.required = step.required
  status : (s.status = .succeeded ∧ out.succeeded = true) ∨
    (s.status = .failed ∧ out.succeeded = false) ∨
    (s.status = .skipped ∧ step.required = false)

def Ends (step : RouteStepRow) (r : Except String StepOutcome) (after : Account) : Prop :=
  ∀ out, r = .ok out → Ended step after out

def Worked (step : RouteStepRow) (r : Except String (Progress × Except String StepOutcome))
    (after : Account) : Prop := ∀ next out, r = .ok (next,.ok out) → Ended step after out

theorem endsError (error : String) : Ends step (.error error) s := fun _ same => by cases same

theorem workedError (error : String) : Worked step (.error error) s := fun _ _ same => by cases same

theorem workedFailed (next : Progress) (error : String) :
    Worked step (.ok (next,.error error)) s := fun _ _ same => by
  cases (Prod.mk.inj (Except.ok.inj same)).2

theorem workedAfter {m : Guarded α} {f : α → Guarded StepOutcome} {post : α → Account → Prop}
    {progress : Progress} (first : Runs step needs runId s m post) (own : progress.run.id = runId)
    (rest : ∀ a next after, Stands s after → post a after → next.run.id = runId →
      Heard (ear step needs) (f a next) (Worked step) after) :
    Heard (ear step needs) ((m >>= f) progress) (Worked step) s := by
  refine heardBind (heardMono (fun r after held => ?_) (first progress own))
  obtain ⟨stands,kept⟩ := held
  obtain error | ⟨next,error | a⟩ := r
  · exact workedError error
  · exact workedFailed next error
  · exact rest a next after stands ((kept _ _ rfl).2 a rfl) (kept _ _ rfl).1

theorem finishHeard (linked : s.run = some runId) (made : runId ∈ s.made)
    (checked : s.checked = true) {result : AdapterResult}
    (verified : result.status = .succeeded → needs → s.verified = true) (worktree : WorktreeInfo)
    {progress : Progress} (own : progress.run.id = runId) :
    Heard (ear step needs) (finishStep step runId worktree result progress) (Worked step) s := by
  refine workedAfter (steadyPatch _ s) own fun _ next s stands _ own => ?_
  have shown : Shown step needs s ⟨some (stepStatusOf result),none⟩ := by
    unfold stepStatusOf
    split
    next succeeded =>
      exact ⟨rfl,⟨runId,by rw [stands.made]; exact made,stands.run.trans linked⟩,
        stands.checked checked,fun needed => stands.verified (verified succeeded needed)⟩
    next => exact rfl
  refine heardBind (heardBind (heardAttempt (heardCall ⟨rfl,shown⟩ fun r _ => ?_)))
  cases r with
  | error error => exact workedFailed next error
  | ok _ =>
    refine workedAfter (steadyProgress _) own fun last next after first _ own => ?_
    refine workedAfter (steadyQuiet (quietPublish _) _) own fun _ next after second _ own => ?_
    refine workedAfter (steadyQuiet (quietForget _) _) own fun _ next after third _ own => ?_
    have status : after.status = stepStatusOf result :=
      third.status.trans (second.status.trans first.status)
    rintro _ out same
    cases Except.ok.inj (Prod.mk.inj (Except.ok.inj same)).2
    refine ⟨rfl,?_⟩
    rw [status]
    unfold stepStatusOf
    by_cases succeeded : result.status = .succeeded
    · exact .inl ⟨if_pos succeeded,beq_iff_eq.mpr succeeded⟩
    · exact .inr (.inl ⟨if_neg succeeded,beq_eq_false_iff_ne.mpr succeeded⟩)

theorem guardedHeard {o : Options} {task : TaskRow} (asks : needs → step.role = .execute ∧
      (nonempty task.verificationCommand).isSome = true) (prior : List PriorResult)
    (linked : s.run = some runId) (made : runId ∈ s.made) {progress : Progress}
    (own : progress.run.id = runId) : Heard (ear step needs)
      (guardedStep o task step runId prior progress) (Worked step) s := by
  refine workedAfter (steadyPrepare task prior s) own fun ready next s first _ own => ?_
  obtain ⟨worktree,snapshot,prompt,dir⟩ := ready
  refine workedAfter (steadyStart task worktree prompt dir s) own fun adapterRun next s second _ own => ?_
  have stands := first.trans second
  have linked : s.run = some runId := stands.run.trans linked
  refine workedAfter (collectRuns linked task snapshot adapterRun) own
    fun result next s third checked own => ?_
  refine workedAfter (steadyProgress s) own fun progress next s fourth _ own => ?_
  refine workedAfter (steadyQuiet (quietIngest ..) s) own fun _ next s fifth _ own => ?_
  have later := third.trans (fourth.trans fifth)
  have linked : s.run = some runId := later.run.trans linked
  refine workedAfter (verifyRuns asks linked worktree result) own fun _ next s sixth verified own => ?_
  refine workedAfter (steadyQuiet (quietReview ..) s) own fun _ next s seventh _ own => ?_
  have last := sixth.trans seventh
  refine finishHeard (last.run.trans linked) ?_ ?_ (fun succeeded needed =>
    seventh.verified (verified succeeded needed)) worktree own
  · rw [last.made,later.made,stands.made]
    exact made
  · exact last.checked (fifth.checked (fourth.checked checked))

theorem writtenHeard {status : RouteStepStatus} {f : Unit → Dialog StepOutcome}
    (shown : Shown step needs s ⟨some status,none⟩)
    (rest : Heard (ear step needs) (f ()) (Ends step) {s with status}) :
    Heard (ear step needs) (ask (.updateRouteStep step.id ⟨some status,none⟩) >>= f) (Ends step) s := by
  refine heardBind (heardCall ⟨rfl,shown⟩ fun r _ => ?_)
  cases r with
  | ok _ => exact rest
  | error error => exact endsError error

theorem restHeard {p : Dialog α} {f : α → Dialog StepOutcome} (quiet : Asks Quiet p)
    (rest : ∀ a after, Stands s after → Heard (ear step needs) (f a) (Ends step) after) :
    Heard (ear step needs) (p >>= f) (Ends step) s :=
  heardAfter quiet rest fun error _ _ => endsError error

theorem failHeard (o : Options) (progress : Progress) (error : String) :
    Heard (ear step needs) (failStep o step runId progress error) (Ends step) s := by
  refine restHeard (quietStop runId) fun _ s _ => ?_
  refine restHeard (quietPhase _ _ _) fun _ s _ => ?_
  refine restHeard (quietIsolation _ _ _) fun message s _ => ?_
  refine restHeard (quietEvidence _ _ _) fun capture s _ => ?_
  refine restHeard (quietClose _ _) fun run s _ => ?_
  refine writtenHeard rfl ?_
  refine restHeard (quietCapture _ _) fun _ s first => ?_
  refine restHeard (quietPublish _) fun _ s second => ?_
  refine restHeard (quietCaptureError _ _) fun _ s third => ?_
  refine restHeard (quietForget _) fun _ s fourth => ?_
  have status := ((first.trans second).trans (third.trans fourth)).status
  rintro out same
  cases Except.ok.inj same
  exact ⟨rfl,.inr (.inl ⟨status,rfl⟩)⟩

theorem unavailableHeard (message : String) :
    Heard (ear step needs) (unavailableStep step message) (Ends step) s := by
  unfold unavailableStep
  cases required : step.required with
  | false =>
    refine writtenHeard ⟨rfl,required⟩ (restHeard (quietPublish _) fun _ s stands => ?_)
    rintro out same
    cases Except.ok.inj same
    exact ⟨required.symm,.inr (.inr ⟨stands.status,required⟩)⟩
  | true =>
    refine writtenHeard rfl (restHeard (quietPublish _) fun _ s stands => ?_)
    rintro out same
    cases Except.ok.inj same
    exact ⟨required.symm,.inr (.inl ⟨stands.status,rfl⟩)⟩

theorem runHeard {o : Options} {task : TaskRow} (asks : needs → step.role = .execute ∧
      (nonempty task.verificationCommand).isSome = true) (prior : List PriorResult)
    (inherited : Option WorktreeInfo) :
    Heard (ear step needs) (runStep o task step prior inherited) (Ends step) s := by
  have begun : Heard (ear step needs) (beginRun task step) (fun r after => ∀ run : RunRow,
      r = .ok run → run.id ∈ after.made ∧ after.run = some run.id) s := by
    refine heardBind (heardCall rfl fun r _ => ?_)
    cases r with
    | error error => exact fun _ same => by cases same
    | ok created =>
      change RunRow at created
      have made : created.id ∈ ({s with made := created.id::s.made} : Account).made :=
        List.mem_cons_self
      refine heardAfter (quietPhase _ _ _) (fun _ s stands => ?_) fun _ _ _ _ same => by cases same
      have made : created.id ∈ s.made := by
        rw [stands.made]
        exact made
      refine heardBind (heardCall ⟨rfl,created.id,made,rfl⟩ fun r _ => ?_)
      cases r with
      | error error => exact fun _ same => by cases same
      | ok _ =>
        have linked : Gains step needs ⟨.running,s.made,some created.id,false,false,false⟩ (do
            let now ← ask .clock
            let run ← ask (.updateRun created.id (startingPatch now))
            publish (runEvent run "run.starting" .info
              s!"{step.agent.text} is starting the {step.role.text} step." none)
            pure run : Dialog RunRow) fun run _ => run.id = created.id := by
          refine gainsBind (gainsQuiet (asksCall trivial)) fun now _ _ _ => ?_
          refine gainsBind (patchGains _) fun run _ _ own => ?_
          exact gainsBind (gainsQuiet (quietPublish _)) fun _ _ _ _ => gainsDone own
        refine heardMono (fun r after held run same => ?_) linked
        rw [held.2 run same,held.1.made,held.1.run]
        exact ⟨made,rfl⟩
  refine heardBind (heardMono (fun r after held => ?_) begun)
  cases r with
  | error error => exact endsError error
  | ok run =>
    obtain ⟨made,linked⟩ := held run rfl
    refine heardBind (heardMono (fun r after worked => ?_)
      (guardedHeard asks prior linked made
        (show (⟨run,inherited,none,none⟩ : Progress).run.id = run.id from rfl)))
    obtain error | ⟨next,error | out⟩ := r
    · exact endsError error
    · exact failHeard o next error
    · intro out same
      cases Except.ok.inj same
      exact worked next out rfl

/-- Whatever it is answered, a step writes into its row only what it can show: skipped when it
is optional; succeeded with a run of its own whose agent was collected, whose source was then
found unchanged and, where the task asks for one, whose verification succeeded. -/
theorem executeHeard {o : Options} {task : TaskRow} (asks : needs → step.role = .execute ∧
      (nonempty task.verificationCommand).isSome = true) (prior : List PriorResult)
    (inherited : Option WorktreeInfo) :
    Heard (ear step needs) (executeStep o task step prior inherited) (Ends step) s := by
  unfold executeStep
  refine restHeard (quietRecall _) fun stopping s _ => ?_
  split
  · exact unavailableHeard _
  split
  · exact unavailableHeard _
  refine heardBind (heardCall trivial fun r _ => ?_)
  cases r with
  | error error => exact endsError error
  | ok availability =>
    change AdapterAvailability at availability
    dsimp only
    split
    · exact unavailableHeard _
    refine restHeard (quietRecall _) fun stopping s _ => ?_
    split
    · exact unavailableHeard _
    · exact runHeard asks prior inherited

end

end ControlCenter.StepEvidence
