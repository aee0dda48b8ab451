import ControlCenter.Execution
import ControlCenter.ScriptRuns

/-! What an attempt at a task asks. Its end: reads, the handoff, how the task leaves
`running`. Each of its steps: its own row, one run at most, one start of its agent at
most with the prompt it was given. -/
namespace ControlCenter.ExecutionQuestions
open JsonValue Protocol Db DbReviews Dialogue Reliance Ports Coordinator Execution
open ScriptRuns (Returns returnsBind returnsAfter)

section
variable {may : Question → Prop}

theorem asksReading {α : Type} (reads : may .snapshot) (f : ControlCenterDb → α) :
    Asks may (reading f) := asksBind (asksCall reads) fun _ => asksDone _

theorem asksGetTask (reads : may .snapshot) (taskId : String) : Asks may (getTask taskId) := by
  refine asksBind (asksReading reads _) fun row => ?_
  cases row with
  | none => exact asksDone _
  | some row =>
    refine asksBind (asksReading reads _) fun _ => asksBind (asksReading reads _) fun _ =>
      asksBind (asksReading reads _) fun _ => asksBind (asksReading reads _) fun _ =>
      asksBind (asksReading reads _) fun _ => asksBind (asksExcept _) fun _ => asksDone _

theorem asksHandoff (reads : may .snapshot)
    (writes : ∀ taskId runId kind name data, may (.writeArtifact taskId runId kind name data))
    (adds : ∀ input, may (.addArtifact input)) (taskId : String) (status : HandoffStatus)
    (reason : Option String) : Asks may (writeHandoff taskId status reason) := by
  refine asksBind (asksGetTask reads taskId) fun aggregate => ?_
  cases aggregate with
  | none => exact asksDone _
  | some aggregate =>
    dsimp only
    split
    · exact asksDone _
    · refine asksBind (asksCall (writes ..)) fun artifact => asksBind ?_ fun _ => asksDone _
      exact asksBind (asksCall (adds _)) fun _ => asksDone _

end

def Closes : Question → Prop
  | .memory change => ∀ memory, (change memory).shutdownRequested = memory.shutdownRequested
  | .snapshot | .appendEvent _ | .addArtifact _ | .writeArtifact .. | .updateTaskStatus ..
  | .finalizeTaskExecution .. => True
  | _ => False

theorem closesPublish (input : EventInput) : Asks Closes (publish input) :=
  asksBind (asksCall trivial) fun _ => asksDone _

theorem closesShutdown : Asks Closes shutdownRequested :=
  asksBind (asksCall fun _ => rfl) fun _ => asksDone _

theorem closesHandoff (taskId : String) (status : HandoffStatus) (reason : Option String) :
    Asks Closes (writeHandoff taskId status reason) :=
  asksHandoff trivial (fun _ _ _ _ _ => trivial) (fun _ => trivial) taskId status reason

theorem closesInterrupted (taskId : String) (outcomes : List StepOutcome) :
    Asks Closes (blockForShutdown taskId outcomes) := by
  refine asksBind (asksAttempt (closesHandoff _ _ _)) fun handoff =>
    asksBind (asksGetTask trivial taskId) fun aggregate => ?_
  cases aggregate with
  | none => exact asksBind (closesPublish _) fun _ => asksDone _
  | some aggregate =>
    dsimp only
    split
    · exact asksBind (asksCall trivial) fun _ => asksBind (closesPublish _) fun _ => asksDone _
    · exact asksBind (closesPublish _) fun _ => asksDone _

theorem closesFailure (taskId : String) (failure : StepOutcome) (outcomes : List StepOutcome) :
    Asks Closes (blockForFailure taskId failure outcomes) :=
  asksBind (asksAttempt (closesHandoff _ _ _)) fun _ => asksBind (asksCall trivial) fun _ =>
    asksBind (closesPublish _) fun _ => asksDone _

theorem closesFinalize (refreshed : TaskAggregate) (taskId : String) (outcomes : List StepOutcome) :
    Asks Closes (finalizeExecution refreshed taskId outcomes) := by
  refine asksBind (asksAttempt (closesHandoff _ _ _)) fun handoff => ?_
  cases handoff with
  | error error =>
    exact asksBind (asksCall trivial) fun _ => asksBind (closesPublish _) fun _ => asksDone _
  | ok path =>
    exact asksBind (asksCall trivial) fun _ => asksBind (closesPublish _) fun _ => asksDone _

theorem closesFinish (taskId : String) (outcomes : List StepOutcome) :
    Asks Closes (finishExecution taskId outcomes) := by
  refine asksBind closesShutdown fun stopping => ?_
  split
  · exact closesInterrupted taskId outcomes
  · refine asksBind (asksGetTask trivial taskId) fun aggregate => ?_
    cases aggregate with
    | none => exact asksFail _
    | some refreshed => exact closesFinalize refreshed taskId outcomes

-- What one step has heard so far: whether it asked for its run, how often for its agent,
-- whether it found the shutdown flag set before its run and its adapter unavailable, and
-- the status it last wrote.
structure Seen where
  created : Bool
  agents : Nat
  told : Bool
  unavailable : Bool
  status : RouteStepStatus
  deriving DecidableEq, Repr

def Seen.initial : Seen := ⟨false,0,false,false,.pending⟩

def Seen.hears (s : Seen) : (q : Question) → Except String (Answer q) → Seen
  | .memory _,.ok (memory : Memory) =>
      {s with told := s.told || (!s.created && memory.shutdownRequested)}
  | .availability _,.ok (availability : AdapterAvailability) =>
      {s with unavailable := !availability.available}
  | .createRun _,_ => {s with created := true}
  | .startTask ..,_ => {s with agents := s.agents + 1}
  | .updateRouteStep _ patch,.ok _ => {s with status := patch.status.getD s.status}
  | _,_ => s

def Quiet : Question → Prop
  | .memory change => ∀ memory, (change memory).shutdownRequested = memory.shutdownRequested
  | .snapshot | .updateRun .. | .appendEvent _ | .addArtifact _ | .clock | .createWorktree ..
  | .captureSourceSnapshot _ | .assertSourceUnchanged .. | .prepareRunDirectory ..
  | .writeArtifact .. | .stopAdapter .. | .collectResult .. | .inspectFile _ | .readFile _
  | .capture .. | .runVerifier .. | .captureReviewArtifacts .. => True
  | _ => False

def MayAsk (step : RouteStepRow) (prior : List PriorResult) (s : Seen) : Question → Prop
  | .availability agent => agent = step.agent ∧ s.created = false
  | .createRun input => input.routeStepId = step.id ∧ s.created = false
  | .updateRouteStep stepId _ => stepId = step.id
  | .startTask _ agent role task prompt _ _ => s.agents = 0 ∧ agent = step.agent ∧
      role = step.role ∧ prompt = buildAgentPrompt task step.role prior
  | q => Quiet q

def setting (step : RouteStepRow) (prior : List PriorResult) :
    Setting Question Answer Seen Unit Unit where
  allowed _ q s := MayAsk step prior s q
  answers _ q s r after := after = s.hears q r

abbrev Leads {α : Type} (step : RouteStepRow) (prior : List PriorResult) (p : Dialog α)
    (post : Except String α → Seen → Prop) (s : Seen) : Prop :=
  Safe (setting step prior) (fun _ => False) ⟨(),none⟩ p post s

section
variable {α β : Type} {step : RouteStepRow} {prior : List PriorResult} {s : Seen}

theorem loneStable (P : Seen → Prop) : Stable (setting step prior) (fun _ => False) P :=
  fun _ member => member.elim

theorem noneSteps {after : Seen} (steps : Steps (setting step prior) (fun _ => False) s after) :
    after = s := stableSteps (P := fun t => t = s) (loneStable _) steps rfl

theorem leadsDone {a : α} {post : Except String α → Seen → Prop} (h : post (.ok a) s) :
    Leads step prior (pure a) post s := fun _ steps => by rwa [noneSteps steps]

theorem leadsFail {error : String} {post : Except String α → Seen → Prop}
    (h : post (.error error) s) : Leads step prior (.fail error) post s :=
  fun _ steps => by rwa [noneSteps steps]

theorem leadsAsk {q : Question} {post : Except String (Answer q) → Seen → Prop}
    (may : MayAsk step prior s q) (rest : ∀ r, post r (s.hears q r)) :
    Leads step prior (ask q) post s := by
  intro now steps
  cases noneSteps steps
  refine ⟨may,fun r after answered => ?_⟩
  cases answered
  cases r with
  | ok a => exact leadsDone (rest (.ok a))
  | error error => exact leadsFail (rest (.error error))

theorem hearsQuiet {q : Question} (quiet : Quiet q) (created : s.created = true)
    (r : Except String (Answer q)) : s.hears q r = s := by
  obtain ⟨created_,agents,told,unavailable,status⟩ := s
  cases created
  cases q <;> cases r <;> first | rfl | exact quiet.elim | simp [Seen.hears]

theorem mayQuiet {q : Question} (quiet : Quiet q) : MayAsk step prior s q := by
  cases q <;> first | exact quiet | exact quiet.elim

theorem leadsQuiet {p : Dialog α} (quiet : Asks Quiet p) (created : s.created = true) :
    Leads step prior p (fun _ after => after = s) s := by
  refine safeAsks (P := fun after => after = s) (loneStable _) (fun q h now same => ?_) quiet rfl
  cases same
  exact ⟨mayQuiet h,fun r after answered => answered.trans (hearsQuiet h created r)⟩

end

theorem leadsAsks {α : Type} {step : RouteStepRow} {prior : List PriorResult} {s : Seen}
    {p : Dialog α} {post : Except String α → Seen → Prop} (leads : Leads step prior p post s) :
    Asks (fun q => ∃ heard, MayAsk step prior heard q) p := by
  induction p generalizing s with
  | done a => trivial
  | fail error => trivial
  | ask q next ih =>
    obtain ⟨may,rest⟩ := leads s stepsRefl
    exact ⟨⟨s,may⟩,fun r => ih r (rest r _ rfl)⟩

def GuardAsks {α : Type} (may : Question → Prop) (m : Guarded α) : Prop := ∀ s, Asks may (m s)

section
variable {α β : Type} {may : Question → Prop} {m : Guarded α}

theorem guardBind {f : α → Guarded β} (first : GuardAsks may m)
    (rest : ∀ a, GuardAsks may (f a)) : GuardAsks may (m >>= f) := fun s =>
  asksBind (first s) fun (s',r) => match r with
    | .ok a => rest a s'
    | .error _ => asksDone _

theorem guardTrying {p : Dialog α} (asks : Asks may p) : GuardAsks may (trying p) := fun _ =>
  asksBind (asksAttempt asks) fun _ => asksDone _

theorem guardPure (a : α) : GuardAsks may (pure a) := fun _ => asksDone _
theorem guardThrowing (error : String) : GuardAsks may (throwing error : Guarded α) :=
  fun _ => asksDone _
theorem guardProgress : GuardAsks may progress := fun _ => asksDone _
theorem guardAdvance (f : Progress → Progress) : GuardAsks may (advance f) := fun _ => asksDone _

theorem guardOutcome (asks : GuardAsks may m) : GuardAsks may (outcomeOf m) := fun s =>
  asksBind (asks s) fun _ => asksDone _

theorem quietRemember {change : Memory → Memory}
    (keeps : ∀ memory, (change memory).shutdownRequested = memory.shutdownRequested) :
    Asks Quiet (remember change) := asksBind (asksCall keeps) fun _ => asksDone _

theorem quietRecall (f : Memory → α) : Asks Quiet (recalled f) :=
  asksBind (asksCall fun _ => rfl) fun _ => asksDone _

theorem quietPublish (input : EventInput) : Asks Quiet (publish input) :=
  asksBind (asksCall trivial) fun _ => asksDone _

theorem quietPhase (runId taskId : String) (phase : RunControlPhase) :
    Asks Quiet (setPhase runId taskId phase) := quietRemember fun _ => rfl

theorem quietForget (runId : String) : Asks Quiet (forgetRun runId) :=
  asksBind (quietRemember fun _ => rfl) fun _ => quietRemember fun _ => rfl

theorem quietTake (runId : String) : Asks Quiet (takeStopRequest runId) :=
  asksBind (asksCall fun _ => rfl) fun _ => asksDone _

theorem quietFile (artifact : ArtifactMetadata) (metadata : Option Json) :
    Asks Quiet (addFile artifact metadata) := asksBind (asksCall trivial) fun _ => asksDone _

theorem quietFiles (artifacts : List ArtifactMetadata) : Asks Quiet (addFiles artifacts) := by
  induction artifacts with
  | nil => exact asksDone _
  | cons artifact rest ih => exact asksBind (quietFile _ _) fun _ => ih

theorem quietIngestFile (o : Options) (run : RunRow) (runDirectory path : String)
    (kind : ArtifactKind) : Asks Quiet (ingestFile o run runDirectory path kind) := by
  refine asksBind (asksCall trivial) fun info => ?_
  split
  · exact asksFail _
  split
  · exact asksFail _
  split
  · exact asksFail _
  · exact asksBind (asksCall trivial) fun _ => asksBind (asksCall trivial) fun _ => quietFile _ _

theorem quietIngest (o : Options) (run : RunRow) (stdoutPath stderrPath resultPath : String) :
    Asks Quiet (ingestAdapterArtifacts o run stdoutPath stderrPath resultPath) :=
  asksBind (asksCall trivial) fun _ => asksBind (quietIngestFile ..) fun _ =>
    asksBind (quietIngestFile ..) fun _ => quietIngestFile ..

theorem quietReview (run : RunRow) (worktree : WorktreeInfo) :
    Asks Quiet (captureReview run worktree) :=
  asksBind (asksCall trivial) fun captured => quietFiles captured

theorem quietStarted (run : RunRow) (starts : List ProcessStart) :
    Asks Quiet (processStarted run starts) := by
  induction starts with
  | nil => exact asksDone _
  | cons start rest ih => exact asksBind (asksAttempt (quietPublish _)) fun _ => ih

theorem quietVerdict (run : RunRow) (before after : GitSnapshot) (r : VerificationResult) :
    Asks Quiet (verificationVerdict run before after r) := by
  unfold verificationVerdict
  split
  · exact asksBind (quietPublish _) fun _ => asksFail _
  · refine asksBind (quietPublish _) fun _ => ?_
    split
    · exact asksDone _
    · exact asksFail _

theorem quietVerification (run : RunRow) (commandLine : String) (worktree : WorktreeInfo) :
    Asks Quiet (runVerification run commandLine worktree) := by
  refine asksBind (asksCall trivial) fun before => asksBind (quietRemember fun _ => rfl) fun _ =>
    asksBind (quietPublish _) fun _ => asksBind (asksAttempt (asksCall trivial)) fun reply => ?_
  have finish (outcome : Except String VerificationResult) : Asks Quiet (do
      remember fun s => {s with
        activeVerifications := mapDelete run.id s.activeVerifications}
      let r ← Script.ofExcept outcome
      addFile r.artifact (some (verificationMetadata r))
      let after ← ask (.capture worktree.worktreePath worktree.baseCommit)
      verificationVerdict run before after r : Dialog VerificationResult) :=
    asksBind (quietRemember fun _ => rfl) fun _ => asksBind (asksExcept _) fun _ =>
      asksBind (quietFile _ _) fun _ => asksBind (asksCall trivial) fun _ => quietVerdict ..
  cases reply with
  | ok r => exact asksBind (quietStarted _ _) fun _ => finish r.outcome
  | error error => exact finish (.error error)

theorem quietPatch (runId : String) (patch : RunPatch) : GuardAsks Quiet (patchRun runId patch) :=
  guardBind (guardTrying (asksCall trivial)) fun _ => guardAdvance _

theorem quietPersist (step : RouteStepRow) (runId workingDirectory : String) (started : AdapterRun) :
    GuardAsks Quiet (persistStart step runId workingDirectory started) :=
  guardBind (quietPatch _ _) fun _ => guardBind guardProgress fun _ =>
    guardTrying (quietPublish _)

theorem quietAdapterStart (step : RouteStepRow) (runId workingDirectory : String)
    (started : AdapterRun) (state : StartPersistence) :
    GuardAsks Quiet (persistAdapterStart step runId workingDirectory started state) := by
  cases state with
  | none => exact guardBind (quietPersist _ _ _ _) fun _ => guardPure _
  | failed error => exact guardThrowing error
  | persisted before =>
    unfold persistAdapterStart
    dsimp only
    split
    · exact guardThrowing _
    · exact guardPure _

theorem quietReported (step : RouteStepRow) (runId workingDirectory : String)
    (started : List AdapterRun) (state : StartPersistence) :
    GuardAsks Quiet (reportedStarts step runId workingDirectory started state) := by
  induction started generalizing state with
  | nil => exact guardPure _
  | cons first rest ih => exact guardBind (guardOutcome (quietAdapterStart _ _ _ _ _)) fun _ => ih _

theorem quietStopping (error : String) : GuardAsks Quiet (stopIfShuttingDown error) := by
  refine guardBind (guardTrying (quietRecall _)) fun stopping => ?_
  split
  · exact guardThrowing error
  · exact guardPure _

theorem quietRequested (runId : String) : GuardAsks Quiet (stopIfRequested runId) := by
  refine guardBind (guardTrying (quietTake runId)) fun requested => ?_
  split
  · exact guardThrowing _
  · exact guardPure _

theorem quietWorktree (task : TaskRow) : GuardAsks Quiet (obtainWorktree task) := by
  refine guardBind guardProgress fun s => ?_
  split
  · exact guardPure _
  · exact guardBind (guardTrying (asksCall trivial)) fun _ => guardBind (guardAdvance _) fun _ =>
      guardPure _

theorem quietPrepare (task : TaskRow) (step : RouteStepRow) (runId : String)
    (prior : List PriorResult) : GuardAsks Quiet (prepareAgent task step runId prior) :=
  guardBind (quietWorktree task) fun _ => guardBind (quietStopping _) fun _ =>
    guardBind (guardTrying (asksCall trivial)) fun _ => guardBind (guardAdvance _) fun _ =>
    guardBind (quietPatch _ _) fun _ => guardBind (guardTrying (asksCall trivial)) fun _ =>
    guardBind (guardTrying (asksCall trivial)) fun _ => guardBind (guardTrying (quietFile _ _)) fun _ =>
    guardBind (quietRequested runId) fun _ => guardPure _

theorem quietDeliver (step : RouteStepRow) (runId : String) (adapterRun : AdapterRun) :
    GuardAsks Quiet (deliverStop step runId adapterRun) := by
  refine guardBind (guardTrying (quietTake runId)) fun requested => ?_
  split
  · exact guardBind (guardTrying (asksCall trivial)) fun _ =>
      guardTrying (quietRemember fun _ => rfl)
  · exact guardPure _

theorem quietCollect (task : TaskRow) (step : RouteStepRow) (runId : String)
    (snapshot : SourceRepositorySnapshot) (adapterRun : AdapterRun) :
    GuardAsks Quiet (collectAgent task step runId snapshot adapterRun) :=
  guardBind (quietDeliver _ _ _) fun _ => guardBind (quietStopping _) fun _ =>
    guardBind (guardTrying (asksCall trivial)) fun _ =>
    guardBind (guardTrying (quietRemember fun _ => rfl)) fun _ =>
    guardBind (guardTrying (quietPhase ..)) fun _ => guardBind (guardTrying (asksCall trivial)) fun _ =>
    guardPure _

theorem quietVerify (task : TaskRow) (step : RouteStepRow) (runId : String)
    (worktree : WorktreeInfo) (result : AdapterResult) :
    GuardAsks Quiet (verifyStep task step runId worktree result) := by
  unfold verifyStep
  split
  · exact guardPure _
  · exact guardBind (guardTrying (quietPhase ..)) fun _ => guardBind guardProgress fun _ =>
      guardBind (guardTrying (quietVerification ..)) fun _ => guardTrying (quietPhase ..)

end

structure Finished (o : Options) (step : RouteStepRow) (s : Seen) (out : StepOutcome) : Prop where
  own : out.step.id = step.id ∧ out.step.required = step.required
  status : s.status = out.step.status
  ended : (s.status = .skipped ∧ step.required = false ∧ out.succeeded = true ∧
      (s.told = true ∧ s.unavailable = false ∨
        s.told = false ∧ (s.unavailable = true ∨ o.registered step.agent = false))) ∨
    (s.status = .failed ∧ out.succeeded = false ∧ (s.told = true → step.required = true)) ∨
    (s.status = .succeeded ∧ out.succeeded = true ∧ s.told = false)

section
variable {α β : Type} {o : Options} {step : RouteStepRow} {prior : List PriorResult} {s : Seen}

theorem leadsBind {p : Dialog α} {f : α → Dialog β} {post : Except String β → Seen → Prop}
    (leads : Leads step prior p (fun r after => match r with
      | .ok a => Leads step prior (f a) post after
      | .error error => post (.error error) after) s) : Leads step prior (p >>= f) post s :=
  safeBind leads

theorem leadsAfter {p : Dialog α} {f : α → Dialog β} {post : Except String β → Seen → Prop}
    (quiet : Asks Quiet p) (created : s.created = true)
    (rest : ∀ a, Leads step prior (f a) post s) (failed : ∀ error, post (.error error) s) :
    Leads step prior (p >>= f) post s := by
  refine leadsBind (safeMono (leadsQuiet quiet created) fun r after same => ?_)
  cases same
  cases r with
  | ok a => exact rest a
  | error error => exact failed error

theorem leadsWrite {status : RouteStepStatus} {f : Unit → Dialog β}
    {post : Except String β → Seen → Prop}
    (rest : Leads step prior (f ()) post {s with status})
    (failed : ∀ error, post (.error error) s) :
    Leads step prior (ask (.updateRouteStep step.id ⟨some status,none⟩) >>= f) post s := by
  refine leadsBind (leadsAsk rfl fun r => ?_)
  cases r with
  | ok _ => exact rest
  | error error => exact failed error

def Ends (o : Options) (step : RouteStepRow) (r : Except String StepOutcome) (after : Seen) : Prop :=
  ∀ out, r = .ok out → Finished o step after out

theorem endsError (error : String) : Ends o step (.error error) s := fun _ same => nomatch same

theorem unavailableLeads {message : String}
    (cause : s.told = true ∧ s.unavailable = false ∨
      s.told = false ∧ (s.unavailable = true ∨ o.registered step.agent = false)) :
    Leads step prior (unavailableStep step message) (Ends o step) s := by
  have published {status : RouteStepStatus} {out : StepOutcome} (input : EventInput)
      (finished : Finished o step {s with status} out) :
      Leads step prior (publish input >>= fun _ => pure out) (Ends o step) {s with status} := by
    refine leadsBind (leadsBind (leadsAsk trivial fun r => ?_))
    cases r with
    | ok _ =>
      refine leadsDone (leadsDone fun out' same => ?_)
      cases Except.ok.inj same
      exact finished
    | error error => exact endsError error
  unfold unavailableStep
  cases required : step.required with
  | false =>
    exact leadsWrite (published _ ⟨⟨rfl,required.symm⟩,rfl,.inl ⟨rfl,required,rfl,cause⟩⟩)
      endsError
  | true =>
    exact leadsWrite (published _ ⟨⟨rfl,required.symm⟩,rfl,.inr (.inl ⟨rfl,rfl,fun _ => required⟩)⟩)
      endsError

def Running (s : Seen) : Prop := s.created = true ∧ s.told = false

theorem guardLeads {m : Guarded α} {f : α → Guarded β} {progress : Progress}
    {post : Except String (Progress × Except String β) → Seen → Prop}
    (leads : Leads step prior (m progress) (fun r after => match r with
      | .ok (next,.ok a) => Leads step prior (f a next) post after
      | .ok (next,.error error) => post (.ok (next,.error error)) after
      | .error error => post (.error error) after) s) :
    Leads step prior ((m >>= f) progress) post s := by
  refine leadsBind (safeMono leads fun r after holds => ?_)
  obtain error | ⟨next,error | a⟩ := r
  · exact holds
  · exact leadsDone holds
  · exact holds

theorem guardAfter {m : Guarded α} {f : α → Guarded β} {progress : Progress}
    {post : Except String (Progress × Except String β) → Seen → Prop}
    (quiet : GuardAsks Quiet m) (created : s.created = true)
    (rest : ∀ a next, Leads step prior (f a next) post s)
    (failed : ∀ next error, post (.ok (next,.error error)) s)
    (rejected : ∀ error, post (.error error) s) :
    Leads step prior ((m >>= f) progress) post s := by
  refine guardLeads (safeMono (leadsQuiet (quiet progress) created) fun r after same => ?_)
  cases same
  obtain error | ⟨next,error | a⟩ := r
  · exact rejected error
  · exact failed next error
  · exact rest a next

def Worked (o : Options) (step : RouteStepRow) (r : Except String (Progress × Except String StepOutcome))
    (after : Seen) : Prop :=
  Running after ∧ ∀ next out, r = .ok (next,.ok out) → Finished o step after out

theorem workedFailed (running : Running s) (next : Progress) (error : String) :
    Worked o step (.ok (next,.error error)) s :=
  ⟨running,fun _ _ same => nomatch (Prod.mk.inj (Except.ok.inj same)).2⟩

theorem workedRejected (running : Running s) (error : String) :
    Worked o step (.error error) s := ⟨running,fun _ _ same => nomatch same⟩

theorem finishLeads (running : Running s) (runId : String) (worktree : WorktreeInfo)
    (result : AdapterResult) (progress : Progress) :
    Leads step prior (finishStep step runId worktree result progress) (Worked o step) s := by
  refine guardAfter (quietPatch _ _) running.1 (fun _ next => ?_) (workedFailed running)
    (workedRejected running)
  refine guardLeads (leadsBind (safeAttempt (leadsAsk rfl fun r => ?_)))
  cases r with
  | error error => exact leadsDone (workedFailed running next error)
  | ok _ =>
    refine leadsDone ?_
    have running : Running {s with status := stepStatusOf result} := running
    refine guardAfter guardProgress running.1 (fun s' next => ?_) (workedFailed running)
      (workedRejected running)
    refine guardAfter (guardTrying (quietPublish _)) running.1 (fun _ next => ?_)
      (workedFailed running) (workedRejected running)
    refine guardAfter (guardTrying (quietForget _)) running.1 (fun _ next => ?_)
      (workedFailed running) (workedRejected running)
    refine leadsDone ⟨running,fun _ out same => ?_⟩
    cases Except.ok.inj (Prod.mk.inj (Except.ok.inj same)).2
    refine ⟨⟨rfl,rfl⟩,rfl,?_⟩
    have told : s.told = false := running.2
    unfold stepStatusOf
    by_cases succeeded : result.status = .succeeded
    · exact .inr (.inr ⟨if_pos succeeded,beq_iff_eq.mpr succeeded,told⟩)
    · exact .inr (.inl ⟨if_neg succeeded,beq_eq_false_iff_ne.mpr succeeded,
        fun same => absurd (told.symm.trans same) Bool.false_ne_true⟩)

def GuardReturns (post : α → Prop) (m : Guarded α) : Prop :=
  ∀ progress, Returns (fun out : Progress × Except String α => ∀ a, out.2 = .ok a → post a) (m progress)

theorem guardReturns {m : Guarded α} {f : α → Guarded β} {post : β → Prop}
    (rest : ∀ a, GuardReturns post (f a)) : GuardReturns post (m >>= f) := fun _ =>
  returnsAfter fun (next,r) => match r with
    | .ok a => rest a next
    | .error _ => fun _ same => nomatch same

theorem guardReturnsPure {a : α} {post : α → Prop} (h : post a) :
    GuardReturns post (pure a) := fun _ a' same => by
  cases Except.ok.inj same
  exact h

theorem returnsQuiet {p : Dialog α} {post : α → Prop} (quiet : Asks Quiet p)
    (returns : Returns post p) (created : s.created = true) :
    Leads step prior p (fun r after => after = s ∧ ∀ a, r = .ok a → post a) s := by
  induction p with
  | done a =>
    refine leadsDone ⟨rfl,fun a' same => ?_⟩
    cases Except.ok.inj same
    exact returns
  | fail error => exact leadsFail ⟨rfl,fun _ same => nomatch same⟩
  | ask q next ih =>
    intro now steps
    cases noneSteps steps
    refine ⟨mayQuiet quiet.1,fun r after answered => ?_⟩
    have same : after = s := answered.trans (hearsQuiet quiet.1 created r)
    cases same
    exact ih r (quiet.2 r) (returns r)

def Prompted (task : TaskRow) (step : RouteStepRow) (prior : List PriorResult)
    (ready : WorktreeInfo × SourceRepositorySnapshot × String × String) : Prop :=
  ready.2.2.1 = buildAgentPrompt (promptPayload task ready.1.worktreePath) step.role prior

theorem preparePrompted (task : TaskRow) (step : RouteStepRow) (runId : String)
    (prior : List PriorResult) :
    GuardReturns (Prompted task step prior) (prepareAgent task step runId prior) :=
  guardReturns fun _ => guardReturns fun _ => guardReturns fun _ => guardReturns fun _ =>
    guardReturns fun _ => guardReturns fun _ => guardReturns fun _ => guardReturns fun _ =>
    guardReturns fun _ => guardReturnsPure rfl

theorem startLeads (running : Running s) (fresh : s.agents = 0) (task : TaskRow) (runId : String)
    (worktree : WorktreeInfo) (dir : String) (progress : Progress) :
    Leads step prior (startAgent task step runId worktree
      (buildAgentPrompt (promptPayload task worktree.worktreePath) step.role prior) dir progress)
      (fun _ after => Running after) s := by
  refine guardLeads (leadsBind (safeAttempt (leadsAsk ⟨fresh,rfl,rfl,rfl⟩ fun r => ?_)))
  have running : Running (s.hears (.startTask runId step.agent step.role
    (promptPayload task worktree.worktreePath) (buildAgentPrompt (promptPayload task
      worktree.worktreePath) step.role prior) worktree.worktreePath dir) r) := by
    cases r <;> exact running
  cases r with
  | error error => exact leadsDone running
  | ok reply =>
    refine leadsDone ?_
    have quiet : GuardAsks Quiet (do
        let state ← reportedStarts step runId worktree.worktreePath reply.started .none
        let adapterRun ← trying (Script.ofExcept reply.outcome)
        advance fun s => {s with adapterRun := some adapterRun}
        let _ ← persistAdapterStart step runId worktree.worktreePath adapterRun state
        trying (remember fun s => {s with
          activeRuns := mapSet runId ⟨task.id,adapterRun.id,step.agent⟩ s.activeRuns})
        trying (setPhase runId task.id .active)
        pure adapterRun : Guarded AdapterRun) :=
      guardBind (quietReported _ _ _ _ _) fun _ => guardBind (guardTrying (asksExcept _)) fun _ =>
        guardBind (guardAdvance _) fun _ => guardBind (quietAdapterStart _ _ _ _ _) fun _ =>
        guardBind (guardTrying (quietRemember fun _ => rfl)) fun _ =>
        guardBind (guardTrying (quietPhase _ _ _)) fun _ => guardPure _
    refine safeMono (leadsQuiet (quiet progress) running.1) fun r after same => ?_
    cases same
    exact running

theorem guardedLeads (running : Running s) (fresh : s.agents = 0) (task : TaskRow) (runId : String)
    (progress : Progress) :
    Leads step prior (guardedStep o task step runId prior progress) (Worked o step) s := by
  refine guardLeads (safeMono (returnsQuiet (quietPrepare task step runId prior progress)
    (preparePrompted task step runId prior progress) running.1) fun r after holds => ?_)
  obtain ⟨rfl,prompted⟩ := holds
  obtain error | ⟨next,error | ⟨worktree,snapshot,prompt,dir⟩⟩ := r
  · exact workedRejected running error
  · exact workedFailed running next error
  have same : prompt = buildAgentPrompt (promptPayload task worktree.worktreePath) step.role
    prior := prompted _ rfl _ rfl
  subst same
  refine guardLeads (safeMono (startLeads running fresh task runId worktree dir next)
    fun r after running => ?_)
  obtain error | ⟨next,error | adapterRun⟩ := r
  · exact workedRejected running error
  · exact workedFailed running next error
  refine guardAfter (quietCollect _ _ _ _ _) running.1 (fun result next => ?_)
    (workedFailed running) (workedRejected running)
  refine guardAfter guardProgress running.1 (fun s' next => ?_) (workedFailed running)
    (workedRejected running)
  refine guardAfter (guardTrying (quietIngest _ _ _ _ _)) running.1 (fun _ next => ?_)
    (workedFailed running) (workedRejected running)
  refine guardAfter (quietVerify _ _ _ _ _) running.1 (fun _ next => ?_)
    (workedFailed running) (workedRejected running)
  refine guardAfter (guardTrying (quietReview _ _)) running.1 (fun _ next => ?_)
    (workedFailed running) (workedRejected running)
  exact finishLeads running runId worktree result next

theorem quietIsolation (runId : String) (snapshot : Option SourceRepositorySnapshot)
    (message : String) : Asks Quiet (isolationMessage runId snapshot message) := by
  cases snapshot with
  | none => exact asksDone _
  | some snapshot =>
    refine asksBind (asksAttempt (asksCall trivial)) fun r => ?_
    cases r <;> exact asksDone _

theorem quietStop (runId : String) : Asks Quiet (stopActive runId) := by
  refine asksBind (quietRecall _) fun active => ?_
  cases active with
  | none => exact asksDone _
  | some active =>
    exact asksBind (asksAttempt (asksCall trivial)) fun _ => quietRemember fun _ => rfl

theorem quietEvidence (o : Options) (run : RunRow) (adapterRun : Option AdapterRun) :
    Asks Quiet (evidenceError o run adapterRun) := by
  cases adapterRun with
  | none => exact asksDone _
  | some adapterRun =>
    refine asksBind (asksAttempt (quietIngest _ _ _ _ _)) fun r => ?_
    cases r <;> exact asksDone _

theorem quietClose (run : RunRow) (message : String) : Asks Quiet (closeFailedRun run message) := by
  refine asksBind (asksBind (asksCall trivial) fun _ => asksDone _) fun current => ?_
  cases current with
  | none => exact asksDone _
  | some current =>
    dsimp only
    split
    · exact asksBind (asksCall trivial) fun _ => asksCall trivial
    · exact asksDone _

theorem quietCapture (run : RunRow) (worktree : Option WorktreeInfo) :
    Asks Quiet (captureFailed run worktree) := by
  cases worktree with
  | none => exact asksDone _
  | some worktree => exact asksBind (asksAttempt (quietReview _ _)) fun _ => asksDone _

theorem quietCaptureError (run : RunRow) (message : Option String) :
    Asks Quiet (publishCaptureError run message) := by
  cases message with
  | none => exact asksDone _
  | some message => exact quietPublish _

theorem failLeads (running : Running s) (runId : String) (progress : Progress) (error : String) :
    Leads step prior (failStep o step runId progress error) (Ends o step) s := by
  refine leadsAfter (quietStop runId) running.1 (fun _ => ?_) endsError
  refine leadsAfter (quietPhase _ _ _) running.1 (fun _ => ?_) endsError
  refine leadsAfter (quietIsolation _ _ _) running.1 (fun message => ?_) endsError
  refine leadsAfter (quietEvidence _ _ _) running.1 (fun capture => ?_) endsError
  refine leadsAfter (quietClose _ _) running.1 (fun run => ?_) endsError
  refine leadsWrite ?_ endsError
  have running : Running {s with status := .failed} := running
  refine leadsAfter (quietCapture _ _) running.1 (fun _ => ?_) endsError
  refine leadsAfter (quietPublish _) running.1 (fun _ => ?_) endsError
  refine leadsAfter (quietCaptureError _ _) running.1 (fun _ => ?_) endsError
  refine leadsAfter (quietForget _) running.1 (fun _ => ?_) endsError
  refine leadsDone fun out same => ?_
  cases Except.ok.inj same
  exact ⟨⟨rfl,rfl⟩,rfl,.inr (.inl ⟨rfl,rfl,fun same =>
    absurd (running.2.symm.trans same) Bool.false_ne_true⟩)⟩

theorem runLeads (fresh : s.created = false ∧ s.agents = 0) (untold : s.told = false)
    (task : TaskRow) (inherited : Option WorktreeInfo) :
    Leads step prior (runStep o task step prior inherited) (Ends o step) s := by
  have begun : Leads step prior (beginRun task step)
      (fun _ after => Running after ∧ after.agents = 0) s := by
    refine leadsBind (leadsAsk ⟨rfl,fresh.1⟩ fun r => ?_)
    have hears : s.hears (.createRun ⟨task.id,step.id,step.agent,step.role⟩) r =
        {s with created := true} := by cases r <;> rfl
    rw [hears]
    have running : Running {s with created := true} ∧ ({s with created := true} : Seen).agents = 0 :=
      ⟨⟨rfl,untold⟩,fresh.2⟩
    cases r with
    | error error => exact running
    | ok created =>
      refine leadsAfter (quietPhase _ _ _) rfl (fun _ => ?_) fun _ => running
      refine leadsBind (leadsAsk rfl fun r => ?_)
      cases r with
      | error error => exact running
      | ok _ =>
        have running : Running {s with created := true,status := .running} ∧
          ({s with created := true,status := .running} : Seen).agents = 0 := running
        have quiet : Asks Quiet (do
            let now ← ask .clock
            let run ← ask (.updateRun created.id (startingPatch now))
            publish (runEvent run "run.starting" .info
              s!"{step.agent.text} is starting the {step.role.text} step." none)
            pure run : Dialog RunRow) :=
          asksBind (asksCall trivial) fun _ => asksBind (asksCall trivial) fun _ =>
            asksBind (quietPublish _) fun _ => asksDone _
        refine safeMono (leadsQuiet quiet rfl) fun r after same => ?_
        cases same
        exact running
  refine leadsBind (safeMono begun fun r after holds => ?_)
  obtain ⟨running,fresh⟩ := holds
  cases r with
  | error error => exact endsError error
  | ok run =>
    refine leadsBind (safeMono (guardedLeads running fresh task run.id _) fun r after worked => ?_)
    obtain ⟨running,finished⟩ := worked
    obtain error | ⟨next,error | out⟩ := r
    · exact endsError error
    · exact failLeads running run.id next error
    · refine leadsDone fun out' same => ?_
      cases Except.ok.inj same
      exact finished next out rfl

theorem lookLeads {f : Bool → Dialog α} {post : Except String α → Seen → Prop}
    (fresh : s.created = false) (untold : s.told = false)
    (stops : Leads step prior (f true) post {s with told := true})
    (goes : Leads step prior (f false) post s) (failed : ∀ error, post (.error error) s) :
    Leads step prior (shutdownRequested >>= f) post s := by
  refine leadsBind (leadsBind (leadsAsk (fun _ => rfl) fun r => ?_))
  cases r with
  | error error => exact failed error
  | ok memory =>
    refine leadsDone ?_
    change Memory at memory
    have heard : s.hears (.memory id) (.ok memory) =
        {s with told := memory.shutdownRequested} := by
      show {s with told := s.told || (!s.created && memory.shutdownRequested)} = _
      simp only [fresh,untold,Bool.not_false,Bool.true_and,Bool.false_or]
    show Leads step prior (f memory.shutdownRequested) post (s.hears (.memory id) (.ok memory))
    rw [heard]
    cases memory.shutdownRequested with
    | true => exact stops
    | false =>
      have same : {s with told := false} = s := by rw [← untold]
      rw [same]
      exact goes

theorem executeLeads (task : TaskRow) (inherited : Option WorktreeInfo) :
    Leads step prior (executeStep o task step prior inherited) (Ends o step) .initial := by
  refine lookLeads rfl rfl (unavailableLeads (.inl ⟨rfl,rfl⟩)) ?_ endsError
  rw [if_neg Bool.false_ne_true]
  split
  next unregistered =>
    have unregistered : o.registered step.agent = false := by simpa using unregistered
    exact unavailableLeads (.inr ⟨rfl,.inr unregistered⟩)
  refine leadsBind (leadsAsk ⟨rfl,rfl⟩ fun r => ?_)
  cases r with
  | error error => exact endsError error
  | ok availability =>
    dsimp only
    split
    next unavailable => exact unavailableLeads (.inr ⟨rfl,.inl unavailable⟩)
    next available =>
      have available : Seen.initial.hears (.availability step.agent) (.ok availability) =
          .initial := by
        change AdapterAvailability at availability
        have available : availability.available = true := by simpa using available
        show {Seen.initial with unavailable := !availability.available} = _
        rw [available]
        rfl
      rw [available]
      exact lookLeads rfl rfl (unavailableLeads (.inl ⟨rfl,rfl⟩)) (runLeads ⟨rfl,rfl⟩ rfl task inherited)
        endsError

end

end ControlCenter.ExecutionQuestions
