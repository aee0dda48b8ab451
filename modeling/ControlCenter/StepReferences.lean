import ControlCenter.AttemptProgress

/-! The run that a step names. No statement checks the column: a step writes it only with a
run that it made itself, and whoever resets the step clears it. -/
namespace ControlCenter.StepReferences
open Protocol Table Db DbRuns Dialogue Reliance Ports Coordinator Operations ControlCenter.System
open CallSources Guarantees StoreHistory ExecutionQuestions Hearing StepEvidence Attempts
open EvidenceGate (Touch patched stepsOf stepsListed respondTouch)
open AttemptProgress (answerOk storedOk calmMay)

def MadeFor (stepId runId : String) (db : ControlCenterDb) : Prop :=
  ∃ run, db.runs.get runId = some run ∧ run.routeStepId = stepId

def Linked (db : ControlCenterDb) : Prop :=
  ∀ s ∈ db.routeSteps, ∀ runId, s.runId = some runId → MadeFor s.id runId db

def May (q : Question) (w : World) : Prop := match q with
  | .updateRouteStep stepId patch =>
      ∀ runId, patch.runId = some (some runId) → MadeFor stepId runId w.db
  | _ => True

def terms : Terms where
  may _ q w := May q w
  fair _ _ _ _ := True
  holds w := Sound w.db ∧ Linked w.db

section
variable {i : Who} {c : Choice} {w now after : World} {q : Question} {taskId stepId runId : String}
  {n : ThreadId} {step : RouteStepRow}

theorem MadeFor.later {db next : ControlCenterDb} (made : MadeFor stepId runId db)
    (longer : Extends db next) : MadeFor stepId runId next := by
  obtain ⟨run,held,own⟩ := made
  obtain ⟨run',found,same⟩ := keptRow (c := runColumns) (fun _ => rfl) longer.runs held
  have step := congrArg RunRow.routeStepId same
  exact ⟨run',found,Eq.trans step own⟩

theorem patchedLinked {m : Moment} {patch : StepPatch} {s : RouteStepRow}
    (linked : ∀ runId, s.runId = some runId → MadeFor s.id runId after.db)
    (may : ∀ runId, patch.runId = some (some runId) → MadeFor stepId runId after.db) :
    ∀ runId, (patched m stepId patch s).runId = some runId →
      MadeFor (patched m stepId patch s).id runId after.db := by
  unfold patched
  split
  · rename_i same
    obtain ⟨status,run⟩ := patch
    cases run with
    | none => exact linked
    | some run =>
      intro runId named
      show MadeFor s.id runId after.db
      rw [beq_iff_eq.mp same]
      exact may runId (congrArg some named)
  · exact linked

theorem touchLinked (linked : Linked w.db) (longer : Extends w.db after.db) (may : May q w)
    (touch : Touch w taskId q after) : ∀ s ∈ stepsOf taskId after.db, ∀ runId,
      s.runId = some runId → MadeFor s.id runId after.db := by
  have old (s : RouteStepRow) (inside : s ∈ stepsOf taskId w.db) (runId : String)
      (named : s.runId = some runId) : MadeFor s.id runId after.db :=
    (linked s (stepsListed inside).1 runId named).later longer
  intro s inside
  cases touch with
  | none status steps | claimed was status steps | written status steps applied
  | finalized status steps applied | approved was status steps =>
    rw [steps] at inside
    exact old s inside
  | created fresh status steps =>
    intro runId named
    rw [(steps s inside).2] at named
    cases named
  | reworked was status steps =>
    rw [steps] at inside
    obtain ⟨s',_,rfl⟩ := List.mem_map.mp inside
    exact fun _ named => by cases named
  | retried was status steps =>
    rw [steps] at inside
    obtain ⟨s',listed,rfl⟩ := List.mem_map.mp inside
    split
    · exact fun _ named => by cases named
    · exact old s' listed
  | recovered selected trail status steps =>
    rw [steps] at inside
    obtain ⟨s',listed,rfl⟩ := List.mem_map.mp inside
    split <;> exact old s' listed
  | patched held own status steps =>
    rw [steps] at inside
    obtain ⟨s',listed,rfl⟩ := List.mem_map.mp inside
    exact patchedLinked (old s' listed) fun runId named => (may runId named).later longer

theorem linkedKept (holds : Sound w.db ∧ Linked w.db) (may : May q w) :
    Sound (respond i c w q).2.db ∧ Linked (respond i c w q).2.db := by
  have grows : Grows w.db (respond i c w q).2.db := respondGrows
  refine ⟨grows.sound holds.1,fun s listed => ?_⟩
  exact touchLinked holds.2 grows.extends_ may (respondTouch holds.1) s
    (List.mem_filter.mpr ⟨listed,beq_self_eq_true _⟩)

def Made (step : RouteStepRow) (heard : Account) (w : World) : Prop :=
  ∀ runId ∈ heard.made, MadeFor step.id runId w.db

theorem madeLater {r : Except String (Answer q)} {heard : Account}
    (answered : terms.setting.answers i q now r after) (made : Made step heard now) :
    Made step heard after := by
  obtain ⟨_,c,_,answered⟩ := answered
  have grows : Grows now.db (respond i c now q).2.db := respondGrows
  rw [answered] at grows
  exact fun runId listed => (made runId listed).later grows.extends_

theorem madeMay {heard : Account} (made : Made step heard w)
    (asks : StepEvidence.MayAsk step False heard q) : May q w := by
  cases q with
  | updateRouteStep stepId patch =>
    obtain ⟨rfl,shown⟩ := asks
    intro runId named
    unfold Shown at shown
    split at shown
    · obtain ⟨own,listed,given⟩ := shown
      cases given.symm.trans named
      exact made _ listed
    · cases shown.1.symm.trans named
    · cases shown.symm.trans named
    · cases shown.1.symm.trans named
    · exact shown.elim
  | _ => trivial

theorem madeFollows {heard : Account} {r : Except String (Answer q)} (made : Made step heard now)
    (asks : StepEvidence.MayAsk step False heard q)
    (answered : terms.setting.answers i q now r after) :
    (ear step False).plain q r ∧ Made step (heard.hears q r) after := by
  have kept : Made step heard after := madeLater answered made
  obtain ⟨_,c,_,responded⟩ := answered
  cases q with
  | createRun input =>
    cases r with
    | error error => exact ⟨trivial,kept⟩
    | ok run =>
      refine ⟨trivial,fun runId listed => ?_⟩
      rcases List.mem_cons.mp listed with rfl | old
      · obtain ⟨db,performed,rfl⟩ := storedOk (answerOk responded)
        obtain ⟨rfl,_,runs,inserting,rfl⟩ := CallSources.newRunSource performed
        refine ⟨queuedRun ⟨c.now,c.uuid⟩ input (nextAttempt input.routeStepId now.db),?_,asks⟩
        show runs.get _ = _
        rw [getInsert inserting]
        exact if_pos rfl
      · exact kept runId old
  | updateRouteStep stepId patch =>
    cases r with
    | error error => exact ⟨trivial,kept⟩
    | ok done =>
      obtain ⟨status,run⟩ := patch
      cases run <;> exact ⟨trivial,kept⟩
  | updateRun runId patch =>
    cases r with
    | error error => exact ⟨trivial,kept⟩
    | ok run =>
      obtain ⟨db,performed,_⟩ := storedOk (answerOk responded)
      obtain ⟨current,held,_,rfl,_⟩ := CallSources.runSource performed
      exact ⟨(getSome.mp held).2,kept⟩
  | _ => cases r <;> exact ⟨trivial,kept⟩

theorem describes {who : Who → Prop} :
    Describes (ear step False) terms.setting who i (Made step) where
  stays _ := fun _ _ _ _ ⟨_,_,_,answered⟩ made => madeLater answered made
  may := madeMay
  follows made asks answered := madeFollows made asks answered

def rule : Rule where
  begun _ _ := True
  row _ _ := True
  listed _ steps _ := (steps.map RouteStepRow.id).Nodup
  work _ steps _ _ := (steps.map RouteStepRow.id).Nodup
  halt _ _ := True

theorem ruleKept (o : Coordinator.Options) : rule.Kept terms n o where
  rests q _ quiet := by cases q <;> trivial
  begun _ := .always
  row _ := anything _
  listed _ _ := .always
  work _ _ _ := .always
  halt _ := .always
  claims _ := trivial
  claimed _ _ _ _ := trivial
  readsRow _ _ _ _ _ := trivial
  readsSteps taskId w _ := listedDistinct taskId w.db
  opens _ _ _ _ distinct := distinct
  ready _ _ _ := trivial
  halts _ _ _ _ _ := trivial
  distinct _ _ _ _ distinct := distinct.sublist (List.filter_sublist.map _)
  blocks _ _ _ _ := trivial
  finalizes _ _ _ _ _ _ _ _ _ := trivial
  groups _ task steps sequence rest c w _ _ distinct := by
    refine ⟨unpromised,fun step _ => ?_,fun _ _ _ _ => ⟨trivial,fun _ => distinct⟩⟩
    have start : Made step .initial w := fun _ listed => absurd listed List.not_mem_nil
    exact safeMono (heardSafe describes (executeHeard False.elim _ _) start) fun _ _ _ => trivial

theorem callSafe (o : Coordinator.Options) (call : Call) (w : World) :
    SafeCrew terms.setting n (call.program o) (fun _ _ => True) w := by
  by_cases executes : call = .runNext
  · subst executes
    exact startSafe (ruleKept o)
  · refine crewCalm (calmCall o call executes) (fun q w calm => ?_) w
    cases q <;> trivial

theorem emptyLinked : Linked .empty := fun _ listed => absurd listed memEmpty

theorem termsKept (fleet : Nat → Coordinator.Options) : terms.Kept fleet where
  initial := ⟨emptySound,emptyLinked⟩
  kept _ _ _ _ holds may _ := linkedKept holds may
  memory _ _ _ := ⟨trivial,⟨0,"",none,fun _ => .error ""⟩,trivial⟩
  starts _ call w _ := callSafe _ call w

end

section
variable {fleet : Nat → Coordinator.Options} {fair : Center → Event → Prop} {s s' : Center}

theorem linkedReached (reachable : Reachable fleet fair s) : Linked s.world.db := by
  have fairly (s : Center) (e : Event) : terms.Fair s e := by
    cases e with
    | turn id pick c => exact fun _ _ _ => trivial
    | _ => trivial
  have standing : Standing terms s := standingReached (termsKept fleet) (Relation.ReflTransGen.mono
    (fun _ _ ⟨e,_,moved⟩ => ⟨e,fairly _ e,moved⟩) _ _ reachable)
  exact standing.holds.2

end

def creating : List Event :=
  .start 0 (.createTask EvidenceRevisions.reviewable)::OwnerFencing.turns 0 0 .main 0 10

def starting : List Event := .start 0 .runNext::OwnerFencing.turns 1 0 .main 10 17 ++
  OwnerFencing.turns 1 0 (.member "step_1") 27 8

def after (events : List Event) (s : Center) : Center :=
  RunLogic.reach (Guarantees.act OwnerFencing.crews) s events

end ControlCenter.StepReferences
