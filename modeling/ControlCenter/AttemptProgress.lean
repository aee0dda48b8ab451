import ControlCenter.EvidenceGate

/-! How far an attempt has got with the steps of its task. While its claim stands what is
still to come is pending and what is behind it is settled, whatever the others do. -/
namespace ControlCenter.AttemptProgress
open JsonValue Protocol Table Db DbReviews Dialogue Reliance Ports Coordinator Execution Operations
open ControlCenter.System CallSources Guarantees Interference StoreHistory
open ExecutionQuestions Hearing StepEvidence Attempts EvidenceGate
open OwnerFencing (Owns Recorded timely about applies ending respondHands ownsKept)

def Holds (n : ThreadId) (taskId : String) (P : List RouteStepRow → Prop) (w : World) : Prop :=
  n ∈ w.trail.lost ∨ (w.trail.holder taskId = some n ∧ P (stepsOf taskId w.db))

section
variable {fleet : Nat → Options} {i : Who} {c : Choice} {w now after : World} {q : Question}
  {taskId : String} {n : ThreadId} {P : List RouteStepRow → Prop} {r : Except String (Answer q)}

theorem lostStays (lost : n ∈ w.trail.lost) : n ∈ (respond i c w q).2.trail.lost := by
  have hands : OwnerFencing.Hands i w (respond i c w q).2 q := respondHands
  generalize (respond i c w q).2 = after at hands
  cases hands with
  | kept holder same rows => exact same ▸ lost
  | claimed queued row others trail => exact trail ▸ lost
  | recovered others trail => exact trail ▸ List.mem_append_left _ lost
  | left ends applied others trail => exact trail ▸ lost

theorem framed (gate : Gate fleet w) (may : May fleet i q w)
    (fair : applies w.db q = true → i.thread ∉ w.trail.lost) (recorded : Recorded fleet after)
    (touch : Touch w taskId q after) (before : w.trail.holder taskId = some n)
    (still : after.trail.holder taskId = some n) : stepsOf taskId after.db = stepsOf taskId w.db ∨
      ∃ stepId patch m, q = .updateRouteStep stepId patch ∧ i = ⟨n,some stepId⟩ ∧
        stepsOf taskId after.db = (stepsOf taskId w.db).map (patched m stepId patch) := by
  have running {now : World} (recorded : Recorded fleet now) (holds : now.trail.holder taskId = some n)
      {status : TaskStatus} (is : statusOf taskId now.db = some status) : status = .running := by
    obtain ⟨r,held,running,_⟩ := recorded taskId n holds
    rw [statusOf,held] at is
    exact (Option.some.inj is).symm.trans running
  cases touch with
  | none status steps => exact .inl steps
  | created fresh status steps => cases running recorded still status
  | claimed was status steps => exact .inl steps
  | written status steps applied => exact .inl steps
  | finalized status steps applied => exact .inl steps
  | approved was status steps => exact .inl steps
  | reworked was status steps => cases running gate.recorded before was
  | retried was status steps => cases running gate.recorded before was
  | recovered selected trail status steps => cases running recorded still status
  | @patched _ stepId patch m s held own status steps =>
    obtain ⟨owned,member,_⟩ := may
    have applied : applies w.db (.updateRouteStep stepId patch) = true := by
      rw [applies,held]
      rfl
    have owner := (owned s held).resolve_right (fair applied)
    rw [own,before] at owner
    obtain ⟨thread,key⟩ := i
    cases Option.some.inj owner
    cases member
    exact .inr ⟨stepId,patch,m,rfl,rfl,steps⟩

theorem holdsKept (gate : Gate fleet w) (may : May fleet i q w) (fair : timely i c q w)
    (apart : i ≠ ⟨n,none⟩ ∨ ending q = none)
    (patches : ∀ stepId patch m l, q = .updateRouteStep stepId patch → i = ⟨n,some stepId⟩ → P l →
      P (l.map (patched m stepId patch))) (holds : Holds n taskId P w) :
    Holds n taskId P (respond i c w q).2 := by
  rcases holds with lost | ⟨holder,held⟩
  · exact .inl (lostStays lost)
  rcases ownsKept gate.recorded may.1 fair apart (.inl holder) with still | lost
  · refine .inr ⟨still,?_⟩
    rcases turnTouch gate.sound fair with same | ⟨fair,touch⟩
    · rwa [same]
    · have recorded : Recorded fleet (respond i c w q).2 := OwnerFencing.termsKept gate.recorded may.1
      rcases framed gate may fair recorded (touch taskId) holder still with
        same | ⟨stepId,patch,m,asked,own,steps⟩
      · rwa [same]
      · rw [steps]
        exact patches stepId patch m _ asked own held
  · exact .inl lost

theorem holdsAnswer (may : May fleet i q now) (apart : i ≠ ⟨n,none⟩ ∨ ending q = none)
    (patches : ∀ stepId patch m l, q = .updateRouteStep stepId patch → i = ⟨n,some stepId⟩ → P l →
      P (l.map (patched m stepId patch)))
    (answered : (terms fleet).setting.answers i q now r after) (holds : Holds n taskId P now) :
    Holds n taskId P after := by
  obtain ⟨gate,c,fair,answered⟩ := answered
  have kept : Holds n taskId P (respond i c now q).2 := holdsKept gate may fair apart patches holds
  rwa [answered] at kept

theorem laterAnswer (answered : (terms fleet).setting.answers i q now r after) :
    Later now after := by
  obtain ⟨gate,c,_,answered⟩ := answered
  have later : Later now (respond i c now q).2 := respondLater gate.sound
  rwa [answered] at later

theorem restsEnding (rests : Rests q) : ending q = none := by
  cases q <;> first | rfl | exact rests.elim

theorem restsMay (rests : Rests q) (w : World) : May fleet i q w := by
  cases q <;> first | exact ⟨trivial,trivial⟩ | exact rests.elim

theorem holdsUpheld : Upheld (terms fleet) n (Holds n taskId P) where
  stays := by
    rintro i member now after ⟨q,r,may,answered⟩ holds
    exact holdsAnswer may (.inl (outsideApart i member))
      (fun _ _ _ _ _ own => absurd (own ▸ rfl) member) answered holds
  rests quiet holds answered := by
    exact holdsAnswer (restsMay quiet _) (.inr (restsEnding quiet)) (fun _ _ _ _ _ own => by cases own)
      answered holds

def Unmoved (moves : String → Prop) (P : List RouteStepRow → Prop) : Prop :=
  ∀ stepId patch m l, moves stepId → P l → P (l.map (patched m stepId patch))

theorem holdsDuring {keys : List String} (unmoved : Unmoved (fun id => id ∈ keys) P) :
    Stable (terms fleet).setting (during n keys) (Holds n taskId P) := by
  rintro i member now after ⟨q,r,may,answered⟩ holds
  refine holdsAnswer may (.inl (duringApart i member)) (fun stepId patch m l _ own held => ?_)
    answered holds
  subst own
  rcases member with other | ⟨key,listed,same⟩
  · exact absurd rfl other
  · cases same
    exact unmoved stepId patch m l listed held

theorem holdsBesides {key : String} (unmoved : Unmoved (fun id => id ≠ key) P) :
    Stable (terms fleet).setting (besides n key) (Holds n taskId P) := by
  rintro i member now after ⟨q,r,may,answered⟩ holds
  refine holdsAnswer may (.inl (besidesApart i member)) (fun stepId patch m l _ own held => ?_)
    answered holds
  subst own
  rcases member with other | ⟨key',apart,same⟩
  · exact absurd rfl other
  · cases same
    exact unmoved stepId patch m l apart held

theorem holdsMono {R : List RouteStepRow → Prop} (weaker : ∀ l, P l → R l)
    (holds : Holds n taskId P w) : Holds n taskId R w :=
  holds.imp id fun stands => ⟨stands.1,weaker _ stands.2⟩

theorem holdsBoth {R : List RouteStepRow → Prop} (first : Holds n taskId P w)
    (second : Holds n taskId R w) : Holds n taskId (fun l => P l ∧ R l) w := by
  rcases first with lost | ⟨holder,held⟩
  · exact .inl lost
  · exact second.imp id fun stands => ⟨holder,held,stands.2⟩

end

structure Kin (step s : RouteStepRow) : Prop where
  id : s.id = step.id
  required : s.required = step.required
  role : s.role = step.role

def Shows (step : RouteStepRow) (heard : Account) (l : List RouteStepRow) : Prop :=
  ∃ s ∈ l, Kin step s ∧ s.status = heard.status ∧
    ∀ runId, heard.run = some runId → s.runId = some runId

def Known (row : TaskRow) (w : World) : Prop :=
  ∃ r, w.db.tasks.get row.id = some r ∧ r.verificationCommand = row.verificationCommand

structure Tells (n : ThreadId) (row : TaskRow) (step : RouteStepRow) (heard : Account)
    (w : World) : Prop where
  known : Known row w
  made : ∀ id ∈ heard.made, ∃ run, w.db.runs.get id = some run ∧ run.routeStepId = step.id
  collected : heard.collected = true → ∀ id, heard.run = some id → id ∈ w.trail.collected
  checked : heard.checked = true → ∀ id, heard.run = some id → id ∈ w.trail.checked
  verified : heard.verified = true → ∀ id, heard.run = some id → Verified w.db id
  stands : Holds n row.id (Shows step heard) w

def Needs (row : TaskRow) (step : RouteStepRow) : Prop :=
  step.role = .execute ∧ (nonempty row.verificationCommand).isSome = true

section
variable {fleet : Nat → Options} {i : Who} {c : Choice} {w now after : World} {q : Question}
  {taskId : String} {n : ThreadId} {row : TaskRow} {step : RouteStepRow} {heard : Account}
  {l : List RouteStepRow} {m : Moment} {patch : StepPatch} {stepId : String}

theorem patchedKin {s : RouteStepRow} (kin : Kin step s) : Kin step (patched m stepId patch s) := by
  unfold patched
  split
  · exact ⟨kin.id,kin.required,kin.role⟩
  · exact kin

theorem showsUnmoved : Unmoved (fun id => id ≠ step.id) (Shows step heard) := by
  rintro stepId patch m l apart ⟨s,listed,kin,shown⟩
  have still : patched m stepId patch s = s :=
    if_neg fun same => apart ((beq_iff_eq.mp same).symm.trans kin.id)
  exact ⟨s,List.mem_map.mpr ⟨s,listed,still⟩,kin,shown⟩

theorem Known.later (known : Known row w) (later : Later w after) : Known row after := by
  obtain ⟨r,held,same⟩ := known
  obtain ⟨r',found,kept⟩ := later.task held
  exact ⟨r',found,kept.trans same⟩

theorem Tells.later (tells : Tells n row step heard w) (later : Later w after)
    (stands : Holds n row.id (Shows step heard) after) : Tells n row step heard after where
  known := tells.known.later later
  made id listed := later.run (tells.made id listed)
  collected held id linked := later.seen.collected (tells.collected held id linked)
  checked held id linked := later.seen.checked (tells.checked held id linked)
  verified held id linked := later.verified (tells.verified held id linked)
  stands := stands

theorem tellsStays : Stable (terms fleet).setting (besides n step.id) (Tells n row step heard) := by
  rintro i member w after ⟨q,r,may,answered⟩ tells
  exact tells.later (laterAnswer answered)
    (holdsBesides showsUnmoved i member w after ⟨q,r,may,answered⟩ tells.stands)

theorem Tells.stored (tells : Tells n row step heard w) (kept : n ∉ w.trail.lost) :
    w.trail.holder row.id = some n ∧ ∃ s, w.db.routeSteps.get step.id = some s ∧
      s.taskId = row.id ∧ Kin step s ∧ s.status = heard.status ∧
      ∀ runId, heard.run = some runId → s.runId = some runId := by
  obtain ⟨holder,s,inside,kin,shown⟩ := tells.stands.resolve_left kept
  obtain ⟨listed,own⟩ := stepsListed inside
  exact ⟨holder,s,getSome.mpr ⟨listed,kin.id⟩,own,kin,shown⟩

theorem Tells.needs (tells : Tells n row step heard w) {s : RouteStepRow} (own : s.taskId = row.id)
    (kin : Kin step s) (demands : Demands w.db s) : Needs row step := by
  obtain ⟨role,r,found,command⟩ := demands
  obtain ⟨r',held,same⟩ := tells.known
  rw [own,held] at found
  cases Option.some.inj found
  exact ⟨kin.role.symm.trans role,same ▸ command⟩

theorem tellsMay (tells : Tells n row step heard w) (asks : StepEvidence.MayAsk step (Needs row step) heard q) :
    May fleet ⟨n,some step.id⟩ q w := by
  cases q with
  | updateRouteStep stepId patch =>
    obtain ⟨rfl,shown⟩ := asks
    refine ⟨fun s found => ?_,rfl,fun kept s found => ?_⟩
    · by_cases lost : n ∈ w.trail.lost
      · exact .inr lost
      · obtain ⟨holder,s',held,own,_⟩ := tells.stored lost
        cases Option.some.inj (held.symm.trans found)
        exact .inl (own ▸ holder)
    · obtain ⟨holder,s',held,own,kin,_,linked⟩ := tells.stored kept
      cases Option.some.inj (held.symm.trans found)
      unfold Shown at shown
      unfold Supported
      split
      · trivial
      · trivial
      next skipped =>
        rw [skipped] at shown
        exact kin.required.trans shown.2
      next succeeded =>
        rw [succeeded] at shown
        obtain ⟨same,⟨runId,made,run⟩,checked,verified⟩ := shown
        exact ⟨same,runId,linked runId run,kin.id ▸ tells.made runId made,
          tells.checked checked runId run,fun demands =>
            tells.verified (verified (tells.needs own kin demands)) runId run⟩
      next other running failed skipped succeeded =>
        split at shown
        next is => exact absurd is running
        next is => exact absurd is succeeded
        next is => exact absurd is failed
        next is => exact absurd is skipped
        next => exact shown
  | claimNextTask | updateTaskStatus | finalizeTaskExecution => exact asks.elim
  | _ => exact ⟨trivial,trivial⟩

theorem answerOk {a : Answer q} (h : respond i c w q = (.ok a,after)) :
    answer i c w q = (.ok a,after) := by
  unfold respond at h
  split at h
  · split at h
    · cases (Prod.mk.inj h).1
    · exact h
  · exact h

theorem storedOk {α : Type} {note : α → Trail} {r : Outcome (α × ControlCenterDb)} {a : α}
    (h : stored w note r = (.ok a,after)) :
    ∃ db, r = .ok (a,db) ∧ after = {w with db, trail := note a} := by
  obtain error | ⟨held,db⟩ := r
  · cases (Prod.mk.inj h).1
  · obtain ⟨same,rfl⟩ := Prod.mk.inj h
    cases Except.ok.inj same
    exact ⟨db,rfl,rfl⟩

theorem writtenOk {note : Trail} {r : Outcome ControlCenterDb} {a : Unit}
    (h : written w note r = (.ok a,after)) :
    ∃ db, r = .ok db ∧ after = {w with db, trail := note} := by
  obtain error | db := r
  · cases (Prod.mk.inj h).1
  · exact ⟨db,rfl,(Prod.mk.inj h).2.symm⟩

theorem repliedOk {α : Type} {note : α → Trail} {r : Except String α} {a : α}
    (h : replied w note r = (.ok a,after)) : after = {w with trail := note a} := by
  obtain error | held := r
  · cases (Prod.mk.inj h).1
  · obtain ⟨same,rfl⟩ := Prod.mk.inj h
    cases Except.ok.inj same
    rfl

theorem patchFailed {error : String}
    (h : respond i c w (.updateRouteStep stepId patch) = (.error error,after)) : after = w := by
  unfold respond at h
  split at h
  · exact (Prod.mk.inj h).2.symm
  · have outcome : written w w.trail (Db.updateRouteStep ⟨c.now,c.uuid⟩ stepId patch w.db) =
      (.error error,after) := h
    generalize Db.updateRouteStep ⟨c.now,c.uuid⟩ stepId patch w.db = result at outcome
    obtain error | db := result
    · exact (Prod.mk.inj outcome).2.symm
    · cases (Prod.mk.inj outcome).1

theorem patchOk (taskId : String) {a : Unit}
    (h : respond i c w (.updateRouteStep stepId patch) = (.ok a,after)) :
    after.trail = w.trail ∧ stepsOf taskId after.db =
      (stepsOf taskId w.db).map (patched ⟨c.now,c.uuid⟩ stepId patch) := by
  obtain ⟨db,performed,rfl⟩ := writtenOk (answerOk h)
  obtain ⟨s,held,rfl⟩ := stepSource performed
  exact ⟨rfl,stepsOwn (fun s => s.id == stepId) (patch.apply ⟨c.now,c.uuid⟩) (fun _ => rfl) rfl
    taskId fun _ _ _ => rfl⟩

theorem showsPatched (shows_ : Shows step heard l) : Shows step
    (heard.hears (.updateRouteStep step.id patch) (.ok ())) (l.map (patched m step.id patch)) := by
  obtain ⟨s,listed,kin,status,linked⟩ := shows_
  refine ⟨patched m step.id patch s,List.mem_map_of_mem listed,patchedKin kin,?_⟩
  rw [patched,if_pos (beq_iff_eq.mpr kin.id)]
  obtain ⟨given,run⟩ := patch
  cases run with
  | none => exact ⟨congrArg given.getD status,linked⟩
  | some run => exact ⟨congrArg given.getD status,fun _ same => same⟩

theorem tellsPatched (tells : Tells n row step heard now)
    (shown : Shown step (Needs row step) heard patch) {r : Except String Unit}
    (answered : (terms fleet).setting.answers ⟨n,some step.id⟩ (.updateRouteStep step.id patch) now r
      after) : Tells n row step (heard.hears (.updateRouteStep step.id patch) r) after := by
  have later := laterAnswer answered
  obtain ⟨gate,c,fair,answered⟩ := answered
  cases r with
  | error error =>
    have same := patchFailed answered
    exact same ▸ tells
  | ok done =>
    have stands : Holds n row.id (Shows step (heard.hears (.updateRouteStep step.id patch) (.ok ())))
        after := by
      obtain ⟨trail,steps⟩ := patchOk row.id answered
      unfold Holds
      rw [trail,steps]
      exact tells.stands.imp id fun ⟨holder,held⟩ => ⟨holder,showsPatched held⟩
    have made (id : String) (listed : id ∈ heard.made) := later.run (tells.made id listed)
    obtain ⟨given,run⟩ := patch
    cases run with
    | none => exact ⟨tells.known.later later,made,
        fun held id linked => later.seen.collected (tells.collected held id linked),
        fun held id linked => later.seen.checked (tells.checked held id linked),
        fun held id linked => later.verified (tells.verified held id linked),stands⟩
    | some run => exact ⟨tells.known.later later,made,nofun,nofun,nofun,stands⟩

theorem tellsMade (tells : Tells n row step heard after) {input : CreateRunInput} {run : RunRow}
    (own : input.routeStepId = step.id)
    (h : respond i c now (.createRun input) = (.ok run,after)) :
    Tells n row step (heard.hears (.createRun input) (.ok run)) after := by
  obtain ⟨db,performed,rfl⟩ := storedOk (answerOk h)
  obtain ⟨rfl,_,runs,inserting,rfl⟩ := newRunSource performed
  refine ⟨tells.known,fun id listed => ?_,tells.collected,tells.checked,tells.verified,tells.stands⟩
  rcases List.mem_cons.mp listed with rfl | old
  · refine ⟨queuedRun ⟨c.now,c.uuid⟩ input (nextAttempt input.routeStepId now.db),?_,own⟩
    show runs.get _ = _
    rw [getInsert inserting]
    exact if_pos rfl
  · exact tells.made id old

theorem tellsCollected (tells : Tells n row step heard after) {runId adapterRunId : String}
    {agent : AgentKind} {result : AdapterResult}
    (h : respond i c now (.collectResult runId agent adapterRunId) = (.ok result,after)) :
    Tells n row step (heard.hears (.collectResult runId agent adapterRunId) (.ok result)) after := by
  have same := repliedOk (answerOk h)
  refine ⟨tells.known,tells.made,fun held id linked => ?_,tells.checked,tells.verified,tells.stands⟩
  rcases Bool.or_eq_true_iff.mp held with before | new
  · exact tells.collected before id linked
  · have own : id = runId := Option.some.inj (linked.symm.trans (beq_iff_eq.mp new))
    rw [same,own]
    exact List.mem_cons_self

theorem tellsChecked (tells : Tells n row step heard after) {runId : String}
    {snapshot : SourceRepositorySnapshot} {a : Unit}
    (h : respond i c now (.assertSourceUnchanged runId snapshot) = (.ok a,after)) :
    Tells n row step (heard.hears (.assertSourceUnchanged runId snapshot) (.ok a)) after := by
  have same := repliedOk (answerOk h)
  refine ⟨tells.known,tells.made,tells.collected,fun held id linked => ?_,tells.verified,tells.stands⟩
  rcases Bool.or_eq_true_iff.mp held with before | new
  · exact tells.checked before id linked
  · obtain ⟨collected,new⟩ := Bool.and_eq_true_iff.mp new
    have own : id = runId := Option.some.inj (linked.symm.trans (beq_iff_eq.mp new))
    have listed := tells.collected collected id linked
    have trail : after.trail = now.trail.check runId := congrArg World.trail same
    have still : after.trail.collected = now.trail.collected := by
      rw [trail]
      unfold Trail.check
      split <;> rfl
    rw [still,own] at listed
    rw [trail,own,Trail.check,if_pos listed]
    exact List.mem_cons_self

theorem tellsVerified (tells : Tells n row step heard after) {input : EventInput} {a : Unit}
    (h : respond i c now (.appendEvent input) = (.ok a,after)) :
    Tells n row step (heard.hears (.appendEvent input) (.ok a)) after := by
  obtain ⟨db,performed,rfl⟩ := writtenOk (answerOk h)
  cases eventSource performed
  refine ⟨tells.known,tells.made,tells.collected,tells.checked,fun held id linked => ?_,tells.stands⟩
  rcases Bool.or_eq_true_iff.mp held with before | new
  · exact tells.verified before id linked
  · obtain ⟨published,new⟩ := Bool.and_eq_true_iff.mp new
    obtain ⟨type,_⟩ := Bool.and_eq_true_iff.mp published
    refine ⟨_,List.mem_append_right _ List.mem_cons_self,?_,beq_iff_eq.mp type⟩
    exact (beq_iff_eq.mp new).symm.trans linked

theorem tellsFollows (tells : Tells n row step heard now)
    (asks : StepEvidence.MayAsk step (Needs row step) heard q) {r : Except String (Answer q)}
    (answered : (terms fleet).setting.answers ⟨n,some step.id⟩ q now r after) :
    (ear step (Needs row step)).plain q r ∧ Tells n row step (heard.hears q r) after := by
  have may : May fleet ⟨n,some step.id⟩ q now := tellsMay tells asks
  have later := laterAnswer answered
  have kept (other : ∀ stepId patch, q ≠ .updateRouteStep stepId patch) :
      Tells n row step heard after :=
    tells.later later (holdsAnswer may (.inl (by simp)) (fun stepId patch _ _ same _ =>
      absurd same (other stepId patch)) answered tells.stands)
  have ⟨_,c,_,responded⟩ := answered
  cases q with
  | updateRouteStep stepId patch =>
    obtain ⟨rfl,shown⟩ := asks
    exact ⟨trivial,tellsPatched tells shown answered⟩
  | createRun input =>
    have kept := kept nofun
    cases r with
    | error error => exact ⟨trivial,kept⟩
    | ok run => exact ⟨trivial,tellsMade kept asks responded⟩
  | collectResult runId agent adapterRunId =>
    have kept := kept nofun
    cases r with
    | error error => exact ⟨trivial,kept⟩
    | ok result => exact ⟨trivial,tellsCollected kept responded⟩
  | assertSourceUnchanged runId snapshot =>
    have kept := kept nofun
    cases r with
    | error error => exact ⟨trivial,kept⟩
    | ok a => exact ⟨trivial,tellsChecked kept responded⟩
  | appendEvent input =>
    have kept := kept nofun
    cases r with
    | error error => exact ⟨trivial,kept⟩
    | ok a => exact ⟨trivial,tellsVerified kept responded⟩
  | updateRun runId patch =>
    have kept := kept nofun
    cases r with
    | error error => exact ⟨trivial,kept⟩
    | ok run =>
      obtain ⟨db,performed,_⟩ := storedOk (answerOk responded)
      obtain ⟨current,held,_,rfl,_⟩ := runSource performed
      exact ⟨(getSome.mp held).2,kept⟩
  | _ =>
    have kept := kept nofun
    cases r <;> exact ⟨trivial,kept⟩

theorem describes : Describes (ear step (Needs row step)) (terms fleet).setting (besides n step.id)
    ⟨n,some step.id⟩ (Tells n row step) where
  stays _ := tellsStays
  may tells asks := tellsMay tells asks
  follows tells asks answered := tellsFollows tells asks answered

end

def Opened (l : List RouteStepRow) : Prop := ∀ s ∈ l, s.status = .pending ∨ Settled s

def Idle (l : List RouteStepRow) : Prop := ∀ s ∈ l, s.status ≠ .running

def Same (steps l : List RouteStepRow) : Prop := ∀ s, s ∈ l ↔ s ∈ steps

def Due (rest : List Nat) (step : RouteStepRow) : Prop :=
  step.status = .pending ∧ step.sequence ∈ rest

structure Reached (steps : List RouteStepRow) (busy : List String) (rest : List Nat)
    (l : List RouteStepRow) : Prop where
  known : ∀ s ∈ l, ∃ step ∈ steps, Kin step s
  kept : ∀ step ∈ steps, ∃ s ∈ l, Kin step s
  due : ∀ step ∈ steps, step.id ∉ busy → ∀ s ∈ l, s.id = step.id → Due rest step →
    s.status = .pending
  behind : ∀ step ∈ steps, step.id ∉ busy → ∀ s ∈ l, s.id = step.id → ¬Due rest step → Settled s

def Left (step : RouteStepRow) (l : List RouteStepRow) (out : StepOutcome) : Prop :=
  out.step.required = step.required ∧ ∀ s ∈ l, s.id = step.id → s.required = step.required ∧
    ((s.status = .succeeded ∧ out.succeeded = true) ∨
      (s.status = .failed ∧ out.succeeded = false) ∨
      (s.status = .skipped ∧ step.required = false))

section
variable {steps l : List RouteStepRow} {busy : List String} {rest : List Nat} {sequence : Nat}
  {step s : RouteStepRow}

theorem settledIdle (settled : Settled s) : s.status ≠ .running := by
  rcases settled with succeeded | ⟨_,failed | skipped⟩
  · rw [succeeded]; decide
  · rw [failed]; decide
  · rw [skipped]; decide

theorem planUnique (distinct : (steps.map RouteStepRow.id).Nodup) (one : step ∈ steps)
    (two : s ∈ steps) (same : step.id = s.id) : step = s :=
  List.inj_on_of_nodup_map distinct one two same

theorem reachedOpened (distinct : (steps.map RouteStepRow.id).Nodup) (opened : Opened l)
    (same : Same steps l) : Reached steps [] (sequencesOf (pendingOf steps)) l where
  known s listed := ⟨s,(same s).mp listed,rfl,rfl,rfl⟩
  kept step listed := ⟨step,(same step).mpr listed,rfl,rfl,rfl⟩
  due step listed _ s inside own due := by
    cases planUnique distinct listed ((same s).mp inside) own.symm
    exact due.1
  behind step listed _ s inside own behind := by
    cases planUnique distinct listed ((same s).mp inside) own.symm
    refine (opened step inside).resolve_left fun pending => behind ⟨pending,?_⟩
    exact StepOrder.sequenceListed.mpr ⟨step,List.mem_filter.mpr ⟨listed,beq_iff_eq.mpr pending⟩,rfl⟩

theorem reachedUnmoved : Unmoved (fun id => id ∈ busy) (Reached steps busy rest) := by
  intro stepId patch m l inside reached
  have still (step : RouteStepRow) (free : step.id ∉ busy) (old : RouteStepRow)
      (own : (patched m stepId patch old).id = step.id) : patched m stepId patch old = old := by
    refine if_neg fun same => free ?_
    rw [patched,if_pos same] at own
    exact own ▸ beq_iff_eq.mp same ▸ inside
  refine ⟨fun s listed => ?_,fun step listed => ?_,fun step listed free s moved own due => ?_,
    fun step listed free s moved own behind => ?_⟩
  · obtain ⟨old,there,rfl⟩ := List.mem_map.mp listed
    obtain ⟨step,planned,kin⟩ := reached.known old there
    exact ⟨step,planned,patchedKin kin⟩
  · obtain ⟨old,there,kin⟩ := reached.kept step listed
    exact ⟨_,List.mem_map_of_mem there,patchedKin kin⟩
  · obtain ⟨old,there,rfl⟩ := List.mem_map.mp moved
    have same := still step free old own
    rw [same] at own ⊢
    exact reached.due step listed free old there own due
  · obtain ⟨old,there,rfl⟩ := List.mem_map.mp moved
    have same := still step free old own
    rw [same] at own ⊢
    exact reached.behind step listed free old there own behind

theorem reachedBusy (reached : Reached steps [] rest l) : Reached steps busy rest l where
  known := reached.known
  kept := reached.kept
  due step listed _ := reached.due step listed List.not_mem_nil
  behind step listed _ := reached.behind step listed List.not_mem_nil

theorem reachedIdle (reached : Reached steps busy rest l) (planned : step ∈ steps)
    (free : step.id ∉ busy) (listed : s ∈ l) (own : s.id = step.id) : s.status ≠ .running := by
  by_cases due : Due rest step
  · rw [reached.due step planned free s listed own due]
    decide
  · exact settledIdle (reached.behind step planned free s listed own due)

theorem leftIdle {out : StepOutcome} (left : Left step l out) (listed : s ∈ l)
    (own : s.id = step.id) : s.status ≠ .running := by
  rcases (left.2 s listed own).2 with ⟨is,_⟩ | ⟨is,_⟩ | ⟨is,_⟩ <;> rw [is] <;> decide

theorem leftSettled {out : StepOutcome} (left : Left step l out)
    (passed : ¬(out.step.required && !out.succeeded) = true) (listed : s ∈ l)
    (own : s.id = step.id) : Settled s := by
  obtain ⟨required,rows⟩ := left
  obtain ⟨same,succeeded | ⟨failed,missed⟩ | ⟨skipped,optional⟩⟩ := rows s listed own
  · exact .inl succeeded.1
  · rw [required,missed,Bool.not_false,Bool.and_true,Bool.not_eq_true] at passed
    exact .inr ⟨same.trans passed,.inl failed⟩
  · exact .inr ⟨same.trans optional,.inr skipped⟩

theorem groupListed : step ∈ group (pendingOf steps) sequence ↔
    step ∈ steps ∧ step.status = .pending ∧ step.sequence = sequence := by
  unfold group pendingOf
  rw [List.mem_filter,List.mem_filter,beq_iff_eq,beq_iff_eq,and_assoc]

theorem groupIdle (reached : Reached steps ((group (pendingOf steps) sequence).map RouteStepRow.id)
      (sequence::rest) l)
    (each : ∀ step ∈ group (pendingOf steps) sequence, ∃ out, Left step l out) : Idle l := by
  intro s listed
  obtain ⟨step,planned,kin⟩ := reached.known s listed
  by_cases inside : step.id ∈ (group (pendingOf steps) sequence).map RouteStepRow.id
  · obtain ⟨member,grouped,same⟩ := List.mem_map.mp inside
    obtain ⟨out,left⟩ := each member grouped
    exact leftIdle left listed (kin.id.trans same.symm)
  · exact reachedIdle reached planned inside listed kin.id

theorem groupPassed (distinct : (steps.map RouteStepRow.id).Nodup) (later : sequence ∉ rest)
    (reached : Reached steps ((group (pendingOf steps) sequence).map RouteStepRow.id)
      (sequence::rest) l)
    (each : ∀ step ∈ group (pendingOf steps) sequence, ∃ out, Left step l out ∧
      ¬(out.step.required && !out.succeeded) = true) : Reached steps [] rest l := by
  refine ⟨reached.known,reached.kept,fun step planned _ s listed own due => ?_,
    fun step planned _ s listed own behind => ?_⟩
  · refine reached.due step planned (fun inside => ?_) s listed own ⟨due.1,List.mem_cons_of_mem _ due.2⟩
    obtain ⟨member,grouped,same⟩ := List.mem_map.mp inside
    obtain ⟨there,_,at_⟩ := groupListed.mp grouped
    cases planUnique distinct planned there same.symm
    exact later (at_ ▸ due.2)
  · by_cases inside : step.id ∈ (group (pendingOf steps) sequence).map RouteStepRow.id
    · obtain ⟨member,grouped,same⟩ := List.mem_map.mp inside
      obtain ⟨out,left,passed⟩ := each member grouped
      exact leftSettled left passed listed (own.trans same.symm)
    · refine reached.behind step planned inside s listed own fun ⟨pending,due⟩ => ?_
      rcases List.mem_cons.mp due with here | further
      · exact inside (List.mem_map_of_mem (groupListed.mpr ⟨planned,pending,here⟩))
      · exact behind ⟨pending,further⟩

end

def rule (n : ThreadId) : Rule where
  begun taskId := Holds n taskId Opened
  row := Known
  listed taskId steps w := (steps.map RouteStepRow.id).Nodup ∧ Holds n taskId (Same steps) w
  work taskId steps rest w := ((steps.map RouteStepRow.id).Nodup ∧ rest.Nodup) ∧
    Holds n taskId (Reached steps [] rest) w
  halt taskId := Holds n taskId Idle

section
variable {fleet : Nat → Options} {w now after : World} {taskId : String} {n : ThreadId}
  {row task : TaskRow} {steps : List RouteStepRow} {rest : List Nat} {sequence : Nat} {c : Carried}
  {P : List RouteStepRow → Prop} {who : Who → Prop}

theorem holdsOwns (holds : Holds n taskId P w) : Owns w taskId n := by
  rcases holds with lost | ⟨holder,_⟩
  · exact .inr lost
  · exact .inl holder

theorem knownStays : Stable (terms fleet).setting who (Known row) := by
  rintro i _ w after ⟨q,r,_,answered⟩ known
  exact known.later (laterAnswer answered)

theorem claimOpened {workerId : String} (answered : (terms fleet).setting.answers ⟨n,none⟩
    (.claimNextTask workerId) now (.ok (some taskId)) after) : Holds n taskId Opened after := by
  obtain ⟨gate,c,_,responded⟩ := answered
  obtain ⟨db,performed,rfl⟩ := storedOk (answerOk responded)
  rcases claimSource performed with ⟨none_,_⟩ | ⟨task,listed,queued,same,events,rfl⟩
  · cases none_
  cases Option.some.inj same
  refine .inr ⟨if_pos rfl,fun s inside => ?_⟩
  have held : now.db.tasks.get task.id = some task := getMem listed
  have fits := (gate.steps task.id task held s inside).fits
  rw [queued] at fits
  exact fits

theorem sameListed : Same (listRouteSteps taskId w.db) (stepsOf taskId w.db) := fun _ =>
  (List.mem_insertionSort stepOrder).symm

theorem reachedAll (reached : Reached steps [] [] (stepsOf taskId w.db)) :
    ∀ s ∈ stepsOf taskId w.db, Settled s := by
  intro s listed
  obtain ⟨step,planned,kin⟩ := reached.known s listed
  exact reached.behind step planned List.not_mem_nil s listed kin.id fun due =>
    absurd due.2 List.not_mem_nil

theorem reachedStart (reached : Reached steps [] (sequence::rest) (stepsOf taskId w.db))
    {step : RouteStepRow} (grouped : step ∈ group (pendingOf steps) sequence) :
    Shows step .initial (stepsOf taskId w.db) := by
  obtain ⟨planned,pending,at_⟩ := groupListed.mp grouped
  obtain ⟨s,listed,kin⟩ := reached.kept step planned
  refine ⟨s,listed,kin,?_,fun _ same => by cases same⟩
  exact reached.due step planned List.not_mem_nil s listed kin.id
    ⟨pending,List.mem_cons.mpr (.inl at_)⟩

theorem tellsLeft {step : RouteStepRow} {heard : Account} {out : StepOutcome}
    (tells : Tells n row step heard w) (ended : Ended step heard out) (kept : n ∉ w.trail.lost) :
    Left step (stepsOf row.id w.db) out := by
  obtain ⟨_,s,held,_,kin,status,_⟩ := tells.stored kept
  refine ⟨ended.required,fun s' listed own => ?_⟩
  have found : w.db.routeSteps.get step.id = some s' := getSome.mpr ⟨(stepsListed listed).1,own⟩
  cases Option.some.inj (held.symm.trans found)
  rw [status]
  exact ⟨kin.required,ended.status⟩

theorem nonemptyTwice (s : Option String) : nonempty (nonempty s) = nonempty s := by
  unfold Db.nonempty
  rw [Option.filter_filter]
  exact congrArg s.filter (funext fun _ => Bool.and_self _)

theorem pairedLeft {α β : Type} {R : α → β → Prop} {xs : List α} {ys : List β}
    (pairs : List.Forall₂ R xs ys) {x : α} (listed : x ∈ xs) : ∃ y ∈ ys, R x y := by
  induction pairs with
  | nil => exact absurd listed List.not_mem_nil
  | cons related _ ih =>
    rcases List.mem_cons.mp listed with rfl | further
    · exact ⟨_,List.mem_cons_self,related⟩
    · obtain ⟨y,there,related⟩ := ih further
      exact ⟨y,List.mem_cons_of_mem _ there,related⟩

theorem memberSafe (o : Options) (told : Told row task) (known : Known row w)
    (work : (rule n).work task.id steps (sequence::rest) w) {step : RouteStepRow}
    (grouped : step ∈ group (pendingOf steps) sequence) :
    Safe (terms fleet).setting (besides n step.id) ⟨n,some step.id⟩
      (executeStep o task step c.priorResults c.inheritedWorktree)
      (fun r after => ∃ last, Tells n row step last after ∧ Ends step r last) w := by
  have asks : Needs row step → step.role = .execute ∧
      (nonempty task.verificationCommand).isSome = true := fun ⟨role,command⟩ => by
    refine ⟨role,?_⟩
    rwa [told.verification,nonemptyTwice]
  have start : Tells n row step .initial w := ⟨known,fun _ listed => absurd listed List.not_mem_nil,
    nofun,nofun,nofun,told.id ▸ work.2.imp id fun ⟨holder,reached⟩ =>
      ⟨holder,reachedStart reached grouped⟩⟩
  exact heardSafe describes (executeHeard asks _ _) start

theorem groupGrouped (o : Options) (told : Told row task) (known : Known row w)
    (work : (rule n).work task.id steps (sequence::rest) w) :
    (rule n).Grouped (terms fleet) n o task steps (group (pendingOf steps) sequence) rest c w := by
  obtain ⟨⟨distinct,rises⟩,reached⟩ := work
  refine ⟨fun key r after => ∀ step ∈ group (pendingOf steps) sequence, step.id = key →
      ∃ last, Tells n row step last after ∧ Ends step r last,fun step grouped => ?_,
    fun after all acts outcomes => ?_⟩
  · refine safeMono (memberSafe o told known ⟨⟨distinct,rises⟩,reached⟩ grouped) ?_
    intro r after ended step' grouped' same
    cases planUnique distinct (groupListed.mp grouped').1 (groupListed.mp grouped).1 same
    exact ended
  · have reached : Holds n task.id (Reached steps ((group (pendingOf steps) sequence).map
        RouteStepRow.id) (sequence::rest)) after :=
      stableSteps (holdsDuring reachedUnmoved) acts (holdsMono (fun _ => reachedBusy) reached)
    have each (kept : n ∉ after.trail.lost) (step : RouteStepRow)
        (grouped : step ∈ group (pendingOf steps) sequence) :
        ∃ out ∈ all, Left step (stepsOf task.id after.db) out := by
      obtain ⟨out,returned,ended⟩ := pairedLeft outcomes (List.mem_map_of_mem grouped)
      obtain ⟨last,tells,ended⟩ := ended step grouped rfl
      exact ⟨out,returned,told.id ▸ tellsLeft tells (ended out rfl) kept⟩
    by_cases lost : n ∈ after.trail.lost
    · exact ⟨.inl lost,fun _ => ⟨⟨distinct,(List.nodup_cons.mp rises).2⟩,.inl lost⟩⟩
    obtain ⟨holder,reached⟩ := reached.resolve_left lost
    refine ⟨.inr ⟨holder,groupIdle reached fun step grouped => ?_⟩,fun passed =>
      ⟨⟨distinct,(List.nodup_cons.mp rises).2⟩,.inr ⟨holder,?_⟩⟩⟩
    · obtain ⟨out,_,left⟩ := each lost step grouped
      exact ⟨out,left⟩
    · refine groupPassed distinct (List.nodup_cons.mp rises).1 reached fun step grouped => ?_
      obtain ⟨out,returned,left⟩ := each lost step grouped
      exact ⟨out,left,List.find?_eq_none.mp passed out returned⟩

theorem ruleKept (fleet : Nat → Options) (n : ThreadId) :
    (rule n).Kept (terms fleet) n (fleet n.process) where
  rests _ w quiet := restsMay quiet w
  begun _ := holdsUpheld
  row _ := knownStays
  listed _ _ := Upheld.always.both holdsUpheld
  work _ _ _ := Upheld.always.both holdsUpheld
  halt _ := holdsUpheld
  claims _ := ⟨rfl,trivial⟩
  claimed _ _ _ answered := claimOpened answered
  readsRow taskId row w _ held := by
    have own : row.id = taskId := (getSome.mp held).2
    exact ⟨row,own ▸ held,rfl⟩
  readsSteps taskId w begun :=
    ⟨listedDistinct taskId w.db,begun.imp id fun ⟨holder,_⟩ => ⟨holder,sameListed⟩⟩
  opens _ steps _ begun listed := by
    refine ⟨⟨listed.1,(StepOrder.sequencesRise _).imp ne_of_lt⟩,?_⟩
    exact holdsMono (fun l both => reachedOpened listed.1 both.1 both.2) (holdsBoth begun listed.2)
  ready _ _ begun := holdsMono (fun l opened s listed => by
    rcases opened s listed with pending | settled
    · rw [pending]
      decide
    · exact settledIdle settled) begun
  halts _ steps rest _ work := holdsMono (fun l reached s listed => by
    obtain ⟨step,planned,kin⟩ := reached.known s listed
    exact reachedIdle reached planned List.not_mem_nil listed kin.id) work.2
  distinct _ _ _ _ work := work.1.1.sublist (List.filter_sublist.map _)
  blocks _ _ w halt := ⟨⟨rfl,holdsOwns halt⟩,rfl,fun kept => (halt.resolve_left kept).2⟩
  finalizes _ steps row _ _ w work _ _ := by
    refine ⟨⟨rfl,holdsOwns work.2⟩,fun kept => reachedAll (work.2.resolve_left kept).2⟩
  groups _ _ _ _ _ _ _ known told work := groupGrouped _ told known work

theorem calmMay {i : Who} {q : Question} (calm : Calm q) (w : World) : May fleet i q w := by
  cases q with
  | claimNextTask | updateTaskStatus | updateRouteStep | finalizeTaskExecution => exact calm.elim
  | _ => exact ⟨True.intro,True.intro⟩

theorem emptyGate : Gate fleet Center.initial.world where
  recorded _ _ holds := by cases holds
  sound := emptySound
  steps _ _ held := by cases held

theorem callSafe (call : Call) (w : World) : SafeCrew (terms fleet).setting n
    (call.program (fleet n.process)) (fun _ _ => True) w := by
  by_cases executes : call = .runNext
  · subst executes
    exact Attempts.startSafe (ruleKept fleet n)
  · exact crewCalm (calmCall _ call executes) (fun _ w calm => calmMay calm w) w

theorem termsKept (fleet : Nat → Options) : (terms fleet).Kept fleet where
  initial := emptyGate
  kept _ _ _ _ gate may fair := gateKept gate may fair
  memory i change w := by
    refine ⟨⟨True.intro,True.intro⟩,⟨0,"",none,fun _ => .error ""⟩,fun _ applied => ?_⟩
    cases applied
  starts _ call w _ := callSafe call w

end

theorem timelyFair {fleet : Nat → Options} {s : Center} {e : Event}
    (timely : OwnerFencing.Timely s e) : (terms fleet).Fair s e := by
  cases e <;> exact timely

theorem gateReached {fleet : Nat → Options} {s : Center}
    (reachable : Reachable fleet OwnerFencing.Timely s) : Gate fleet s.world :=
  (standingReached (t := terms fleet) (termsKept fleet) (Relation.ReflTransGen.mono
    (fun _ _ ⟨e,timely,moved⟩ => ⟨e,timelyFair timely,moved⟩) _ _ reachable)).holds

/-- While no worker writes after its claim was taken away, with any number of them at work: a
task that waits for its review or is done has every step settled, a queued one has none in the
middle and a blocked one none running. A step that succeeded has a run of its own whose agent
was collected, whose source was then found unchanged and, for a step that does the work of a
task with a verification command, whose verification succeeded. -/
theorem evidenceGate (fleet : Nat → Options) (s : Center)
    (reachable : Reachable fleet OwnerFencing.Timely s) (taskId : String) (r : TaskRow)
    (held : s.world.db.tasks.get taskId = some r) (step : RouteStepRow)
    (listed : step ∈ s.world.db.routeSteps) (own : step.taskId = taskId) :
    (r.status = .needsReview ∨ r.status = .done → Settled step) ∧
    (r.status = .queued → step.status = .pending ∨ Settled step) ∧
    (r.status = .blocked → step.status ≠ .running) ∧
    (step.status = .succeeded → ∃ runId, Evident s.world step runId) := by
  have gate := (gateReached reachable).steps taskId r held step
    (List.mem_filter.mpr ⟨listed,beq_iff_eq.mpr own⟩)
  have fits := gate.fits
  refine ⟨fun ended => ?_,fun queued => ?_,fun blocked => ?_,gate.evident⟩
  · rcases ended with waits | done
    · rwa [waits] at fits
    · rwa [done] at fits
  · rwa [queued] at fits
  · rwa [blocked] at fits

def verifiable : Json := .object [("id",.string "task"),("goal",.string "Fix it"),
  ("repo",.string "/repo"),("agent",.string "codex"),("verificationCommand",.string "npm test"),
  ("handoffRequired",.boolean true)]

def reply : (q : Question) → Except String (Answer q)
  | .capture .. => .ok ⟨"HEAD","",""⟩
  | .runVerifier taskId runId command _ => .ok ⟨[],.ok ⟨.succeeded,command,[],0,0,some 0,none,none,
      ⟨taskId,runId,.testLog,"test.log","/evidence/test.log","test.log","/metadata/test.log",
        EvidenceRevisions.digest,1,0⟩⟩⟩
  | q => EvidenceRevisions.reply q

def turns (thread : Nat) (pick : Pick String) (first count : Nat) : List Event :=
  (List.range' first count).map fun k => .turn ⟨thread,0⟩ pick
    ⟨0,String.ofList (List.replicate k 'i'),none,reply⟩

def verifying : List Event :=
  .start 0 (.createTask verifiable)::turns 0 .main 0 10 ++
  .start 0 .runNext::turns 1 .main 10 17 ++ turns 1 (.member "step_1") 27 57 ++
  turns 1 .join 84 1 ++ turns 1 .main 85 17

def waiting (s : Center) : Bool := s.world.db.routeSteps.rows.any fun step =>
  step.status == .succeeded && (s.world.db.tasks.get step.taskId).any fun r =>
    r.status == .needsReview && (nonempty r.verificationCommand).isSome && step.role == .execute

theorem verifyingEvident : ∃ step ∈ (OwnerFencing.after verifying).world.db.routeSteps,
    ∃ runId, Evident (OwnerFencing.after verifying).world step runId ∧
      Verified (OwnerFencing.after verifying).world.db runId := by
  have kept : RunLogic.everyStep (act OwnerFencing.crews) OwnerFencing.unrecovered .initial
    verifying = true := by decide +kernel
  have reachable : Reachable OwnerFencing.crews OwnerFencing.Timely (OwnerFencing.after verifying) :=
    actsReach verifying fun _ _ _ split =>
      OwnerFencing.unrecoveredTimely (RunLogic.everyStepSource _ kept split)
  have waits : waiting (OwnerFencing.after verifying) = true := by decide +kernel
  obtain ⟨step,listed,is⟩ := List.any_eq_true.mp waits
  simp only [Bool.and_eq_true,beq_iff_eq,Option.any_eq_true] at is
  obtain ⟨succeeded,r,held,⟨_,command⟩,role⟩ := is
  obtain ⟨_,_,_,evident⟩ := evidenceGate OwnerFencing.crews _ reachable step.taskId r held step
    listed rfl
  obtain ⟨runId,evident⟩ := evident succeeded
  exact ⟨step,listed,runId,evident,evident.verified ⟨role,r,held,command⟩⟩

end ControlCenter.AttemptProgress
