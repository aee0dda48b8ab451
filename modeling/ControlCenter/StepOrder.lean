import ControlCenter.EvidenceRevisions
import ControlCenter.ExecutionQuestions
import ControlCenter.Interference
import ControlCenter.RunLogic

/-! One attempt at a task, turn by turn, in a world that others move: which steps it
starts, when, and what it hands them. -/
namespace ControlCenter.StepOrder
open Protocol Table Db Dialogue Reliance Ports Coordinator Execution ControlCenter.System
open ExecutionQuestions RunLogic
open ScriptRuns (asksAlone)

abbrev Group := List (Member Question Answer String StepOutcome)

inductive Mark where
  | began (members : Group)
  | asked (who : Option String) (q : Question) (answer : Except String (Answer q))
  | ended (stepId : String) (outcome : StepOutcome)
  | shutdown

structure Attempt where
  job : Job
  world : World
  log : List Mark

inductive Event where
  | turn (pick : Pick String) (choice : Choice)
  | others (world : World)
  | requestShutdown

section
variable (n : ThreadId)

def stopping (w : World) : Bool := (w.memory n.process).shutdownRequested

def stop (w : World) : World :=
  setMemory w n.process {w.memory n.process with shutdownRequested := true}

def meanwhile (w next : World) : World :=
  setMemory next n.process {next.memory n.process with shutdownRequested := stopping n w}

def answered (c : Choice) (w : World) : Option (Option String × Question) → List Mark
  | some (who,q) => [.asked who q (respond ⟨n,who⟩ c w q).1]
  | none => []

def outcomeIn (stepId : String) (members : Group) : List Mark :=
  match member stepId members with
  | some (.done outcome) => [.ended stepId outcome]
  | _ => []

def settled : Pick String → Job → List Mark
  | .main,⟨.ask (.inr members) _,_⟩ => [.began members]
  | .member stepId,⟨.ask (.inr members) _,_⟩ => outcomeIn stepId members
  | .orphan stepId,⟨_,orphans⟩ => outcomeIn stepId orphans
  | _,_ => []

def step (a : Attempt) : Event → Attempt
  | .turn pick c => match a.job.advance (fun who q w => respond ⟨n,who⟩ c w q) pick a.world with
    | some (job,world) =>
        ⟨job,world,a.log ++ answered n c a.world (asked pick a.job) ++ settled pick job⟩
    | none => a
  | .others world => {a with world := meanwhile n a.world world}
  | .requestShutdown => {a with world := stop n a.world,log := a.log ++ [.shutdown]}

def attempt (o : Options) (aggregate : TaskAggregate) (w : World) : Attempt where
  job := Thread.start do
    let _ ← executeClaimedTask o aggregate
    pure ()
  world := w
  log := if stopping n w then [.shutdown] else []

end

def endingOf (stepId : String) : Mark → Option StepOutcome
  | .ended id outcome => if id = stepId then some outcome else none
  | _ => none

def endings (stepId : String) (log : List Mark) : List StepOutcome :=
  log.filterMap (endingOf stepId)

def begunOf : Mark → List String
  | .began members => members.map Prod.fst
  | _ => []

def begun (log : List Mark) : List String := log.flatMap begunOf

def hears (stepId : String) (s : Seen) : Mark → Seen
  | .asked (some id) q answer => if id = stepId then s.hears q answer else s
  | _ => s

def seen (stepId : String) (log : List Mark) : Seen := log.foldl (hears stepId) .initial

def lowerSteps (pending : List RouteStepRow) (sequence : Nat) : List RouteStepRow :=
  ((sequencesOf pending).filter fun s => s < sequence).flatMap (group pending)

def priorAt (aggregate : TaskAggregate) (log : List Mark) (sequence : Nat) : List PriorResult :=
  aggregate.runs.filterMap historicalAdapterResult ++
    ((lowerSteps (pendingSteps aggregate) sequence).flatMap fun t =>
      endings t.id log).filterMap succeededResult

structure Ordered (o : Options) (aggregate : TaskAggregate) (front : List Mark) (sequence : Nat)
    (members : Group) : Prop where
  given : ∃ inherited, members = (group (pendingSteps aggregate) sequence).map fun t =>
    (t.id,executeStep o (executionTask aggregate) t (priorAt aggregate front sequence) inherited)
  lower : ∀ t ∈ pendingSteps aggregate, t.sequence < sequence →
    ∃ outcome, endings t.id front = [outcome] ∧ (t.required = true → outcome.succeeded = true)
  fresh : ∀ t ∈ group (pendingSteps aggregate) sequence, t.id ∉ begun front
  running : Mark.shutdown ∉ front

structure Owned (aggregate : TaskAggregate) (front : List Mark) (step : RouteStepRow) (q : Question) :
    Prop where
  pending : step ∈ pendingSteps aggregate
  unended : endings step.id front = []
  may : ∃ first members rest, front = first ++ .began members :: rest ∧
    step.id ∈ members.map Prod.fst ∧
    MayAsk step (priorAt aggregate first step.sequence) (seen step.id front) q

section
variable {stepId : String} {log : List Mark} {mark : Mark}

@[simp] theorem endingsAppend (back : List Mark) :
    endings stepId (log ++ back) = endings stepId log ++ endings stepId back :=
  List.filterMap_append

@[simp] theorem begunAppend (back : List Mark) : begun (log ++ back) = begun log ++ begun back :=
  List.flatMap_append

@[simp] theorem seenAppend : seen stepId (log ++ [mark]) = hears stepId (seen stepId log) mark := by
  unfold seen
  rw [List.foldl_append]
  rfl

theorem splitAppend {front back new : List Mark} {mark : Mark}
    (same : log ++ new = front ++ mark::back) :
    (∃ rest, log = front ++ mark::rest ∧ back = rest ++ new) ∨
      ∃ first rest, new = first ++ mark::rest ∧ front = log ++ first := by
  rcases List.append_eq_append_iff.mp same with ⟨first,rfl,new_⟩ | ⟨first,rfl,tail⟩
  · exact .inr ⟨first,back,new_,rfl⟩
  · cases first with
    | nil =>
      refine .inr ⟨[],back,?_,?_⟩
      · simpa using tail.symm
      · simp
    | cons mark' rest =>
      obtain ⟨rfl,rfl⟩ := List.cons.inj tail
      exact .inl ⟨rest,rfl,rfl⟩

end

structure Flies (o : Options) (aggregate : TaskAggregate) (log : List Mark)
    (m : Member Question Answer String StepOutcome) : Prop where
  goes : ∃ t ∈ pendingSteps aggregate, m.1 = t.id ∧ ∃ first members rest,
    log = first ++ .began members :: rest ∧ t.id ∈ members.map Prod.fst ∧
    Leads t (priorAt aggregate first t.sequence) m.2 (Ends o t) (seen t.id log)
  ends : endings m.1 log = match m.2 with
    | .done outcome => [outcome]
    | _ => []

def Apart (stepId : String) (mark : Mark) : Prop :=
  endingOf stepId mark = none ∧ ∀ s, hears stepId s mark = s

section
variable {o : Options} {aggregate : TaskAggregate} {log : List Mark}

theorem endingsApart {stepId : String} {mark : Mark} (apart : endingOf stepId mark = none) :
    endings stepId (log ++ [mark]) = endings stepId log := by
  rw [endingsAppend]
  simp [endings,apart]

theorem fliesApart {m : Member Question Answer String StepOutcome} {mark : Mark}
    (flies : Flies o aggregate log m) (apart : Apart m.1 mark) :
    Flies o aggregate (log ++ [mark]) m := by
  obtain ⟨⟨t,listed,same,first,members,rest,split,inside,leads⟩,ends⟩ := flies
  refine ⟨⟨t,listed,same,first,members,rest ++ [mark],?_,inside,?_⟩,?_⟩
  · rw [split,List.append_assoc]
    rfl
  · rw [seenAppend,← same,apart.2,same]
    exact leads
  · rw [endingsApart apart.1]
    exact ends

theorem fliesFinished {t : RouteStepRow} {prior : List PriorResult} {outcome : StepOutcome} {s : Seen}
    (leads : Leads t prior (.done outcome) (Ends o t) s) : Finished o t s outcome :=
  leads s .refl outcome rfl

theorem fliesAsked {stepId : String} {q : Question}
    {next : Except String (Answer q) → Script Question Answer StepOutcome}
    (flies : Flies o aggregate log (stepId,.ask q next)) (r : Except String (Answer q)) :
    (∃ t, stepId = t.id ∧ Owned aggregate log t q) ∧
    Flies o aggregate (log ++ [.asked (some stepId) q r] ++ match next r with
      | .done outcome => [.ended stepId outcome]
      | _ => []) (stepId,next r) := by
  obtain ⟨⟨t,listed,same,first,members,rest,split,inside,leads⟩,ends⟩ := flies
  have same : stepId = t.id := same
  subst same
  have unended : endings t.id log = [] := ends
  obtain ⟨may,goes⟩ := leads _ .refl
  refine ⟨⟨t,rfl,listed,unended,first,members,rest,split,inside,may⟩,?_⟩
  have heard : seen t.id (log ++ [.asked (some t.id) q r]) = (seen t.id log).hears q r := by
    rw [seenAppend]
    exact if_pos rfl
  have goes := goes r _ rfl
  rw [← heard] at goes
  have unended : endings t.id (log ++ [.asked (some t.id) q r]) = [] :=
    (endingsApart rfl).trans unended
  have began : log ++ [.asked (some t.id) q r] =
      first ++ .began members :: (rest ++ [.asked (some t.id) q r]) := by
    rw [split,List.append_assoc]
    rfl
  generalize log ++ [.asked (some t.id) q r] = log at *
  generalize next r = script at *
  cases script with
  | done outcome =>
    refine ⟨⟨t,listed,rfl,first,members,rest ++ [.asked (some t.id) q r] ++ [.ended t.id outcome],
      ?_,inside,?_⟩,?_⟩
    · rw [began,List.append_assoc]
      rfl
    · rw [seenAppend]
      exact goes
    · rw [endingsAppend,unended]
      simp [endings,endingOf]
  | fail error =>
    rw [List.append_nil]
    exact ⟨⟨t,listed,rfl,first,members,_,began,inside,goes⟩,unended⟩
  | ask q' next' =>
    rw [List.append_nil]
    exact ⟨⟨t,listed,rfl,first,members,_,began,inside,goes⟩,unended⟩

theorem memberReplaced {stepId : String} {c c' : Script Question Answer StepOutcome}
    {members : Group} (found : member stepId members = some c) :
    member stepId (replace stepId c' members) = some c' := by
  induction members with
  | nil => cases found
  | cons m rest ih =>
    obtain ⟨key,script⟩ := m
    unfold member at found
    unfold replace
    split at found
    next same =>
      rw [if_pos same]
      exact if_pos same
    next other =>
      rw [if_neg other]
      exact (if_neg other).trans (ih found)

end

def Alone : Joint Question Answer String StepOutcome → Prop
  | .inl q => Closes q
  | .inr _ => False

def whole (p : TaskCrew RunTaskResult) : TaskCrew Unit := do
  let _ ← p
  pure ()

section
variable (o : Options) (task : TaskRow) (pending : List RouteStepRow)

def afterGroup (rest : List Nat) (c : Carried) (groupOutcomes : List StepOutcome) :
    TaskCrew RunTaskResult := do
  if ← shutdownRequested.alone then (blockForShutdown task.id c.outcomes).alone
  else match failedStep groupOutcomes with
    | some failure => (blockForFailure task.id failure c.outcomes).alone
    | none => runSequences o task pending rest c

def startGroup (sequence : Nat) (rest : List Nat) (c : Carried) : TaskCrew Unit :=
  .ask (.inr (groupMembers o task c (group pending sequence))) fun r => match r with
    | .ok outcomes => whole (afterGroup o task pending rest (c.add outcomes) outcomes)
    | .error error => .fail error

def looked (f : Bool → TaskCrew Unit) : TaskCrew Unit :=
  .ask (.inl (.memory id)) fun r => match (r : Except String Memory) with
    | .ok memory => f memory.shutdownRequested
    | .error error => .fail error

theorem sequencesLook (sequence : Nat) (rest : List Nat) (c : Carried) :
    whole (runSequences o task pending (sequence::rest) c) = looked fun stopping =>
      if stopping then whole (blockForShutdown task.id c.outcomes).alone
      else startGroup o task pending sequence rest c := by
  show Script.ask _ _ = Script.ask _ _
  congr 1
  funext r
  cases r with
  | error error => rfl
  | ok memory =>
    change Memory at memory
    show whole (if memory.shutdownRequested = true then _ else _) = _
    dsimp only
    split
    · rfl
    · show Script.ask _ _ = Script.ask _ _
      congr 1
      funext r
      cases r <;> rfl

theorem groupLook (rest : List Nat) (c : Carried) (outcomes : List StepOutcome) :
    whole (afterGroup o task pending rest c outcomes) = looked fun stopping =>
      if stopping then whole (blockForShutdown task.id c.outcomes).alone
      else match failedStep outcomes with
        | some failure => whole (blockForFailure task.id failure c.outcomes).alone
        | none => whole (runSequences o task pending rest c) := by
  show Script.ask _ _ = Script.ask _ _
  congr 1
  funext r
  cases r with
  | error error => rfl
  | ok memory =>
    change Memory at memory
    show whole (if memory.shutdownRequested = true then _ else _) = _
    dsimp only
    split
    · rfl
    · split <;> rfl

end

theorem aloneWhole {p : Dialog RunTaskResult} (asks : Asks Closes p) :
    Asks Alone (whole p.alone) :=
  asksBind (asksAlone (fun _ closes => closes) asks) fun _ => asksDone _

def stepsOf (aggregate : TaskAggregate) (sequences : List Nat) : List RouteStepRow :=
  sequences.flatMap (group (pendingSteps aggregate))

structure Carries (aggregate : TaskAggregate) (before : List Nat) (c : Carried)
    (log : List Mark) : Prop where
  results : c.priorResults = aggregate.runs.filterMap historicalAdapterResult ++
    ((stepsOf aggregate before).flatMap fun t => endings t.id log).filterMap succeededResult
  ended : ∀ t ∈ stepsOf aggregate before, ∃ outcome, endings t.id log = [outcome]

def Started (aggregate : TaskAggregate) (sequences : List Nat) (log : List Mark) : Prop :=
  begun log = (stepsOf aggregate sequences).map RouteStepRow.id

def Passed (aggregate : TaskAggregate) (before : List Nat) (log : List Mark) : Prop :=
  ∀ t ∈ stepsOf aggregate before, t.required = true →
    ∀ outcome ∈ endings t.id log, outcome.succeeded = true

inductive Stage (o : Options) (aggregate : TaskAggregate) (log : List Mark) :
    TaskCrew Unit → Prop
  | ready {before : List Nat} {sequence : Nat} {rest : List Nat} {c : Carried}
      {main : TaskCrew Unit} (split : before ++ sequence::rest = sequencesOf (pendingSteps aggregate))
      (carries : Carries aggregate before c log) (passed : Passed aggregate before log)
      (started : Started aggregate before log)
      (same : main = whole (runSequences o (executionTask aggregate) (pendingSteps aggregate)
        (sequence::rest) c)) : Stage o aggregate log main
  | working {before : List Nat} {sequence : Nat} {rest : List Nat} {c : Carried}
      {members : Group} {next : Except String (List StepOutcome) → TaskCrew Unit}
      (split : before ++ sequence::rest = sequencesOf (pendingSteps aggregate))
      (carries : Carries aggregate before c log) (passed : Passed aggregate before log)
      (started : Started aggregate (before ++ [sequence]) log)
      (keys : members.map Prod.fst =
        (group (pendingSteps aggregate) sequence).map RouteStepRow.id)
      (joins : ∀ outcomes, next (.ok outcomes) = whole (afterGroup o (executionTask aggregate)
        (pendingSteps aggregate) rest (c.add outcomes) outcomes))
      (rejects : ∀ error, next (.error error) = .fail error) :
      Stage o aggregate log (.ask (.inr members) next)
  | checking {before rest : List Nat} {c : Carried} {outcomes : List StepOutcome}
      {main : TaskCrew Unit} (split : before ++ rest = sequencesOf (pendingSteps aggregate))
      (carries : Carries aggregate before c log)
      (passed : failedStep outcomes = none → Passed aggregate before log)
      (started : Started aggregate before log)
      (same : main = whole (afterGroup o (executionTask aggregate) (pendingSteps aggregate) rest
        c outcomes)) : Stage o aggregate log main

def StageOf (o : Options) (aggregate : TaskAggregate) (log : List Mark) (job : Job) : Prop :=
  job.orphans = [] ∧ Stage o aggregate log job.main ∨ Asks Alone job.main

def aloft (job : Job) : Group :=
  (match job.main with
    | .ask (.inr members) _ => members
    | _ => []) ++ job.orphans

structure Logged (o : Options) (aggregate : TaskAggregate) (log : List Mark) : Prop where
  began : ∀ front members back, log = front ++ .began members :: back →
    ∃ sequence, Ordered o aggregate front sequence members
  owned : ∀ front stepId q r back, log = front ++ .asked (some stepId) q r :: back →
    ∃ t, stepId = t.id ∧ Owned aggregate front t q
  outside : ∀ q r, Mark.asked none q r ∈ log → Closes q
  silent : ∀ stepId, stepId ∉ begun log → endings stepId log = [] ∧ seen stepId log = .initial

structure Standing (n : ThreadId) (o : Options) (aggregate : TaskAggregate) (a : Attempt) : Prop where
  flag : stopping n a.world = true ↔ Mark.shutdown ∈ a.log
  logged : Logged o aggregate a.log
  flights : ∀ m ∈ aloft a.job, Flies o aggregate a.log m
  distinct : ((aloft a.job).map Prod.fst).Nodup
  stage : StageOf o aggregate a.log a.job

section
variable {o : Options} {aggregate : TaskAggregate} {log : List Mark} {mark : Mark}

theorem loggedMark (logged : Logged o aggregate log)
    (begins : ∀ members, mark = .began members → ∃ sequence, Ordered o aggregate log sequence members)
    (asks : ∀ stepId q r, mark = .asked (some stepId) q r →
      ∃ t, stepId = t.id ∧ Owned aggregate log t q)
    (closes : ∀ q r, mark = .asked none q r → Closes q)
    (apart : ∀ stepId, stepId ∉ begun log → stepId ∉ begunOf mark → Apart stepId mark) :
    Logged o aggregate (log ++ [mark]) where
  began front members back split := by
    rcases splitAppend split with ⟨rest,split,_⟩ | ⟨first,rest,new,rfl⟩
    · exact logged.began front members rest split
    · cases first with
      | nil =>
        obtain ⟨same,_⟩ := List.cons.inj new
        rw [List.append_nil]
        exact begins members same
      | cons m first => exact absurd (List.cons.inj new).2 (by simp)
  owned front stepId q r back split := by
    rcases splitAppend split with ⟨rest,split,_⟩ | ⟨first,rest,new,rfl⟩
    · exact logged.owned front stepId q r rest split
    · cases first with
      | nil =>
        obtain ⟨same,_⟩ := List.cons.inj new
        rw [List.append_nil]
        exact asks stepId q r same
      | cons m first => exact absurd (List.cons.inj new).2 (by simp)
  outside q r inside := by
    rcases List.mem_append.mp inside with earlier | now
    · exact logged.outside q r earlier
    · exact closes q r (List.mem_singleton.mp now).symm
  silent stepId unbegun := by
    rw [begunAppend,List.mem_append,not_or] at unbegun
    have other : stepId ∉ begunOf mark := by simpa [begun] using unbegun.2
    obtain ⟨none_,same⟩ := apart stepId unbegun.1 other
    obtain ⟨unended,unheard⟩ := logged.silent stepId unbegun.1
    exact ⟨(endingsApart none_).trans unended,by rw [seenAppend,same,unheard]⟩

theorem ownedBegun {front : List Mark} {t : RouteStepRow} {q : Question}
    (owned : Owned aggregate front t q) : t.id ∈ begun front := by
  obtain ⟨first,members,rest,rfl,inside,_⟩ := owned.may
  exact List.mem_flatMap.mpr ⟨.began members,by simp,inside⟩

theorem stepsApart {sequences : List Nat} (ended : ∀ t ∈ stepsOf aggregate sequences,
      ∃ outcome, endings t.id log = [outcome])
    (fresh : ∀ stepId, endings stepId log ≠ [] → endingOf stepId mark = none) :
    ∀ t ∈ stepsOf aggregate sequences, endings t.id (log ++ [mark]) = endings t.id log := by
  intro t listed
  obtain ⟨outcome,same⟩ := ended t listed
  exact endingsApart (fresh t.id (by rw [same]; exact List.cons_ne_nil _ _))

theorem flatMapCongr {α β : Type} {l : List α} {f g : α → List β} (same : ∀ a ∈ l, f a = g a) :
    l.flatMap f = l.flatMap g := by
  induction l with
  | nil => rfl
  | cons a rest ih =>
    rw [List.flatMap_cons,List.flatMap_cons,same a List.mem_cons_self,
      ih fun b listed => same b (List.mem_cons_of_mem _ listed)]

theorem carriesMark {before : List Nat} {c : Carried} (carries : Carries aggregate before c log)
    (fresh : ∀ stepId, endings stepId log ≠ [] → endingOf stepId mark = none) :
    Carries aggregate before c (log ++ [mark]) := by
  have same := stepsApart carries.ended fresh
  refine ⟨?_,fun t listed => ?_⟩
  · rw [flatMapCongr same]
    exact carries.results
  · rw [same t listed]
    exact carries.ended t listed

theorem passedMark {before : List Nat} {c : Carried} (carries : Carries aggregate before c log)
    (fresh : ∀ stepId, endings stepId log ≠ [] → endingOf stepId mark = none)
    (passed : Passed aggregate before log) : Passed aggregate before (log ++ [mark]) := by
  intro t listed required outcome inside
  rw [stepsApart carries.ended fresh t listed] at inside
  exact passed t listed required outcome inside

theorem startedMark {before : List Nat} (quiet : begunOf mark = [])
    (started : Started aggregate before log) : Started aggregate before (log ++ [mark]) := by
  unfold Started
  rw [begunAppend]
  simp only [begun,List.flatMap_cons,List.flatMap_nil,quiet,List.append_nil]
  exact started

theorem stageMark {main : TaskCrew Unit} (stage : Stage o aggregate log main)
    (quiet : begunOf mark = [])
    (fresh : ∀ stepId, endings stepId log ≠ [] → endingOf stepId mark = none) :
    Stage o aggregate (log ++ [mark]) main := by
  cases stage with
  | ready split carries passed started same =>
    exact .ready split (carriesMark carries fresh) (passedMark carries fresh passed)
      (startedMark quiet started) same
  | working split carries passed started keys joins rejects =>
    exact .working split (carriesMark carries fresh) (passedMark carries fresh passed)
      (startedMark quiet started) keys joins rejects
  | checking split carries passed started same =>
    exact .checking split (carriesMark carries fresh)
      (fun none_ => passedMark carries fresh (passed none_)) (startedMark quiet started) same

structure Working (o : Options) (aggregate : TaskAggregate) (log : List Mark) (members : Group)
    (next : Except String (List StepOutcome) → TaskCrew Unit) (before : List Nat) (sequence : Nat)
    (rest : List Nat) (c : Carried) : Prop where
  split : before ++ sequence::rest = sequencesOf (pendingSteps aggregate)
  carries : Carries aggregate before c log
  passed : Passed aggregate before log
  started : Started aggregate (before ++ [sequence]) log
  keys : members.map Prod.fst = (group (pendingSteps aggregate) sequence).map RouteStepRow.id
  joins : ∀ outcomes, next (.ok outcomes) = whole (afterGroup o (executionTask aggregate)
    (pendingSteps aggregate) rest (c.add outcomes) outcomes)
  rejects : ∀ error, next (.error error) = .fail error

theorem workingSource {members : Group} {next : Except String (List StepOutcome) → TaskCrew Unit}
    (stage : Stage o aggregate log (.ask (.inr members) next)) :
    ∃ before sequence rest c, Working o aggregate log members next before sequence rest c := by
  generalize same : (.ask (.inr members) next : TaskCrew Unit) = main at stage
  cases stage with
  | ready _ _ _ _ equal =>
    rw [equal,sequencesLook] at same
    cases same
  | checking _ _ _ _ equal =>
    rw [equal,groupLook] at same
    cases same
  | working split carries passed started keys joins rejects =>
    cases same
    exact ⟨_,_,_,_,split,carries,passed,started,keys,joins,rejects⟩

theorem stageMembers {members members' : Group}
    {next : Except String (List StepOutcome) → TaskCrew Unit}
    (stage : Stage o aggregate log (.ask (.inr members) next))
    (keys : members'.map Prod.fst = members.map Prod.fst) :
    Stage o aggregate log (.ask (.inr members') next) := by
  obtain ⟨before,sequence,rest,c,working⟩ := workingSource stage
  exact .working working.split working.carries working.passed working.started
    (keys.trans working.keys) working.joins working.rejects

theorem joinedEndings (distinct : ((pendingSteps aggregate).map RouteStepRow.id).Nodup)
    {members : Group} {steps : List RouteStepRow} {outcomes : List StepOutcome}
    (listed : ∀ t ∈ steps, t ∈ pendingSteps aggregate)
    (keys : members.map Prod.fst = steps.map RouteStepRow.id)
    (joined : results members = some outcomes) (flights : ∀ m ∈ members, Flies o aggregate log m) :
    (steps.flatMap fun t => endings t.id log) = outcomes ∧
    ∀ t ∈ steps, ∃ outcome ∈ outcomes, endings t.id log = [outcome] ∧
      outcome.step.required = t.required := by
  induction members generalizing steps outcomes with
  | nil =>
    cases steps with
    | nil => exact ⟨Option.some.inj joined,fun t inside => absurd inside List.not_mem_nil⟩
    | cons t rest => cases keys
  | cons m rest ih =>
    cases steps with
    | nil => cases keys
    | cons t steps =>
      obtain ⟨key,script⟩ := m
      obtain ⟨same,others⟩ := List.cons.inj keys
      have same : key = t.id := same
      subst same
      have flies := flights _ List.mem_cons_self
      cases script with
      | done outcome =>
        obtain ⟨tail,joins,rfl⟩ := Option.map_eq_some_iff.mp joined
        obtain ⟨appended,each⟩ := ih (fun t inside => listed t (List.mem_cons_of_mem _ inside)) others
          joins fun m inside => flights m (List.mem_cons_of_mem _ inside)
        have own : endings t.id log = [outcome] := flies.ends
        obtain ⟨t',known,same,_,_,_,_,_,leads⟩ := flies.goes
        have equal : t' = t := List.inj_on_of_nodup_map distinct known
          (listed t List.mem_cons_self) (Eq.symm same)
        subst equal
        refine ⟨?_,fun t'' inside => ?_⟩
        · rw [List.flatMap_cons,own,appended]
          rfl
        · rcases List.mem_cons.mp inside with rfl | later
          · exact ⟨outcome,List.mem_cons_self,own,(fliesFinished leads).own.2⟩
          · obtain ⟨outcome',inside,ends⟩ := each t'' later
            exact ⟨outcome',List.mem_cons_of_mem _ inside,ends⟩
      | fail error => cases joined
      | ask q next => cases joined

end

section
variable {n : ThreadId} {o : Options} {aggregate : TaskAggregate} {log : List Mark}

theorem sequencesRise (pending : List RouteStepRow) : (sequencesOf pending).Pairwise (· < ·) := by
  unfold sequencesOf
  have sorted := List.pairwise_insertionSort (· ≤ ·) ((pending.map RouteStepRow.sequence).dedup)
  have distinct : (((pending.map RouteStepRow.sequence).dedup).insertionSort (· ≤ ·)).Nodup :=
    (List.perm_insertionSort (· ≤ ·) _).nodup_iff.mpr (List.nodup_dedup _)
  exact (sorted.and distinct).imp fun both => lt_of_le_of_ne both.1 both.2

theorem sequenceListed {pending : List RouteStepRow} {sequence : Nat} :
    sequence ∈ sequencesOf pending ↔ ∃ t ∈ pending, t.sequence = sequence := by
  unfold sequencesOf
  rw [List.mem_insertionSort,List.mem_dedup,List.mem_map]

theorem lowerBefore {before rest : List Nat} {sequence : Nat}
    (split : before ++ sequence::rest = sequencesOf (pendingSteps aggregate)) :
    lowerSteps (pendingSteps aggregate) sequence = stepsOf aggregate before := by
  have rise := sequencesRise (pendingSteps aggregate)
  unfold lowerSteps stepsOf
  rw [← split] at rise ⊢
  obtain ⟨_,later,apart⟩ := List.pairwise_append.mp rise
  have kept : before.filter (fun s => s < sequence) = before :=
    List.filter_eq_self.mpr fun s listed => by simpa using apart s listed sequence (by simp)
  have dropped : (sequence::rest).filter (fun s => s < sequence) = [] :=
    List.filter_eq_nil_iff.mpr fun s listed => by
      rcases List.mem_cons.mp listed with rfl | listed
      · simp
      · simpa using Nat.le_of_lt (List.rel_of_pairwise_cons later listed)
  rw [List.filter_append,kept,dropped,List.append_nil]

theorem lowerListed {before rest : List Nat} {sequence : Nat}
    (split : before ++ sequence::rest = sequencesOf (pendingSteps aggregate)) {t : RouteStepRow}
    (listed : t ∈ pendingSteps aggregate) (lower : t.sequence < sequence) :
    t ∈ stepsOf aggregate before := by
  rw [← lowerBefore split]
  refine List.mem_flatMap.mpr ⟨t.sequence,?_,List.mem_filter.mpr ⟨listed,by simp⟩⟩
  exact List.mem_filter.mpr ⟨sequenceListed.mpr ⟨t,listed,rfl⟩,by simpa using lower⟩

theorem stepsListed {sequences : List Nat} {t : RouteStepRow} (listed : t ∈ stepsOf aggregate sequences) :
    t ∈ pendingSteps aggregate ∧ t.sequence ∈ sequences := by
  obtain ⟨sequence,inside,listed⟩ := List.mem_flatMap.mp listed
  obtain ⟨listed,same⟩ := List.mem_filter.mp listed
  have same : t.sequence = sequence := by simpa using same
  exact ⟨listed,same ▸ inside⟩

theorem groupOrdered (distinct : ((pendingSteps aggregate).map RouteStepRow.id).Nodup)
    {before rest : List Nat} {sequence : Nat} {c : Carried}
    (split : before ++ sequence::rest = sequencesOf (pendingSteps aggregate))
    (carries : Carries aggregate before c log) (passed : Passed aggregate before log)
    (started : Started aggregate before log) (running : Mark.shutdown ∉ log) :
    Ordered o aggregate log sequence (groupMembers o (executionTask aggregate) c
      (group (pendingSteps aggregate) sequence)) where
  given := by
    refine ⟨c.inheritedWorktree,?_⟩
    have prior : priorAt aggregate log sequence = c.priorResults := by
      unfold priorAt
      rw [lowerBefore split]
      exact carries.results.symm
    rw [prior]
    rfl
  lower t listed lower := by
    have inside := lowerListed split listed lower
    obtain ⟨outcome,ends⟩ := carries.ended t inside
    exact ⟨outcome,ends,fun required => passed t inside required outcome (by rw [ends]; simp)⟩
  fresh t inside begun_ := by
    rw [started] at begun_
    obtain ⟨t',earlier,same⟩ := List.mem_map.mp begun_
    obtain ⟨known,sequence'⟩ := stepsListed earlier
    obtain ⟨listed,own⟩ := List.mem_filter.mp inside
    have equal : t' = t := List.inj_on_of_nodup_map distinct known listed same
    subst equal
    have own : t'.sequence = sequence := by simpa using own
    have rise := sequencesRise (pendingSteps aggregate)
    rw [← split] at rise
    have less := (List.pairwise_append.mp rise).2.2 _ sequence' sequence (by simp)
    rw [own] at less
    exact Nat.lt_irrefl _ less
  running := running

theorem groupFlies (logged : Logged o aggregate log) {sequence : Nat} {members : Group}
    (ordered : Ordered o aggregate log sequence members) :
    ∀ m ∈ members, Flies o aggregate (log ++ [.began members]) m := by
  intro m inside
  obtain ⟨inherited,given⟩ := ordered.given
  have held := inside
  rw [given] at held
  obtain ⟨t,listed,rfl⟩ := List.mem_map.mp held
  obtain ⟨unended,unheard⟩ := logged.silent t.id (ordered.fresh t listed)
  obtain ⟨pending,own⟩ := List.mem_filter.mp listed
  have own : t.sequence = sequence := by simpa using own
  refine ⟨⟨t,pending,rfl,log,members,[],rfl,List.mem_map_of_mem inside,?_⟩,?_⟩
  · rw [seenAppend]
    show Leads t _ _ _ (seen t.id log)
    rw [unheard,own]
    exact executeLeads _ _
  · exact (endingsApart rfl).trans unended

end

def Flagless (q : Question) : Prop :=
  ∀ change, q = .memory change → ∀ m, (change m).shutdownRequested = m.shutdownRequested

theorem closesFlagless {q : Question} (closes : Closes q) : Flagless q := by
  rintro change rfl
  exact closes

theorem mayFlagless {t : RouteStepRow} {prior : List PriorResult} {s : Seen} {q : Question}
    (may : MayAsk t prior s q) : Flagless q := by
  rintro change rfl
  exact may

section
variable {n : ThreadId} {w : World} {c : Choice} {who : Option String}

theorem storedMemory {α : Type} {note : α → Trail} {r : Outcome (α × ControlCenterDb)} :
    (stored w note r).2.memory = w.memory := by
  rcases r with error | ⟨a,db⟩ <;> rfl

theorem writtenMemory {note : Trail} {r : Outcome ControlCenterDb} :
    (written w note r).2.memory = w.memory := by
  cases r <;> rfl

theorem repliedMemory {α : Type} {note : α → Trail} {r : Except String α} :
    (replied w note r).2.memory = w.memory := by
  cases r <;> rfl

theorem worktreeMemory {r : Except String WorktreeInfo} : (newWorktree w r).2.memory = w.memory := by
  cases r with
  | error error => rfl
  | ok info =>
    unfold newWorktree
    dsimp only
    split <;> rfl

theorem memoryAnswered (change : Memory → Memory) :
    respond ⟨n,who⟩ c w (.memory change) = (.ok (w.memory n.process),
      setMemory w n.process (change (w.memory n.process))) := by
  unfold respond
  split <;> rfl

theorem answerFlag (q : Question) (flagless : Flagless q) :
    stopping n (answer ⟨n,who⟩ c w q).2 = stopping n w := by
  have kept {after : World} (same : after.memory = w.memory) : stopping n after = stopping n w := by
    unfold stopping
    rw [same]
  cases q with
  | memory change =>
    show (if n.process = n.process then change (w.memory n.process)
      else w.memory n.process).shutdownRequested = _
    rw [if_pos rfl]
    exact flagless change rfl _
  | updateTaskStatus => exact kept writtenMemory
  | updateRouteStep => exact kept writtenMemory
  | appendEvent => exact kept writtenMemory
  | finalizeTaskExecution => exact kept writtenMemory
  | createWorktree => exact kept worktreeMemory
  | stopAdapter => exact kept repliedMemory
  | collectResult => exact kept repliedMemory
  | assertSourceUnchanged => exact kept repliedMemory
  | createTask | claimNextTask | heartbeatTask | recoverStaleTasks | recoverTasksOwnedBy
  | createRun | updateRun | addArtifact | approveTaskReview | requestTaskRework
  | retryBlockedTask => exact kept storedMemory
  | _ => exact kept rfl

theorem respondFlag {q : Question} (flagless : Flagless q) :
    stopping n (respond ⟨n,who⟩ c w q).2 = stopping n w := by
  unfold respond
  split
  · split
    · rfl
    · exact answerFlag q flagless
  · exact answerFlag q flagless

end

section
variable {n : ThreadId} {o : Options} {aggregate : TaskAggregate} {log : List Mark}

inductive Looked (o : Options) (aggregate : TaskAggregate) (log : List Mark) (stopping : Bool) :
    TaskCrew Unit → Prop
  | ends {main : TaskCrew Unit} (asks : Asks Alone main) : Looked o aggregate log stopping main
  | looks {f : Bool → TaskCrew Unit} (stage : Stage o aggregate log (looked f)) :
      Looked o aggregate log stopping (looked f)
  | starts {before : List Nat} {sequence : Nat} {rest : List Nat} {c : Carried}
      (split : before ++ sequence::rest = sequencesOf (pendingSteps aggregate))
      (carries : Carries aggregate before c log) (passed : Passed aggregate before log)
      (started : Started aggregate before log) (running : stopping = false) :
      Looked o aggregate log stopping (startGroup o (executionTask aggregate)
        (pendingSteps aggregate) sequence rest c)

theorem loopLooked {before rest : List Nat} {c : Carried} (stopping : Bool)
    (split : before ++ rest = sequencesOf (pendingSteps aggregate))
    (carries : Carries aggregate before c log) (passed : Passed aggregate before log)
    (started : Started aggregate before log) :
    Looked o aggregate log stopping (whole (runSequences o (executionTask aggregate)
      (pendingSteps aggregate) rest c)) := by
  cases rest with
  | nil => exact .ends (aloneWhole (closesFinish _ _))
  | cons sequence rest =>
    rw [sequencesLook]
    refine .looks ?_
    rw [← sequencesLook]
    exact .ready split carries passed started rfl

theorem stageLooked {q : Question} {next : Except String (Answer q) → TaskCrew Unit}
    (stage : Stage o aggregate log (.ask (.inl q) next)) (c : Choice) (w : World) :
    Closes q ∧ Looked o aggregate log (stopping n w) (next (respond ⟨n,none⟩ c w q).1) := by
  generalize same : (.ask (.inl q) next : TaskCrew Unit) = main at stage
  cases stage with
  | ready split carries passed started equal =>
    rw [equal,sequencesLook] at same
    cases same
    refine ⟨fun _ => rfl,?_⟩
    rw [memoryAnswered]
    show Looked o aggregate log (stopping n w) (if stopping n w = true then _ else _)
    split
    · exact .ends (aloneWhole (closesInterrupted _ _))
    next running => exact .starts split carries passed started (by simpa using running)
  | working => cases same
  | checking split carries passed started equal =>
    rw [equal,groupLook] at same
    cases same
    refine ⟨fun _ => rfl,?_⟩
    rw [memoryAnswered]
    show Looked o aggregate log (stopping n w) (if stopping n w = true then _ else _)
    split
    · exact .ends (aloneWhole (closesInterrupted _ _))
    · split
      next failure _ => exact .ends (aloneWhole (closesFailure _ _ _))
      next none_ => exact loopLooked _ split carries (passed none_) started

theorem aloftAlone {main : TaskCrew Unit} {orphans : Group} (asks : Asks Alone main) :
    aloft ⟨main,orphans⟩ = orphans := by
  unfold aloft
  cases main with
  | ask q next =>
    cases q with
    | inl q => rfl
    | inr members => exact asks.1.elim
  | done a => rfl
  | fail error => rfl

theorem settledAlone {main : TaskCrew Unit} {orphans : Group} (asks : Asks Alone main) :
    settled .main ⟨main,orphans⟩ = [] := by
  cases main with
  | ask q next =>
    cases q with
    | inl q => rfl
    | inr members => exact asks.1.elim
  | done a => rfl
  | fail error => rfl

theorem askedApart {q : Question} {r : Except String (Answer q)} (stepId : String) :
    Apart stepId (.asked none q r) := ⟨rfl,fun _ => rfl⟩

theorem groupKeys (o : Options) (task : TaskRow) (c : Carried) (steps : List RouteStepRow) :
    (groupMembers o task c steps).map Prod.fst = steps.map RouteStepRow.id := by
  unfold groupMembers
  rw [List.map_map]
  rfl

theorem startStanding (distinct : ((pendingSteps aggregate).map RouteStepRow.id).Nodup)
    {before rest : List Nat} {sequence : Nat} {c : Carried} {w : World}
    (flag : stopping n w = true ↔ Mark.shutdown ∈ log) (logged : Logged o aggregate log)
    (split : before ++ sequence::rest = sequencesOf (pendingSteps aggregate))
    (carries : Carries aggregate before c log) (passed : Passed aggregate before log)
    (started : Started aggregate before log) (running : Mark.shutdown ∉ log) :
    Standing n o aggregate ⟨⟨startGroup o (executionTask aggregate) (pendingSteps aggregate)
      sequence rest c,[]⟩,w,log ++ settled .main ⟨startGroup o (executionTask aggregate)
      (pendingSteps aggregate) sequence rest c,[]⟩⟩ := by
  have ordered := groupOrdered distinct split carries passed started running (o := o)
  have keys := groupKeys o (executionTask aggregate) c (group (pendingSteps aggregate) sequence)
  show Standing n o aggregate ⟨⟨.ask (.inr (groupMembers o (executionTask aggregate) c
    (group (pendingSteps aggregate) sequence))) _,[]⟩,w,log ++ [.began (groupMembers o
    (executionTask aggregate) c (group (pendingSteps aggregate) sequence))]⟩
  generalize groupMembers o (executionTask aggregate) c
    (group (pendingSteps aggregate) sequence) = members at *
  refine ⟨?_,?_,fun m inside => ?_,?_,.inl ⟨rfl,.working split (carriesMark carries fun _ _ => rfl)
    (passedMark carries (fun _ _ => rfl) passed) ?_ keys (fun _ => rfl) fun _ => rfl⟩⟩
  · exact flag.trans (by simp)
  · refine loggedMark logged (fun members' same => ?_) (fun _ _ _ same => nomatch same)
      (fun _ _ same => nomatch same)
      fun stepId _ _ => ⟨rfl,fun _ => rfl⟩
    cases same
    exact ⟨sequence,ordered⟩
  · have inside : m ∈ members ++ [] := inside
    rw [List.append_nil] at inside
    exact groupFlies logged ordered m inside
  · show ((members ++ []).map Prod.fst).Nodup
    rw [List.append_nil,keys]
    exact distinct.sublist (List.filter_sublist.map _)
  · unfold Started stepsOf
    rw [begunAppend,started,List.flatMap_append,List.map_append]
    simp [begun,begunOf,keys,stepsOf]

theorem mainStanding (distinct : ((pendingSteps aggregate).map RouteStepRow.id).Nodup)
    {q : Question} {r : Except String (Answer q)} {main next : TaskCrew Unit} {orphans : Group}
    {w after : World} (standing : Standing n o aggregate ⟨⟨main,orphans⟩,w,log⟩)
    (alone : aloft ⟨main,orphans⟩ = orphans) (closes : Closes q)
    (flag : stopping n after = stopping n w)
    (leads : Asks Alone next ∨
      orphans = [] ∧ Looked o aggregate (log ++ [.asked none q r]) (stopping n w) next) :
    Standing n o aggregate ⟨⟨next,orphans⟩,after,log ++ [.asked none q r] ++
      settled .main ⟨next,orphans⟩⟩ := by
  have logged : Logged o aggregate (log ++ [.asked none q r]) :=
    loggedMark standing.logged (fun _ same => nomatch same) (fun _ _ _ same => nomatch same)
      (fun _ _ same => by cases same; exact closes) fun stepId _ _ => askedApart stepId
  have flights := standing.flights
  have apart := standing.distinct
  rw [alone] at flights apart
  have flights : ∀ m ∈ orphans, Flies o aggregate (log ++ [.asked none q r]) m :=
    fun m inside => fliesApart (flights m inside) (askedApart m.1)
  have flag : stopping n after = true ↔ Mark.shutdown ∈ log ++ [.asked none q r] := by
    rw [flag]
    exact standing.flag.trans (by simp)
  have running : stopping n w = false → Mark.shutdown ∉ log ++ [.asked none q r] := by
    intro running there
    have there : Mark.shutdown ∈ log := by simpa using there
    rw [standing.flag.mpr there] at running
    cases running
  clear standing
  generalize log ++ [.asked none q r] = log at *
  have ending (asks : Asks Alone next) : Standing n o aggregate ⟨⟨next,orphans⟩,after,
      log ++ settled .main ⟨next,orphans⟩⟩ := by
    rw [settledAlone asks,List.append_nil]
    refine ⟨flag,logged,?_,?_,.inr asks⟩
    · rw [aloftAlone asks]
      exact flights
    · rw [aloftAlone asks]
      exact apart
  rcases leads with asks | ⟨rfl,leads⟩
  · exact ending asks
  · cases leads with
    | ends asks => exact ending asks
    | @looks f stage =>
      show Standing n o aggregate ⟨⟨looked f,[]⟩,after,log ++ []⟩
      rw [List.append_nil]
      exact ⟨flag,logged,nofun,List.nodup_nil,.inl ⟨rfl,stage⟩⟩
    | starts split carries passed started goes =>
      exact startStanding distinct flag logged split carries passed started (running goes)

def lastMark (stepId : String) : Script Question Answer StepOutcome → List Mark
  | .done outcome => [.ended stepId outcome]
  | _ => []

theorem outcomeReplaced {stepId : String} {c c' : Script Question Answer StepOutcome}
    {members : Group} (found : member stepId members = some c) :
    outcomeIn stepId (replace stepId c' members) = lastMark stepId c' := by
  unfold outcomeIn
  rw [memberReplaced found]
  cases c' <;> rfl

theorem stageOfMark {job : Job} {mark : Mark} (stage : StageOf o aggregate log job)
    (quiet : begunOf mark = [])
    (fresh : ∀ stepId, endings stepId log ≠ [] → endingOf stepId mark = none) :
    StageOf o aggregate (log ++ [mark]) job :=
  stage.imp (fun h => ⟨h.1,stageMark h.2 quiet fresh⟩) id

theorem flightStanding {stepId : String} {q : Question} {job job' : Job} {w after : World}
    {next : Except String (Answer q) → Script Question Answer StepOutcome}
    {r : Except String (Answer q)} (standing : Standing n o aggregate ⟨job,w,log⟩)
    (inside : (stepId,.ask q next) ∈ aloft job)
    (flag : Flagless q → stopping n after = stopping n w)
    (others : ∀ m ∈ aloft job', m = (stepId,next r) ∨ m.1 ≠ stepId ∧ m ∈ aloft job)
    (keys : (aloft job').map Prod.fst = (aloft job).map Prod.fst)
    (stays : ∀ log, StageOf o aggregate log job → StageOf o aggregate log job') :
    Standing n o aggregate ⟨job',after,log ++ [.asked (some stepId) q r] ++
      lastMark stepId (next r)⟩ := by
  have flies := standing.flights _ inside
  obtain ⟨⟨t,rfl,owned⟩,flies'⟩ := fliesAsked flies r
  obtain ⟨first,members,rest,split,listed,may⟩ := owned.may
  have began := ownedBegun owned
  have logged : Logged o aggregate (log ++ [.asked (some t.id) q r]) := by
    refine loggedMark standing.logged (fun _ same => nomatch same) (fun stepId q' r' same => ?_)
      (fun _ _ same => nomatch same) fun stepId unbegun _ => ⟨rfl,fun s => if_neg fun same : t.id = stepId =>
        unbegun (same ▸ began)⟩
    cases same
    exact ⟨t,rfl,owned⟩
  have stage : StageOf o aggregate (log ++ [.asked (some t.id) q r]) job :=
    stageOfMark standing.stage rfl fun _ _ => rfl
  have unended : endings t.id (log ++ [.asked (some t.id) q r]) = [] :=
    (endingsApart rfl).trans owned.unended
  have flights : ∀ m ∈ aloft job, m.1 ≠ t.id →
      Flies o aggregate (log ++ [.asked (some t.id) q r]) m := fun m inside other =>
    fliesApart (standing.flights m inside) ⟨rfl,fun s => if_neg (Ne.symm other)⟩
  have flag : stopping n after = true ↔ Mark.shutdown ∈ log ++ [.asked (some t.id) q r] := by
    rw [flag (mayFlagless may)]
    exact standing.flag.trans (by simp)
  have began : t.id ∈ begun (log ++ [.asked (some t.id) q r]) := by
    rw [begunAppend]
    exact List.mem_append_left _ began
  have apart := standing.distinct
  rw [← keys] at apart
  clear standing
  generalize log ++ [.asked (some t.id) q r] = log at *
  generalize next r = script at *
  have still (same : lastMark t.id script = []) (flies' : Flies o aggregate log (t.id,script)) :
      Standing n o aggregate ⟨job',after,log ++ lastMark t.id script⟩ := by
    rw [same,List.append_nil]
    refine ⟨flag,logged,fun m inside => ?_,apart,stays _ stage⟩
    rcases others m inside with rfl | ⟨other,old⟩
    · exact flies'
    · exact flights m old other
  cases script with
  | fail error => exact still rfl (by simpa using flies')
  | ask q' next' => exact still rfl (by simpa using flies')
  | done outcome =>
    refine ⟨flag.trans (by simp [lastMark]),?_,fun m inside => ?_,apart,stays _ ?_⟩
    · exact loggedMark logged (fun _ same => nomatch same) (fun _ _ _ same => nomatch same)
        (fun _ _ same => nomatch same) fun stepId unbegun _ => ⟨if_neg fun same : t.id = stepId => unbegun (same ▸ began),
          fun _ => rfl⟩
    · rcases others m inside with rfl | ⟨other,old⟩
      · exact flies'
      · exact fliesApart (flights m old other) ⟨if_neg (Ne.symm other),fun _ => rfl⟩
    · exact stageOfMark stage rfl fun stepId ended =>
        if_neg fun same : t.id = stepId => ended (same ▸ unended)

theorem joinStage (distinct : ((pendingSteps aggregate).map RouteStepRow.id).Nodup)
    {members : Group} {all : List StepOutcome}
    {next : Except String (List StepOutcome) → TaskCrew Unit}
    (stage : Stage o aggregate log (.ask (.inr members) next)) (joined : results members = some all)
    (flights : ∀ m ∈ members, Flies o aggregate log m) :
    Stage o aggregate log (next (.ok all)) ∧ ∃ f, next (.ok all) = looked f := by
  obtain ⟨before,sequence,rest,c,working⟩ := workingSource stage
  have listed : ∀ t ∈ group (pendingSteps aggregate) sequence, t ∈ pendingSteps aggregate :=
    fun t inside => List.mem_of_mem_filter inside
  obtain ⟨appended,each⟩ := joinedEndings distinct listed working.keys joined flights
  have after : stepsOf aggregate (before ++ [sequence]) =
      stepsOf aggregate before ++ group (pendingSteps aggregate) sequence := by
    simp [stepsOf]
  have split : (before ++ [sequence]) ++ rest = sequencesOf (pendingSteps aggregate) := by
    rw [← working.split,List.append_assoc]
    rfl
  refine ⟨.checking split ⟨?_,fun t inside => ?_⟩ (fun none_ t inside required outcome ended => ?_)
    working.started (working.joins all),_,(working.joins all).trans (groupLook ..)⟩
  · rw [after,List.flatMap_append,appended,List.filterMap_append,← List.append_assoc,
      ← working.carries.results]
    rfl
  · rw [after] at inside
    rcases List.mem_append.mp inside with earlier | now
    · exact working.carries.ended t earlier
    · obtain ⟨outcome,_,ends,_⟩ := each t now
      exact ⟨outcome,ends⟩
  · rw [after] at inside
    rcases List.mem_append.mp inside with earlier | now
    · exact working.passed t earlier required outcome ended
    · obtain ⟨outcome',inside,ends,same⟩ := each t now
      rw [ends] at ended
      cases List.mem_singleton.mp ended
      have passes := List.find?_eq_none.mp none_ outcome inside
      rw [same,required] at passes
      simpa using passes

theorem memberAdds {stepId : String} {members orphans : Group} {q : Question}
    {rest : Except String (Answer q) → Script Question Answer StepOutcome}
    {next : Except String (List StepOutcome) → TaskCrew Unit} {c : Choice} {w : World}
    (found : member stepId members = some (.ask q rest)) :
    log ++ answered n c w (asked (.member stepId) ⟨.ask (.inr members) next,orphans⟩) ++
        settled (.member stepId) ⟨.ask (.inr (replace stepId
          (rest (respond ⟨n,some stepId⟩ c w q).1) members)) next,orphans⟩ =
      log ++ [.asked (some stepId) q (respond ⟨n,some stepId⟩ c w q).1] ++
        lastMark stepId (rest (respond ⟨n,some stepId⟩ c w q).1) := by
  rw [askedMember found]
  exact congrArg (log ++ [Mark.asked (some stepId) q (respond ⟨n,some stepId⟩ c w q).1] ++ ·)
    (outcomeReplaced found)

theorem orphanAdds {stepId : String} {main : TaskCrew Unit} {orphans : Group} {q : Question}
    {rest : Except String (Answer q) → Script Question Answer StepOutcome} {c : Choice} {w : World}
    (found : member stepId orphans = some (.ask q rest)) :
    log ++ answered n c w (asked (.orphan stepId) ⟨main,orphans⟩) ++
        settled (.orphan stepId) ⟨main,replace stepId
          (rest (respond ⟨n,some stepId⟩ c w q).1) orphans⟩ =
      log ++ [.asked (some stepId) q (respond ⟨n,some stepId⟩ c w q).1] ++
        lastMark stepId (rest (respond ⟨n,some stepId⟩ c w q).1) := by
  rw [askedOrphan found]
  exact congrArg (log ++ [Mark.asked (some stepId) q (respond ⟨n,some stepId⟩ c w q).1] ++ ·)
    (outcomeReplaced found)

section
variable {members orphans : Group} {w : World}
  {next : Except String (List StepOutcome) → TaskCrew Unit}

theorem waitingStage (standing : Standing n o aggregate ⟨⟨.ask (.inr members) next,orphans⟩,w,log⟩) :
    orphans = [] ∧ Stage o aggregate log (.ask (.inr members) next) := by
  rcases standing.stage with held | asks
  · exact held
  · exact asks.1.elim

theorem memberStanding {stepId : String} {q : Question} {c : Choice}
    {rest : Except String (Answer q) → Script Question Answer StepOutcome}
    (standing : Standing n o aggregate ⟨⟨.ask (.inr members) next,orphans⟩,w,log⟩)
    (found : member stepId members = some (.ask q rest)) :
    Standing n o aggregate ⟨⟨.ask (.inr (replace stepId (rest (respond ⟨n,some stepId⟩ c w q).1)
        members)) next,orphans⟩,(respond ⟨n,some stepId⟩ c w q).2,
      log ++ [.asked (some stepId) q (respond ⟨n,some stepId⟩ c w q).1] ++
        lastMark stepId (rest (respond ⟨n,some stepId⟩ c w q).1)⟩ := by
  have apart : ((members ++ orphans).map Prod.fst).Nodup := standing.distinct
  rw [List.map_append] at apart
  obtain ⟨own,_,other⟩ := List.nodup_append.mp apart
  refine flightStanding standing (List.mem_append_left _ (memberListed found)) respondFlag
    (fun m inside => ?_) ?_ fun log stage => ?_
  · rcases List.mem_append.mp inside with inside | inside
    · exact (replaceListed own inside).imp id fun h => ⟨h.1,List.mem_append_left _ h.2⟩
    · refine .inr ⟨fun same => ?_,List.mem_append_right _ inside⟩
      exact other _ (List.mem_map_of_mem (memberListed found)) _ (List.mem_map_of_mem inside)
        same.symm
  · show ((replace stepId _ members ++ orphans).map Prod.fst) = (members ++ orphans).map Prod.fst
    rw [List.map_append,List.map_append,replaceKeys]
  · rcases stage with ⟨none_,stage⟩ | asks
    · exact .inl ⟨none_,stageMembers stage (replaceKeys _ _ _)⟩
    · exact asks.1.elim

theorem joinStanding (distinct : ((pendingSteps aggregate).map RouteStepRow.id).Nodup)
    {all : List StepOutcome} (joined : results members = some all)
    (standing : Standing n o aggregate ⟨⟨.ask (.inr members) next,orphans⟩,w,log⟩) :
    Standing n o aggregate ⟨⟨next (.ok all),orphans⟩,w,log⟩ := by
  obtain ⟨rfl,stage⟩ := waitingStage standing
  obtain ⟨stage,f,same⟩ := joinStage distinct stage joined fun m inside =>
    standing.flights m (List.mem_append_left _ inside)
  rw [same] at stage ⊢
  exact ⟨standing.flag,standing.logged,nofun,List.nodup_nil,.inl ⟨rfl,stage⟩⟩

theorem rejectStanding {stepId error : String}
    (standing : Standing n o aggregate ⟨⟨.ask (.inr members) next,orphans⟩,w,log⟩) :
    Standing n o aggregate ⟨⟨next (.error error),
      orphans ++ members.filter fun m => m.1 ≠ stepId⟩,w,log⟩ := by
  obtain ⟨rfl,stage⟩ := waitingStage standing
  obtain ⟨_,_,_,_,working⟩ := workingSource stage
  rw [working.rejects]
  refine ⟨standing.flag,standing.logged,fun m inside => ?_,?_,.inr trivial⟩
  · have inside : m ∈ members.filter fun m => m.1 ≠ stepId := inside
    exact standing.flights m (List.mem_append_left _ (List.mem_of_mem_filter inside))
  · have apart : ((members ++ []).map Prod.fst).Nodup := standing.distinct
    rw [List.append_nil] at apart
    exact apart.sublist (List.filter_sublist.map _)

end

theorem orphanStanding {stepId : String} {main : TaskCrew Unit} {orphans : Group} {q : Question}
    {rest : Except String (Answer q) → Script Question Answer StepOutcome} {c : Choice} {w : World}
    (standing : Standing n o aggregate ⟨⟨main,orphans⟩,w,log⟩)
    (found : member stepId orphans = some (.ask q rest)) :
    Standing n o aggregate ⟨⟨main,replace stepId (rest (respond ⟨n,some stepId⟩ c w q).1) orphans⟩,
      (respond ⟨n,some stepId⟩ c w q).2,
      log ++ [.asked (some stepId) q (respond ⟨n,some stepId⟩ c w q).1] ++
        lastMark stepId (rest (respond ⟨n,some stepId⟩ c w q).1)⟩ := by
  have asks : Asks Alone main := by
    rcases standing.stage with ⟨none_,_⟩ | asks
    · have none_ : orphans = [] := none_
      rw [none_] at found
      cases found
    · exact asks
  have own : (orphans.map Prod.fst).Nodup := by
    have apart := standing.distinct
    rwa [aloftAlone asks] at apart
  refine flightStanding standing ?_ respondFlag (fun m inside => ?_) ?_ fun log _ => .inr asks
  · rw [aloftAlone asks]
    exact memberListed found
  · rw [aloftAlone asks] at inside ⊢
    exact replaceListed own inside
  · rw [aloftAlone asks,aloftAlone asks,replaceKeys]

theorem turnStanding (distinct : ((pendingSteps aggregate).map RouteStepRow.id).Nodup)
    {pick : Pick String} {c : Choice} {job job' : Job} {w after : World}
    (standing : Standing n o aggregate ⟨job,w,log⟩)
    (moved : Moved (fun who q w => respond ⟨n,who⟩ c w q) w pick job job' after) :
    Standing n o aggregate
      ⟨job',after,log ++ answered n c w (asked pick job) ++ settled pick job'⟩ := by
  cases moved with
  | @main q next orphans =>
    have marks : answered n c w (asked .main ⟨(.ask (.inl q) next : TaskCrew Unit),orphans⟩) =
        [.asked none q (respond ⟨n,none⟩ c w q).1] := rfl
    rw [marks]
    rcases standing.stage with ⟨none_,stage⟩ | asks
    · have stage : Stage o aggregate (log ++ [.asked none q (respond ⟨n,none⟩ c w q).1])
          (.ask (.inl q) next) := stageMark stage rfl fun _ _ => rfl
      obtain ⟨closes,leads⟩ := stageLooked (n := n) stage c w
      exact mainStanding distinct standing rfl closes (respondFlag (closesFlagless closes))
        (.inr ⟨none_,leads⟩)
    · exact mainStanding distinct standing rfl asks.1 (respondFlag (closesFlagless asks.1))
        (.inl (asks.2 _))
  | member found =>
    rw [memberAdds found]
    exact memberStanding standing found
  | @join members orphans all next joined =>
    show Standing n o aggregate ⟨⟨next (.ok all),orphans⟩,w,log ++ [] ++ []⟩
    rw [List.append_nil,List.append_nil]
    exact joinStanding distinct joined standing
  | @reject stepId members orphans error next failed =>
    show Standing n o aggregate ⟨⟨next (.error error),_⟩,w,log ++ [] ++ []⟩
    rw [List.append_nil,List.append_nil]
    exact rejectStanding standing
  | orphan found =>
    rw [orphanAdds found]
    exact orphanStanding standing found

theorem stepStanding (distinct : ((pendingSteps aggregate).map RouteStepRow.id).Nodup) (a : Attempt)
    (e : Event) (standing : Standing n o aggregate a) : Standing n o aggregate (step n a e) := by
  cases e with
  | turn pick c =>
    simp only [step]
    split
    next job world advanced => exact turnStanding distinct standing (advanceMoved advanced)
    next => exact standing
  | others world =>
    refine ⟨?_,standing.logged,standing.flights,standing.distinct,standing.stage⟩
    have kept : stopping n (meanwhile n a.world world) = stopping n a.world := by
      simp [stopping,meanwhile,setMemory]
    show stopping n (meanwhile n a.world world) = true ↔ _
    rw [kept]
    exact standing.flag
  | requestShutdown =>
    refine ⟨?_,?_,fun m inside => fliesApart (standing.flights m inside) ⟨rfl,fun _ => rfl⟩,
      standing.distinct,stageOfMark standing.stage rfl fun _ _ => rfl⟩
    · refine iff_of_true ?_ (by simp [step])
      simp [step,stopping,stop,setMemory]
    · exact loggedMark standing.logged (fun _ same => nomatch same) (fun _ _ _ same => nomatch same)
        (fun _ _ same => nomatch same) fun _ _ _ => ⟨rfl,fun _ => rfl⟩

theorem attemptStanding (o : Options) (aggregate : TaskAggregate) (w : World) :
    Standing n o aggregate (attempt n o aggregate w) := by
  have marks (mark : Mark) (listed : mark ∈ (attempt n o aggregate w).log) : mark = .shutdown := by
    unfold attempt at listed
    dsimp only at listed
    split at listed
    · exact List.mem_singleton.mp listed
    · exact absurd listed List.not_mem_nil
  have flag : stopping n w = true ↔ Mark.shutdown ∈ (attempt n o aggregate w).log := by
    unfold attempt
    dsimp only
    split
    next set => exact iff_of_true set (List.mem_singleton_self _)
    next unset => exact iff_of_false unset List.not_mem_nil
  have unended (stepId : String) : endings stepId (attempt n o aggregate w).log = [] :=
    List.filterMap_eq_nil_iff.mpr fun mark listed => by rw [marks mark listed]; rfl
  have unheard (stepId : String) : seen stepId (attempt n o aggregate w).log = .initial := by
    unfold attempt
    dsimp only
    split <;> rfl
  have unbegun : begun (attempt n o aggregate w).log = [] :=
    List.flatMap_eq_nil_iff.mpr fun mark listed => by rw [marks mark listed]; rfl
  have logged : Logged o aggregate (attempt n o aggregate w).log := by
    refine ⟨fun front members back split => ?_,fun front stepId q r back split => ?_,
      fun q r listed => ?_,fun stepId _ => ⟨unended stepId,unheard stepId⟩⟩
    · cases marks (.began members) (by rw [split]; simp)
    · cases marks (.asked (some stepId) q r) (by rw [split]; simp)
    · cases marks (.asked none q r) listed
  have standing (main : TaskCrew Unit) (same : (attempt n o aggregate w).job = ⟨main,[]⟩)
      (alone : aloft ⟨main,[]⟩ = []) (stage : StageOf o aggregate (attempt n o aggregate w).log
        ⟨main,[]⟩) : Standing n o aggregate (attempt n o aggregate w) := by
    refine ⟨flag,logged,fun m inside => ?_,?_,?_⟩
    · rw [same,alone] at inside
      exact absurd inside List.not_mem_nil
    · rw [same,alone]
      exact List.nodup_nil
    · rw [same]
      exact stage
  let start : Carried := ⟨[],aggregate.runs.filterMap historicalAdapterResult,
    (latestWorktreeRun aggregate).map (takenOver aggregate.task)⟩
  have carries : Carries aggregate [] start (attempt n o aggregate w).log :=
    ⟨(List.append_nil _).symm,fun t inside => absurd inside List.not_mem_nil⟩
  have looked : Looked o aggregate (attempt n o aggregate w).log true (whole (runSequences o
      (executionTask aggregate) (pendingSteps aggregate) (sequencesOf (pendingSteps aggregate))
      start)) :=
    loopLooked true rfl carries (fun t inside => absurd inside List.not_mem_nil) unbegun
  have job : (attempt n o aggregate w).job = ⟨whole (runSequences o (executionTask aggregate)
    (pendingSteps aggregate) (sequencesOf (pendingSteps aggregate)) start),[]⟩ := rfl
  generalize whole _ = main at looked job
  cases looked with
  | ends asks => exact standing _ job (aloftAlone asks) (.inr asks)
  | looks stage => exact standing _ job rfl (.inl ⟨rfl,stage⟩)
  | starts _ _ _ _ running => cases running

theorem pendingDistinct {db : ControlCenterDb}
    (read : aggregate.routeSteps = listRouteSteps aggregate.task.id db) :
    ((pendingSteps aggregate).map RouteStepRow.id).Nodup := by
  have listed : (aggregate.routeSteps.map RouteStepRow.id).Nodup := by
    rw [read]
    unfold listRouteSteps
    rw [((List.perm_insertionSort stepOrder _).map _).nodup_iff]
    exact db.routeSteps.distinct.sublist (List.filter_sublist.map _)
  exact listed.sublist (List.filter_sublist.map _)

end

def plannedStep (id : String) (sequence : Nat) : RouteStepRow :=
  ⟨id,"task_1",sequence,.codex,.execute,true,"Codex executes.",.pending,none,1000,1000⟩

def plannedTask : TaskRow := ⟨"task_1","Ship it","/repo","main",.codex,.normal,none,[],none,false,
  .running,.sequential,.normal,[],"",some "worker-1",some 1000,1000,1000⟩

def plannedDb : ControlCenterDb :=
  let tasks := ⟨[plannedTask],by decide⟩
  let routeSteps := ⟨[plannedStep "step_1" 0,plannedStep "step_2" 1],by decide⟩
  {ControlCenterDb.empty with tasks,routeSteps}

def planned : TaskAggregate where
  task := plannedTask
  routeSteps := listRouteSteps "task_1" plannedDb
  runs := []
  artifacts := []
  messages := []
  reviews := []

def crew : Options := ⟨"worker-1",1000,fun _ => true⟩

def answering (n : Nat) : Choice := ⟨2000,toString n,none,EvidenceRevisions.reply⟩

def plannedTurns : List Event := .turn .main (answering 0)::
  (List.range 60).map (fun n => .turn (.member "step_1") (answering n)) ++
    [.turn .join (answering 0),.turn .main (answering 0),.turn .main (answering 0)]

end ControlCenter.StepOrder
