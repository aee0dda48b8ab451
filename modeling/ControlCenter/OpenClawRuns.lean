import ControlCenter.JsonValue
import ControlCenter.RunLogic
import Mathlib.Logic.Function.Basic

/-! The record of an OpenClaw run, shared by the calls that poll it and stop it: each call
waits for the gateway, for a file or for a timer between its own steps. -/
namespace ControlCenter.OpenClawRuns
open JsonValue RunLogic

inductive Status where
  | running
  | succeeded
  | failed
  | stopped
  | stale
  deriving DecidableEq, Repr

def isRecord : Json → Bool
  | .object _ => true
  | _ => false

def truthy : Json → Bool
  | .undefined | .null | .boolean false => false
  | .number n => match n with
      | .finite q => q ≠ 0
      | .negativeZero | .nan => false
      | .infinity _ => true
  | .string s => s ≠ ""
  | .boolean true | .array _ | .object _ => true

def stringField (value : Json) (names : List String) : Option String :=
  names.findSome? fun name => (value.get name).text.filter (· ≠ "")

def extractSummary (payload : Json) : String :=
  if !isRecord payload then ""
  else match stringField payload ["result","summary","output"] with
    | some direct => direct
    | none =>
        if isRecord (payload.get "result") then
          (stringField (payload.get "result") ["summary","output","content","text"]).getD ""
        else ""

def extractError (payload : Json) : Option String :=
  if !isRecord payload then none
  else match payload.get "error" with
    | .string error => some error
    | error => if isRecord error then stringField error ["message","detail"] else none

def extractExitCode (payload : Json) : Option Number :=
  if !isRecord payload then none
  else match payload.get "exitCode" with
    | .number code => some code
    | _ => none

structure Adapter where
  toLowerCase : String → String
  runId : String
  pollTimeoutMs : Int
  stopTimeoutMs : Int
  maxConsecutivePollErrors : Nat

def statusWord (raw : String) : Option Status :=
  if ["done","completed","complete","success","succeeded"].contains raw then some .succeeded
  else if ["failed","failure","error","blocked"].contains raw then some .failed
  else if ["stopped","cancelled","canceled"].contains raw then some .stopped
  else if ["stale","unknown","lost"].contains raw then some .stale
  else if ["queued","starting","running","pending","in-progress","in_progress"].contains raw then
    some .running
  else none

def Adapter.extractStatus (o : Adapter) (payload : Json) : Status :=
  if !isRecord payload then .running
  else
    let raw := (stringField payload ["status","state"]).map o.toLowerCase
    match statusWord (raw.getD "") with
    | some status => status
    | none =>
        if truthy (payload.get "error") then .failed
        else if (raw.getD "" = "") ∧ extractSummary payload ≠ "" then .succeeded
        else .running

structure RunState where
  status : Status
  finishedAt : Option Int
  exitCode : Option Number
  summary : String
  error : Option String

structure Response where
  ok : Bool
  status : Nat
  payload : Json

inductive Write where
  | summary (text : String)
  | answer (payload : Json)
  | unconfirmed (error : String)
  | reason (text : String)

section
variable (o : Adapter)

def RunState.started (payload : Json) (now : Int) : RunState :=
  let status := o.extractStatus payload
  ⟨status,if status = .running then none else some now,extractExitCode payload,
    extractSummary payload,extractError payload⟩

def RunState.write (state : RunState) (now : Int) : Write → RunState
  | .summary text => {state with summary := text}
  | .answer payload =>
      let status := o.extractStatus payload
      {state with
        exitCode := extractExitCode payload
        error := extractError payload
        status
        finishedAt := if status = .running then state.finishedAt else some now}
  | .unconfirmed error => {state with status := .stale, finishedAt := some now, error := some error}
  | .reason text =>
      if state.status = .succeeded then state else {state with error := some (state.error.getD text)}

def Write.status : Write → Option Status
  | .answer payload => some (o.extractStatus payload)
  | .unconfirmed _ => some .stale
  | .summary _ | .reason _ => none

end

inductive Tail where
  | stop
  | cancel (deadline : Int) (errors : Nat) (reason : String) (last : Bool)

inductive Purpose where
  | poll (deadline : Int) (errors : Nat)
  | stop (t : Tail)
  | stopPoll (t : Tail) (errors : Nat) (deadline : Int)

inductive Stage where
  | requesting
  | logging (r : Response)
  | writing (payload : Json)

inductive Phase where
  | exchange (p : Purpose) (stage : Stage)
  | updated (p : Purpose)
  | pollFailed (deadline : Int) (errors : Nat) (message : String)
  | sleeping (deadline : Int) (errors : Nat)
  | cancelling (deadline : Int) (errors : Nat) (reason : String) (last : Bool)
  | pausing (t : Tail) (errors : Nat) (deadline : Int)
  | stopPollFailed (t : Tail) (errors : Nat) (deadline : Int) (message : String)
  | confirmed (t : Tail)
  | unconfirmed (t : Tail)
  | cancelled (deadline : Int) (errors : Nat) (last : Bool)
  | returned (result : RunState)
  | stillRunning
  | rejected (error : String)

-- How an awaited operation comes out.
inductive Answer where
  | done
  | response (r : Response)
  | failed (message : String)

abbrev Moved := Phase × Option Write

section
variable (o : Adapter)

def resultSnapshot (state : RunState) : Moved :=
  if state.status = .running ∨ state.finishedAt = none then (.stillRunning,none)
  else (.returned state,none)

def confirmFailed (t : Tail) (message : String) : Moved := match t with
  | .stop => (.unconfirmed .stop,
      some (.unconfirmed ("Remote cancellation could not be confirmed: " ++ message)))
  | .cancel deadline errors reason last => (.unconfirmed (.cancel deadline errors reason last),
      some (.unconfirmed (reason ++ "; remote cancellation could not be confirmed: " ++ message)))

def thrown (p : Purpose) (message : String) : Moved := match p with
  | .poll deadline errors => (.pollFailed deadline errors message,none)
  | .stop t => confirmFailed t message
  | .stopPoll t errors deadline => (.stopPollFailed t errors deadline message,none)

def Purpose.name : Purpose → String
  | .poll _ _ | .stopPoll _ _ _ => "result"
  | .stop _ => "stop"

def updateState (p : Purpose) (payload : Json) : Moved :=
  if extractSummary payload = "" then (.updated p,some (.answer payload))
  else (.exchange p (.writing payload),some (.summary (extractSummary payload)))

def exchangeMove (p : Purpose) : Stage → Answer → Moved
  | .requesting,.response r => (.exchange p (.logging r),none)
  | .logging r,.done =>
      if r.ok then updateState p r.payload
      else thrown p ("OpenClaw " ++ p.name ++ " returned HTTP " ++ toString r.status)
  | .writing payload,.done => (.updated p,some (.answer payload))
  | _,.failed message => thrown p message
  | stage,_ => (.exchange p stage,none)

def pollLoop (deadline : Int) (errors : Nat) (now : Int) (state : RunState) : Moved :=
  if state.status ≠ .running then resultSnapshot state
  else if deadline < now then
    (.cancelling deadline errors
      ("Timed out waiting " ++ toString o.pollTimeoutMs ++ "ms for OpenClaw run " ++ o.runId) true,none)
  else (.exchange (.poll deadline errors) .requesting,none)

def rest (deadline : Int) (errors : Nat) (state : RunState) : Moved :=
  if state.status = .running then (.sleeping deadline errors,none) else resultSnapshot state

def stopLoop (t : Tail) (errors : Nat) (deadline now : Int) (state : RunState) : Moved :=
  if state.status ≠ .running then (.confirmed t,none)
  else if deadline < now then
    confirmFailed t ("OpenClaw did not confirm cancellation within " ++ toString o.stopTimeoutMs ++ "ms")
  else (.pausing t errors deadline,none)

def ended (t : Tail) (state : RunState) : Moved := match t with
  | .stop => resultSnapshot state
  | .cancel deadline errors _ last => (.cancelled deadline errors last,none)

def advance (phase : Phase) (answer : Answer) (now : Int) (state : RunState) : Moved :=
  match phase,answer with
  | .exchange p stage,answer => exchangeMove p stage answer
  | .updated (.poll deadline _),_ => rest deadline 0 state
  | .updated (.stop t),_ => stopLoop o t 0 (now + o.stopTimeoutMs) now state
  | .updated (.stopPoll t _ deadline),_ => stopLoop o t 0 deadline now state
  | .pollFailed deadline errors message,.done =>
      if o.maxConsecutivePollErrors ≤ errors + 1 then
        (.cancelling deadline (errors + 1) ("OpenClaw polling failed " ++ toString (errors + 1) ++
          " consecutive times: " ++ message) false,none)
      else rest deadline (errors + 1) state
  | .sleeping deadline errors,.done => pollLoop o deadline errors now state
  | .cancelling deadline errors reason last,.done =>
      (.exchange (.stop (.cancel deadline errors reason last)) .requesting,none)
  | .pausing t errors deadline,.done => (.exchange (.stopPoll t errors deadline) .requesting,none)
  | .stopPollFailed t errors deadline message,.done =>
      if o.maxConsecutivePollErrors ≤ errors + 1 then confirmFailed t message
      else stopLoop o t (errors + 1) deadline now state
  | .stopPollFailed t _ _ _,.failed message => confirmFailed t message
  | .confirmed .stop,_ => resultSnapshot state
  | .confirmed (.cancel deadline errors reason last),_ =>
      (.cancelled deadline errors last,some (.reason reason))
  | .unconfirmed t,.done => ended t state
  | .cancelled deadline errors last,_ =>
      if last then resultSnapshot state else rest deadline errors state
  | .pollFailed _ _ _,.failed error | .cancelling _ _ _ _,.failed error
  | .unconfirmed _,.failed error => (.rejected error,none)
  | phase,_ => (phase,none)

end

structure System where
  run : RunState
  calls : Nat → Option Phase

inductive Event where
  | collectResult (i : Nat) (now : Int)
  | stop (i : Nat)
  | move (i : Nat) (answer : Answer) (now : Int)

section
variable (o : Adapter) (s : System)

def System.enter (i : Nat) (now : Int) (m : Moved) : System :=
  ⟨(m.2.map (s.run.write o now)).getD s.run,Function.update s.calls i (some m.1)⟩

def moved : Event → Option (Nat × Int × Moved)
  | .collectResult i now => match s.calls i with
      | none => some (i,now,pollLoop o (now + o.pollTimeoutMs) 0 now s.run)
      | some _ => none
  | .stop i => match s.calls i with
      | none => some (i,0,if s.run.status ≠ .running then resultSnapshot s.run
          else (.exchange (.stop .stop) .requesting,none))
      | some _ => none
  | .move i answer now => (s.calls i).map fun phase => (i,now,advance o phase answer now s.run)

def step (e : Event) : System := match moved o s e with
  | some (i,now,m) => s.enter o i now m
  | none => s

end

def Dated (run : RunState) : Prop := run.status ≠ .running → run.finishedAt ≠ none

section
variable (o : Adapter) (status : Status)

def Purpose.clear : Purpose → Bool
  | .poll _ errors => decide (errors + 1 < o.maxConsecutivePollErrors)
  | .stop _ | .stopPoll _ _ _ => status == .stale

-- The call asks the gateway nothing more before it looks at the status again, and what it
-- has still to record says that status.
def Phase.clear : Phase → Bool
  | .exchange _ .requesting | .cancelling _ _ _ _ | .pausing _ _ _ => false
  | .exchange p (.logging r) => (!r.ok || o.extractStatus r.payload == status) && p.clear o status
  | .exchange p (.writing payload) => o.extractStatus payload == status && p.clear o status
  | .pollFailed _ errors _ => decide (errors + 1 < o.maxConsecutivePollErrors)
  | .stopPollFailed _ _ _ _ => status == .stale
  | .updated _ | .sleeping _ _ | .confirmed _ | .unconfirmed _ | .cancelled _ _ _ | .returned _
  | .stillRunning | .rejected _ => true

def Phase.Reports : Phase → Prop
  | .returned result => result.status = status
  | .stillRunning => False
  | _ => True

structure Settles (phase : Phase) (m : Moved) : Prop where
  writes : ∀ w, m.2 = some w → ∀ written, w.status o = some written → written = status
  clear : m.1.clear o status = true
  reports : m.1 = phase ∨ m.1.Reports status

end

section
variable {o : Adapter} {run : RunState} {now : Int}

theorem writeDated (dated : Dated run) (w : Write) : Dated (run.write o now w) := by
  cases w with
  | summary text => exact dated
  | answer payload =>
    intro ended
    simp only [RunState.write] at ended ⊢
    rw [if_neg ended]
    exact Option.some_ne_none now
  | unconfirmed error => exact fun _ => Option.some_ne_none now
  | reason text =>
    simp only [RunState.write]
    split <;> exact dated

theorem writtenStatus (w : Write) : (run.write o now w).status = (w.status o).getD run.status := by
  cases w with
  | summary | answer | unconfirmed => rfl
  | reason text =>
    simp only [RunState.write]
    split <;> rfl

theorem settlesMove {phase next : Phase} {status : Status} (clear : next.clear o status = true)
    (reports : next.Reports status) : Settles o status phase (next,none) :=
  ⟨(fun _ written => by cases written),clear,.inr reports⟩

theorem settlesRest {phase : Phase} {status : Status} (clear : phase.clear o status = true) :
    Settles o status phase (phase,none) :=
  ⟨(fun _ written => by cases written),clear,.inl rfl⟩

theorem settlesWrite {phase next : Phase} {status : Status} {w : Write}
    (same : ∀ written, w.status o = some written → written = status)
    (clear : next.clear o status = true) (reports : next.Reports status) :
    Settles o status phase (next,some w) :=
  ⟨fun _ own => Option.some.inj own ▸ same,clear,.inr reports⟩

theorem settlesSnapshot (dated : Dated run) (ended : run.status ≠ .running) (phase : Phase) :
    Settles o run.status phase (resultSnapshot run) := by
  have finished := dated ended
  simp only [resultSnapshot,ended,finished,or_self,if_false]
  exact settlesMove rfl rfl

theorem settlesFailed {status : Status} (stale : status = .stale) (phase : Phase) (t : Tail)
    (message : String) : Settles o status phase (confirmFailed t message) := by
  subst stale
  cases t <;> exact settlesWrite (fun _ same => (Option.some.inj same).symm) rfl trivial

theorem settlesThrown {status : Status} {p : Purpose} (clear : p.clear o status = true)
    (phase : Phase) (message : String) : Settles o status phase (thrown p message) := by
  cases p with
  | poll => exact settlesMove clear trivial
  | stop t => exact settlesFailed (beq_iff_eq.mp clear) phase t message
  | stopPoll => exact settlesMove clear trivial

theorem settlesExchange {status : Status} {p : Purpose} {stage : Stage}
    (clear : (Phase.exchange p stage).clear o status = true) (answer : Answer) :
    Settles o status (.exchange p stage) (exchangeMove p stage answer) := by
  cases stage with
  | requesting => cases clear
  | logging r =>
    obtain ⟨own,safe⟩ := (Bool.and_eq_true _ _).mp clear
    cases answer with
    | response => exact settlesRest clear
    | failed message => exact settlesThrown safe _ message
    | done =>
      simp only [exchangeMove]
      split
      next ok =>
        simp only [ok,Bool.not_true,Bool.false_or,beq_iff_eq] at own
        unfold updateState
        split
        · exact settlesWrite (fun _ same => (Option.some.inj same).symm.trans own) rfl trivial
        · refine settlesWrite (fun _ same => by cases same) ?_ trivial
          exact (Bool.and_eq_true _ _).mpr ⟨beq_iff_eq.mpr own,safe⟩
      next => exact settlesThrown safe _ _
  | writing payload =>
    obtain ⟨own,safe⟩ := (Bool.and_eq_true _ _).mp clear
    cases answer with
    | response => exact settlesRest clear
    | failed message => exact settlesThrown safe _ message
    | done =>
      exact settlesWrite (fun _ same => (Option.some.inj same).symm.trans (beq_iff_eq.mp own)) rfl
        trivial

theorem settlesAfterPoll (dated : Dated run) (ended : run.status ≠ .running) (phase : Phase)
    (deadline : Int) (errors : Nat) : Settles o run.status phase (rest deadline errors run) := by
  rw [rest,if_neg ended]
  exact settlesSnapshot dated ended phase

theorem settlesStopLoop (ended : run.status ≠ .running) (phase : Phase) (t : Tail) (errors : Nat)
    (deadline at_ : Int) : Settles o run.status phase (stopLoop o t errors deadline at_ run) := by
  rw [stopLoop,if_pos ended]
  exact settlesMove rfl trivial

theorem advanceSettles (dated : Dated run) (ended : run.status ≠ .running) {phase : Phase}
    (clear : phase.clear o run.status = true) (answer : Answer) :
    Settles o run.status phase (advance o phase answer now run) := by
  cases phase with
  | exchange p stage => exact settlesExchange clear answer
  | updated p =>
    cases p with
    | poll deadline errors => exact settlesAfterPoll dated ended _ deadline 0
    | stop t => exact settlesStopLoop ended _ t 0 _ now
    | stopPoll t errors deadline => exact settlesStopLoop ended _ t 0 deadline now
  | pollFailed deadline errors message =>
    have few : ¬o.maxConsecutivePollErrors ≤ errors + 1 := Nat.not_le.mpr (of_decide_eq_true clear)
    cases answer with
    | done =>
      simp only [advance,if_neg few]
      exact settlesAfterPoll dated ended _ deadline (errors + 1)
    | response => exact settlesRest clear
    | failed => exact settlesMove rfl trivial
  | sleeping deadline errors =>
    cases answer with
    | done =>
      simp only [advance,pollLoop,if_pos ended]
      exact settlesSnapshot dated ended _
    | response | failed => exact settlesRest clear
  | cancelling | pausing => cases clear
  | stopPollFailed t errors deadline message =>
    have stale : run.status = .stale := beq_iff_eq.mp clear
    cases answer with
    | done =>
      simp only [advance]
      split
      · exact settlesFailed stale _ t message
      · exact settlesStopLoop ended _ t (errors + 1) deadline now
    | response => exact settlesRest clear
    | failed message => exact settlesFailed stale _ t message
  | confirmed t =>
    cases t with
    | stop => exact settlesSnapshot dated ended _
    | cancel => exact settlesWrite (fun _ same => by cases same) rfl trivial
  | unconfirmed t =>
    cases answer with
    | done =>
      cases t with
      | stop => exact settlesSnapshot dated ended _
      | cancel => exact settlesMove rfl trivial
    | response => exact settlesRest clear
    | failed => exact settlesMove rfl trivial
  | cancelled deadline errors last =>
    simp only [advance]
    split
    · exact settlesSnapshot dated ended _
    · exact settlesAfterPoll dated ended _ deadline errors
  | returned | stillRunning | rejected => cases answer <;> exact settlesRest rfl

end

section
variable {o : Adapter} {s : System}

theorem datedStep (dated : Dated s.run) (e : Event) : Dated (step o s e).run := by
  unfold step
  split
  next i now m taken =>
    obtain ⟨phase,w⟩ := m
    cases w with
    | none => exact dated
    | some w => exact writeDated dated w
  next => exact dated

structure Since (o : Adapter) (s : System) (later : System) : Prop where
  status : later.run.status = s.run.status
  dated : Dated later.run
  clear : ∀ i phase, later.calls i = some phase → phase.clear o s.run.status = true
  reports : ∀ i phase, later.calls i = some phase →
    s.calls i = some phase ∨ phase.Reports s.run.status

theorem Since.movedSettles {later : System} (since : Since o s later)
    (ended : s.run.status ≠ .running) {e : Event} {i : Nat} {now : Int} {m : Moved}
    (taken : moved o later e = some (i,now,m)) :
    ∃ phase, Settles o s.run.status phase m ∧ (later.calls i = some phase ∨
      m.1.Reports s.run.status) := by
  have terminal : later.run.status ≠ .running := since.status ▸ ended
  have snapshot : Settles o s.run.status .stillRunning (resultSnapshot later.run) := by
    rw [← since.status]
    exact settlesSnapshot since.dated terminal _
  have answered : (resultSnapshot later.run).1.Reports s.run.status := by
    have finished := since.dated terminal
    simp only [resultSnapshot,terminal,finished,or_self,if_false]
    exact since.status
  cases e with
  | collectResult j at_ =>
    simp only [moved] at taken
    split at taken <;> cases taken
    rw [pollLoop,if_pos terminal]
    exact ⟨_,snapshot,.inr answered⟩
  | stop j =>
    simp only [moved] at taken
    split at taken <;> cases taken
    rw [if_pos terminal]
    exact ⟨_,snapshot,.inr answered⟩
  | move j answer at_ =>
    simp only [moved,Option.map_eq_some_iff] at taken
    obtain ⟨phase,found,same⟩ := taken
    cases same
    have clear := since.clear _ phase found
    rw [← since.status] at clear ⊢
    exact ⟨phase,advanceSettles since.dated terminal clear answer,.inl found⟩

theorem Since.step {later : System} (since : Since o s later) (ended : s.run.status ≠ .running)
    (e : Event) : Since o s (step o later e) := by
  refine ⟨?_,datedStep since.dated e,?_,?_⟩ <;> unfold OpenClawRuns.step <;> split
  next i now m taken =>
    obtain ⟨_,settles,_⟩ := since.movedSettles ended taken
    obtain ⟨phase,w⟩ := m
    cases w with
    | none => exact since.status
    | some w =>
      show (later.run.write o now w).status = s.run.status
      rw [writtenStatus]
      cases written : w.status o with
      | none => exact since.status
      | some status => exact settles.writes w rfl status written
  next => exact since.status
  next i now m taken =>
    intro j phase found
    obtain ⟨_,settles,_⟩ := since.movedSettles ended taken
    have held : Function.update later.calls i (some m.1) j = some phase := found
    rw [Function.update_apply] at held
    split at held
    · cases held
      exact settles.clear
    · exact since.clear j phase held
  next => exact since.clear
  next i now m taken =>
    intro j phase found
    obtain ⟨before,settles,own⟩ := since.movedSettles ended taken
    have held : Function.update later.calls i (some m.1) j = some phase := found
    rw [Function.update_apply] at held
    split at held
    next same =>
      cases held
      subst same
      rcases own with own | reports
      · rcases settles.reports with unmoved | reports
        · exact since.reports j _ (unmoved ▸ own)
        · exact .inr reports
      · exact .inr reports
    next => exact since.reports j phase held
  next => exact since.reports

end

section
variable {o : Adapter} {i : Nat} {status : Status}

def Breaks (o : Adapter) (i : Nat) (status : Status) (phase : Phase) : Prop :=
  ∀ s : System, s.calls i = some phase → s.run.status = status →
    ∃ later, (reach (step o) s later).run.status ≠ status

theorem breaksWriting {phase n : Phase} {a : Answer} {w : Write} {x : Status}
    (moves : ∀ run, advance o phase a 0 run = (n,some w)) (brings : w.status o = some x)
    (other : x ≠ status) : Breaks o i status phase := by
  intro s found _
  refine ⟨[.move i a 0],?_⟩
  have taken : moved o s (.move i a 0) = some (i,0,(n,some w)) := by
    simp only [moved,found,Option.map_some,moves]
  simp only [reach,List.foldl_cons,List.foldl_nil,step,taken]
  show (s.run.write o 0 w).status ≠ status
  rw [writtenStatus,brings]
  exact other

theorem breaksMoving {phase n : Phase} {a : Answer} {w : Option Write}
    (moves : ∀ run, advance o phase a 0 run = (n,w))
    (silent : w.bind (Write.status o) = none) (breaks : Breaks o i status n) :
    Breaks o i status phase := by
  intro s found same
  have taken : moved o s (.move i a 0) = some (i,0,(n,w)) := by
    simp only [moved,found,Option.map_some,moves]
  have stepped : step o s (.move i a 0) = s.enter o i 0 (n,w) := by
    simp only [step,taken]
  obtain ⟨later,differs⟩ := breaks (s.enter o i 0 (n,w)) (Function.update_self ..) (by
    cases w with
    | none => exact same
    | some w =>
      show (s.run.write o 0 w).status = status
      have silent : w.status o = none := silent
      rw [writtenStatus,silent]
      exact same)
  exact ⟨.move i a 0::later,by rw [reach,List.foldl_cons,stepped]; exact differs⟩

theorem breaksRequest (ended : status ≠ .running) (p : Purpose) :
    Breaks o i status (.exchange p .requesting) := by
  refine breaksMoving (a := .response ⟨true,200,.null⟩) (fun _ => rfl) rfl ?_
  exact breaksWriting (a := .done) (w := .answer .null) (fun _ => rfl) rfl ended.symm

theorem breaksCancel (ended : status ≠ .running) {deadline : Int} {errors : Nat} {message : String}
    (many : ¬errors + 1 < o.maxConsecutivePollErrors) :
    Breaks o i status (.pollFailed deadline errors message) := by
  have begins : ∀ run, advance o (.pollFailed deadline errors message) .done 0 run =
      (.cancelling deadline (errors + 1) ("OpenClaw polling failed " ++ toString (errors + 1) ++
        " consecutive times: " ++ message) false,none) := fun _ => if_pos (Nat.not_lt.mp many)
  refine breaksMoving begins rfl ?_
  exact breaksMoving (a := .done) (fun _ => rfl) rfl (breaksRequest ended _)

theorem breaksFailed {phase : Phase} {t : Tail} (other : Status.stale ≠ status) {a : Answer}
    {message : String} (moves : ∀ run, advance o phase a 0 run = confirmFailed t message) :
    Breaks o i status phase := by
  cases t with
  | stop => exact breaksWriting (x := .stale) moves rfl other
  | cancel => exact breaksWriting (x := .stale) moves rfl other

theorem breaksThrown (ended : status ≠ .running) {p : Purpose} (unclear : p.clear o status = false)
    {phase : Phase} (moves : ∀ run, advance o phase (.failed "") 0 run = thrown p "") :
    Breaks o i status phase := by
  cases p with
  | poll deadline errors =>
    exact breaksMoving moves rfl (breaksCancel ended (of_decide_eq_false unclear))
  | stop t => exact breaksFailed (beq_eq_false_iff_ne.mp unclear).symm moves
  | stopPoll t errors deadline =>
    refine breaksMoving moves rfl ?_
    exact breaksFailed (t := t) (a := .failed "") (beq_eq_false_iff_ne.mp unclear).symm
      fun _ => rfl

theorem unclearBreaks (ended : status ≠ .running) {phase : Phase}
    (unclear : phase.clear o status = false) : Breaks o i status phase := by
  cases phase with
  | exchange p stage =>
    cases stage with
    | requesting => exact breaksRequest ended p
    | logging r =>
      rcases (Bool.and_eq_false_iff).mp unclear with other | unclear
      · obtain ⟨failed,other⟩ := (Bool.or_eq_false_iff).mp other
        have ok : r.ok = true := by simpa using failed
        have written : o.extractStatus r.payload ≠ status := beq_eq_false_iff_ne.mp other
        by_cases silent : extractSummary r.payload = ""
        · refine breaksWriting (a := .done) (w := .answer r.payload) (n := .updated p)
            (fun _ => ?_) rfl written
          simp only [advance,exchangeMove,ok,if_true,updateState,silent]
        · have moves : ∀ run, advance o (.exchange p (.logging r)) .done 0 run =
              (.exchange p (.writing r.payload),some (.summary (extractSummary r.payload))) := by
            intro _
            simp only [advance,exchangeMove,ok,if_true,updateState,silent,if_false]
          refine breaksMoving moves rfl ?_
          exact breaksWriting (a := .done) (w := .answer r.payload) (fun _ => rfl) rfl written
      · exact breaksThrown ended unclear fun _ => rfl
    | writing payload =>
      rcases (Bool.and_eq_false_iff).mp unclear with other | unclear
      · exact breaksWriting (a := .done) (w := .answer payload) (fun _ => rfl) rfl
          (beq_eq_false_iff_ne.mp other)
      · exact breaksThrown ended unclear fun _ => rfl
  | pollFailed => exact breaksCancel ended (of_decide_eq_false unclear)
  | cancelling | pausing =>
    exact breaksMoving (a := .done) (fun _ => rfl) rfl (breaksRequest ended _)
  | stopPollFailed t errors deadline message =>
    exact breaksFailed (t := t) (a := .failed "") (beq_eq_false_iff_ne.mp unclear).symm
      fun _ => rfl
  | _ => cases unclear

end

def System.started (o : Adapter) (payload : Json) (now : Int) : System :=
  ⟨.started o payload now,fun _ => none⟩

structure Absorbing (o : Adapter) (s : System) : Prop where
  stays : ∀ later, (reach (step o) s later).run.status = s.run.status
  reports : ∀ later i phase, (reach (step o) s later).calls i = some phase →
    s.calls i = some phase ∨ phase.Reports s.run.status
  answers : ∀ later i now, let t := reach (step o) s later
    t.calls i = none → ∀ e, e = .stop i ∨ e = .collectResult i now →
      ∃ result, (step o t e).calls i = some (.returned result) ∧ result.status = s.run.status

theorem startedDated (o : Adapter) (payload : Json) (now : Int) :
    Dated (System.started o payload now).run := by
  intro ended
  simp only [System.started,RunState.started] at ended ⊢
  rw [if_neg ended]
  exact Option.some_ne_none now

def claw : Adapter := ⟨id,"run_1",600000,30000,3⟩

def words (status : String) : Json := .object [("status",.string status)]

def accepted (status : String) : Answer := .response ⟨true,200,words status⟩

def raced : System := reach (step claw) (.started claw (words "running") 0)
  [.collectResult 0 0,.stop 1,.move 0 (accepted "done") 1,.move 0 .done 1]

def polled : System := reach (step claw) (.started claw (words "running") 0)
  [.collectResult 0 0,.move 0 (accepted "done") 1,.move 0 .done 1]

end ControlCenter.OpenClawRuns
