import ControlCenter.RunLogic
import ControlCenter.Worktrees

/-! How a command is run: what it prints is collected under a limit, and it is given a time.
Its chunks, its timers and its end come in any order. -/
namespace ControlCenter.ProcessRuns
open RunLogic
open Protocol (trim)
open Worktrees (ProcessResult ProcessExecutionError)

abbrev Bytes := List UInt8

inductive OutputKind where
  | stdout | stderr
  deriving DecidableEq, Repr

inductive Signal where
  | sigterm | sigkill
  deriving DecidableEq, Repr

structure Spec where
  command : String
  args : List String
  timeoutMs : Nat
  maxOutputBytes : Nat
  -- The text of bytes, whether or not they are UTF-8.
  toText : Bytes → String

inductive ForceKill where
  | unset | armed | cleared | fired
  deriving DecidableEq, Repr

-- The signals that were sent are kept in the model alone.
structure State where
  stdout : Bytes
  stderr : Bytes
  outputBytes : Nat
  failureReason : Option String
  outcome : Option (Except ProcessExecutionError ProcessResult)
  timing : Bool
  forceKill : ForceKill
  signals : List Signal

def State.initial : State := ⟨[],[],0,none,none,true,.unset,[]⟩

inductive Event where
  | data (kind : OutputKind) (chunk : Bytes)
  | timeout
  | killTime
  | error (message : String)
  | close (exitCode : Option Int) (signal : Option String)
  deriving DecidableEq, Repr

def stop (reason : String) (s : State) : State := {s with
  failureReason := some (s.failureReason.getD reason)
  signals := s.signals ++ [.sigterm]
  forceKill := if s.forceKill = .unset then .armed else s.forceKill}

def settle (outcome : Except ProcessExecutionError ProcessResult) (s : State) : State := {s with
  outcome := some outcome
  timing := false
  forceKill := if s.forceKill = .armed then .cleared else s.forceKill}

section
variable (spec : Spec)

def collect (kind : OutputKind) (chunk : Bytes) (s : State) : State :=
  let outputBytes := s.outputBytes + chunk.length
  if spec.maxOutputBytes < outputBytes then
    stop s!"Process output exceeded {spec.maxOutputBytes} bytes" {s with outputBytes}
  else match kind with
    | .stdout => {s with outputBytes,stdout := s.stdout ++ chunk}
    | .stderr => {s with outputBytes,stderr := s.stderr ++ chunk}

def failure (message : String) (exitCode : Option Int) (signal : Option String) (s : State) :
    ProcessExecutionError :=
  ⟨message,spec.command,spec.args,exitCode,signal,spec.toText s.stdout,spec.toText s.stderr⟩

def statusText (exitCode : Option Int) (signal : Option String) : String :=
  (exitCode.map toString).getD (signal.getD "unknown status")

def exitText (exitCode : Option Int) (signal : Option String) (s : State) : String :=
  let printed := trim (spec.toText s.stderr)
  s!"{spec.command} exited with {statusText exitCode signal}: " ++
    if printed = "" then trim (spec.toText s.stdout) else printed

def closed (exitCode : Option Int) (signal : Option String) (s : State) :
    Except ProcessExecutionError ProcessResult :=
  if exitCode = some 0 ∧ s.failureReason = none then
    .ok ⟨spec.toText s.stdout,spec.toText s.stderr⟩
  else
    let message := s.failureReason.getD (exitText spec exitCode signal s)
    .error (failure spec message exitCode signal s)

def verdict (s : State) : Event → Option (Except ProcessExecutionError ProcessResult)
  | .error message =>
      some (.error (failure spec s!"Could not start {spec.command}: {message}" none none s))
  | .close exitCode signal => some (closed spec exitCode signal s)
  | _ => none

def step (s : State) : Event → State
  | .data kind chunk => collect spec kind chunk s
  | .timeout =>
      if s.timing then stop s!"Process timed out after {spec.timeoutMs}ms" {s with timing := false}
      else s
  | .killTime =>
      if s.forceKill = .armed then
        {s with forceKill := .fired,signals := s.signals ++ [.sigkill]}
      else s
  | e => match s.outcome,verdict spec s e with
      | none,some r => settle r s
      | _,_ => s

end

def printedBy (kind : OutputKind) : Event → Bytes
  | .data k chunk => if k = kind then chunk else []
  | _ => []

def printed (kind : OutputKind) (events : List Event) : Bytes := events.flatMap (printedBy kind)

def total (events : List Event) : Nat :=
  (printed .stdout events).length + (printed .stderr events).length

def ends : Event → Bool
  | .error _ | .close .. => true
  | _ => false

structure Signalled (s : State) : Prop where
  first : s.signals.head? ≠ some .sigkill
  unset : s.forceKill = .unset ↔ s.signals = []
  once : s.signals.count .sigkill = if s.forceKill = .fired then 1 else 0

structure Known (spec : Spec) (events : List Event) (s : State) : Prop where
  counted : s.outputBytes = total events
  held : s.stdout.length + s.stderr.length ≤ s.outputBytes
  limited : s.stdout.length + s.stderr.length ≤ spec.maxOutputBytes
  whole : total events ≤ spec.maxOutputBytes →
    s.stdout = printed .stdout events ∧ s.stderr = printed .stderr events
  timing : s.outcome = none → (s.timing = true ↔ Event.timeout ∉ events)
  reason : s.outcome = none → (s.failureReason = none ↔
    total events ≤ spec.maxOutputBytes ∧ Event.timeout ∉ events)
  signalled : Signalled s

section
variable {spec : Spec} {events front back : List Event} {s : State} {e : Event}

theorem printedLast {kind : OutputKind} :
    printed kind (events ++ [e]) = printed kind events ++ printedBy kind e := by
  simp [printed]

theorem totalLast : total (events ++ [e]) =
    total events + ((printedBy .stdout e).length + (printedBy .stderr e).length) := by
  simp only [total,printedLast,List.length_append]
  omega

theorem totalData {kind : OutputKind} {chunk : Bytes} :
    total (events ++ [.data kind chunk]) = total events + chunk.length := by
  rw [totalLast]
  cases kind <;> simp [printedBy]

theorem outcomeStays {r : Except ProcessExecutionError ProcessResult}
    (settled : s.outcome = some r) : (step spec s e).outcome = some r := by
  cases e with
  | data kind chunk =>
    simp only [step,collect]
    split
    · exact settled
    · cases kind <;> exact settled
  | timeout =>
    simp only [step]
    split <;> exact settled
  | killTime =>
    simp only [step]
    split <;> exact settled
  | error message => simp [step,settled]
  | close exitCode signal => simp [step,settled]

theorem outcomeKept {r : Except ProcessExecutionError ProcessResult}
    (settled : s.outcome = some r) : (reach (step spec) s events).outcome = some r :=
  have kept (s : State) (e : Event) (held : (fun s : State => s.outcome = some r) s) :
      (fun s : State => s.outcome = some r) (step spec s e) := outcomeStays held
  reachKept (step spec) kept settled events

theorem stopSignalled {reason : String} (known : Signalled s) : Signalled (stop reason s) := by
  obtain ⟨first,unset,once⟩ := known
  refine ⟨?_,?_,?_⟩
  · cases signals : s.signals with
    | nil => simp [stop,signals]
    | cons signal rest => simpa [stop,signals] using first
  · cases kill : s.forceKill <;> simp [stop,kill]
  · cases kill : s.forceKill <;> simp [stop,kill,List.count_append] at once ⊢ <;> exact once

theorem settleSignalled {r : Except ProcessExecutionError ProcessResult} (known : Signalled s) :
    Signalled (settle r s) := by
  obtain ⟨first,unset,once⟩ := known
  refine ⟨first,?_,?_⟩
  · cases kill : s.forceKill <;> simp [settle,kill] at unset ⊢ <;> exact unset
  · cases kill : s.forceKill <;> simp [settle,kill] at once ⊢ <;> exact once

theorem killSignalled (known : Signalled s) (armed : s.forceKill = .armed) :
    Signalled {s with forceKill := .fired,signals := s.signals ++ [.sigkill]} := by
  obtain ⟨first,unset,once⟩ := known
  refine ⟨?_,by simp,?_⟩
  · cases signals : s.signals with
    | nil => exact absurd (unset.mpr signals) (by simp [armed])
    | cons signal rest => simpa [signals] using first
  · simp [armed] at once
    simp [List.count_append,once]

theorem dataKnown {kind : OutputKind} {chunk : Bytes} (known : Known spec events s) :
    Known spec (events ++ [.data kind chunk]) (step spec s (.data kind chunk)) := by
  have counted := known.counted
  have held := known.held
  have limited := known.limited
  have untimed : Event.timeout ∈ events ++ [.data kind chunk] ↔ Event.timeout ∈ events := by simp
  have sum : total (events ++ [.data kind chunk]) = total events + chunk.length := totalData
  simp only [step,collect]
  split
  next exceeds =>
    refine ⟨?_,?_,?_,?_,?_,?_,?_⟩
    · exact sum ▸ congrArg (· + chunk.length) counted
    · exact Nat.le_add_right_of_le held
    · exact limited
    · intro small
      omega
    · intro running
      rw [untimed]
      exact known.timing running
    · intro running
      refine iff_of_false (fun none_ => by cases none_) fun small => ?_
      omega
    · exact stopSignalled ⟨known.signalled.first,known.signalled.unset,known.signalled.once⟩
  next within =>
    have prior : total events ≤ spec.maxOutputBytes := by omega
    obtain ⟨out,err⟩ := known.whole prior
    have reason (running : s.outcome = none) : s.failureReason = none ↔
        total (events ++ [.data kind chunk]) ≤ spec.maxOutputBytes ∧
          Event.timeout ∉ events ++ [.data kind chunk] := by
      rw [untimed,known.reason running]
      exact and_congr_left fun _ => iff_of_true prior (by omega)
    cases kind with
    | stdout =>
      refine ⟨sum ▸ congrArg (· + chunk.length) counted,?_,?_,fun _ => ⟨?_,?_⟩,fun running => ?_,
        reason,⟨known.signalled.first,known.signalled.unset,known.signalled.once⟩⟩
      · simp only [List.length_append]
        omega
      · simp only [List.length_append]
        omega
      · exact (congrArg (· ++ chunk) out).trans (by simp [printed,printedBy])
      · exact err.trans (by simp [printed,printedBy])
      · rw [untimed]
        exact known.timing running
    | stderr =>
      refine ⟨sum ▸ congrArg (· + chunk.length) counted,?_,?_,fun _ => ⟨?_,?_⟩,fun running => ?_,
        reason,⟨known.signalled.first,known.signalled.unset,known.signalled.once⟩⟩
      · simp only [List.length_append]
        omega
      · simp only [List.length_append]
        omega
      · exact out.trans (by simp [printed,printedBy])
      · exact (congrArg (· ++ chunk) err).trans (by simp [printed,printedBy])
      · rw [untimed]
        exact known.timing running

theorem totalQuiet (quiet : ∀ kind, printedBy kind e = []) : total (events ++ [e]) = total events := by
  rw [totalLast,quiet,quiet]
  rfl

theorem printedQuiet {kind : OutputKind} (quiet : ∀ kind, printedBy kind e = []) :
    printed kind (events ++ [e]) = printed kind events := by
  rw [printedLast,quiet,List.append_nil]

theorem restKnown (quiet : ∀ kind, printedBy kind e = []) (other : e ≠ .timeout)
    (known : Known spec events s) : Known spec (events ++ [e]) s := by
  have untimed : Event.timeout ∈ events ++ [e] ↔ Event.timeout ∈ events := by
    simp [other.symm]
  obtain ⟨counted,held,limited,whole,timing,reason,signalled⟩ := known
  refine ⟨?_,held,limited,?_,?_,?_,signalled⟩
  · rwa [totalQuiet quiet]
  · rwa [totalQuiet quiet,printedQuiet quiet,printedQuiet quiet]
  · rwa [untimed]
  · rwa [untimed,totalQuiet quiet]

theorem timeoutKnown (known : Known spec events s) :
    Known spec (events ++ [.timeout]) (step spec s .timeout) := by
  have quiet (kind : OutputKind) : printedBy kind .timeout = [] := rfl
  have passed : Event.timeout ∈ events ++ [Event.timeout] := by simp
  obtain ⟨counted,held,limited,whole,timing,reason,signalled⟩ := known
  simp only [step]
  split
  next running =>
    refine ⟨?_,held,limited,?_,fun _ => ?_,fun _ => ?_,stopSignalled ?_⟩
    · rwa [totalQuiet quiet]
    · rwa [totalQuiet quiet,printedQuiet quiet,printedQuiet quiet]
    · exact iff_of_false Bool.false_ne_true fun out => out passed
    · exact iff_of_false (fun none_ => by cases none_) fun out => out.2 passed
    · exact ⟨signalled.first,signalled.unset,signalled.once⟩
  next stopped =>
    refine ⟨?_,held,limited,?_,fun running => ?_,fun running => ?_,signalled⟩
    · rwa [totalQuiet quiet]
    · rwa [totalQuiet quiet,printedQuiet quiet,printedQuiet quiet]
    · exact iff_of_false stopped fun out => out passed
    · refine iff_of_false (fun none_ => ?_) fun out => out.2 passed
      exact stopped ((timing running).mpr ((reason running).mp none_).2)

theorem killKnown (known : Known spec events s) :
    Known spec (events ++ [.killTime]) (step spec s .killTime) := by
  have after : Known spec (events ++ [.killTime]) s :=
    restKnown (fun _ => rfl) (fun same => by cases same) known
  simp only [step]
  split
  next armed =>
    obtain ⟨counted,held,limited,whole,timing,reason,signalled⟩ := after
    exact ⟨counted,held,limited,whole,timing,reason,killSignalled signalled armed⟩
  next => exact after

theorem endKnown (ending : ends e = true) (known : Known spec events s) :
    Known spec (events ++ [e]) (step spec s e) := by
  have quiet (kind : OutputKind) : printedBy kind e = [] := by
    cases e <;> first | rfl | cases ending
  have other : e ≠ .timeout := fun same => by simp [same,ends] at ending
  have after := restKnown quiet other known
  have settled (r : Except ProcessExecutionError ProcessResult) :
      Known spec (events ++ [e]) (settle r s) := by
    obtain ⟨counted,held,limited,whole,_,_,signalled⟩ := after
    exact ⟨counted,held,limited,whole,(fun none_ => by cases none_),(fun none_ => by cases none_),
      settleSignalled signalled⟩
  cases e with
  | data | timeout | killTime => cases ending
  | error message =>
    simp only [step]
    split
    · exact settled _
    · exact after
  | close exitCode signal =>
    simp only [step]
    split
    · exact settled _
    · exact after

theorem stepKnown (known : Known spec events s) : Known spec (events ++ [e]) (step spec s e) := by
  cases e with
  | data kind chunk => exact dataKnown known
  | timeout => exact timeoutKnown known
  | killTime => exact killKnown known
  | error message => exact endKnown rfl known
  | close exitCode signal => exact endKnown rfl known

theorem reachKnown : Known spec events (reach (step spec) .initial events) := by
  induction events using List.reverseRecOn with
  | nil =>
    refine ⟨rfl,Nat.le_refl 0,Nat.zero_le _,fun _ => ⟨rfl,rfl⟩,fun _ => ?_,fun _ => ?_,?_⟩
    · exact iff_of_true rfl List.not_mem_nil
    · exact iff_of_true rfl ⟨Nat.zero_le _,List.not_mem_nil⟩
    · exact ⟨(fun none_ => by cases none_),iff_of_true rfl rfl,rfl⟩
  | append_singleton front e ih =>
    rw [reachLast]
    exact stepKnown ih

theorem endSettles (ending : ends e = true) (running : s.outcome = none) :
    ∃ r, verdict spec s e = some r ∧ (step spec s e).outcome = some r := by
  cases e with
  | data | timeout | killTime => cases ending
  | error message => exact ⟨_,rfl,by simp [step,running,verdict,settle]⟩
  | close exitCode signal => exact ⟨_,rfl,by simp [step,running,verdict,settle]⟩

theorem goesOn (other : ends e = false) : (step spec s e).outcome = s.outcome := by
  cases e with
  | data kind chunk =>
    simp only [step,collect]
    split
    · rfl
    · cases kind <;> rfl
  | timeout =>
    simp only [step]
    split <;> rfl
  | killTime =>
    simp only [step]
    split <;> rfl
  | error message => cases other
  | close exitCode signal => cases other

theorem quietOpen (quiet : ∀ d ∈ events, ends d = false) :
    (reach (step spec) .initial events).outcome = none := by
  induction events using List.reverseRecOn with
  | nil => rfl
  | append_singleton front e ih =>
    rw [reachLast,goesOn (quiet e (List.mem_append_right _ (List.mem_singleton_self e)))]
    exact ih fun d inside => quiet d (List.mem_append_left _ inside)

theorem firstEnd (events : List Event) : (∀ d ∈ events, ends d = false) ∨
    ∃ front e back, events = front ++ e::back ∧ (∀ d ∈ front, ends d = false) ∧ ends e = true := by
  induction events with
  | nil => exact .inl fun d inside => absurd inside List.not_mem_nil
  | cons e rest ih =>
    cases ending : ends e with
    | true => exact .inr ⟨[],e,rest,rfl,fun d inside => absurd inside List.not_mem_nil,ending⟩
    | false =>
      rcases ih with quiet | ⟨front,e',back,rfl,quiet,ended⟩
      · exact .inl (List.forall_mem_cons.mpr ⟨ending,quiet⟩)
      · exact .inr ⟨e::front,e',back,rfl,List.forall_mem_cons.mpr ⟨ending,quiet⟩,ended⟩

theorem endedBy (spec : Spec) (back : List Event) (quiet : ∀ d ∈ front, ends d = false)
    (ending : ends e = true) : ∃ r, verdict spec (reach (step spec) .initial front) e = some r ∧
      (reach (step spec) .initial (front ++ e::back)).outcome = some r := by
  have running : (reach (step spec) .initial front).outcome = none := quietOpen quiet
  obtain ⟨r,judged,settled⟩ := endSettles ending running
  refine ⟨r,judged,?_⟩
  have kept : (reach (step spec) (step spec (reach (step spec) .initial front) e) back).outcome =
      some r := outcomeKept settled
  rw [reachAppend]
  exact kept

theorem closedOk {exitCode : Option Int} {signal : Option String} {result : ProcessResult} :
    closed spec exitCode signal s = .ok result ↔ exitCode = some 0 ∧ s.failureReason = none ∧
      result = ⟨spec.toText s.stdout,spec.toText s.stderr⟩ := by
  unfold closed
  split
  next clean =>
    exact ⟨fun same => ⟨clean.1,clean.2,(Except.ok.inj same).symm⟩,
      fun ⟨_,_,same⟩ => congrArg Except.ok same.symm⟩
  next failed =>
    exact ⟨(fun same => by cases same),fun ⟨zero,none_,_⟩ => absurd ⟨zero,none_⟩ failed⟩

/-- In whatever order chunks, timers and ends come, a command succeeds exactly when the first
of its ends is a close with 0, before which no time ran out and no more was printed than is
allowed; its texts are then all that was printed. No more than that is ever held, and a kill
is sent once at most, after a request to end. -/
theorem processRun :
    (∀ result, (reach (step spec) .initial events).outcome = some (.ok result) ↔
      ∃ front signal back, events = front ++ .close (some 0) signal::back ∧
        (∀ d ∈ front, ends d = false) ∧ Event.timeout ∉ front ∧
        total front ≤ spec.maxOutputBytes ∧
        result = ⟨spec.toText (printed .stdout front),spec.toText (printed .stderr front)⟩) ∧
    (reach (step spec) .initial events).stdout.length +
      (reach (step spec) .initial events).stderr.length ≤ spec.maxOutputBytes ∧
    (reach (step spec) .initial events).signals.head? ≠ some .sigkill ∧
    (reach (step spec) .initial events).signals.count .sigkill ≤ 1 := by
  have known : Known spec events (reach (step spec) .initial events) := reachKnown
  refine ⟨fun result => ⟨fun succeeded => ?_,?_⟩,known.limited,known.signalled.first,?_⟩
  · rcases firstEnd events with quiet | ⟨front,e,back,rfl,quiet,ending⟩
    · rw [quietOpen quiet] at succeeded
      cases succeeded
    · obtain ⟨r,judged,settled⟩ := endedBy spec back quiet ending
      rw [settled] at succeeded
      cases Option.some.inj succeeded
      have before : Known spec front (reach (step spec) .initial front) := reachKnown
      cases e with
      | data | timeout | killTime => cases ending
      | error message => cases judged
      | close exitCode signal =>
        obtain ⟨rfl,none_,rfl⟩ := closedOk.mp (Option.some.inj judged)
        obtain ⟨small,untimed⟩ := (before.reason (quietOpen quiet)).mp none_
        obtain ⟨out,err⟩ := before.whole small
        exact ⟨front,signal,back,rfl,quiet,untimed,small,by rw [out,err]⟩
  · rintro ⟨front,signal,back,rfl,quiet,untimed,small,rfl⟩
    have before : Known spec front (reach (step spec) .initial front) := reachKnown
    have ending : ends (.close (some 0) signal) = true := rfl
    obtain ⟨r,judged,settled⟩ := endedBy spec back quiet ending
    obtain ⟨out,err⟩ := before.whole small
    have none_ := (before.reason (quietOpen quiet)).mpr ⟨small,untimed⟩
    have ok : closed spec (some 0) signal (reach (step spec) .initial front) = .ok _ :=
      closedOk.mpr ⟨rfl,none_,rfl⟩
    rw [settled,← Option.some.inj judged,ok,out,err]
  · rw [known.signalled.once]
    split <;> omega

end

end ControlCenter.ProcessRuns
