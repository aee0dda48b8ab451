import ControlCenter.RunLogic
import Mathlib.Data.List.TakeDrop

/-! A supervised process: what its output files hold, how a failure or a stop ends it, and
the verdict once its streams are closed. -/
namespace ControlCenter.ProcessSupervisor
open RunLogic

abbrev Bytes := List UInt8

def utf8 (text : String) : Bytes := text.toUTF8.data.toList

inductive OutputKind where
  | stdout
  | stderr
  deriving DecidableEq, Repr

def OutputKind.name : OutputKind → String
  | .stdout => "stdout"
  | .stderr => "stderr"

structure Spec where
  timeoutMs : Nat
  maximum : OutputKind → Nat
  posix : Bool

inductive Status where
  | succeeded
  | failed
  | stopped
  deriving DecidableEq, Repr

structure SupervisedResult where
  status : Status
  exitCode : Option Int
  signal : Option String
  error : Option String
  deriving DecidableEq, Repr

inductive Termination where
  | none
  | begun
  | resolved
  deriving DecidableEq, Repr

inductive KillTimer where
  | none
  | armed
  -- It has fired; the process tree is given a moment to exit.
  | waiting
  deriving DecidableEq, Repr

structure Finalizing where
  exitCode : Option Int
  signal : Option String
  awaits : Bool

structure InternalRun where
  stopRequested : Bool
  finalizing : Option Finalizing
  result : Option SupervisedResult
  killTimer : KillTimer
  timeoutTimer : Bool
  termination : Termination
  processError : Option String
  failureReason : Option String
  bytes : OutputKind → Nat
  file : OutputKind → Bytes

inductive Event where
  | data (kind : OutputKind) (chunk : Bytes)
  | error (message : String)
  | timeout
  | stop
  | killTimer
  | treeWaited (alive : Bool)
  -- The child is gone with its streams; the process tree as it is looked at once and again.
  | close (exitCode : Option Int) (signal : Option String) (alive aliveStill : Bool)
  | streamsClosed

def supervisorLine (message : String) : Bytes := utf8 ("[process-supervisor] " ++ message ++ "\n")

section
variable (spec : Spec) (s : InternalRun)

def InternalRun.started : InternalRun :=
  ⟨false,none,none,.none,0 < spec.timeoutMs,.none,none,none,fun _ => 0,fun _ => []⟩

def InternalRun.beginTermination : InternalRun :=
  if s.result.isSome || s.termination ≠ .none then s
  else {s with termination := .begun, killTimer := .armed}

def InternalRun.noteFailure (reason : String) : InternalRun :=
  {s with failureReason := s.failureReason <|> some reason}

def InternalRun.fail (reason : String) : InternalRun :=
  if s.result.isSome then s else (s.noteFailure reason).beginTermination

def InternalRun.resolveTermination : InternalRun :=
  if s.termination = .begun then
    {s with
      termination := .resolved
      killTimer := if s.killTimer = .armed then .none else s.killTimer}
  else s

def InternalRun.captureOutput (kind : OutputKind) (chunk : Bytes) : InternalRun :=
  let remaining := spec.maximum kind - s.bytes kind
  let bytesToWrite := min remaining chunk.length
  let written : InternalRun := {s with
    bytes := fun k => if k = kind then s.bytes kind + bytesToWrite else s.bytes k
    file := fun k => if k = kind then s.file kind ++ chunk.take bytesToWrite else s.file k}
  if remaining < chunk.length then
    written.fail (kind.name ++ " exceeded the maximum of " ++ toString (spec.maximum kind) ++ " bytes")
  else written

def InternalRun.hasFailure : Bool :=
  (s.failureReason.any (· ≠ "")) || s.processError.isSome

def InternalRun.verdict (f : Finalizing) : SupervisedResult :=
  let status : Status :=
    if s.hasFailure then .failed
    else if s.stopRequested then .stopped
    else if f.exitCode = some 0 then .succeeded
    else .failed
  let exited := match f.exitCode with
    | some code => "Process exited with code " ++ toString code
    | none => match f.signal with
        | some signal => "Process terminated by " ++ signal
        | none => "Process failed"
  let error := if status ≠ .failed then none
    else some ((s.failureReason <|> s.processError).getD exited)
  ⟨status,f.exitCode,f.signal,error⟩

def InternalRun.noteSurvivors (alive : Bool) : InternalRun :=
  if spec.posix && s.termination = .none && alive then
    (s.noteFailure "Agent process exited while descendant processes remained alive").beginTermination
  else s

def InternalRun.awaitTermination (aliveStill : Bool) : InternalRun :=
  if s.termination ≠ .none && !aliveStill then s.resolveTermination else s

def InternalRun.close (exitCode : Option Int) (signal : Option String) (alive aliveStill : Bool) :
    InternalRun :=
  let s := {s with timeoutTimer := false}.noteSurvivors spec alive
  {s.awaitTermination aliveStill with finalizing := some ⟨exitCode,signal,s.termination ≠ .none⟩}

-- After its close event a child emits nothing.
def step : Event → InternalRun
  | .data kind chunk => if s.finalizing.isSome then s else s.captureOutput spec kind chunk
  | .error message =>
      if s.finalizing.isSome || s.processError.isSome then s
      else {s.noteFailure message with
        processError := some message
        file := fun k => if k = .stderr then s.file k ++ supervisorLine message else s.file k}
  | .timeout =>
      if s.timeoutTimer then
        {s with timeoutTimer := false}.fail
          ("Process timed out after " ++ toString spec.timeoutMs ++ "ms")
      else s
  | .stop => if s.result.isSome then s else {s with stopRequested := true}.beginTermination
  | .killTimer => if s.killTimer = .armed then {s with killTimer := .waiting} else s
  | .treeWaited alive =>
      if s.killTimer = .waiting then
        {(if alive then s.noteFailure "Process tree did not exit after SIGKILL" else s).resolveTermination
          with killTimer := .none}
      else s
  | .close exitCode signal alive aliveStill =>
      if s.result.isSome || s.finalizing.isSome then s
      else s.close spec exitCode signal alive aliveStill
  | .streamsClosed => match s.result,s.finalizing with
      | none,some f =>
          if f.awaits && s.termination = .begun then s else {s with result := some (s.verdict f)}
      | _,_ => s

end

structure Watched where
  run : InternalRun
  streams : OutputKind → Bytes
  noted : Option (Nat × Bytes)

section
variable (spec : Spec)

def Watched.started : Watched := ⟨.started spec,fun _ => [],none⟩

def watch (w : Watched) (e : Event) : Watched where
  run := step spec w.run e
  streams := match e with
    | .data kind chunk =>
        if w.run.finalizing.isSome then w.streams
        else fun k => if k = kind then w.streams kind ++ chunk else w.streams k
    | _ => w.streams
  noted := match e with
    | .error message =>
        if w.run.finalizing.isSome || w.run.processError.isSome then w.noted
        else some (w.run.bytes .stderr,supervisorLine message)
    | _ => w.noted

def records (s : InternalRun) : Event → Bool
  | .data kind chunk =>
      s.finalizing.isNone && decide (spec.maximum kind - s.bytes kind < chunk.length)
  | .error _ => s.finalizing.isNone && s.processError.isNone
  | .timeout => s.timeoutTimer
  | .treeWaited alive => alive && s.killTimer = .waiting
  | .close _ _ alive _ => s.finalizing.isNone && spec.posix && s.termination = .none && alive
  | .stop | .killTimer | .streamsClosed => false

end

section
variable {spec : Spec} {s : InternalRun}

@[simp] theorem beginKeeps : s.beginTermination.result = s.result ∧
    s.beginTermination.finalizing = s.finalizing ∧
    s.beginTermination.failureReason = s.failureReason ∧
    s.beginTermination.processError = s.processError ∧
    s.beginTermination.stopRequested = s.stopRequested ∧
    s.beginTermination.bytes = s.bytes ∧ s.beginTermination.file = s.file := by
  unfold InternalRun.beginTermination
  split <;> simp

@[simp] theorem resolveKeeps : s.resolveTermination.result = s.result ∧
    s.resolveTermination.finalizing = s.finalizing ∧
    s.resolveTermination.failureReason = s.failureReason ∧
    s.resolveTermination.processError = s.processError ∧
    s.resolveTermination.stopRequested = s.stopRequested ∧
    s.resolveTermination.bytes = s.bytes ∧ s.resolveTermination.file = s.file := by
  unfold InternalRun.resolveTermination
  split <;> simp

@[simp] theorem failKeeps (reason : String) : (s.fail reason).result = s.result ∧
    (s.fail reason).finalizing = s.finalizing ∧ (s.fail reason).processError = s.processError ∧
    (s.fail reason).stopRequested = s.stopRequested ∧ (s.fail reason).bytes = s.bytes ∧
    (s.fail reason).file = s.file := by
  unfold InternalRun.fail
  split <;> simp [InternalRun.noteFailure]

theorem failReason (live : s.result = none) (reason : String) :
    (s.fail reason).failureReason = (s.failureReason <|> some reason) := by
  simp [InternalRun.fail,live,InternalRun.noteFailure]

@[simp] theorem captureKeeps (kind : OutputKind) (chunk : Bytes) :
    (s.captureOutput spec kind chunk).result = s.result ∧
    (s.captureOutput spec kind chunk).finalizing = s.finalizing ∧
    (s.captureOutput spec kind chunk).processError = s.processError ∧
    (s.captureOutput spec kind chunk).stopRequested = s.stopRequested := by
  simp only [InternalRun.captureOutput]
  split <;> simp

theorem captureWrites (spec : Spec) (s : InternalRun) (kind : OutputKind) (chunk : Bytes) :
    (s.captureOutput spec kind chunk).bytes = (fun k => if k = kind then
      s.bytes kind + min (spec.maximum kind - s.bytes kind) chunk.length else s.bytes k) ∧
    (s.captureOutput spec kind chunk).file = fun k => if k = kind then
      s.file kind ++ chunk.take (min (spec.maximum kind - s.bytes kind) chunk.length) else s.file k := by
  simp only [InternalRun.captureOutput]
  split <;> simp

theorem captureReason (live : s.result = none) (kind : OutputKind) (chunk : Bytes) :
    (s.captureOutput spec kind chunk).failureReason =
      if spec.maximum kind - s.bytes kind < chunk.length then (s.failureReason <|> some
        (kind.name ++ " exceeded the maximum of " ++ toString (spec.maximum kind) ++ " bytes"))
      else s.failureReason := by
  simp only [InternalRun.captureOutput]
  split
  · rw [failReason]
    exact live
  · rfl

@[simp] theorem survivorsKeep (alive : Bool) : (s.noteSurvivors spec alive).result = s.result ∧
    (s.noteSurvivors spec alive).processError = s.processError ∧
    (s.noteSurvivors spec alive).stopRequested = s.stopRequested ∧
    (s.noteSurvivors spec alive).bytes = s.bytes ∧ (s.noteSurvivors spec alive).file = s.file := by
  unfold InternalRun.noteSurvivors
  split <;> simp [InternalRun.noteFailure]

theorem survivorsReason (alive : Bool) : (s.noteSurvivors spec alive).failureReason =
    if spec.posix && s.termination = .none && alive then (s.failureReason <|> some
      "Agent process exited while descendant processes remained alive")
    else s.failureReason := by
  unfold InternalRun.noteSurvivors
  split <;> simp [InternalRun.noteFailure]

@[simp] theorem awaitKeeps (aliveStill : Bool) : (s.awaitTermination aliveStill).result = s.result ∧
    (s.awaitTermination aliveStill).failureReason = s.failureReason ∧
    (s.awaitTermination aliveStill).processError = s.processError ∧
    (s.awaitTermination aliveStill).stopRequested = s.stopRequested ∧
    (s.awaitTermination aliveStill).bytes = s.bytes ∧
    (s.awaitTermination aliveStill).file = s.file := by
  unfold InternalRun.awaitTermination
  split <;> simp

theorem stepResult (spec : Spec) (s : InternalRun) (e : Event) : (step spec s e).result = s.result ∨ s.result = none ∧
    e = .streamsClosed ∧ ∃ f, s.finalizing = some f ∧ step spec s e = {s with result := some (s.verdict f)} := by
  cases e with
  | streamsClosed =>
    simp only [step]
    split
    next f live finalizing =>
      split
      · exact .inl rfl
      · exact .inr ⟨live,trivial,f,finalizing,rfl⟩
    next => exact .inl rfl
  | treeWaited alive =>
    left
    simp only [step]
    split
    · cases alive <;> simp [InternalRun.noteFailure]
    · rfl
  | close exitCode signal alive aliveStill =>
    left
    simp only [step]
    split
    · rfl
    · simp [InternalRun.close]
  | data | error | timeout | stop | killTimer =>
    left
    simp only [step]
    split <;> simp [InternalRun.noteFailure]

theorem stepStop (live : s.result = none) (e : Event) :
    (step spec s e).stopRequested = true ↔ s.stopRequested = true ∨ e = .stop := by
  cases e with
  | stop => simp [step,live]
  | streamsClosed =>
    simp only [step]
    split
    · split <;> simp
    · simp
  | treeWaited alive =>
    simp only [step]
    split
    · cases alive <;> simp [InternalRun.noteFailure]
    · simp
  | close exitCode signal alive aliveStill =>
    simp only [step]
    split
    · simp
    · simp [InternalRun.close]
  | data | error | timeout | killTimer =>
    simp only [step]
    split <;> simp [InternalRun.noteFailure]

theorem stepReason (live : s.result = none) (e : Event) : (step spec s e).failureReason.isSome = true ↔
    s.failureReason.isSome = true ∨ records spec s e = true := by
  cases e with
  | data kind chunk =>
    simp only [step,records]
    cases s.finalizing with
    | some f => simp
    | none =>
      simp only [Option.isSome_none,Bool.false_eq_true,if_false,captureReason live]
      split
      next beyond => simp [beyond]
      next within => simp [within]
  | error message =>
    simp only [step,records]
    cases s.finalizing <;> cases s.processError <;> simp [InternalRun.noteFailure]
  | timeout =>
    simp only [step,records]
    split
    next armed => simp [failReason,live,armed]
    next idle => simp [idle]
  | treeWaited alive =>
    simp only [step,records]
    split
    next waiting => cases alive <;> simp [InternalRun.noteFailure,waiting]
    next idle => simp [idle]
  | close exitCode signal alive aliveStill =>
    simp only [step,records,live]
    cases s.finalizing with
    | some f => simp
    | none =>
      simp only [Option.isSome_none,Bool.or_self,Bool.false_eq_true,if_false,InternalRun.close,awaitKeeps,
        survivorsReason]
      split
      next alive => simp_all
      next gone => simp_all
  | stop => simp [step,records,live]
  | killTimer =>
    simp only [step,records]
    split <;> simp
  | streamsClosed =>
    simp only [step,records]
    split
    · split <;> simp
    · simp

structure Recorded (s : InternalRun) : Prop where
  named : s.processError.isSome = true → s.failureReason.isSome = true
  blank : s.failureReason = some "" → s.processError.isSome = true

theorem Recorded.hasFailure (recorded : Recorded s) : s.hasFailure = s.failureReason.isSome := by
  unfold InternalRun.hasFailure
  cases reason : s.failureReason with
  | none =>
    have none_ : s.processError.isSome = false := by
      by_contra there
      have noted := recorded.named ((Bool.not_eq_false _).mp there)
      rw [reason] at noted
      cases noted
    simp [none_]
  | some text =>
    by_cases empty : text = ""
    · have there := recorded.blank (by rw [reason,empty])
      simp [there]
    · simp [empty]

theorem keepsReason {s' : InternalRun} (recorded : Recorded s) (error : s'.processError = s.processError)
    (reason : s'.failureReason = s.failureReason ∨ ∃ text, text ≠ "" ∧
      s'.failureReason = (s.failureReason <|> some text)) : Recorded s' := by
  obtain ⟨named,blank⟩ := recorded
  rcases reason with same | ⟨text,written,noted⟩
  · exact ⟨by rw [error,same]; exact named,by rw [error,same]; exact blank⟩
  · constructor
    · intro _
      rw [noted]
      cases s.failureReason <;> rfl
    · rw [error,noted]
      cases held : s.failureReason with
      | none =>
        intro empty
        exact absurd (Option.some.inj empty) written
      | some earlier =>
        intro empty
        exact blank (held.trans empty)

theorem Recorded.step (recorded : Recorded s) (live : s.result = none) (e : Event) :
    Recorded (step spec s e) := by
  have texts (front back : String) (written : back ≠ "") : front ++ back ≠ "" := fun empty =>
    written (String.append_eq_empty_iff.mp empty).2
  cases e with
  | data kind chunk =>
    simp only [ProcessSupervisor.step]
    split
    · exact recorded
    · refine keepsReason recorded (captureKeeps kind chunk).2.2.1 ?_
      rw [captureReason live]
      split
      · exact .inr ⟨_,texts _ _ (by decide),rfl⟩
      · exact .inl rfl
  | error message =>
    simp only [ProcessSupervisor.step]
    split
    · exact recorded
    · refine ⟨fun _ => ?_,fun _ => rfl⟩
      simp only [InternalRun.noteFailure]
      cases s.failureReason <;> rfl
  | timeout =>
    simp only [ProcessSupervisor.step]
    split
    · have unarmed : ({s with timeoutTimer := false} : InternalRun).result = none := live
      refine keepsReason recorded (failKeeps _).2.2.1 (.inr ⟨_,?_,failReason unarmed _⟩)
      exact texts _ _ (by decide)
    · exact recorded
  | treeWaited alive =>
    simp only [ProcessSupervisor.step]
    split
    · cases alive with
      | false => exact keepsReason recorded resolveKeeps.2.2.2.1 (.inl resolveKeeps.2.2.1)
      | true =>
        exact keepsReason recorded resolveKeeps.2.2.2.1
          (.inr ⟨"Process tree did not exit after SIGKILL",by decide,resolveKeeps.2.2.1⟩)
    · exact recorded
  | close exitCode signal alive aliveStill =>
    simp only [ProcessSupervisor.step]
    split
    · exact recorded
    · refine keepsReason recorded ?_ ?_
      · simp [InternalRun.close]
      · simp only [InternalRun.close,awaitKeeps,survivorsReason]
        split
        · exact .inr ⟨"Agent process exited while descendant processes remained alive",by decide,rfl⟩
        · exact .inl rfl
  | stop =>
    simp only [ProcessSupervisor.step]
    split
    · exact recorded
    · exact keepsReason recorded beginKeeps.2.2.2.1 (.inl beginKeeps.2.2.1)
  | killTimer =>
    simp only [ProcessSupervisor.step]
    split
    · exact ⟨recorded.named,recorded.blank⟩
    · exact recorded
  | streamsClosed =>
    simp only [ProcessSupervisor.step]
    split
    · split
      · exact recorded
      · exact ⟨recorded.named,recorded.blank⟩
    · exact recorded

end

def withLine (noted : Option (Nat × Bytes)) (kept : Bytes) : Bytes := match noted with
  | none => kept
  | some (n,line) => kept.take n ++ line ++ kept.drop n

def captured (spec : Spec) (w : Watched) (kind : OutputKind) : Bytes :=
  (w.streams kind).take (spec.maximum kind)

structure Filed (spec : Spec) (w : Watched) : Prop where
  bytes : ∀ kind, w.run.bytes kind = (captured spec w kind).length
  stdout : w.run.file .stdout = captured spec w .stdout
  stderr : w.run.file .stderr = withLine w.noted (captured spec w .stderr)
  place : ∀ n line, w.noted = some (n,line) → n ≤ (captured spec w .stderr).length
  once : w.noted.isSome = w.run.processError.isSome

section
variable {spec : Spec} {w : Watched}

theorem capturedMore (max : Nat) (stream chunk : Bytes) :
    (stream ++ chunk).take max =
      stream.take max ++ chunk.take (min (max - (stream.take max).length) chunk.length) := by
  rw [List.take_append,List.length_take]
  congr 1
  rw [List.take_eq_take_iff]
  omega

theorem withMore {noted : Option (Nat × Bytes)} {kept : Bytes} (more : Bytes)
    (place : ∀ n line, noted = some (n,line) → n ≤ kept.length) :
    withLine noted (kept ++ more) = withLine noted kept ++ more := by
  cases noted with
  | none => rfl
  | some note =>
    obtain ⟨n,line⟩ := note
    have within := place n line rfl
    simp only [withLine]
    rw [List.take_append_of_le_length within,List.drop_append_of_le_length within,List.append_assoc,
      List.append_assoc,List.append_assoc]

theorem Filed.captures (filed : Filed spec w) (kind : OutputKind) (chunk : Bytes)
    (open_ : w.run.finalizing.isSome = false) : Filed spec (watch spec w (.data kind chunk)) := by
  have next : (watch spec w (.data kind chunk)).run = w.run.captureOutput spec kind chunk := by
    simp [watch,step,open_]
  obtain ⟨counted,written⟩ := captureWrites spec w.run kind chunk
  rw [← next] at counted written
  have more (k : OutputKind) : captured spec (watch spec w (.data kind chunk)) k = captured spec w k ++
      if k = kind then chunk.take (min (spec.maximum k - w.run.bytes k) chunk.length) else [] := by
    rw [filed.bytes k]
    by_cases same : k = kind
    · subst same
      simp only [captured,watch,open_,Bool.false_eq_true,if_false,if_true]
      exact capturedMore _ _ _
    · simp [captured,watch,open_,same]
  constructor
  · intro k
    rw [more k,counted,List.length_append,filed.bytes k]
    by_cases same : k = kind
    · subst same
      simp only [if_true,List.length_take,filed.bytes]
      omega
    · simp [same,filed.bytes k]
  · rw [more .stdout,written]
    by_cases same : OutputKind.stdout = kind
    · subst same
      simp [filed.stdout]
    · simp [same,filed.stdout]
  · rw [more .stderr,written]
    show _ = withLine w.noted _
    rw [withMore _ filed.place]
    by_cases same : OutputKind.stderr = kind
    · subst same
      simp [filed.stderr]
    · simp [same,filed.stderr]
  · intro n line noted
    rw [more .stderr,List.length_append]
    exact Nat.le_add_right_of_le (filed.place n line noted)
  · rw [next,(captureKeeps kind chunk).2.2.1]
    exact filed.once

theorem Filed.notes (filed : Filed spec w) (message : String)
    (open_ : (w.run.finalizing.isSome || w.run.processError.isSome) = false) :
    Filed spec (watch spec w (.error message)) := by
  have unnoted : w.noted = none := by
    have none_ := filed.once
    rw [(Bool.or_eq_false_iff.mp open_).2] at none_
    simpa using none_
  have noted : (watch spec w (.error message)).noted =
      some (w.run.bytes .stderr,supervisorLine message) := by
    simp [watch,open_]
  have run : (watch spec w (.error message)).run = {w.run.noteFailure message with
      processError := some message
      file := fun k => if k = .stderr then w.run.file k ++ supervisorLine message else w.run.file k} := by
    simp [watch,step,open_]
  constructor
  · intro kind
    rw [run]
    exact filed.bytes kind
  · rw [run]
    exact filed.stdout
  · rw [run,noted,filed.bytes]
    show w.run.file .stderr ++ _ = withLine (some (_,_)) (captured spec w .stderr)
    rw [filed.stderr,unnoted]
    simp [withLine]
  · intro n line same
    rw [noted] at same
    cases same
    exact Nat.le_of_eq (filed.bytes .stderr)
  · rw [run,noted]
    rfl

theorem Filed.keeps (filed : Filed spec w) {e : Event} (bytes : (step spec w.run e).bytes = w.run.bytes)
    (file : (step spec w.run e).file = w.run.file)
    (error : (step spec w.run e).processError = w.run.processError)
    (streams : (watch spec w e).streams = w.streams) (noted : (watch spec w e).noted = w.noted) :
    Filed spec (watch spec w e) := by
  have same (kind : OutputKind) : captured spec (watch spec w e) kind = captured spec w kind := by
    simp only [captured,streams]
  refine ⟨fun kind => ?_,?_,?_,?_,?_⟩
  · rw [same]
    exact (congrFun bytes kind).trans (filed.bytes kind)
  · rw [same]
    exact (congrFun file .stdout).trans filed.stdout
  · rw [same,noted]
    exact (congrFun file .stderr).trans filed.stderr
  · rw [same,noted]
    exact filed.place
  · rw [noted]
    exact filed.once.trans (congrArg Option.isSome error.symm)

theorem Filed.step (filed : Filed spec w) (e : Event) : Filed spec (watch spec w e) := by
  cases e with
  | data kind chunk =>
    cases open_ : w.run.finalizing.isSome with
    | false => exact filed.captures kind chunk open_
    | true => refine filed.keeps ?_ ?_ ?_ ?_ ?_ <;> simp [ProcessSupervisor.step,watch,open_]
  | error message =>
    cases open_ : w.run.finalizing.isSome || w.run.processError.isSome with
    | false => exact filed.notes message open_
    | true => refine filed.keeps ?_ ?_ ?_ ?_ ?_ <;> simp [ProcessSupervisor.step,watch,open_]
  | timeout | stop | killTimer =>
    refine filed.keeps ?_ ?_ ?_ rfl rfl <;> simp only [ProcessSupervisor.step] <;> split <;> simp
  | treeWaited alive =>
    refine filed.keeps ?_ ?_ ?_ rfl rfl <;> simp only [ProcessSupervisor.step] <;> split <;>
      cases alive <;> simp [InternalRun.noteFailure]
  | close exitCode signal alive aliveStill =>
    refine filed.keeps ?_ ?_ ?_ rfl rfl <;> simp only [ProcessSupervisor.step] <;> split <;>
      simp [InternalRun.close]
  | streamsClosed =>
    refine filed.keeps ?_ ?_ ?_ rfl rfl <;> simp only [ProcessSupervisor.step] <;> split <;>
      (try split) <;> rfl

def fails (spec : Spec) (w : Watched) (e : Event) : Prop :=
  w.run.result = none ∧ records spec w.run e = true

def stops (w : Watched) (e : Event) : Prop := w.run.result = none ∧ e = .stop

def exits (code : Option Int) (w : Watched) (e : Event) : Prop :=
  w.run.finalizing = none ∧ ∃ signal alive aliveStill, e = .close code signal alive aliveStill

def Failed (spec : Spec) (events : List Event) : Prop :=
  SomeStep (watch spec) (fails spec) (.started spec) events

def Stopped (spec : Spec) (events : List Event) : Prop :=
  SomeStep (watch spec) stops (.started spec) events

def Exited (spec : Spec) (code : Option Int) (events : List Event) : Prop :=
  SomeStep (watch spec) (exits code) (.started spec) events

structure Judged (spec : Spec) (events : List Event) (w : Watched) : Prop where
  recorded : w.run.result = none → Recorded w.run
  failed : w.run.result = none → (w.run.failureReason.isSome = true ↔ Failed spec events)
  stopped : w.run.result = none → (w.run.stopRequested = true ↔ Stopped spec events)
  closing : ∀ f, w.run.finalizing = some f → Exited spec f.exitCode events
  closed : w.run.result ≠ none → w.run.finalizing ≠ none
  beyond : ∀ kind, spec.maximum kind < (w.streams kind).length → Failed spec events
  verdict : ∀ r, w.run.result = some r → Exited spec r.exitCode events ∧
    (r.status = .succeeded ↔ r.exitCode = some 0 ∧ ¬ Failed spec events ∧ ¬ Stopped spec events) ∧
    (r.status = .stopped ↔ ¬ Failed spec events ∧ Stopped spec events)

theorem verdictSays (recorded : Recorded w.run) (f : Finalizing) :
    ((w.run.verdict f).status = .succeeded ↔ f.exitCode = some 0 ∧
      ¬ w.run.failureReason.isSome = true ∧ ¬ w.run.stopRequested = true) ∧
    ((w.run.verdict f).status = .stopped ↔
      ¬ w.run.failureReason.isSome = true ∧ w.run.stopRequested = true) := by
  simp only [InternalRun.verdict,recorded.hasFailure]
  cases w.run.failureReason.isSome <;> cases w.run.stopRequested <;>
    by_cases zero : f.exitCode = some 0 <;> simp [zero]

theorem closeFinal (spec : Spec) (w : Watched) (e : Event) : (step spec w.run e).finalizing = w.run.finalizing ∨
    ∃ f, (step spec w.run e).finalizing = some f ∧ exits f.exitCode w e := by
  cases e with
  | close exitCode signal alive aliveStill =>
    simp only [ProcessSupervisor.step]
    split
    · exact .inl rfl
    next fresh =>
      simp only [Bool.or_eq_true,not_or,Bool.not_eq_true,Option.isSome_eq_false_iff,
        Option.isNone_iff_eq_none] at fresh
      exact .inr ⟨_,rfl,fresh.2,signal,alive,aliveStill,rfl⟩
  | data kind chunk =>
    simp only [ProcessSupervisor.step]
    split <;> simp
  | error | timeout | stop | killTimer =>
    simp only [ProcessSupervisor.step]
    split <;> simp [InternalRun.noteFailure]
  | treeWaited alive =>
    simp only [ProcessSupervisor.step]
    split
    · cases alive <;> simp [InternalRun.noteFailure]
    · exact .inl rfl
  | streamsClosed =>
    simp only [ProcessSupervisor.step]
    split
    · split <;> exact .inl rfl
    · exact .inl rfl

theorem Judged.step {events : List Event} (judged : Judged spec events (reach (watch spec) (.started spec) events))
    (filed : Filed spec (reach (watch spec) (.started spec) events)) (e : Event) :
    Judged spec (events ++ [e]) (reach (watch spec) (.started spec) (events ++ [e])) := by
  rw [reachLast]
  have failed := someStepLast (watch spec) (fails spec) (.started spec) events e
  have stopped := someStepLast (watch spec) stops (.started spec) events e
  have exited (code : Option Int) := someStepLast (watch spec) (exits code) (.started spec) events e
  generalize reach (watch spec) (.started spec) events = w at judged filed failed stopped exited
  have live (unfinished : (watch spec w e).run.result = none) : w.run.result = none := by
    rcases stepResult spec w.run e with same | ⟨live,-⟩
    · exact same.symm.trans unfinished
    · exact live
  constructor
  · exact fun unfinished => (judged.recorded (live unfinished)).step (live unfinished) e
  · intro unfinished
    have now := live unfinished
    exact (stepReason now e).trans
      ((or_congr (judged.failed now) ⟨fun noted => ⟨now,noted⟩,And.right⟩).trans failed.symm)
  · intro unfinished
    have now := live unfinished
    exact (stepStop now e).trans
      ((or_congr (judged.stopped now) ⟨fun asked => ⟨now,asked⟩,And.right⟩).trans stopped.symm)
  · intro f found
    rcases closeFinal spec w e with same | ⟨g,set,exit⟩
    · exact (exited f.exitCode).mpr (.inl (judged.closing f (same.symm.trans found)))
    · cases set.symm.trans found
      exact (exited f.exitCode).mpr (.inr exit)
  · intro finished
    rcases closeFinal spec w e with same | ⟨f,set,-⟩
    · rcases stepResult spec w.run e with kept | ⟨-,-,f,finalizing,-⟩
      · exact fun none_ => judged.closed (fun unfinished => finished (kept.trans unfinished))
          (same.symm.trans none_)
      · exact fun none_ => nomatch finalizing.symm.trans (same.symm.trans none_)
    · exact fun none_ => nomatch set.symm.trans none_
  · intro kind more
    refine failed.mpr ?_
    by_cases before : spec.maximum kind < (w.streams kind).length
    · exact .inl (judged.beyond kind before)
    · right
      cases e with
      | data k chunk =>
        cases open_ : w.run.finalizing with
        | some f => simp [watch,open_,before] at more
        | none =>
          by_cases same : kind = k
          · subst same
            simp only [watch,open_,Option.isSome_none,Bool.false_eq_true,if_false,if_true,
              List.length_append] at more
            have counted := filed.bytes kind
            rw [captured,List.length_take] at counted
            refine ⟨?_,?_⟩
            · by_contra finished
              exact judged.closed finished open_
            · simp only [records,open_,Option.isNone_none,Bool.true_and,decide_eq_true_eq]
              omega
          · simp [watch,open_,same,before] at more
      | error | timeout | stop | killTimer | treeWaited | close | streamsClosed =>
        exact absurd more before
  · intro r found
    rcases stepResult spec w.run e with same | ⟨now,rfl,f,finalizing,next⟩
    · have before := same.symm.trans found
      have quiet : ¬ fails spec w e := fun failing => nomatch before.symm.trans failing.1
      have still : ¬ stops w e := fun stopping => nomatch before.symm.trans stopping.1
      obtain ⟨exit,succeeded,halted⟩ := judged.verdict r before
      rw [Failed,Stopped,failed,stopped]
      simp only [quiet,still,or_false]
      exact ⟨(exited r.exitCode).mpr (.inl exit),succeeded,halted⟩
    · have quiet : ¬ fails spec w .streamsClosed := fun failing => nomatch failing.2
      have still : ¬ stops w .streamsClosed := fun stopping => nomatch stopping.2
      have result : some (w.run.verdict f) = some r :=
        (congrArg InternalRun.result next).symm.trans found
      cases result
      obtain ⟨succeeded,halted⟩ := verdictSays (judged.recorded now) f
      rw [Failed,Stopped,failed,stopped]
      simp only [quiet,still,or_false]
      refine ⟨(exited f.exitCode).mpr (.inl (judged.closing f finalizing)),?_,?_⟩
      · rw [judged.failed now,judged.stopped now] at succeeded
        exact succeeded
      · rw [judged.failed now,judged.stopped now] at halted
        exact halted

theorem judgedRun (spec : Spec) (events : List Event) :
    Judged spec events (reach (watch spec) (.started spec) events) ∧
      Filed spec (reach (watch spec) (.started spec) events) := by
  induction events using List.reverseRecOn with
  | nil =>
    have quiet : ¬ Failed spec [] := noStep _ _ _
    have still : ¬ Stopped spec [] := noStep _ _ _
    refine ⟨⟨fun _ => ⟨nofun,nofun⟩,fun _ => ?_,fun _ => ?_,nofun,fun finished => absurd rfl finished,?_,
      nofun⟩,⟨fun kind => ?_,?_,?_,nofun,rfl⟩⟩
    · simpa [reach,Watched.started,InternalRun.started] using quiet
    · simpa [reach,Watched.started,InternalRun.started] using still
    · exact fun kind more => absurd more (Nat.not_lt_zero _)
    · simp [captured,reach,Watched.started,InternalRun.started]
    · simp [captured,reach,Watched.started,InternalRun.started]
    · simp [captured,withLine,reach,Watched.started,InternalRun.started]
  | append_singleton events e ih =>
    refine ⟨ih.1.step ih.2 e,?_⟩
    rw [reachLast]
    exact ih.2.step e

end

structure Supervised (spec : Spec) (events : List Event) (w : Watched) : Prop where
  stdout : w.run.file .stdout = (w.streams .stdout).take (spec.maximum .stdout)
  stderr : w.run.file .stderr =
    withLine w.noted ((w.streams .stderr).take (spec.maximum .stderr))
  overflow : ∀ r kind, w.run.result = some r → spec.maximum kind < (w.streams kind).length →
    r.status = .failed
  exited : ∀ r, w.run.result = some r → Exited spec r.exitCode events
  succeeded : ∀ r, w.run.result = some r →
    (r.status = .succeeded ↔ r.exitCode = some 0 ∧ ¬ Failed spec events ∧ ¬ Stopped spec events)
  stopped : ∀ r, w.run.result = some r → r.status = .stopped → Stopped spec events

/-- Each file holds the first bytes of its stream however it came, with one line of the
supervisor's own in stderr if the child could not be run or signalled; and the verdict. -/
theorem outputCapped (spec : Spec) (events : List Event) :
    Supervised spec events (reach (watch spec) (.started spec) events) := by
  obtain ⟨judged,filed⟩ := judgedRun spec events
  refine ⟨filed.stdout,filed.stderr,?_,fun r found => (judged.verdict r found).1,
    fun r found => (judged.verdict r found).2.1,
    fun r found halted => ((judged.verdict r found).2.2.mp halted).2⟩
  intro r kind found more
  obtain ⟨-,succeeded,halted⟩ := judged.verdict r found
  have failed := judged.beyond kind more
  cases status : r.status with
  | failed => rfl
  | succeeded => exact absurd failed (succeeded.mp status).2.1
  | stopped => exact absurd failed (halted.mp status).1

def small : Spec := ⟨1000,fun _ => 4,true⟩

def missing : List Event :=
  [.error "spawn agent ENOENT",.close (some (-2)) none false false,.streamsClosed]

theorem missingNoted : (reach (watch small) (.started small) missing).run.result ≠ none ∧
    (reach (watch small) (.started small) missing).streams .stderr = [] ∧
    (reach (watch small) (.started small) missing).run.file .stderr ≠
      ((reach (watch small) (.started small) missing).streams .stderr).take (small.maximum .stderr) := by
  decide +kernel

end ControlCenter.ProcessSupervisor
