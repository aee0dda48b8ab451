import ControlCenter.DbRuns
import ControlCenter.ScriptRuns
import ControlCenter.System

/-! What the other actors of all processes can do to the world between two questions of
one script: every change of the database is a turn of it. -/
namespace ControlCenter.Interference
open Table Db DbReviews DbRuns Dialogue Reliance Ports Execution ControlCenter.System ScriptRuns

inductive Acts : World → World → Prop
  | asks (i : Who) (c : Choice) (w : World) (q : Question) : Acts w (respond i c w q).2
  | crashes (process : Nat) (w : World) : Acts w (setMemory w process .empty)

def Between : World → World → Prop := Relation.ReflTransGen Acts

def Turned (w after : World) : Prop := after.db = w.db ∨ ∃ t, after.db = turn w.db t

section
variable {w : World}

theorem repliedSame {α : Type} {note : α → Trail} {r : Except String α} :
    (replied w note r).2.db = w.db := by
  cases r <;> rfl

theorem newWorktreeSame {r : Except String WorktreeInfo} : (newWorktree w r).2.db = w.db := by
  cases r with
  | error error => rfl
  | ok info =>
    unfold newWorktree
    dsimp only
    split <;> rfl

end

def called : Question → Option DbCall
  | .createTask input plan => some (.createTask input plan)
  | .claimNextTask workerId => some (.claimNextTask workerId)
  | .heartbeatTask taskId workerId => some (.heartbeatTask taskId workerId)
  | .recoverStaleTasks cutoffMs recoveredBy => some (.recoverStaleTasks cutoffMs recoveredBy)
  | .recoverTasksOwnedBy claimedBy recoveredBy =>
      some (.recoverTasksOwnedBy claimedBy recoveredBy)
  | .updateTaskStatus taskId status latestUpdate =>
      some (.updateTaskStatus taskId status latestUpdate)
  | .updateRouteStep stepId patch => some (.updateRouteStep stepId patch)
  | .createRun input => some (.createRun input)
  | .updateRun runId patch => some (.updateRun runId patch)
  | .appendEvent input => some (.appendEvent input)
  | .addArtifact input => some (.addArtifact input)
  | .finalizeTaskExecution taskId status latestUpdate runId =>
      some (.finalizeTaskExecution taskId status latestUpdate runId)
  | .approveTaskReview taskId note expected => some (.approveTaskReview taskId note expected)
  | .requestTaskRework taskId note expected => some (.requestTaskRework taskId note expected)
  | .retryBlockedTask taskId note allow => some (.retryBlockedTask taskId note allow)
  | _ => none

def Answered (c : Choice) (q : Question) (w after : World) : Prop := after.db = w.db ∨
  ∃ call, called q = some call ∧ call.perform ⟨c.now,c.uuid⟩ w.db = .ok after.db

section
variable {w : World} {c : Choice} {q : Question}

theorem storedAnswered {α : Type} {note : α → Trail} {r : Outcome (α × ControlCenterDb)}
    {call : DbCall} (calls : called q = some call)
    (performs : call.perform ⟨c.now,c.uuid⟩ w.db = r.map Prod.snd) :
    Answered c q w (stored w note r).2 := by
  rcases r with error | ⟨a,db⟩
  · exact .inl rfl
  · exact .inr ⟨call,calls,performs⟩

theorem writtenAnswered {note : Trail} {r : Outcome ControlCenterDb} {call : DbCall}
    (calls : called q = some call) (performs : call.perform ⟨c.now,c.uuid⟩ w.db = r) :
    Answered c q w (written w note r).2 := by
  cases r with
  | error error => exact .inl rfl
  | ok db => exact .inr ⟨call,calls,performs⟩

end

theorem answerAnswered (i : Who) (c : Choice) (w : World) (q : Question) :
    Answered c q w (answer i c w q).2 := by
  cases q with
  | updateTaskStatus | updateRouteStep | appendEvent | finalizeTaskExecution =>
    exact writtenAnswered rfl rfl
  | createWorktree taskId runId repo baseRef => exact .inl newWorktreeSame
  | stopAdapter | collectResult | assertSourceUnchanged => exact .inl repliedSame
  | createTask | claimNextTask | heartbeatTask | recoverStaleTasks | recoverTasksOwnedBy
  | createRun | updateRun | addArtifact | approveTaskReview | requestTaskRework
  | retryBlockedTask => exact storedAnswered rfl rfl
  | _ => exact .inl rfl

theorem storageCalled {q : Question} {call : DbCall} (calls : called q = some call) :
    storage q = true := by
  cases q with
  | _ => first | rfl | cases calls

theorem respondAnswered (i : Who) (c : Choice) (w : World) (q : Question) :
    (respond i c w q).2.db = w.db ∨ c.busy = none ∧ ∃ call, called q = some call ∧
      call.perform ⟨c.now,c.uuid⟩ w.db = .ok (respond i c w q).2.db := by
  rcases answerAnswered i c w q with same | ⟨call,calls,performed⟩
  · refine .inl ?_
    unfold respond
    split
    · split
      · rfl
      · exact same
    · exact same
  · unfold respond
    split
    · rw [if_pos (storageCalled calls)]
      exact .inl rfl
    next idle => exact .inr ⟨idle,call,calls,performed⟩

theorem respondTurned (i : Who) (c : Choice) (w : World) (q : Question) :
    Turned w (respond i c w q).2 := by
  rcases respondAnswered i c w q with same | ⟨_,call,_,performed⟩
  · exact .inl same
  · exact .inr ⟨⟨⟨c.now,c.uuid⟩,call⟩,(turnPerformed performed).symm⟩

section
variable {P : World → Prop} {w : World}

theorem storedKept {α : Type} {note : α → Trail} {r : Outcome (α × ControlCenterDb)} (base : P w)
    (each : ∀ a db, r = .ok (a,db) → P {w with db, trail := note a}) : P (stored w note r).2 := by
  rcases r with error | ⟨a,db⟩
  · exact base
  · exact each a db rfl

theorem writtenKept {note : Trail} {r : Outcome ControlCenterDb} (base : P w)
    (each : ∀ db, r = .ok db → P {w with db, trail := note}) : P (written w note r).2 := by
  cases r with
  | error error => exact base
  | ok db => exact each db rfl

theorem repliedKept {α : Type} {note : α → Trail} {r : Except String α} (base : P w)
    (each : ∀ a, r = .ok a → P {w with trail := note a}) : P (replied w note r).2 := by
  cases r with
  | error error => exact base
  | ok a => exact each a rfl

theorem worktreeKept {r : Except String WorktreeInfo} (base : P w)
    (each : ∀ info, info.worktreePath ∉ w.trail.worktrees →
      P {w with trail := w.trail.worktree info}) : P (newWorktree w r).2 := by
  cases r with
  | error error => exact base
  | ok info =>
    unfold newWorktree
    dsimp only
    split
    · exact base
    next fresh => exact each info fresh

theorem respondKept {i : Who} {c : Choice} {q : Question} (base : P w)
    (answered : P (answer i c w q).2) : P (respond i c w q).2 := by
  unfold respond
  split
  · split
    · exact base
    · exact answered
  · exact answered

end

theorem storedReturned {α : Type} {w : World} {note : α → Trail} {r : Outcome (α × ControlCenterDb)}
    (returned : (stored w note r).1.isOk = true) : ∃ a next, r = .ok (a,next) := by
  rcases r with error | ⟨a,next⟩
  · exact absurd returned Bool.false_ne_true
  · exact ⟨a,next,rfl⟩

theorem writtenReturned {w : World} {note : Trail} {r : Outcome ControlCenterDb}
    (returned : (written w note r).1.isOk = true) : ∃ next, r = .ok next := by
  cases r with
  | error error => exact absurd returned Bool.false_ne_true
  | ok next => exact ⟨next,rfl⟩

theorem storedPerformed {α : Type} {w after : World} {note : α → Trail}
    {r : Outcome (α × ControlCenterDb)} {a : α} (returned : stored w note r = (.ok a,after)) :
    r = .ok (a,after.db) := by
  rcases r with error | ⟨b,next⟩
  · cases (Prod.mk.inj returned).1
  · obtain ⟨same,rfl⟩ := Prod.mk.inj returned
    cases same
    rfl

theorem respondAnswer {i : Who} {c : Choice} {w after : World} {q : Question} {a : Answer q}
    (returned : respond i c w q = (.ok a,after)) : answer i c w q = (.ok a,after) := by
  unfold respond at returned
  split at returned
  · split at returned
    · cases (Prod.mk.inj returned).1
    · exact returned
  · exact returned

theorem respondReturned {i : Who} {c : Choice} {w : World} {q : Question} (stored : storage q = true)
    (returned : (respond i c w q).1.isOk = true) : (answer i c w q).1.isOk = true := by
  unfold respond at returned
  split at returned
  · rw [if_pos stored] at returned
    exact absurd returned Bool.false_ne_true
  · exact returned

theorem actsKept {P : ControlCenterDb → Prop} (turns : ∀ db t, P db → P (turn db t))
    {w after : World} (acts : Acts w after) (held : P w.db) : P after.db := by
  cases acts with
  | asks i c w q =>
    rcases respondTurned i c w q with same | ⟨t,turned⟩
    · rwa [same]
    · rw [turned]
      exact turns _ t held
  | crashes process w => exact held

theorem betweenKept {P : ControlCenterDb → Prop} (turns : ∀ db t, P db → P (turn db t))
    {w after : World} (between : Between w after) (held : P w.db) : P after.db := by
  induction between with
  | refl => exact held
  | tail _ acts ih => exact actsKept turns acts ih

theorem taskStays (taskId : String) (db : ControlCenterDb) (t : Turn)
    (there : db.hasTask taskId = true) : (turn db t).hasTask taskId = true := by
  obtain ⟨r,found⟩ := Option.isSome_iff_exists.mp there
  obtain ⟨r',found',_⟩ := (turnTasks db t taskId).known r found
  exact Option.isSome_iff_exists.mpr ⟨r',found'⟩

end ControlCenter.Interference
