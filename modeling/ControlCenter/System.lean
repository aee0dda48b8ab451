import ControlCenter.Operations
import ControlCenter.Reliance

/-! Any number of processes on one database. A world is the database, each process's
memory and the trail: what happened that no row records. A turn lets one thread ask one
question; a crash ends the threads of a process between any two of them. -/
namespace ControlCenter.System
open Protocol Table Db DbReviews Dialogue Ports Coordinator Execution Operations Reliance

structure ThreadId where
  number : Nat
  process : Nat
  deriving DecidableEq, Repr

abbrev Who := Actor ThreadId String
abbrev Job := Thread Question Answer String StepOutcome

structure Trail where
  -- The thread whose claim of a task still stands, and those whose claim a recovery ended.
  holder : String → Option ThreadId
  lost : List ThreadId
  -- The runs a recovery closed.
  closed : List String
  -- What an adapter's stop or collect reported for a run, the latest first.
  reports : List (String × AdapterStatus)
  -- The runs whose agent was collected, and those whose source was then found unchanged.
  collected : List String
  checked : List String
  worktrees : List String
  created : List (String × TaskPayload × RoutePlan)
  approved : List String

def Trail.empty : Trail := ⟨fun _ => none,[],[],[],[],[],[],[],[]⟩

structure World where
  db : ControlCenterDb
  memory : Nat → Memory
  trail : Trail

def idleWorld (db : ControlCenterDb) : World := ⟨db,fun _ => .empty,.empty⟩

structure Choice where
  now : Int
  uuid : String
  busy : Option String
  reply : (q : Question) → Except String (Answer q)

namespace Trail
variable (t : Trail)

def hold (taskId : String) (holder : Option ThreadId) : Trail :=
  {t with holder := fun id => if id = taskId then holder else t.holder id}

def claim (n : ThreadId) : Option String → Trail
  | none => t
  | some taskId => t.hold taskId (some n)

def leave (taskId : String) (status : TaskStatus) : Trail :=
  if status = .running then t else t.hold taskId none

def recover (result : StaleRecoveryResult) : Trail := {t with
  holder := fun id => if id ∈ result.taskIds then none else t.holder id
  lost := t.lost ++ result.taskIds.filterMap t.holder
  closed := t.closed ++ (result.staleRunIds ++ result.failedRunIds)}

def report (runId : String) (status : AdapterStatus) : Trail :=
  {t with reports := (runId,status) :: t.reports}

def collect (runId : String) (result : AdapterResult) : Trail :=
  {t.report runId result.status with collected := runId :: t.collected}

def check (runId : String) : Trail :=
  if runId ∈ t.collected then {t with checked := runId :: t.checked} else t

def worktree (info : WorktreeInfo) : Trail :=
  {t with worktrees := info.worktreePath :: t.worktrees}

def create (input : TaskPayload) (plan : RoutePlan) (taskId : String) : Trail :=
  {t with created := (taskId,input,plan) :: t.created}

def approve (review : ReviewRow) : Trail := {t with approved := review.id :: t.approved}

end Trail

section
variable (w : World)

def stored {α : Type} (note : α → Trail) : Outcome (α × ControlCenterDb) →
    Except String α × World
  | .ok (a,db) => (.ok a,{w with db, trail := note a})
  | .error error => (.error error,w)

def written (note : Trail) : Outcome ControlCenterDb → Except String Unit × World
  | .ok db => (.ok (),{w with db, trail := note})
  | .error error => (.error error,w)

def replied {α : Type} (note : α → Trail) : Except String α → Except String α × World
  | .ok a => (.ok a,{w with trail := note a})
  | .error error => (.error error,w)

-- git worktree add refuses a path that is there already.
def newWorktree : Except String WorktreeInfo → Except String WorktreeInfo × World
  | .ok info =>
    if info.worktreePath ∈ w.trail.worktrees then (.error "fatal: path already exists",w)
    else (.ok info,{w with trail := w.trail.worktree info})
  | .error error => (.error error,w)

def setMemory (process : Nat) (memory : Memory) : World :=
  {w with memory := fun p => if p = process then memory else w.memory p}

end

section
variable (i : Who) (c : Choice) (w : World)

def answer : (q : Question) → Except String (Answer q) × World
  | .snapshot => (.ok w.db,w)
  | .createTask input plan => stored w (w.trail.create input plan)
      (Db.createTask ⟨c.now,c.uuid⟩ input plan w.db)
  | .claimNextTask workerId => stored w (w.trail.claim i.thread)
      (Db.claimNextTask ⟨c.now,c.uuid⟩ workerId w.db)
  | .heartbeatTask taskId workerId => stored w (fun _ => w.trail)
      (Db.heartbeatTask ⟨c.now,c.uuid⟩ taskId workerId w.db)
  | .recoverStaleTasks cutoffMs recoveredBy => stored w w.trail.recover
      (Db.recoverStaleTasks ⟨c.now,c.uuid⟩ cutoffMs recoveredBy w.db)
  | .recoverTasksOwnedBy claimedBy recoveredBy => stored w w.trail.recover
      (Db.recoverTasksOwnedBy ⟨c.now,c.uuid⟩ claimedBy recoveredBy w.db)
  | .updateTaskStatus taskId status latestUpdate => written w (w.trail.leave taskId status)
      (Db.updateTaskStatus ⟨c.now,c.uuid⟩ taskId status latestUpdate w.db)
  | .updateRouteStep stepId patch => written w w.trail
      (Db.updateRouteStep ⟨c.now,c.uuid⟩ stepId patch w.db)
  | .createRun input => stored w (fun _ => w.trail) (Db.createRun ⟨c.now,c.uuid⟩ input w.db)
  | .updateRun runId patch => stored w (fun _ => w.trail)
      (Db.updateRun ⟨c.now,c.uuid⟩ runId patch w.db)
  | .appendEvent input => written w w.trail (Db.appendEvent ⟨c.now,c.uuid⟩ input w.db)
  | .addArtifact input => stored w (fun _ => w.trail)
      (DbReviews.addArtifact ⟨c.now,c.uuid⟩ input w.db)
  | .finalizeTaskExecution taskId status latestUpdate runId =>
      written w (w.trail.leave taskId status.status)
        (DbReviews.finalizeTaskExecution ⟨c.now,c.uuid⟩ taskId status latestUpdate runId w.db)
  | .approveTaskReview taskId note expected => stored w w.trail.approve
      (DbReviews.approveTaskReview ⟨c.now,c.uuid⟩ taskId note expected w.db)
  | .requestTaskRework taskId note expected => stored w (fun _ => w.trail)
      (DbReviews.requestTaskRework ⟨c.now,c.uuid⟩ taskId note expected w.db)
  | .retryBlockedTask taskId note allow => stored w (fun _ => w.trail)
      (DbReviews.retryBlockedTask ⟨c.now,c.uuid⟩ taskId note allow w.db)
  | .memory change => (.ok (w.memory i.thread.process),
      setMemory w i.thread.process (change (w.memory i.thread.process)))
  | .clock => (.ok c.now,w)
  | .createWorktree taskId runId repo baseRef =>
      newWorktree w (c.reply (.createWorktree taskId runId repo baseRef))
  | .stopAdapter runId agent adapterRunId =>
      replied w (fun result => w.trail.report runId result.status)
        (c.reply (.stopAdapter runId agent adapterRunId))
  | .collectResult runId agent adapterRunId => replied w (w.trail.collect runId)
      (c.reply (.collectResult runId agent adapterRunId))
  | .assertSourceUnchanged runId snapshot => replied w (fun _ => w.trail.check runId)
      (c.reply (.assertSourceUnchanged runId snapshot))
  | q => (c.reply q,w)

def storage : Question → Bool
  | .snapshot | .createTask .. | .claimNextTask .. | .heartbeatTask .. | .recoverStaleTasks ..
  | .recoverTasksOwnedBy .. | .updateTaskStatus .. | .updateRouteStep .. | .createRun ..
  | .updateRun .. | .appendEvent .. | .addArtifact .. | .finalizeTaskExecution ..
  | .approveTaskReview .. | .requestTaskRework .. | .retryBlockedTask .. => true
  | _ => false

def respond (q : Question) : Except String (Answer q) × World :=
  match c.busy with
  | some error => if storage q then (.error error,w) else answer i c w q
  | none => answer i c w q

end

structure Live where
  id : ThreadId
  job : Job

structure Center where
  world : World
  pool : List Live
  next : Nat

def Center.initial : Center :=
  ⟨⟨.empty,fun _ => .empty,.empty⟩,[],0⟩

inductive Event where
  | start (process : Nat) (call : Call)
  | turn (id : ThreadId) (pick : Pick String) (choice : Choice)
  | crash (process : Nat)

def Center.find (s : Center) (id : ThreadId) : Option Live := s.pool.find? fun l => l.id == id

def Center.settle (s : Center) (id : ThreadId) (job : Job) (world : World) : Center :=
  {s with
    world
    pool := s.pool.map fun l => if l.id == id then ⟨id,job⟩ else l}

variable (fleet : Nat → Options)

def step (s : Center) : Event → Option Center
  | .start process call => some {s with
      pool := s.pool ++ [⟨⟨s.next,process⟩,Thread.start (call.program (fleet process))⟩]
      next := s.next + 1}
  | .turn id pick choice => do
      let l ← s.find id
      let (job,world) ← l.job.advance (fun k q w => respond ⟨id,k⟩ choice w q) pick s.world
      some (s.settle id job world)
  | .crash process => some {s with
      world := setMemory s.world process .empty
      pool := s.pool.filter fun l => l.id.process != process}

def asking (s : Center) : Event → Option (Who × Question)
  | .turn id pick _ => do
      let l ← s.find id
      let (k,q) ← asked pick l.job
      some (⟨id,k⟩,q)
  | _ => none

def Moves (fair : Center → Event → Prop) (s s' : Center) : Prop :=
  ∃ e, fair s e ∧ step fleet s e = some s'

def Reach (fair : Center → Event → Prop) : Center → Center → Prop :=
  Relation.ReflTransGen (Moves fleet fair)

def Reachable (fair : Center → Event → Prop) : Center → Prop := Reach fleet fair .initial

def run (s : Center) : List Event → Option Center
  | [] => some s
  | e::rest => do
      let s' ← step fleet s e
      run s' rest

variable {fleet}

theorem reachableInduct {fair : Center → Event → Prop} {P : Center → Prop}
    (base : P .initial)
    (next : ∀ s e s', Reachable fleet fair s → P s → fair s e → step fleet s e = some s' → P s')
    {s : Center} (reachable : Reachable fleet fair s) : P s := by
  induction reachable with
  | refl => exact base
  | tail front move ih =>
    obtain ⟨e,allowed,stepped⟩ := move
    exact next _ e _ front ih allowed stepped

theorem turnWorld {s s' : Center} {id : ThreadId} {pick : Pick String} {c : Choice}
    (h : step fleet s (.turn id pick c) = some s') : s'.world = s.world ∨
    ∃ i q, asking s (.turn id pick c) = some (i,q) ∧ i.thread = id ∧
      s'.world = (respond i c s.world q).2 := by
  simp only [step,bind,Option.bind_eq_some_iff] at h
  obtain ⟨l,found,⟨job,world⟩,advanced,last⟩ := h
  cases Option.some.inj last
  rcases advanceWorld advanced with ⟨_,same⟩ | ⟨k,q,asks,same⟩
  · exact .inl same
  · refine .inr ⟨⟨id,k⟩,q,?_,rfl,same⟩
    simp only [asking,found,asks,bind,Option.bind_some]

end ControlCenter.System
