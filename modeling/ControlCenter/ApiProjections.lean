import ControlCenter.Db
import ControlCenter.ApiErrors
import Mathlib.Algebra.Group.Nat.Defs
import Mathlib.Data.List.Forall2

/-! What the API shows of a task: its row on the board and its detail. Two aggregates that
differ in private data alone are shown alike. -/
namespace ControlCenter.ApiProjections
open JsonText Protocol
open Db (RouteStepStatus EventLevel ReviewStatus)
open ApiErrors (isLetter)
open UrlPaths (anySlash percentByte)
open JsonValue (Json)

structure RoutePlan where
  mode : RouteMode
  risk : Risk
  reasons : List Text

structure TaskRecord where
  id : Text
  goal : Text
  repo : Text
  baseRef : Text
  agent : AgentSelection
  priority : Priority
  context : Option Text
  successCriteria : List Text
  verificationCommand : Option Text
  handoffRequired : Bool
  status : TaskStatus
  routePlan : RoutePlan
  latestUpdate : Text
  claimedBy : Option Text
  claimedAt : Option Text
  createdAt : Text
  updatedAt : Text

structure RouteStepRecord where
  id : Text
  taskId : Text
  sequence : Int
  agent : AgentKind
  role : RouteRole
  required : Bool
  reason : Text
  status : RouteStepStatus
  runId : Option Text
  createdAt : Text
  updatedAt : Text

structure RunRecord where
  id : Text
  taskId : Text
  routeStepId : Text
  adapterRunId : Option Text
  agent : AgentKind
  role : RouteRole
  attempt : Int
  status : RunStatus
  pid : Option Int
  worktreePath : Option Text
  branch : Option Text
  baseCommit : Option Text
  stdoutPath : Option Text
  stderrPath : Option Text
  resultPath : Option Text
  exitCode : Option Int
  signal : Option Text
  summary : Option Text
  error : Option Text
  usageJson : Option Text
  startedAt : Option Text
  finishedAt : Option Text
  createdAt : Text
  updatedAt : Text

structure EventRecord where
  id : Int
  taskId : Text
  runId : Option Text
  type : Text
  level : EventLevel
  message : Text
  data : Option Json
  createdAt : Text

structure ArtifactRecord where
  id : Text
  taskId : Text
  runId : Option Text
  kind : ArtifactKind
  path : Text
  relativePath : Option Text
  sha256 : Text
  sizeBytes : Nat
  metadata : Option Json
  createdAt : Text

inductive MessageDirection where
  | userToAgent | agentToUser | system
  deriving DecidableEq, Repr

inductive DeliveryStatus where
  | queued | delivered | unsupported | failed
  deriving DecidableEq, Repr

structure MessageRecord where
  id : Text
  taskId : Text
  runId : Option Text
  direction : MessageDirection
  role : Text
  body : Text
  deliveryStatus : DeliveryStatus
  createdAt : Text

structure ReviewRecord where
  id : Text
  taskId : Text
  runId : Option Text
  reviewer : Option Text
  status : ReviewStatus
  note : Option Text
  createdAt : Text
  updatedAt : Text

structure TaskAggregate where
  task : TaskRecord
  routeSteps : List RouteStepRecord
  runs : List RunRecord
  events : List EventRecord
  artifacts : List ArtifactRecord
  messages : List MessageRecord
  reviews : List ReviewRecord

inductive TaskNextAction where
  | execute | monitor | review | retry | inspect | none
  deriving DecidableEq, Repr

structure RouteProgressDto where
  total : Nat
  completed : Nat
  pending : Nat
  running : Nat
  succeeded : Nat
  failed : Nat
  skipped : Nat
  percent : Nat

structure ActiveRunDto where
  id : Text
  routeStepId : Text
  agent : AgentKind
  role : RouteRole
  attempt : Int
  status : RunStatus
  startedAt : Option Text
  updatedAt : Text

structure EvidenceSummaryDto where
  totalArtifacts : Nat
  totalBytes : Nat
  byKind : List (ArtifactKind × Nat)

structure PendingReviewDto where
  id : Text
  runId : Option Text
  reviewer : Option Text
  createdAt : Text

structure EventSummaryDto where
  id : Int
  runId : Option Text
  type : Text
  level : EventLevel
  message : Text
  createdAt : Text

structure TaskBoardRowDto where
  id : Text
  goal : Text
  repositoryName : Text
  status : TaskStatus
  priority : Priority
  requestedAgent : AgentSelection
  routeMode : RouteMode
  routeRisk : Risk
  routeAgents : List AgentKind
  routeReasons : List Text
  routeProgress : RouteProgressDto
  activeRuns : List ActiveRunDto
  evidenceSummary : EvidenceSummaryDto
  pendingReview : Option PendingReviewDto
  latestEvent : Option EventSummaryDto
  nextAction : TaskNextAction
  latestUpdate : Text
  createdAt : Text
  updatedAt : Text

structure TaskDetailHeaderDto where
  id : Text
  goal : Text
  status : TaskStatus
  priority : Priority
  requestedAgent : AgentSelection
  repositoryName : Text
  baseRef : Text
  context : Option Text
  successCriteria : List Text
  verificationCommand : Option Text
  handoffRequired : Bool
  latestUpdate : Text
  route : RoutePlan
  createdAt : Text
  updatedAt : Text

structure RouteStepDto where
  id : Text
  sequence : Int
  agent : AgentKind
  role : RouteRole
  required : Bool
  reason : Text
  status : RouteStepStatus
  runId : Option Text
  createdAt : Text
  updatedAt : Text

structure RunDto where
  id : Text
  routeStepId : Text
  agent : AgentKind
  role : RouteRole
  attempt : Int
  status : RunStatus
  branch : Option Text
  baseCommit : Option Text
  exitCode : Option Int
  signal : Option Text
  summary : Option Text
  error : Option Text
  startedAt : Option Text
  finishedAt : Option Text
  createdAt : Text
  updatedAt : Text

structure ArtifactDto where
  id : Text
  runId : Option Text
  kind : ArtifactKind
  name : Text
  sha256 : Text
  sizeBytes : Nat
  createdAt : Text
  contentUrl : Text

structure MessageDto where
  id : Text
  runId : Option Text
  direction : MessageDirection
  role : Text
  body : Text
  deliveryStatus : DeliveryStatus
  createdAt : Text

structure ReviewDto where
  id : Text
  runId : Option Text
  reviewer : Option Text
  status : ReviewStatus
  note : Option Text
  createdAt : Text
  updatedAt : Text

structure TaskDetailDto where
  summary : TaskBoardRowDto
  task : TaskDetailHeaderDto
  routeSteps : List RouteStepDto
  runs : List RunDto
  events : List EventSummaryDto
  artifacts : List ArtifactDto
  messages : List MessageDto
  reviews : List ReviewDto

def solidus (c : CodeUnit) : CodeUnit := if c = 92 then 47 else c

def normalized (value : Text) : Text :=
  (value.map solidus).rdropWhile (· = 47)

def pathLeaf (value fallback : Text) : Text :=
  let leaf := (normalized value).rtakeWhile (· ≠ 47)
  if leaf = [] ∨ leaf = [46] ∨ leaf = [46,46] then fallback else leaf

def isActiveRun (run : RunRecord) : Bool :=
  run.status == .queued || run.status == .starting || run.status == .running

def nearestEven (n d : Nat) : Nat :=
  let q := n / d
  if 2 * (n % d) < d ∨ (2 * (n % d) = d ∧ q % 2 = 0) then q else q + 1

-- The double nearest to a fraction below 2 ^ 52, as a fraction: it has 53 significant bits.
def double (n d : Nat) : Nat × Nat :=
  if n = 0 then (0,1) else
    let shift := 52 + Nat.log2 d - Nat.log2 n
    let shift := if n * 2 ^ shift < 2 ^ 52 * d then shift + 1 else shift
    (nearestEven (n * 2 ^ shift) d,2 ^ shift)

-- Math.round((completed / total) * 100).
def percentOf (completed total : Nat) : Nat :=
  if total = 0 then 0 else
    let (n,d) := double completed total
    let (n,d) := double (n * 100) d
    (2 * n + d) / (2 * d)

example : (percentOf 3 5,percentOf 1 8,percentOf 57 200) = (60,13,28) := by decide +kernel

def countStep (counts : RouteProgressDto) : RouteStepStatus → RouteProgressDto
  | .pending => {counts with pending := counts.pending + 1}
  | .running => {counts with running := counts.running + 1}
  | .succeeded => {counts with succeeded := counts.succeeded + 1}
  | .failed => {counts with failed := counts.failed + 1}
  | .skipped => {counts with skipped := counts.skipped + 1}

def projectRouteProgress (aggregate : TaskAggregate) : RouteProgressDto :=
  let counts := (aggregate.routeSteps.map RouteStepRecord.status).foldl countStep
    ⟨0,0,0,0,0,0,0,0⟩
  let total := aggregate.routeSteps.length
  let completed := counts.succeeded + counts.failed + counts.skipped
  {counts with total := total, completed := completed, percent := percentOf completed total}

def artifactKinds : List ArtifactKind :=
  [.prompt,.stdout,.stderr,.result,.diff,.gitStatus,.commit,.screenshot,.testLog,.handoff,
    .metadata]

def countArtifact (summary : EvidenceSummaryDto) (artifact : ArtifactRecord) :
    EvidenceSummaryDto :=
  ⟨summary.totalArtifacts,summary.totalBytes + artifact.sizeBytes,
    summary.byKind.map fun (kind,count) => (kind,if kind = artifact.kind then count + 1 else count)⟩

def projectEvidenceSummary (artifacts : List ArtifactRecord) : EvidenceSummaryDto :=
  artifacts.foldl countArtifact ⟨artifacts.length,0,artifactKinds.map fun kind => (kind,0)⟩

def projectEvent (event : EventRecord) : EventSummaryDto :=
  ⟨event.id,event.runId,event.type,event.level,event.message,event.createdAt⟩

def laterEvent (latest : Option EventRecord) (candidate : EventRecord) : Option EventRecord :=
  match latest with
  | none => some candidate
  | some event => if event.id < candidate.id then some candidate else some event

def latestEvent (aggregate : TaskAggregate) : Option EventSummaryDto :=
  (aggregate.events.foldl laterEvent none).map projectEvent

def nextAction (status : TaskStatus) (pendingReview : Option PendingReviewDto) : TaskNextAction :=
  match status with
  | .queued => .execute
  | .running => .monitor
  | .needsReview => if pendingReview.isSome then .review else .inspect
  | .blocked => .retry
  | .done => .none

def encodePoint (point : Nat) : Text :=
  if point < 0x80 then percentByte point
  else if point < 0x800 then percentByte (0xc0 + point / 64) ++ percentByte (0x80 + point % 64)
  else if point < 0x10000 then
    percentByte (0xe0 + point / 4096) ++ percentByte (0x80 + point / 64 % 64) ++
      percentByte (0x80 + point % 64)
  else percentByte (0xf0 + point / 262144) ++ percentByte (0x80 + point / 4096 % 64) ++
    percentByte (0x80 + point / 64 % 64) ++ percentByte (0x80 + point % 64)

def unreserved (c : CodeUnit) : Bool :=
  isLetter c || isDigit c || [45,95,46,33,126,42,39,40,41].contains c.val

def encodeURIComponent : Text → Except String Text
  | [] => .ok []
  | c::rest =>
      if unreserved c then (encodeURIComponent rest).map (c :: ·)
      else if low c then .error "URI malformed"
      else if high c then match rest with
        | [] => .error "URI malformed"
        | d::rest =>
            if low d then (encodeURIComponent rest).map
              (encodePoint (0x10000 + (c.val - 0xd800) * 0x400 + (d.val - 0xdc00)) ++ ·)
            else .error "URI malformed"
      else (encodeURIComponent rest).map (encodePoint c.val ++ ·)

def artifactContentUrl (artifactId : Text) : Except String Text :=
  (encodeURIComponent artifactId).map fun id => ascii "/v1/artifacts/" ++ id ++ ascii "/content"

example : (artifactContentUrl (ascii "artifact with/slash?#")).toOption =
    some (ascii "/v1/artifacts/artifact%20with%2Fslash%3F%23/content") := by decide +kernel

def projectArtifact (artifact : ArtifactRecord) : Except String ArtifactDto := do
  let contentUrl ← artifactContentUrl artifact.id
  return ⟨artifact.id,artifact.runId,artifact.kind,
    pathLeaf artifact.path (ascii artifact.kind.text),artifact.sha256,artifact.sizeBytes,
    artifact.createdAt,contentUrl⟩

def projectRouteStep (step : RouteStepRecord) : RouteStepDto :=
  ⟨step.id,step.sequence,step.agent,step.role,step.required,step.reason,step.status,step.runId,
    step.createdAt,step.updatedAt⟩

def projectActiveRun (run : RunRecord) : ActiveRunDto :=
  ⟨run.id,run.routeStepId,run.agent,run.role,run.attempt,run.status,run.startedAt,run.updatedAt⟩

def projectRun (run : RunRecord) : RunDto :=
  ⟨run.id,run.routeStepId,run.agent,run.role,run.attempt,run.status,run.branch,run.baseCommit,
    run.exitCode,run.signal,run.summary,run.error,run.startedAt,run.finishedAt,run.createdAt,
    run.updatedAt⟩

def projectMessage (message : MessageRecord) : MessageDto :=
  ⟨message.id,message.runId,message.direction,message.role,message.body,message.deliveryStatus,
    message.createdAt⟩

def projectReview (review : ReviewRecord) : ReviewDto :=
  ⟨review.id,review.runId,review.reviewer,review.status,review.note,review.createdAt,
    review.updatedAt⟩

section
variable {A : Type}

-- Array.prototype.sort: stable, in the order of a comparison's sign.
def sorted (compare : A → A → Int) (xs : List A) : List A :=
  xs.mergeSort fun left right => compare left right ≤ 0

-- The operator `||` on numbers.
def thenBy (first second : Int) : Int := if first = 0 then second else first

end

section
variable (localeCompare : Text → Text → Int)

def byCreation {A : Type} (createdAt id : A → Text) (left right : A) : Int :=
  thenBy (localeCompare (createdAt left) (createdAt right)) (localeCompare (id left) (id right))

def latestPendingReview (aggregate : TaskAggregate) : Option PendingReviewDto :=
  ((sorted (fun left right => byCreation localeCompare ReviewRecord.createdAt ReviewRecord.id right left)
    (aggregate.reviews.filter fun review => review.status == .pending)).head?).map
      fun pending => ⟨pending.id,pending.runId,pending.reviewer,pending.createdAt⟩

def projectTaskBoardRow (aggregate : TaskAggregate) : TaskBoardRowDto :=
  let task := aggregate.task
  let pendingReview := latestPendingReview localeCompare aggregate
  { id := task.id
    goal := task.goal
    repositoryName := pathLeaf task.repo (ascii "repository")
    status := task.status
    priority := task.priority
    requestedAgent := task.agent
    routeMode := task.routePlan.mode
    routeRisk := task.routePlan.risk
    routeAgents := aggregate.routeSteps.map RouteStepRecord.agent
    routeReasons := task.routePlan.reasons
    routeProgress := projectRouteProgress aggregate
    activeRuns := (sorted (byCreation localeCompare RunRecord.createdAt RunRecord.id)
      (aggregate.runs.filter isActiveRun)).map projectActiveRun
    evidenceSummary := projectEvidenceSummary aggregate.artifacts
    pendingReview := pendingReview
    latestEvent := latestEvent aggregate
    nextAction := nextAction task.status pendingReview
    latestUpdate := task.latestUpdate
    createdAt := task.createdAt
    updatedAt := task.updatedAt }

def projectHeader (task : TaskRecord) : TaskDetailHeaderDto :=
  { id := task.id
    goal := task.goal
    status := task.status
    priority := task.priority
    requestedAgent := task.agent
    repositoryName := pathLeaf task.repo (ascii "repository")
    baseRef := task.baseRef
    context := task.context
    successCriteria := task.successCriteria
    verificationCommand := task.verificationCommand
    handoffRequired := task.handoffRequired
    latestUpdate := task.latestUpdate
    route := task.routePlan
    createdAt := task.createdAt
    updatedAt := task.updatedAt }

def projectTaskDetail (aggregate : TaskAggregate) : Except String TaskDetailDto := do
  let artifacts ← (sorted (byCreation localeCompare ArtifactRecord.createdAt ArtifactRecord.id)
    aggregate.artifacts).mapM projectArtifact
  return {
    summary := projectTaskBoardRow localeCompare aggregate
    task := projectHeader aggregate.task
    routeSteps := (sorted (fun left right => thenBy (left.sequence - right.sequence)
      (localeCompare left.createdAt right.createdAt)) aggregate.routeSteps).map projectRouteStep
    runs := (sorted (byCreation localeCompare RunRecord.createdAt RunRecord.id)
      aggregate.runs).map projectRun
    events := (sorted (fun left right => left.id - right.id) aggregate.events).map projectEvent
    artifacts := artifacts
    messages := (sorted (byCreation localeCompare MessageRecord.createdAt MessageRecord.id)
      aggregate.messages).map projectMessage
    reviews := (sorted (byCreation localeCompare ReviewRecord.createdAt ReviewRecord.id)
      aggregate.reviews).map projectReview }

end

def IsDirectory (parent : Text) : Prop := ∀ c ∈ parent.getLast?, anySlash c = true

inductive SameLeaf : Text → Text → Prop where
  | same (path : Text) : SameLeaf path path
  | moved {parent other leaf : Text} (directory : IsDirectory parent)
      (elsewhere : IsDirectory other) (named : ∃ c ∈ leaf, anySlash c = false) :
      SameLeaf (parent ++ leaf) (other ++ leaf)

def PrivateTask (a b : TaskRecord) : Prop := ∃ repo claimedBy claimedAt,
  SameLeaf a.repo repo ∧
    b = {a with repo := repo, claimedBy := claimedBy, claimedAt := claimedAt}

def PrivateRun (a b : RunRecord) : Prop :=
  ∃ adapterRunId pid worktreePath stdoutPath stderrPath resultPath usageJson,
    b = {a with
      adapterRunId := adapterRunId
      pid := pid
      worktreePath := worktreePath
      stdoutPath := stdoutPath
      stderrPath := stderrPath
      resultPath := resultPath
      usageJson := usageJson}

def PrivateEvent (a b : EventRecord) : Prop := ∃ data, b = {a with data := data}

def PrivateArtifact (a b : ArtifactRecord) : Prop := ∃ path relativePath metadata,
  SameLeaf a.path path ∧
    b = {a with path := path, relativePath := relativePath, metadata := metadata}

structure PrivatelyDiffer (a b : TaskAggregate) : Prop where
  task : PrivateTask a.task b.task
  routeSteps : a.routeSteps = b.routeSteps
  runs : List.Forall₂ PrivateRun a.runs b.runs
  events : List.Forall₂ PrivateEvent a.events b.events
  artifacts : List.Forall₂ PrivateArtifact a.artifacts b.artifacts
  messages : a.messages = b.messages
  reviews : a.reviews = b.reviews

theorem plainSolidus {c : CodeUnit} (plain : anySlash c = false) : solidus c ≠ 47 := by
  simp only [anySlash,Bool.or_eq_false_iff,decide_eq_false_iff_not] at plain
  unfold solidus
  rw [if_neg plain.2]
  exact plain.1

theorem separatorSolidus {c : CodeUnit} (separator : anySlash c = true) : solidus c = 47 := by
  simp only [anySlash,Bool.or_eq_true,decide_eq_true_eq] at separator
  unfold solidus
  split
  · rfl
  · next other => exact separator.resolve_right other

theorem normalizedLeaf (parent : Text) {leaf : Text} (named : ∃ c ∈ leaf, anySlash c = false) :
    normalized (parent ++ leaf) = parent.map solidus ++ normalized leaf := by
  obtain ⟨c,listed,plain⟩ := named
  have stays : (leaf.map solidus).reverse.dropWhile (· = 47) ≠ [] := fun none_ => by
    have all := List.dropWhile_eq_nil_iff.mp none_ (solidus c)
      (List.mem_reverse.mpr (List.mem_map_of_mem listed))
    exact plainSolidus plain (of_decide_eq_true all)
  show (List.map solidus (parent ++ leaf)).rdropWhile (· = 47) =
    parent.map solidus ++ (leaf.map solidus).rdropWhile (· = 47)
  unfold List.rdropWhile
  rw [List.map_append,List.reverse_append,List.dropWhile_append,
    if_neg (by simpa using stays),List.reverse_append,List.reverse_reverse]

theorem directoryEnds {parent : Text} (directory : IsDirectory parent) :
    (parent.map solidus).reverse.takeWhile (· ≠ 47) = [] := by
  rw [← List.map_reverse]
  cases reversed : parent.reverse with
  | nil => rfl
  | cons c rest =>
    have last : parent.getLast? = some c := by rw [← List.head?_reverse,reversed]; rfl
    rw [List.map_cons,separatorSolidus (directory c last)]
    rfl

theorem leafMoved {parent leaf : Text} (directory : IsDirectory parent)
    (named : ∃ c ∈ leaf, anySlash c = false) :
    (normalized (parent ++ leaf)).rtakeWhile (· ≠ 47) = (normalized leaf).rtakeWhile (· ≠ 47) := by
  rw [normalizedLeaf parent named]
  unfold List.rtakeWhile
  rw [List.reverse_append,List.takeWhile_append,directoryEnds directory]
  split
  · next all => rw [List.append_nil,List.takeWhile_prefix _ |>.eq_of_length all]
  · rfl

theorem leafSame {path other : Text} (same : SameLeaf path other) (fallback : Text) :
    pathLeaf path fallback = pathLeaf other fallback := by
  cases same with
  | same => rfl
  | moved directory elsewhere named =>
    unfold pathLeaf
    rw [leafMoved directory named,leafMoved elsewhere named]

section
variable {A B C : Type} {R : A → B → Prop} {xs : List A} {ys : List B}

theorem mapSame {f : A → C} {g : B → C} (related : List.Forall₂ R xs ys)
    (same : ∀ {a b}, R a b → f a = g b) : xs.map f = ys.map g := by
  induction related with
  | nil => rfl
  | cons own _ ih => rw [List.map_cons,List.map_cons,same own,ih]

theorem mapMSame {f : A → Except String C} {g : B → Except String C}
    (related : List.Forall₂ R xs ys) (same : ∀ {a b}, R a b → f a = g b) :
    xs.mapM f = ys.mapM g := by
  induction related with
  | nil => rfl
  | cons own _ ih => rw [List.mapM_cons,List.mapM_cons,same own,ih]

theorem foldlSame {f : C → A → C} {g : C → B → C} (related : List.Forall₂ R xs ys)
    (same : ∀ {a b}, R a b → ∀ c, f c a = g c b) (c : C) : xs.foldl f c = ys.foldl g c := by
  induction related generalizing c with
  | nil => rfl
  | cons own _ ih => rw [List.foldl_cons,List.foldl_cons,same own,ih]

theorem filterRelated {p : A → Bool} {q : B → Bool} (related : List.Forall₂ R xs ys)
    (same : ∀ {a b}, R a b → p a = q b) : List.Forall₂ R (xs.filter p) (ys.filter q) :=
  List.rel_filter (fun _ _ own => iff_of_eq (congrArg (· = true) (same own))) related

theorem relatedPairs (related : List.Forall₂ R xs ys) :
    ∃ pairs : List {p : A × B // R p.1 p.2},
      xs = pairs.map (fun p => p.val.1) ∧ ys = pairs.map fun p => p.val.2 := by
  induction related with
  | nil => exact ⟨[],rfl,rfl⟩
  | @cons a b _ _ own _ ih =>
    obtain ⟨pairs,left,right⟩ := ih
    exact ⟨⟨(a,b),own⟩::pairs,by rw [left]; rfl,by rw [right]; rfl⟩

theorem sortedRelated {compare : A → A → Int} {other : B → B → Int}
    (related : List.Forall₂ R xs ys)
    (same : ∀ {a b c d}, R a b → R c d → compare a c = other b d) :
    List.Forall₂ R (sorted compare xs) (sorted other ys) := by
  obtain ⟨pairs,rfl,rfl⟩ := relatedPairs related
  let order := fun p q : {p : A × B // R p.1 p.2} => decide (compare p.val.1 q.val.1 ≤ 0)
  have left : (pairs.mergeSort order).map (fun p => p.val.1) =
      sorted compare (pairs.map fun p => p.val.1) := List.map_mergeSort fun p _ q _ => rfl
  have right : (pairs.mergeSort order).map (fun p => p.val.2) =
      sorted other (pairs.map fun p => p.val.2) :=
    List.map_mergeSort fun p _ q _ => by simp only [order,same p.property q.property]
  rw [← left,← right,List.forall₂_map_left_iff,List.forall₂_map_right_iff,List.forall₂_same]
  exact fun p _ => p.property

end

theorem runShown {a b : RunRecord} (hidden : PrivateRun a b) : projectRun a = projectRun b := by
  obtain ⟨_,_,_,_,_,_,_,rfl⟩ := hidden
  rfl

theorem activeRunShown {a b : RunRecord} (hidden : PrivateRun a b) :
    projectActiveRun a = projectActiveRun b := by
  obtain ⟨_,_,_,_,_,_,_,rfl⟩ := hidden
  rfl

theorem activeSame {a b : RunRecord} (hidden : PrivateRun a b) :
    isActiveRun a = isActiveRun b := by
  obtain ⟨_,_,_,_,_,_,_,rfl⟩ := hidden
  rfl

theorem eventShown {a b : EventRecord} (hidden : PrivateEvent a b) :
    projectEvent a = projectEvent b := by
  obtain ⟨_,rfl⟩ := hidden
  rfl

theorem artifactShown {a b : ArtifactRecord} (hidden : PrivateArtifact a b) :
    projectArtifact a = projectArtifact b := by
  obtain ⟨path,_,_,leaf,rfl⟩ := hidden
  simp only [projectArtifact,leafSame leaf]

theorem artifactCounted {a b : ArtifactRecord} (hidden : PrivateArtifact a b)
    (summary : EvidenceSummaryDto) : countArtifact summary a = countArtifact summary b := by
  obtain ⟨_,_,_,_,rfl⟩ := hidden
  rfl

theorem laterRelated {xs ys : List EventRecord} (related : List.Forall₂ PrivateEvent xs ys)
    {latest other : Option EventRecord} (same : Option.Rel PrivateEvent latest other) :
    Option.Rel PrivateEvent (xs.foldl laterEvent latest) (ys.foldl laterEvent other) := by
  induction related generalizing latest other with
  | nil => exact same
  | cons own _ ih =>
    apply ih
    obtain ⟨data,rfl⟩ := own
    cases same with
    | none => exact .some ⟨data,rfl⟩
    | some former =>
      obtain ⟨earlier,rfl⟩ := former
      unfold laterEvent
      dsimp only
      split
      · exact .some ⟨data,rfl⟩
      · exact .some ⟨earlier,rfl⟩

theorem latestSame {xs ys : List EventRecord} (related : List.Forall₂ PrivateEvent xs ys) :
    (xs.foldl laterEvent none).map projectEvent = (ys.foldl laterEvent none).map projectEvent := by
  have latest := laterRelated related .none
  revert latest
  generalize xs.foldl laterEvent none = left
  generalize ys.foldl laterEvent none = right
  rintro (own | _)
  · exact congrArg some (eventShown own)
  · rfl

section
variable (localeCompare : Text → Text → Int)

theorem runsSorted {xs ys : List RunRecord} (related : List.Forall₂ PrivateRun xs ys) :
    List.Forall₂ PrivateRun (sorted (byCreation localeCompare RunRecord.createdAt RunRecord.id) xs)
      (sorted (byCreation localeCompare RunRecord.createdAt RunRecord.id) ys) := by
  refine sortedRelated related fun own other => ?_
  obtain ⟨_,_,_,_,_,_,_,rfl⟩ := own
  obtain ⟨_,_,_,_,_,_,_,rfl⟩ := other
  rfl

theorem artifactsSorted {xs ys : List ArtifactRecord}
    (related : List.Forall₂ PrivateArtifact xs ys) :
    List.Forall₂ PrivateArtifact
      (sorted (byCreation localeCompare ArtifactRecord.createdAt ArtifactRecord.id) xs)
      (sorted (byCreation localeCompare ArtifactRecord.createdAt ArtifactRecord.id) ys) := by
  refine sortedRelated related fun own other => ?_
  obtain ⟨_,_,_,_,rfl⟩ := own
  obtain ⟨_,_,_,_,rfl⟩ := other
  rfl

theorem eventsSorted {xs ys : List EventRecord} (related : List.Forall₂ PrivateEvent xs ys) :
    List.Forall₂ PrivateEvent (sorted (fun left right => left.id - right.id) xs)
      (sorted (fun left right => left.id - right.id) ys) := by
  refine sortedRelated related fun own other => ?_
  obtain ⟨_,rfl⟩ := own
  obtain ⟨_,rfl⟩ := other
  rfl

theorem boardRowSame {a b : TaskAggregate} (differ : PrivatelyDiffer a b) :
    projectTaskBoardRow localeCompare a = projectTaskBoardRow localeCompare b := by
  obtain ⟨task,steps,runs,events,artifacts,messages,reviews⟩ := a
  obtain ⟨_,_,runs',events',artifacts',_,_⟩ := b
  obtain ⟨⟨repo,_,_,leaf,rfl⟩,rfl,hRuns,hEvents,hArtifacts,rfl,rfl⟩ := differ
  dsimp only at hRuns hEvents hArtifacts leaf
  have active := mapSame (runsSorted localeCompare (filterRelated hRuns activeSame)) activeRunShown
  have evidence : projectEvidenceSummary artifacts = projectEvidenceSummary artifacts' := by
    unfold projectEvidenceSummary
    rw [hArtifacts.length_eq,foldlSame hArtifacts artifactCounted]
  simp only [projectTaskBoardRow,leafSame leaf,active,evidence,latestEvent,latestSame hEvents]
  rfl

theorem privateHidden {a b : TaskAggregate} (differ : PrivatelyDiffer a b) :
    projectTaskBoardRow localeCompare a = projectTaskBoardRow localeCompare b ∧
      projectTaskDetail localeCompare a = projectTaskDetail localeCompare b := by
  have row : projectTaskBoardRow localeCompare a = projectTaskBoardRow localeCompare b :=
    boardRowSame localeCompare differ
  refine ⟨row,?_⟩
  have runs := mapSame (runsSorted localeCompare differ.runs) runShown
  have events := mapSame (eventsSorted differ.events) eventShown
  have artifacts := mapMSame (artifactsSorted localeCompare differ.artifacts) artifactShown
  have header : projectHeader a.task = projectHeader b.task := by
    obtain ⟨repo,_,_,leaf,same⟩ := differ.task
    rw [same]
    simp only [projectHeader,leafSame leaf]
  unfold projectTaskDetail
  rw [row,runs,events,artifacts,header,differ.routeSteps,differ.messages,differ.reviews]

end

def ownedRun : RunRecord where
  id := ascii "run_1"
  taskId := ascii "task_1"
  routeStepId := ascii "step_1"
  adapterRunId := some (ascii "agent-7")
  agent := .codex
  role := .execute
  attempt := 1
  status := .running
  pid := some 4711
  worktreePath := some (ascii "/home/a/.acc/worktrees/run_1")
  branch := some (ascii "acc/task-1")
  baseCommit := none
  stdoutPath := some (ascii "/home/a/.acc/stdout.log")
  stderrPath := none
  resultPath := none
  exitCode := none
  signal := none
  summary := none
  error := none
  usageJson := some (ascii "null")
  startedAt := some (ascii "2026-07-09T12:01:00.000Z")
  finishedAt := none
  createdAt := ascii "2026-07-09T12:00:30.000Z"
  updatedAt := ascii "2026-07-09T12:01:00.000Z"

def ownedTask : TaskAggregate where
  task :=
    { id := ascii "task_1", goal := ascii "Fix it", repo := ascii "/home/a/" ++ ascii "repo"
      baseRef := ascii "HEAD", agent := .auto, priority := .normal, context := none
      successCriteria := [], verificationCommand := none, handoffRequired := true
      status := .running, routePlan := ⟨.single,.normal,[]⟩, latestUpdate := ascii "Claimed"
      claimedBy := some (ascii "daemon:7"), claimedAt := some (ascii "2026-07-09T12:00:00.000Z")
      createdAt := ascii "2026-07-09T11:00:00.000Z"
      updatedAt := ascii "2026-07-09T12:00:00.000Z" }
  routeSteps := []
  runs := [ownedRun]
  events := [⟨1,ascii "task_1",none,ascii "task.claimed",.info,ascii "Claimed",some .null,
    ascii "2026-07-09T12:00:00.000Z"⟩]
  artifacts := [⟨ascii "artifact_1",ascii "task_1",none,.diff,
    ascii "/home/a/.acc/" ++ ascii "diff.patch",some (ascii "diff.patch"),ascii "c0ffee",880,none,
    ascii "2026-07-09T12:06:00.000Z"⟩]
  messages := []
  reviews := []

def movedTask : TaskAggregate :=
  {ownedTask with
    task := {ownedTask.task with
      repo := ascii "C:\\work\\" ++ ascii "repo"
      claimedBy := none
      claimedAt := none}
    runs := ownedTask.runs.map fun run => {run with
      adapterRunId := none
      pid := none
      worktreePath := none
      stdoutPath := none
      usageJson := none}
    events := ownedTask.events.map fun event => {event with data := none}
    artifacts := ownedTask.artifacts.map fun artifact => {artifact with
      path := ascii "artifacts/" ++ ascii "diff.patch"
      relativePath := none}}

theorem directoryEnded {parent : Text} (ended : parent.getLast?.all anySlash = true) :
    IsDirectory parent := fun c last => Option.all_eq_true anySlash _ |>.mp ended c last

theorem leafNamed {leaf : Text} (named : leaf.any (fun c => !anySlash c) = true) :
    ∃ c ∈ leaf, anySlash c = false := by
  obtain ⟨c,listed,plain⟩ := List.any_eq_true.mp named
  exact ⟨c,listed,by simpa using plain⟩

theorem movedDiffers : PrivatelyDiffer ownedTask movedTask where
  task := ⟨_,_,_,.moved (directoryEnded (by decide)) (directoryEnded (by decide))
    (leafNamed (by decide)),rfl⟩
  routeSteps := rfl
  runs := .cons ⟨_,_,_,_,_,_,_,rfl⟩ .nil
  events := .cons ⟨_,rfl⟩ .nil
  artifacts := .cons
    ⟨_,_,_,.moved (directoryEnded (by decide)) (directoryEnded (by decide))
    (leafNamed (by decide)),rfl⟩ .nil
  messages := rfl
  reviews := rfl

def unitOrder (left right : Text) : Int := if left = right then 0 else if left < right then -1 else 1

theorem movedHidden :
    projectTaskBoardRow unitOrder ownedTask = projectTaskBoardRow unitOrder movedTask ∧
      projectTaskDetail unitOrder ownedTask = projectTaskDetail unitOrder movedTask :=
  privateHidden unitOrder movedDiffers

end ControlCenter.ApiProjections
