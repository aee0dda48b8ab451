import ControlCenter.Histories
import ControlCenter.ArtifactFiles
import ControlCenter.PosixPaths
import ControlCenter.Ports

/-! The worktrees of runs: each is a new branch and a new directory in the home directory,
made from a clean source repository, and only git, run without hooks, is asked to make it. -/
namespace ControlCenter.Worktrees
open JsonValue Protocol Db DbReviews Dialogue Histories ScriptRuns
open ArtifactFiles (letterOrDigit safeSegment assertSafePathSegment)
open Ports (WorktreeInfo SourceRepositorySnapshot)

structure ProcessResult where
  stdout : String
  stderr : String
  deriving DecidableEq, Repr

structure ProcessExecutionError where
  message : String
  command : String
  args : List String
  exitCode : Option Int
  signal : Option String
  stdout : String
  stderr : String
  deriving DecidableEq, Repr

def hexDigit (c : Char) : Bool :=
  c.isDigit || ['a','b','c','d','e','f','A','B','C','D','E','F'].contains c

structure Uuid where
  digits : List Char
  count : digits.length = 32
  hex : ∀ c ∈ digits, c.isDigit = true ∨ c ∈ ['a','b','c','d','e','f']

def Uuid.text (id : Uuid) : List Char := ['-'].intercalate [id.digits.take 8,
  (id.digits.drop 8).take 4,(id.digits.drop 12).take 4,(id.digits.drop 16).take 4,id.digits.drop 20]

structure SnapshotMetadata where
  worktreePath : String
  head : String
  baseCommit : String
  branch : Option String
  stat : String
  capturedAt : Int
  deriving DecidableEq, Repr

inductive Question where
  -- A command without a shell; an answer that is an error is what a process left behind.
  | runProcess (command : String) (args : List String)
  | realpath (path : String)
  | isDirectory (path : String)
  | mkdir (path : String)
  | randomUUID
  | clock
  -- Whether the first of two that failed did so before the other.
  | rejectsFirst
  | writeText (taskId runId : String) (kind : ArtifactKind) (name data : String)
  | writeJson (taskId runId : String) (kind : ArtifactKind) (name : String) (data : SnapshotMetadata)

def Answer : Question → Type
  | .runProcess .. => Except ProcessExecutionError ProcessResult
  | .realpath _ => String
  | .isDirectory _ => Bool
  | .mkdir _ => Unit
  | .randomUUID => Uuid
  | .clock => Int
  | .rejectsFirst => Bool
  | .writeText .. | .writeJson .. => ArtifactMetadata

abbrev Dialog (α : Type) := Script Question Answer α
abbrev Past := List (Exchange Question Answer)

def ask (q : Question) : Dialog (Answer q) := .call q

def lowerOrDigit (c : Char) : Bool := c.isLower || c.isDigit

def dashed (inside : Bool) : List Char → List Char
  | [] => []
  | c::rest =>
      if lowerOrDigit c then c::dashed false rest
      else if inside then dashed true rest else '-'::dashed true rest

def dash (c : Char) : Bool := c == '-'

-- The identifiers it is given are in ASCII.
def branchSegment (value : String) : List Char :=
  let text := dashed false (value.toList.map Char.toLower)
  match (((text.dropWhile dash).reverse.dropWhile dash).reverse).take 48 with
  | [] => ['r','u','n']
  | cleaned => cleaned

def validateBaseRef (baseRef : String) : Outcome String :=
  let ref := trim baseRef
  if ref = "" ∨ 512 < (utf16 ref).length ∨ ref.toList.head? = some '-' ∨
      ref.toList.any (fun c => c.toNat == 0 || c == '\n' || c == '\r') then
    .error "baseRef is not a safe git revision"
  else .ok ref

def commitId (text : String) : Bool :=
  decide (40 ≤ text.toList.length) && decide (text.toList.length ≤ 64) && text.toList.all hexDigit

def joinPath (base segment : String) : String :=
  String.ofList (PosixPaths.join [base.toList,segment.toList])

def nullDevice : String := "/dev/null"

structure CreateWorktreeInput where
  taskId : String
  runId : String
  repo : String
  baseRef : Option String

structure WorktreeManager where
  -- The directory of this process, from which paths are resolved.
  cwd : String
  home : String
  gitBinary : String

structure Addition where
  repo : String
  branch : String
  path : String
  commit : String

def insideArgs : List String := ["rev-parse","--is-inside-work-tree"]
def topArgs : List String := ["rev-parse","--path-format=absolute","--show-toplevel"]
def headArgs : List String := ["rev-parse","--verify","HEAD"]
def statusArgs : List String := ["status","--porcelain=v1","--untracked-files=all"]
def commitArgs (ref : String) : List String :=
  ["rev-parse","--verify","--end-of-options",ref ++ "^{commit}"]
def branchedStatusArgs : List String :=
  ["status","--porcelain=v1","--branch","--untracked-files=all"]
def listArgs : List String := ["ls-files","--others","--exclude-standard","-z"]
def symbolicArgs : List String := ["symbolic-ref","--quiet","--short","HEAD"]
def logArgs (base : String) : List String :=
  ["log","--format=%H%x09%an%x09%aI%x09%s",base ++ "..HEAD","--"]

inductive Shape where
  | binary | stat
  deriving DecidableEq, Repr

def Shape.flag : Shape → String
  | .binary => "--binary"
  | .stat => "--stat"

def differenceArgs (shape : Shape) (base : String) : List String :=
  ["diff",shape.flag,"--no-ext-diff",base,"--"]
def untrackedArgs (shape : Shape) (file : String) : List String :=
  ["diff",shape.flag,"--no-ext-diff","--no-index","--",nullDevice,file]
def branchArgs (branch : String) : List String := ["check-ref-format","--branch",branch]
def Addition.args (a : Addition) : List String :=
  ["worktree","add","--no-track","-b",a.branch,a.path,a.commit]

def checked {α : Type} (r : Outcome α) : Dialog α := Script.ofExcept r

def succeeded : Except ProcessExecutionError ProcessResult → Dialog ProcessResult
  | .ok result => .done result
  | .error error => .fail error.message

def place (path : String) : Dialog String := do
  let _ ← ask (.mkdir path)
  ask (.realpath path)

namespace WorktreeManager
variable (m : WorktreeManager)

def process (repo : String) (args : List String) : Question :=
  .runProcess m.gitBinary (["-c","core.hooksPath=" ++ nullDevice,"-C",repo] ++ args)

def git (repo : String) (args : List String) : Dialog ProcessResult := do
  succeeded (← ask (m.process repo args))

def resolved (path : String) : String :=
  String.ofList ('/'::PosixPaths.joined (PosixPaths.resolve m.cwd.toList path.toList))

def relative (start goal : String) : List Char :=
  PosixPaths.relative m.cwd.toList start.toList goal.toList

def topLevel (repo : String) : Dialog String := do
  let inside ← m.git repo insideArgs
  if trim inside.stdout ≠ "true" then .fail "not a work tree"
  else
    let top ← m.git repo topArgs
    pure (trim top.stdout)

def validateRepository (repo : String) : Dialog String := do
  let real : Except String String ← (ask (.realpath (m.resolved repo))).attempt
  match real with
  | .error _ => .fail s!"Repository path does not exist: {m.resolved repo}"
  | .ok resolved => do
      let directory : Bool ← ask (.isDirectory resolved)
      if !directory then .fail s!"Repository path is not a directory: {resolved}"
      else match ← (m.topLevel resolved).attempt with
        | .error detail =>
            .fail s!"Repository path is not a non-bare git work tree: {resolved} ({detail})"
        | .ok top => ask (.realpath top)

def assertClean (repo : String) : Dialog Unit := do
  let status ← m.git repo statusArgs
  if trim status.stdout ≠ "" then
    .fail s!"Source repository must be clean before creating a worktree:\n{trim status.stdout}"
  else pure ()

def resolveCommit (repo baseRef : String) : Dialog String := do
  match ← (m.git repo (commitArgs baseRef)).attempt with
  | .error detail => .fail s!"baseRef does not resolve to a commit: {baseRef} ({detail})"
  | .ok result =>
      if commitId (trim result.stdout) then pure (trim result.stdout)
      else .fail s!"Git returned an invalid commit id for {baseRef}"

def prepareRoots (taskId : String) : Dialog (String × String) := do
  let realHome ← place m.home
  let worktreeRoot ← place (joinPath realHome "worktrees")
  if PosixPaths.outside (m.relative realHome worktreeRoot) then
    .fail "ACC_HOME worktrees directory resolves outside ACC_HOME"
  else
    let taskRoot ← place (joinPath worktreeRoot taskId)
    if PosixPaths.outside (m.relative worktreeRoot taskRoot) then
      .fail "Task worktree directory resolves outside ACC_HOME"
    else pure (worktreeRoot,taskRoot)

def inspectWorktree (a : Addition) : Dialog String := do
  let createdPath : String ← ask (.realpath a.path)
  let created ← m.git createdPath headArgs
  if trim created.stdout ≠ a.commit then
    .fail s!"Created worktree HEAD {trim created.stdout} does not match requested base {a.commit}"
  else pure createdPath

def addWorktree (a : Addition) : Dialog String := do
  let _ ← m.git a.repo (branchArgs a.branch)
  let _ ← m.git a.repo a.args
  m.inspectWorktree a

end WorktreeManager

def suffix (id : Uuid) : List Char := (id.text.filter fun c => !dash c).take 12

def directoryName (runId : String) (id : Uuid) : String :=
  String.ofList (runId.toList ++ '-'::suffix id)

def branchName (taskId runId : String) (id : Uuid) : String :=
  String.ofList (['a','c','c','/'] ++ branchSegment taskId ++ '/'::branchSegment runId ++
    '-'::suffix id)

def escapes (relative : List Char) : Bool :=
  (PosixPaths.dots ++ ['/']).isPrefixOf relative || PosixPaths.absolute relative

def WorktreeManager.createAt (m : WorktreeManager) (input : CreateWorktreeInput)
    (sourceRepo baseRef baseCommit : String) : Dialog WorktreeInfo := do
  let (worktreeRoot,taskRoot) ← m.prepareRoots input.taskId
  -- The home may be in the source repository and have made it dirty.
  m.assertClean sourceRepo
  let id : Uuid ← ask .randomUUID
  let path := joinPath taskRoot (directoryName input.runId id)
  if escapes (m.relative worktreeRoot path) then .fail "Worktree path escapes ACC_HOME"
  else
    let a : Addition := ⟨sourceRepo,branchName input.taskId input.runId id,path,baseCommit⟩
    let createdPath ← m.addWorktree a
    let now : Int ← ask .clock
    pure ⟨input.taskId,input.runId,sourceRepo,createdPath,a.branch,baseRef,baseCommit,now⟩

def WorktreeManager.create (m : WorktreeManager) (input : CreateWorktreeInput) :
    Dialog WorktreeInfo := do
  checked (assertSafePathSegment input.taskId "taskId")
  checked (assertSafePathSegment input.runId "runId")
  let baseRef ← checked (validateBaseRef (input.baseRef.getD "HEAD"))
  let sourceRepo ← m.validateRepository input.repo
  m.assertClean sourceRepo
  let baseCommit ← m.resolveCommit sourceRepo baseRef
  m.createAt input sourceRepo baseRef baseCommit

inductive Reading : List String → Prop
  | inside : Reading insideArgs
  | top : Reading topArgs
  | head : Reading headArgs
  | status : Reading statusArgs
  | commit (ref : String) (safe : ref.toList.head? ≠ some '-') : Reading (commitArgs ref)
  | branch (name : String) : Reading (branchArgs name)
  | branched : Reading branchedStatusArgs
  | listing : Reading listArgs
  | symbolic : Reading symbolicArgs
  | log (base : String) (id : commitId base = true) : Reading (logArgs base)
  | difference (shape : Shape) (base : String) (id : commitId base = true) :
      Reading (differenceArgs shape base)
  | untracked (shape : Shape) (file : String) : Reading (untrackedArgs shape file)

inductive Reads (m : WorktreeManager) : Question → Prop
  | process (repo : String) {args : List String} (reading : Reading args) :
      Reads m (m.process repo args)
  | realpath (path : String) : Reads m (.realpath path)
  | isDirectory (path : String) : Reads m (.isDirectory path)
  | randomUUID : Reads m .randomUUID
  | clock : Reads m .clock
  | rejectsFirst : Reads m .rejectsFirst

namespace WorktreeManager
variable (m : WorktreeManager)

def said (repo : String) (args : List String) (result : ProcessResult) :
    Exchange Question Answer := ⟨m.process repo args,.ok (Except.ok result)⟩

def segments (path : String) : List PosixPaths.Segment :=
  PosixPaths.resolve m.cwd.toList path.toList

end WorktreeManager

def drawn (id : Uuid) : Exchange Question Answer := ⟨.randomUUID,.ok id⟩

def real (path found : String) : Exchange Question Answer := ⟨.realpath path,.ok found⟩

-- A repository whose status was empty, and since then nothing was changed.
def CleanSince (m : WorktreeManager) (past : Past) (repo : String) : Prop :=
  ∃ front result back, past = front ++ m.said repo statusArgs result::back ∧
    trim result.stdout = "" ∧ ∀ x ∈ back, Reads m x.1

def TopOf (m : WorktreeManager) (past : Past) (path top : String) : Prop :=
  ∃ inner result, real (m.resolved path) inner ∈ past ∧ m.said inner topArgs result ∈ past ∧
    real (trim result.stdout) top ∈ past

structure Based (m : WorktreeManager) (input : CreateWorktreeInput) (past : Past)
    (repo ref commit : String) : Prop where
  top : TopOf m past input.repo repo
  named : validateBaseRef (input.baseRef.getD "HEAD") = .ok ref
  resolved : ∃ result, m.said repo (commitArgs ref) result ∈ past ∧ trim result.stdout = commit
  id : commitId commit = true

structure Rooted (m : WorktreeManager) (taskId : String) (past : Past)
    (home root taskRoot : String) : Prop where
  top : real m.home home ∈ past
  worktrees : real (joinPath home "worktrees") root ∈ past
  task : real (joinPath root taskId) taskRoot ∈ past
  inHome : ∃ more, more ≠ [] ∧ m.segments root = m.segments home ++ more
  inRoot : ∃ more, more ≠ [] ∧ m.segments taskRoot = m.segments root ++ more

structure RefName (name : List Char) : Prop where
  plain : ∀ c ∈ name, lowerOrDigit c = true ∨ c = '-' ∨ c = '/'
  parts : ∀ s ∈ PosixPaths.segments name, ∃ c rest, s = c::rest ∧ lowerOrDigit c = true

structure Sound (m : WorktreeManager) (input : CreateWorktreeInput) (past : Past)
    (a : Addition) : Prop where
  based : ∃ ref, Based m input past a.repo ref a.commit
  clean : CleanSince m past a.repo
  placed : ∃ home root taskRoot id, Rooted m input.taskId past home root taskRoot ∧
    drawn id ∈ past ∧
    m.segments a.path = m.segments taskRoot ++ [(directoryName input.runId id).toList] ∧
    a.branch = branchName input.taskId input.runId id
  branch : RefName a.branch.toList

def Unadded (m : WorktreeManager) (past : Past) : Prop :=
  ∀ x ∈ past, ∀ a : Addition, x.1 ≠ m.process a.repo a.args

def Within (m : WorktreeManager) (past : Past) (path : String) : Prop :=
  path = m.home ∨ ∃ home, real m.home home ∈ past ∧ m.segments home <+: m.segments path

inductive MayAsk (m : WorktreeManager) (input : CreateWorktreeInput) (past : Past) :
    Question → Prop
  | reads {q : Question} (reads : Reads m q) : MayAsk m input past q
  | makes (path : String) (unadded : Unadded m past)
      (based : ∃ repo ref commit, Based m input past repo ref commit) (within : Within m past path) :
      MayAsk m input past (.mkdir path)
  | adds (a : Addition) (unadded : Unadded m past) (sound : Sound m input past a) :
      MayAsk m input past (m.process a.repo a.args)

def Made (m : WorktreeManager) (input : CreateWorktreeInput) (past : Past)
    (info : WorktreeInfo) : Prop :=
  ∃ front a added back, past = front ++ m.said a.repo a.args added::back ∧
    (∀ x ∈ back, Reads m x.1) ∧ Sound m input front a ∧
    (∃ head, m.said info.worktreePath headArgs head ∈ back ∧ trim head.stdout = a.commit) ∧
    real a.path info.worktreePath ∈ back ∧ Based m input front a.repo info.baseRef a.commit ∧
    info.taskId = input.taskId ∧ info.runId = input.runId ∧ info.sourceRepo = a.repo ∧
    info.branch = a.branch ∧ info.baseCommit = a.commit

section
variable {m : WorktreeManager} {input : CreateWorktreeInput} {past more : Past}
  {repo ref commit home root taskRoot taskId : String} {args : List String} {a : Addition}
  {q : Question} {c : Char} {s : List Char}

theorem processSame {repo' : String} {args' : List String}
    (same : m.process repo args = m.process repo' args') : repo = repo' ∧ args = args' := by
  injection same with _ same
  simpa using same

theorem readingStays (reading : Reading args) : args ≠ a.args := by
  cases reading <;> simp [insideArgs,topArgs,headArgs,statusArgs,commitArgs,branchArgs,
    branchedStatusArgs,listArgs,symbolicArgs,logArgs,differenceArgs,untrackedArgs,Addition.args]

theorem readsStays (reads : Reads m q) : q ≠ m.process a.repo a.args := by
  cases reads with
  | process repo reading => exact fun same => readingStays reading (processSame same).2
  | realpath | isDirectory | randomUUID | clock | rejectsFirst =>
    exact fun same => Question.noConfusion same

theorem Unadded.kept (unadded : Unadded m past) (reads : ∀ x ∈ more, Reads m x.1) :
    Unadded m (past ++ more) := by
  intro x inside a
  rcases List.mem_append.mp inside with old | new
  · exact unadded x old a
  · exact readsStays (reads x new)

theorem CleanSince.kept (clean : CleanSince m past repo) (reads : ∀ x ∈ more, Reads m x.1) :
    CleanSince m (past ++ more) repo := by
  obtain ⟨front,result,back,rfl,empty,since⟩ := clean
  refine ⟨front,result,back ++ more,by simp,empty,fun x inside => ?_⟩
  rcases List.mem_append.mp inside with old | new
  · exact since x old
  · exact reads x new

theorem CleanSince.after (clean : CleanSince m past repo) (before : Past) :
    CleanSince m (before ++ past) repo := by
  obtain ⟨front,result,back,rfl,empty,since⟩ := clean
  exact ⟨before ++ front,result,back,(List.append_assoc _ _ _).symm,empty,since⟩

theorem TopOf.within {path : String} (top : TopOf m past path repo)
    (inside : ∀ x ∈ past, x ∈ more) : TopOf m more path repo := by
  obtain ⟨inner,result,placed,printed,found⟩ := top
  exact ⟨inner,result,inside _ placed,inside _ printed,inside _ found⟩

theorem Based.kept (based : Based m input past repo ref commit) :
    Based m input (past ++ more) repo ref commit := by
  obtain ⟨result',named,same⟩ := based.resolved
  exact ⟨based.top.within fun x inside => List.mem_append_left _ inside,based.named,
    ⟨result',List.mem_append_left _ named,same⟩,based.id⟩

theorem Rooted.kept (rooted : Rooted m taskId past home root taskRoot) :
    Rooted m taskId (past ++ more) home root taskRoot :=
  ⟨List.mem_append_left _ rooted.top,List.mem_append_left _ rooted.worktrees,
    List.mem_append_left _ rooted.task,rooted.inHome,rooted.inRoot⟩

theorem dashedPlain {inside : Bool} {text : List Char} :
    ∀ c ∈ dashed inside text, lowerOrDigit c = true ∨ c = '-' := by
  induction text generalizing inside with
  | nil => exact fun c listed => absurd listed List.not_mem_nil
  | cons c rest ih =>
    intro d listed
    unfold dashed at listed
    split at listed
    next own =>
      rcases List.mem_cons.mp listed with rfl | listed
      · exact .inl own
      · exact ih d listed
    split at listed
    · exact ih d listed
    · rcases List.mem_cons.mp listed with rfl | listed
      · exact .inr rfl
      · exact ih d listed

theorem dropDashHead {text rest : List Char} (same : text.dropWhile dash = c::rest) : c ≠ '-' := by
  induction text with
  | nil => cases same
  | cons d text ih =>
    rw [List.dropWhile_cons] at same
    split at same
    · exact ih same
    next other =>
      cases (List.cons.inj same).1
      exact fun equal => other (beq_iff_eq.mpr equal)

theorem dropBackHead {text rest : List Char}
    (same : (text.reverse.dropWhile dash).reverse = c::rest) : ∃ more, text = c::more := by
  have suffix_ : text.reverse.dropWhile dash <:+ text.reverse := List.dropWhile_suffix dash
  obtain ⟨front,parts⟩ := suffix_
  have whole := congrArg List.reverse parts
  rw [List.reverse_append,List.reverse_reverse,same] at whole
  exact ⟨rest ++ front.reverse,whole.symm⟩

theorem branchSegmentHead (value : String) :
    ∃ c rest, branchSegment value = c::rest ∧ lowerOrDigit c = true := by
  unfold branchSegment
  dsimp only
  split
  · exact ⟨'r',['u','n'],rfl,by decide⟩
  next cleaned some_ =>
    generalize text : dashed false (value.toList.map Char.toLower) = t at some_
    cases parts : ((t.dropWhile dash).reverse.dropWhile dash).reverse with
    | nil => exact absurd (by rw [parts]; rfl) some_
    | cons c rest =>
      refine ⟨c,rest.take 47,rfl,?_⟩
      obtain ⟨more,front⟩ := dropBackHead parts
      have listed : c ∈ t := (List.dropWhile_suffix dash).subset (front ▸ List.mem_cons_self)
      exact (dashedPlain c (text ▸ listed)).resolve_right (dropDashHead front)

theorem branchSegmentPlain (value : String) :
    ∀ c ∈ branchSegment value, lowerOrDigit c = true ∨ c = '-' := by
  intro c listed
  unfold branchSegment at listed
  dsimp only at listed
  split at listed
  · simp only [List.mem_cons,List.not_mem_nil,or_false] at listed
    rcases listed with rfl | rfl | rfl <;> exact .inl rfl
  · have inside := List.mem_of_mem_take listed
    have inside := List.mem_reverse.mp ((List.dropWhile_suffix dash).subset
      (List.mem_reverse.mp inside))
    exact dashedPlain c ((List.dropWhile_suffix dash).subset inside)

theorem suffixPlain (id : Uuid) : ∀ c ∈ suffix id, lowerOrDigit c = true := by
  intro c listed
  obtain ⟨inside,own⟩ := List.mem_filter.mp (List.mem_of_mem_take listed)
  have group {n k : Nat} (listed : c ∈ (id.digits.drop n).take k) : c ∈ id.digits :=
    List.mem_of_mem_drop (List.mem_of_mem_take listed)
  have digit : c ∈ id.digits := by
    have other : c ≠ '-' := fun same => by simp [dash,same] at own
    simp only [Uuid.text,List.intercalate,List.intersperse,List.flatten_cons,List.flatten_nil,
      List.mem_append,List.mem_singleton,List.append_nil,other,false_or] at inside
    rcases inside with one | two | three | four | five
    · exact List.mem_of_mem_take one
    · exact group two
    · exact group three
    · exact group four
    · exact List.mem_of_mem_drop five
  rcases id.hex c digit with number | letter
  · exact Bool.or_eq_true_iff.mpr (.inr number)
  · simp only [List.mem_cons,List.not_mem_nil,or_false] at letter
    rcases letter with rfl | rfl | rfl | rfl | rfl | rfl <;> rfl

theorem plainSlash (plain : ∀ c ∈ s, lowerOrDigit c = true ∨ c = '-') : '/' ∉ s := by
  intro slash
  rcases plain _ slash with own | same
  · exact absurd own (by decide)
  · exact absurd same (by decide)

theorem branchNamed (taskId runId : String) (id : Uuid) :
    RefName (branchName taskId runId id).toList := by
  have last : ∀ c ∈ branchSegment runId ++ '-'::suffix id, lowerOrDigit c = true ∨ c = '-' := by
    intro c listed
    rcases List.mem_append.mp listed with segment | tail
    · exact branchSegmentPlain runId c segment
    · rcases List.mem_cons.mp tail with dash | digit
      · exact .inr dash
      · exact .inl (suffixPlain id c digit)
  have own : ∀ c ∈ ['a','c','c'], lowerOrDigit c = true := by
    intro c listed
    simp only [List.mem_cons,List.not_mem_nil,or_false] at listed
    rcases listed with rfl | rfl | rfl <;> rfl
  have whole : (branchName taskId runId id).toList =
      PosixPaths.joined [['a','c','c'],branchSegment taskId,branchSegment runId ++ '-'::suffix id] := by
    simp [branchName,PosixPaths.joined]
  have slashes : ∀ s ∈ [['a','c','c'],branchSegment taskId,branchSegment runId ++ '-'::suffix id],
      '/' ∉ s := by
    simp only [List.forall_mem_cons]
    exact ⟨by decide,plainSlash (branchSegmentPlain taskId),plainSlash last,
      fun s inside => absurd inside List.not_mem_nil⟩
  rw [whole]
  refine ⟨?_,?_⟩
  · intro c listed
    simp only [PosixPaths.joined,List.intercalate,List.intersperse,List.flatten_cons,
      List.flatten_nil,List.append_nil,List.mem_append,List.mem_singleton] at listed
    rcases listed with first | slash | second | slash | third
    · exact .inl (own c first)
    · exact .inr (.inr slash)
    · exact (branchSegmentPlain taskId c second).imp_right .inl
    · exact .inr (.inr slash)
    · exact (last c (List.mem_append.mpr third)).imp_right .inl
  · rw [PosixPaths.segmentsJoined (List.cons_ne_nil _ _) slashes]
    simp only [List.forall_mem_cons]
    obtain ⟨c,rest,same,head⟩ := branchSegmentHead runId
    refine ⟨⟨'a',['c','c'],rfl,by decide⟩,branchSegmentHead taskId,
      ⟨c,rest ++ '-'::suffix id,congrArg (· ++ _) same,head⟩,
      fun s inside => absurd inside List.not_mem_nil⟩

theorem safeChars {value : String} (safe : safeSegment value = true) : ∃ first rest,
    value.toList = first::rest ∧ letterOrDigit first = true ∧
      ∀ c ∈ value.toList, letterOrDigit c = true ∨ c ∈ ['.','_','-'] := by
  unfold safeSegment at safe
  split at safe
  · cases safe
  next first rest same =>
    obtain ⟨front,others⟩ := Bool.and_eq_true_iff.mp safe
    have head := (Bool.and_eq_true_iff.mp front).1
    refine ⟨first,rest,same,head,fun c listed => ?_⟩
    rcases List.mem_cons.mp (same ▸ listed) with rfl | listed
    · exact .inl head
    · have own := List.all_eq_true.mp others c listed
      simpa using own

theorem plainSegment {first : Char} {rest : List Char} (head : letterOrDigit first = true)
    (slash : '/' ∉ first::rest) : PosixPaths.Plain (first::rest) := by
  have dot : first ≠ '.' := fun same => absurd (same ▸ head) (by decide)
  exact ⟨List.cons_ne_nil _ _,fun same => dot (List.cons.inj same).1,
    fun same => dot (List.cons.inj same).1,slash⟩

theorem safePlain {value : String} (safe : safeSegment value = true) :
    PosixPaths.Plain value.toList := by
  obtain ⟨first,rest,same,head,own⟩ := safeChars safe
  have slash : '/' ∉ value.toList := fun listed => absurd (own _ listed) (by decide)
  rw [same] at slash ⊢
  exact plainSegment head slash

theorem directoryPlain {runId : String} (safe : safeSegment runId = true) (id : Uuid) :
    PosixPaths.Plain (directoryName runId id).toList := by
  obtain ⟨first,rest,same,head,own⟩ := safeChars safe
  have slash : '/' ∉ runId.toList ++ '-'::suffix id := by
    intro listed
    rcases List.mem_append.mp listed with front | back
    · exact absurd (own _ front) (by decide)
    · exact plainSlash (fun c digit => (List.mem_cons.mp digit).elim .inr
        fun digit => .inl (suffixPlain id c digit)) back
  rw [directoryName,String.toList_ofList]
  rw [same] at slash ⊢
  exact plainSegment head slash

theorem joinSegments {base segment : String} (plain : PosixPaths.Plain segment.toList) :
    m.segments (joinPath base segment) = m.segments base ++ [segment.toList] := by
  rw [WorktreeManager.segments,joinPath,String.toList_ofList]
  exact PosixPaths.resolveJoin plain

theorem below {start goal : String} (inside : PosixPaths.outside (m.relative start goal) = false) :
    ∃ more, more ≠ [] ∧ m.segments goal = m.segments start ++ more :=
  PosixPaths.relativeBelow inside

theorem refSafe {given : String} (valid : validateBaseRef given = .ok ref) :
    ref.toList.head? ≠ some '-' := by
  unfold validateBaseRef at valid
  dsimp only at valid
  split at valid
  · cases valid
  next safe =>
    cases Except.ok.inj valid
    exact fun option => safe (.inr (.inr (.inl option)))

variable {may : Past → Question → Prop}

def Read (m : WorktreeManager) (past : Past) {α : Type} (found : α → Past → Prop)
    (r : Except String α) (later : Past) : Prop :=
  ∃ more, later = past ++ more ∧ (∀ x ∈ more, Reads m x.1) ∧ ∀ a, r = .ok a → found a more

theorem gitHeeds (now : may past (m.process repo args)) : Heeds may (fun r later =>
    ∃ x, later = past ++ [⟨m.process repo args,x⟩] ∧
      ∀ result, r = .ok result → x = .ok (Except.ok result)) past (m.git repo args) := by
  refine heedsBind (heedsCall now fun r => ?_)
  cases r with
  | error error => exact ⟨_,rfl,fun result same => by cases same⟩
  | ok left_ =>
    cases left_ with
    | error error => exact ⟨_,rfl,fun result same => by cases same⟩
    | ok result => exact ⟨_,rfl,fun other same => by cases same; rfl⟩

section
variable {α β : Type} {found : α → Past → Prop} {p : Dialog α}

theorem readDone {b : α} (held : found b []) : Heeds may (Read m past found) past (.done b) :=
  ⟨[],(List.append_nil _).symm,fun _ inside => absurd inside List.not_mem_nil,
    fun _ same => Except.ok.inj same ▸ held⟩

theorem readNone {error : String} : Read m past found (.error error) past :=
  ⟨[],(List.append_nil _).symm,fun _ inside => absurd inside List.not_mem_nil,
    fun _ same => by cases same⟩

theorem readFail {error : String} : Heeds may (Read m past found) past (.fail error : Dialog α) :=
  readNone

theorem readBind {f : α → Dialog β} {found' : β → Past → Prop}
    (first : Heeds may (Read m past found) past p)
    (rest : ∀ b more, (∀ x ∈ more, Reads m x.1) → found b more →
      Heeds may (Read m (past ++ more) fun b' later => found' b' (more ++ later)) (past ++ more)
        (f b)) : Heeds may (Read m past found') past (p >>= f) := by
  refine heedsBind (heedsMono (fun r later read => ?_) first)
  obtain ⟨more,rfl,reads,held⟩ := read
  cases r with
  | error error => exact ⟨more,rfl,reads,fun b same => by cases same⟩
  | ok b =>
    refine heedsMono (fun r' later' read' => ?_) (rest b more reads (held b rfl))
    obtain ⟨more',rfl,reads',held'⟩ := read'
    refine ⟨more ++ more',List.append_assoc _ _ _,fun x inside => ?_,held'⟩
    exact (List.mem_append.mp inside).elim (reads x) (reads' x)

theorem readAttempt (first : Heeds may (Read m past found) past p) :
    Heeds may (Read m past fun r more => ∀ b, r = .ok b → found b more) past p.attempt := by
  refine heedsAttempt (heedsMono (fun r later read => ?_) first)
  obtain ⟨more,rfl,reads,held⟩ := read
  exact ⟨more,rfl,reads,fun r' same => Except.ok.inj same ▸ held⟩

end

variable (quiet : ∀ past q, Reads m q → may past q)

include quiet

theorem readCall (reads : Reads m q) :
    Heeds may (Read m past fun b more => ⟨q,.ok b⟩ ∈ more) past (ask q) := by
  refine heedsCall (quiet _ _ reads) fun r => ⟨_,rfl,fun x inside => ?_,fun b same => ?_⟩
  · exact List.mem_singleton.mp inside ▸ reads
  · cases same
    exact List.mem_singleton_self _

theorem gitRead (reading : Reading args) : Heeds may
    (Read m past fun result more => m.said repo args result ∈ more) past (m.git repo args) := by
  refine heedsMono (fun r later asked => ?_) (gitHeeds (quiet _ _ (.process repo reading)))
  obtain ⟨x,rfl,printed⟩ := asked
  refine ⟨_,rfl,fun y inside => ?_,fun result same => ?_⟩
  · exact List.mem_singleton.mp inside ▸ .process repo reading
  · cases printed result same
    exact List.mem_singleton_self _

theorem topRead : Heeds may (Read m past fun top more =>
    ∃ result, m.said repo topArgs result ∈ more ∧ trim result.stdout = top) past
    (m.topLevel repo) := by
  refine readBind (gitRead quiet .inside) fun inside more _ _ => ?_
  split
  · exact readFail
  · refine readBind (gitRead quiet .top) fun top later _ printed => readDone ?_
    exact ⟨top,List.mem_append_right _ (List.mem_append_left _ printed),rfl⟩

theorem validateRead {given : String} : Heeds may (Read m past fun top more =>
    TopOf m more given top) past (m.validateRepository given) := by
  refine readBind (readAttempt (readCall quiet (.realpath _))) fun r more _ placed => ?_
  cases r with
  | error error => exact readFail
  | ok resolved =>
    have placed := placed resolved rfl
    refine readBind (readCall quiet (.isDirectory resolved)) fun directory more _ _ => ?_
    split
    · exact readFail
    refine readBind (readAttempt (topRead quiet)) fun top more _ printed => ?_
    cases top with
    | error error => exact readFail
    | ok top =>
      obtain ⟨result,shown,rfl⟩ := printed top rfl
      refine heedsMono (fun r later read => ?_) (readCall quiet (.realpath (trim result.stdout)))
      obtain ⟨last,rfl,reads,held⟩ := read
      refine ⟨last,rfl,reads,fun top same => ⟨resolved,result,?_,?_,?_⟩⟩
      · simp [real,placed]
      · simp [shown]
      · have answered := held top same
        simp [real,answered]

theorem cleanRead : Heeds may (Read m past fun _ more => CleanSince m more repo) past
    (m.assertClean repo) := by
  have asked : Heeds may (Read m past fun result more => m.said repo statusArgs result ∈ more) past
    (m.git repo statusArgs) := gitRead quiet .status
  refine heedsBind (heedsMono (fun r later read => ?_) asked)
  obtain ⟨more,rfl,reads,printed⟩ := read
  cases r with
  | error error => exact ⟨more,rfl,reads,fun b same => by cases same⟩
  | ok status =>
    dsimp only
    split
    · exact ⟨more,rfl,reads,fun b same => by cases same⟩
    next empty =>
      obtain ⟨front,back,rfl⟩ := List.append_of_mem (printed status rfl)
      exact ⟨_,rfl,reads,fun _ _ => ⟨front,status,back,rfl,not_not.mp empty,fun x inside =>
        reads x (List.mem_append_right _ (List.mem_cons_of_mem _ inside))⟩⟩

theorem commitRead (safe : ref.toList.head? ≠ some '-') : Heeds may (Read m past fun commit more =>
    (∃ result, m.said repo (commitArgs ref) result ∈ more ∧ trim result.stdout = commit) ∧
      commitId commit = true) past (m.resolveCommit repo ref) := by
  refine readBind (readAttempt (gitRead quiet (.commit ref safe))) fun r more _ printed => ?_
  cases r with
  | error error => exact readFail
  | ok result =>
    have printed := printed result rfl
    dsimp only
    generalize same : trim result.stdout = text
    split
    next id => exact readDone ⟨⟨result,List.mem_append_left _ printed,same⟩,id⟩
    · exact readFail

omit quiet

theorem heedsStep {α : Type} {f : Answer q → Dialog α} {post : Except String α → Past → Prop}
    (now : may past q) (failed : ∀ error, post (.error error) (past ++ [⟨q,.error error⟩]))
    (rest : ∀ b, Heeds may post (past ++ [⟨q,.ok b⟩]) (f b)) : Heeds may post past (ask q >>= f) := by
  refine heedsBind (heedsCall now fun r => ?_)
  cases r with
  | error error => exact failed error
  | ok b => exact rest b

theorem Unadded.step {x : Exchange Question Answer} (unadded : Unadded m past)
    (other : ∀ a : Addition, x.1 ≠ m.process a.repo a.args) : Unadded m (past ++ [x]) := by
  intro y inside
  rcases List.mem_append.mp inside with old | new
  · exact unadded y old
  · exact List.mem_singleton.mp new ▸ other

theorem worktreesPlain : PosixPaths.Plain "worktrees".toList :=
  plainSegment (by decide) (by decide)

theorem placeHeeds {path : String} (unadded : Unadded m past)
    (based : Based m input past repo ref commit) (within : Within m past path) :
    Heeds (MayAsk m input) (fun r later => ∃ more, later = past ++ more ∧ Unadded m later ∧
      ∀ found, r = .ok found → real path found ∈ more) past (place path) := by
  have made (r : Except String Unit) : Unadded m (past ++ [⟨.mkdir path,r⟩]) :=
    unadded.step fun a same => Question.noConfusion same
  refine heedsStep (.makes path unadded ⟨_,_,_,based⟩ within)
    (fun error => ⟨_,rfl,made (.error error),fun _ same => by cases same⟩) fun _ => ?_
  refine heedsCall (.reads (.realpath path)) fun r => ?_
  refine ⟨_,List.append_assoc _ _ _,(made (.ok ())).step fun a => readsStays (.realpath path),
    fun found same => ?_⟩
  cases same
  exact List.mem_append_right _ (List.mem_singleton_self _)

theorem rootsHeeds (safe : safeSegment input.taskId = true) (unadded : Unadded m past)
    (based : Based m input past repo ref commit) : Heeds (MayAsk m input) (fun r later =>
      ∃ more, later = past ++ more ∧ Unadded m later ∧ ∀ roots, r = .ok roots →
        ∃ home, Rooted m input.taskId later home roots.1 roots.2)
      past (m.prepareRoots input.taskId) := by
  refine heedsBind (heedsMono (fun r later placed => ?_) (placeHeeds unadded based (.inl rfl)))
  obtain ⟨one,rfl,unadded,top⟩ := placed
  cases r with
  | error error => exact ⟨_,rfl,unadded,fun _ same => by cases same⟩
  | ok home =>
    have top := top home rfl
    have within : Within m (past ++ one) (joinPath home "worktrees") := by
      refine .inr ⟨home,List.mem_append_right _ top,?_⟩
      rw [joinSegments worktreesPlain]
      exact List.prefix_append _ _
    refine heedsBind (heedsMono (fun r later placed => ?_) (placeHeeds unadded based.kept within))
    obtain ⟨two,rfl,unadded,worktrees⟩ := placed
    cases r with
    | error error => exact ⟨_,List.append_assoc _ _ _,unadded,fun _ same => by cases same⟩
    | ok root =>
      have worktrees := worktrees root rfl
      dsimp only
      split
      · exact ⟨_,List.append_assoc _ _ _,unadded,fun _ same => by cases same⟩
      next inHome =>
        have inHome := below (Bool.not_eq_true _ ▸ inHome)
        have within : Within m (past ++ one ++ two) (joinPath root input.taskId) := by
          obtain ⟨more,_,same⟩ := inHome
          refine .inr ⟨home,List.mem_append_left _ (List.mem_append_right _ top),?_⟩
          rw [joinSegments (safePlain safe),same,List.append_assoc]
          exact List.prefix_append _ _
        refine heedsBind (heedsMono (fun r later placed => ?_)
          (placeHeeds unadded based.kept.kept within))
        obtain ⟨three,rfl,unadded,task⟩ := placed
        have parts : past ++ one ++ two ++ three = past ++ (one ++ two ++ three) := by simp
        cases r with
        | error error => exact ⟨_,parts,unadded,fun _ same => by cases same⟩
        | ok taskRoot =>
          have task := task taskRoot rfl
          dsimp only
          split
          · exact ⟨_,parts,unadded,fun _ same => by cases same⟩
          next inRoot =>
            refine ⟨_,parts,unadded,fun roots same => ⟨home,?_⟩⟩
            cases same
            exact ⟨by simp [top],by simp [worktrees],by simp [task],inHome,
              below (Bool.not_eq_true _ ▸ inRoot)⟩

theorem Sound.kept (sound : Sound m input past a) (reads : ∀ x ∈ more, Reads m x.1) :
    Sound m input (past ++ more) a := by
  obtain ⟨ref,based⟩ := sound.based
  obtain ⟨home,root,taskRoot,id,rooted,drawn,placed⟩ := sound.placed
  exact ⟨⟨ref,based.kept⟩,sound.clean.kept reads,⟨home,root,taskRoot,id,rooted.kept,
    List.mem_append_left _ drawn,placed⟩,    sound.branch⟩

theorem mayRead (past : Past) (q : Question) (reads : Reads m q) : MayAsk m input past q :=
  .reads reads

theorem inspectRead (quiet : ∀ past q, Reads m q → may past q) : Heeds may (Read m past
    fun path back => (∃ head, m.said path headArgs head ∈ back ∧ trim head.stdout = a.commit) ∧
      real a.path path ∈ back) past (m.inspectWorktree a) := by
  refine readBind (readCall quiet (.realpath a.path)) fun path one _ found => ?_
  refine readBind (gitRead quiet .head) fun head two _ printed => ?_
  split
  · exact readFail
  next same =>
    refine readDone ⟨⟨head,by simp [printed],not_not.mp same⟩,?_⟩
    exact List.mem_append_left _ found

theorem addedHeeds (unadded : Unadded m past) (sound : Sound m input past a) :
    Heeds (MayAsk m input) (fun r later => ∀ path, r = .ok path → ∃ front added back,
      later = past ++ front ++ m.said a.repo a.args added::back ∧
        (∀ x ∈ front, Reads m x.1) ∧ (∀ x ∈ back, Reads m x.1) ∧
        (∃ head, m.said path headArgs head ∈ back ∧ trim head.stdout = a.commit) ∧
        real a.path path ∈ back) past (m.addWorktree a) := by
  refine heedsBind (heedsMono (fun r later read => ?_) (gitRead mayRead (.branch a.branch)))
  obtain ⟨front,rfl,reads,_⟩ := read
  cases r with
  | error error => exact fun _ same => by cases same
  | ok formed =>
    refine heedsBind (heedsMono (fun r later asked => ?_)
      (gitHeeds (.adds a (unadded.kept reads) (sound.kept reads))))
    obtain ⟨x,rfl,added⟩ := asked
    cases r with
    | error error => exact fun _ same => by cases same
    | ok result =>
      cases added result rfl
      refine heedsMono (fun r later read path same => ?_) (inspectRead mayRead)
      obtain ⟨back,rfl,reads',held⟩ := read
      obtain ⟨head,found⟩ := held path same
      exact ⟨front,result,back,List.append_assoc _ _ _,reads,reads',head,found⟩

theorem checkedHeeds {α β : Type} {given : Outcome α} {f : α → Dialog β}
    {post : Except String β → Past → Prop} (failed : ∀ error, post (.error error) past)
    (rest : ∀ b, given = .ok b → Heeds may post past (f b)) :
    Heeds may post past (checked given >>= f) := by
  cases given with
  | error error => exact failed error
  | ok b => exact rest b rfl

theorem preparedHeeds (safeTask : safeSegment input.taskId = true)
    (safeRun : safeSegment input.runId = true) (unadded : Unadded m past)
    (based : Based m input past repo ref commit) : Heeds (MayAsk m input)
      (fun r later => ∀ info, r = .ok info → Made m input later info) past
      (m.createAt input repo ref commit) := by
  refine heedsBind (heedsMono (fun r later prepared => ?_) (rootsHeeds safeTask unadded based))
  obtain ⟨one,rfl,unadded,rooted⟩ := prepared
  cases r with
  | error error => exact fun _ same => by cases same
  | ok roots =>
    obtain ⟨root,taskRoot⟩ := roots
    obtain ⟨home,rooted⟩ := rooted _ rfl
    refine heedsBind (heedsMono (fun r later read => ?_) (cleanRead mayRead))
    obtain ⟨two,rfl,reads₂,clean⟩ := read
    cases r with
    | error error => exact fun _ same => by cases same
    | ok _ =>
      have clean := (clean () rfl).after (past ++ one)
      refine heedsBind (heedsMono (fun r later read => ?_) (readCall mayRead .randomUUID))
      obtain ⟨three,rfl,reads₃,drawn⟩ := read
      cases r with
      | error error => exact fun _ same => by cases same
      | ok id =>
        dsimp only
        split
        · exact fun _ same => by cases same
        have sound : Sound m input (past ++ one ++ two ++ three)
            ⟨repo,branchName input.taskId input.runId id,
              joinPath taskRoot (directoryName input.runId id),commit⟩ :=
          ⟨⟨ref,based.kept.kept.kept⟩,clean.kept reads₃,⟨home,root,taskRoot,id,rooted.kept.kept,
            List.mem_append_right _ (drawn id rfl),joinSegments (directoryPlain safeRun id),rfl⟩,
            branchNamed _ _ id⟩
        refine heedsBind (heedsMono (fun r later added => ?_)
          (addedHeeds ((unadded.kept reads₂).kept reads₃) sound))
        cases r with
        | error error => exact fun _ same => by cases same
        | ok path =>
          obtain ⟨front,result,back,rfl,readsFront,readsBack,head,found⟩ := added path rfl
          refine heedsBind (heedsMono (fun r later read => ?_) (readCall mayRead .clock))
          obtain ⟨last,rfl,readsLast,_⟩ := read
          cases r with
          | error error => exact fun _ same => by cases same
          | ok now =>
            intro info same
            cases Except.ok.inj same
            obtain ⟨head,shown,same⟩ := head
            have reads (x : Exchange Question Answer) (inside : x ∈ back ++ last) : Reads m x.1 :=
              (List.mem_append.mp inside).elim (readsBack x) (readsLast x)
            exact ⟨_,_,result,back ++ last,List.append_assoc _ _ _,reads,sound.kept readsFront,
              ⟨head,List.mem_append_left _ shown,same⟩,List.mem_append_left _ found,
              based.kept.kept.kept.kept,rfl,rfl,rfl,rfl,rfl⟩

theorem createHeeds : Heeds (MayAsk m input)
    (fun r later => ∀ info, r = .ok info → Made m input later info) [] (m.create input) := by
  refine checkedHeeds (fun _ _ same => by cases same) fun _ safeTask => ?_
  refine checkedHeeds (fun _ _ same => by cases same) fun _ safeRun => ?_
  have safeTask := ArtifactFiles.segmentOk.mp safeTask
  have safeRun := ArtifactFiles.segmentOk.mp safeRun
  refine checkedHeeds (fun _ _ same => by cases same) fun ref named => ?_
  refine heedsBind (heedsMono (fun r one read => ?_) (validateRead mayRead))
  obtain ⟨_,rfl,reads₁,top⟩ := read
  cases r with
  | error error => exact fun _ same => by cases same
  | ok repo =>
    have top := top repo rfl
    refine heedsBind (heedsMono (fun r later read => ?_) (cleanRead mayRead))
    obtain ⟨two,rfl,reads₂,_⟩ := read
    cases r with
    | error error => exact fun _ same => by cases same
    | ok _ =>
      refine heedsBind (heedsMono (fun r later read => ?_) (commitRead mayRead (refSafe named)))
      obtain ⟨three,rfl,reads₃,resolved⟩ := read
      cases r with
      | error error => exact fun _ same => by cases same
      | ok commit =>
        obtain ⟨⟨result,said,same⟩,id⟩ := resolved commit rfl
        have based : Based m input (one ++ two ++ three) repo ref commit :=
          ⟨top.within fun x inside => by simp [inside],named,⟨result,by simp [said],same⟩,id⟩
        have none_ : Unadded m [] := fun x inside => absurd inside List.not_mem_nil
        have unadded := ((none_.kept reads₁).kept reads₂).kept reads₃
        exact preparedHeeds safeTask safeRun unadded based

/-- Whatever git and the files answer, a creation asks git only to read until its roots are
there and its source is clean since; then it adds one worktree, below the home and at the
commit git named for its revision, and hands that out only at that commit. -/
theorem worktreeCreated {W : Type} {E : Environment Question Answer W} {w last : W}
    {log : List (Entry Question Answer W)} {outcome : Option (Except String WorktreeInfo)}
    (run : Run E (m.create input) w log outcome last) :
    Proper (MayAsk m input) [] (talk log) ∧
      ∀ info, outcome = some (.ok info) → Made m input (talk log) info := by
  obtain ⟨proper,ends⟩ := runHeeds run createHeeds
  exact ⟨proper,fun info same => ends _ same info rfl⟩

end

def commitText : String := String.ofList (List.replicate 40 'a')

def gitReply (args : List String) : ProcessResult :=
  if args = insideArgs then ⟨"true\n",""⟩
  else if args = topArgs then ⟨"/repo\n",""⟩
  else if args = headArgs ∨ args = commitArgs "HEAD" then ⟨commitText ++ "\n",""⟩
  else ⟨"",""⟩

theorem uuidDigits : ∀ c ∈ (List.replicate 16 ['0','a']).flatten,
    c.isDigit = true ∨ c ∈ ['a','b','c','d','e','f'] := by
  intro c listed
  obtain ⟨pair,repeated,listed⟩ := List.mem_flatten.mp listed
  rw [List.eq_of_mem_replicate repeated] at listed
  simp only [List.mem_cons,List.not_mem_nil,or_false] at listed
  rcases listed with rfl | rfl
  · exact .inl rfl
  · exact .inr List.mem_cons_self

def uuid : Uuid := ⟨(List.replicate 16 ['0','a']).flatten,rfl,uuidDigits⟩

def reply : (q : Question) → Except String (Answer q)
  | .runProcess _ args => .ok (Except.ok (gitReply (args.drop 4)))
  | .realpath path => .ok path
  | .isDirectory _ => .ok true
  | .mkdir _ => .ok ()
  | .randomUUID => .ok uuid
  | .clock => .ok (0 : Int)
  | .rejectsFirst => .ok true
  | .writeText .. | .writeJson .. => .error "EACCES"

def manager : WorktreeManager := ⟨"/work","/work/.acc","git"⟩

def created : WorktreeInfo := ⟨"Task_1","run.2","/repo",
  "/work/.acc/worktrees/Task_1/run.2-0a0a0a0a0a0a","acc/task-1/run-2-0a0a0a0a0a0a","HEAD",
  commitText,0⟩

theorem firstCreated : ∃ log : List (Entry Question Answer Unit),
    Made manager ⟨"Task_1","run.2","repo",none⟩ (talk log) created := by
  have same : (played reply (manager.create ⟨"Task_1","run.2","repo",none⟩)).2 = .ok created := by
    decide +kernel
  exact ⟨_,(worktreeCreated (playedRun reply (manager.create ⟨"Task_1","run.2","repo",none⟩))).2
    created (congrArg some same)⟩

end ControlCenter.Worktrees
