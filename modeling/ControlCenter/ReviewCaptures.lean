import ControlCenter.Worktrees
import Mathlib.Data.List.Forall2

/-! What is captured of a worktree for its review: what git says of it against the commit it
was made from, with the files git does not track yet, and the artifacts that keep this. -/
namespace ControlCenter.ReviewCaptures
open JsonValue Protocol Db DbReviews Dialogue Histories ScriptRuns Worktrees
open Ports (SourceRepositorySnapshot)

structure GitSnapshot where
  worktreePath : String
  head : String
  baseCommit : String
  branch : Option String
  status : String
  diff : String
  stat : String
  commits : String
  capturedAt : Int
  deriving DecidableEq, Repr

structure ReviewArtifactSet where
  snapshot : GitSnapshot
  status : ArtifactMetadata
  diff : ArtifactMetadata
  commits : ArtifactMetadata
  metadata : ArtifactMetadata

structure ReviewInput where
  taskId : String
  runId : String
  worktreePath : String
  baseCommit : Option String

def both {α β : Type} (p : Dialog α) (q : Dialog β) : Dialog (α × β) := do
  let first ← p.attempt
  let second ← q.attempt
  match first,second with
  | .ok a,.ok b => pure (a,b)
  | .error error,.ok _ => .fail error
  | .ok _,.error error => .fail error
  | .error error,.error other => do
      let before : Bool ← ask .rejectsFirst
      .fail (if before then error else other)

def joinLines (texts : List String) : String := "\n".intercalate (texts.filter (· ≠ ""))

def listedFiles (listing : String) : List String :=
  ((listing.toList.splitOn (Char.ofNat 0)).filter (· ≠ [])).map String.ofList

abbrev FilePatch := ProcessResult × ProcessResult

section
variable (m : WorktreeManager)

-- git diff --no-index ends with 1 where there is a difference.
def gitDifference (repo : String) (args : List String) : Dialog ProcessResult := do
  let ended : Except ProcessExecutionError ProcessResult ← ask (m.process repo args)
  match ended with
  | .ok result => pure result
  | .error error =>
      if error.exitCode = some 1 then pure ⟨error.stdout,error.stderr⟩ else .fail error.message

def captureFiles (repo : String) : List String → Dialog (List FilePatch)
  | [] => pure []
  | file::rest => do
      let patch ← both (gitDifference m repo (untrackedArgs .binary file))
        (gitDifference m repo (untrackedArgs .stat file))
      let others ← captureFiles repo rest
      pure (patch::others)

def captureUntracked (repo : String) : Dialog (List FilePatch) := do
  let listed ← m.git repo listArgs
  captureFiles m repo (listedFiles listed.stdout)

def currentBranch (repo : String) : Dialog (Option String) := do
  let ended : Except ProcessExecutionError ProcessResult ← ask (m.process repo symbolicArgs)
  match ended with
  | .ok result => pure (if trim result.stdout = "" then none else some (trim result.stdout))
  | .error error => if error.exitCode = some 1 then pure none else .fail error.message

def capture (worktreePath : String) (baseCommit : Option String) : Dialog GitSnapshot := do
  let repo ← m.validateRepository worktreePath
  let requestedBase ← checked (validateBaseRef (baseCommit.getD "HEAD"))
  let base ← m.resolveCommit repo requestedBase
  let (head,status,diff,stat,commits) ← both (m.git repo headArgs)
    (both (m.git repo branchedStatusArgs) (both (m.git repo (differenceArgs .binary base))
      (both (m.git repo (differenceArgs .stat base)) (m.git repo (logArgs base)))))
  let untracked ← captureUntracked m repo
  let branch ← currentBranch m repo
  let now : Int ← ask .clock
  pure ⟨repo,trim head.stdout,base,branch,status.stdout,
    joinLines [diff.stdout,joinLines (untracked.map (·.1.stdout))],
    joinLines [stat.stdout,joinLines (untracked.map (·.2.stdout))],commits.stdout,now⟩

def metadataOf (s : GitSnapshot) : SnapshotMetadata :=
  ⟨s.worktreePath,s.head,s.baseCommit,s.branch,s.stat,s.capturedAt⟩

def captureReviewArtifacts (input : ReviewInput) : Dialog ReviewArtifactSet := do
  let snapshot ← capture m input.worktreePath input.baseCommit
  let status ← ask (.writeText input.taskId input.runId .gitStatus "git-status.txt" snapshot.status)
  let diff ← ask (.writeText input.taskId input.runId .diff "diff.patch" snapshot.diff)
  let commits ← ask (.writeText input.taskId input.runId .commit "commits.txt" snapshot.commits)
  let metadata ← ask (.writeJson input.taskId input.runId .metadata "git-metadata.json"
    (metadataOf snapshot))
  pure ⟨snapshot,status,diff,commits,metadata⟩

def sourceState (repo : String) : Dialog (ProcessResult × ProcessResult) :=
  both (m.git repo headArgs) (m.git repo statusArgs)

def captureSourceSnapshot (repo : String) : Dialog SourceRepositorySnapshot := do
  let resolved ← m.validateRepository repo
  let (head,status) ← sourceState m resolved
  if trim status.stdout ≠ "" then
    .fail s!"Source repository must remain clean during isolated execution:\n{trim status.stdout}"
  else
    let _ ← ask .clock
    pure ⟨resolved,trim head.stdout,status.stdout⟩

def statusText (status : String) : String := if trim status = "" then "clean" else trim status

def violation (snapshot : SourceRepositorySnapshot) (head status : String) : String :=
  "\n".intercalate ["Isolation violation: the source checkout changed while the agent was " ++
    "assigned to a worktree.",s!"Expected HEAD: {snapshot.head}",s!"Current HEAD: {head}",
    s!"Source status: {statusText status}"]

def assertSourceUnchanged (snapshot : SourceRepositorySnapshot) : Dialog Unit := do
  let resolved ← m.validateRepository snapshot.repo
  let (head,status) ← sourceState m resolved
  if trim head.stdout ≠ snapshot.head ∨ status.stdout ≠ snapshot.status then
    .fail (violation snapshot (trim head.stdout) status.stdout)
  else pure ()

def Stated (past : Past) (repo head status : String) : Prop := ∃ first second,
  m.said repo headArgs first ∈ past ∧ m.said repo statusArgs second ∈ past ∧
    trim first.stdout = head ∧ second.stdout = status

def Differs (past : Past) (repo : String) (args : List String) (result : ProcessResult) : Prop :=
  m.said repo args result ∈ past ∨ ∃ error : ProcessExecutionError, error.exitCode = some 1 ∧
    (⟨m.process repo args,.ok (Except.error error)⟩ : Exchange Question Answer) ∈ past ∧
    result = ⟨error.stdout,error.stderr⟩

def Shown (past : Past) (repo file : String) (patch : FilePatch) : Prop :=
  Differs m past repo (untrackedArgs .binary file) patch.1 ∧
    Differs m past repo (untrackedArgs .stat file) patch.2

structure Captured (input : ReviewInput) (past : Past) (s : GitSnapshot) : Prop where
  top : TopOf m past input.worktreePath s.worktreePath
  base : ∃ ref result, validateBaseRef (input.baseCommit.getD "HEAD") = .ok ref ∧
    m.said s.worktreePath (commitArgs ref) result ∈ past ∧ trim result.stdout = s.baseCommit ∧
    commitId s.baseCommit = true
  head : ∃ result, m.said s.worktreePath headArgs result ∈ past ∧ s.head = trim result.stdout
  status : ∃ result, m.said s.worktreePath branchedStatusArgs result ∈ past ∧
    s.status = result.stdout
  commits : ∃ result, m.said s.worktreePath (logArgs s.baseCommit) result ∈ past ∧
    s.commits = result.stdout
  files : ∃ diff stat listing patches,
    m.said s.worktreePath (differenceArgs .binary s.baseCommit) diff ∈ past ∧
    m.said s.worktreePath (differenceArgs .stat s.baseCommit) stat ∈ past ∧
    m.said s.worktreePath listArgs listing ∈ past ∧
    List.Forall₂ (Shown m past s.worktreePath) (listedFiles listing.stdout) patches ∧
    s.diff = joinLines [diff.stdout,joinLines (patches.map (·.1.stdout))] ∧
    s.stat = joinLines [stat.stdout,joinLines (patches.map (·.2.stdout))]

inductive MayAsk (input : ReviewInput) (past : Past) : Question → Prop
  | reads {q : Question} (reads : Reads m q) : MayAsk input past q
  | status (s : GitSnapshot) (captured : Captured m input past s) :
      MayAsk input past
        (.writeText input.taskId input.runId .gitStatus "git-status.txt" s.status)
  | diff (s : GitSnapshot) (captured : Captured m input past s) :
      MayAsk input past (.writeText input.taskId input.runId .diff "diff.patch" s.diff)
  | commits (s : GitSnapshot) (captured : Captured m input past s) :
      MayAsk input past (.writeText input.taskId input.runId .commit "commits.txt" s.commits)
  | metadata (s : GitSnapshot) (captured : Captured m input past s) :
      MayAsk input past
        (.writeJson input.taskId input.runId .metadata "git-metadata.json" (metadataOf s))

end

def written (input : ReviewInput) (set : ReviewArtifactSet) : Past :=
  [⟨.writeText input.taskId input.runId .gitStatus "git-status.txt" set.snapshot.status,
      .ok set.status⟩,
    ⟨.writeText input.taskId input.runId .diff "diff.patch" set.snapshot.diff,.ok set.diff⟩,
    ⟨.writeText input.taskId input.runId .commit "commits.txt" set.snapshot.commits,
      .ok set.commits⟩,
    ⟨.writeJson input.taskId input.runId .metadata "git-metadata.json" (metadataOf set.snapshot),
      .ok set.metadata⟩]

section
variable {m : WorktreeManager} {input : ReviewInput} {past more : Past} {repo file : String}
  {args : List String} {may : Past → Question → Prop}

theorem Differs.within {result : ProcessResult} (differs : Differs m past repo args result)
    (inside : ∀ x ∈ past, x ∈ more) : Differs m more repo args result := by
  rcases differs with said | ⟨error,one,held,same⟩
  · exact .inl (inside _ said)
  · exact .inr ⟨error,one,inside _ held,same⟩

theorem Shown.within {patch : FilePatch} (shown : Shown m past repo file patch)
    (inside : ∀ x ∈ past, x ∈ more) : Shown m more repo file patch :=
  ⟨shown.1.within inside,shown.2.within inside⟩

theorem Captured.within {s : GitSnapshot} (captured : Captured m input past s)
    (inside : ∀ x ∈ past, x ∈ more) : Captured m input more s := by
  obtain ⟨ref,base,named,resolved,same,id⟩ := captured.base
  obtain ⟨head,saidHead,sameHead⟩ := captured.head
  obtain ⟨status,saidStatus,sameStatus⟩ := captured.status
  obtain ⟨commits,saidCommits,sameCommits⟩ := captured.commits
  obtain ⟨diff,stat,listing,patches,saidDiff,saidStat,saidList,shown,texts⟩ := captured.files
  exact ⟨captured.top.within inside,⟨ref,base,named,inside _ resolved,same,id⟩,⟨head,inside _ saidHead,sameHead⟩,
    ⟨status,inside _ saidStatus,sameStatus⟩,⟨commits,inside _ saidCommits,sameCommits⟩,
    ⟨diff,stat,listing,patches,inside _ saidDiff,inside _ saidStat,inside _ saidList,
      shown.imp fun _ _ own => own.within inside,texts⟩⟩

section
variable {α β : Type} {found : α → Past → Prop} {found' : β → Past → Prop} {p : Dialog α}
  {q : Dialog β}

variable (quiet : ∀ past q, Reads m q → may past q)

include quiet

theorem bothRead (first : Heeds may (Read m past found) past p)
    (second : ∀ past, Heeds may (Read m past found') past q) :
    Heeds may (Read m past fun r more => ∃ front back, more = front ++ back ∧ found r.1 front ∧
      found' r.2 back) past (both p q) := by
  refine readBind (readAttempt first) fun one front _ held => ?_
  refine readBind (readAttempt (second _)) fun two back _ held' => ?_
  cases one with
  | ok a =>
    cases two with
    | ok b => exact readDone ⟨front,back ++ [],rfl,held a rfl,by simpa using held' b rfl⟩
    | error error => exact readFail
  | error error =>
    cases two with
    | ok b => exact readFail
    | error other => exact readBind (readCall quiet .rejectsFirst) fun _ _ _ _ => readFail

theorem stateRead : Heeds may (Read m past fun r more => m.said repo headArgs r.1 ∈ more ∧
    m.said repo statusArgs r.2 ∈ more) past (sourceState m repo) := by
  refine heedsMono (fun r later read => ?_)
    (bothRead quiet (gitRead quiet .head) fun _ => gitRead quiet .status)
  obtain ⟨more,rfl,reads,held⟩ := read
  refine ⟨more,rfl,reads,fun r same => ?_⟩
  obtain ⟨front,back,rfl,head,status⟩ := held r same
  exact ⟨List.mem_append_left _ head,List.mem_append_right _ status⟩

theorem snapshotRead : Heeds may (Read m past fun s more => TopOf m more repo s.repo ∧
    Stated m more s.repo s.head s.status ∧ trim s.status = "") past
    (captureSourceSnapshot m repo) := by
  refine readBind (validateRead quiet) fun resolved one _ top => ?_
  refine readBind (stateRead quiet) fun said two _ held => ?_
  obtain ⟨head,status⟩ := said
  obtain ⟨saidHead,saidStatus⟩ := held
  dsimp only at saidHead saidStatus ⊢
  split
  · exact readFail
  next clean =>
    refine readBind (readCall quiet .clock) fun now three _ _ => readDone ?_
    exact ⟨top.within fun x inside => by simp [inside],
      ⟨head,status,by simp [saidHead],by simp [saidStatus],rfl,rfl⟩,not_not.mp clean⟩

theorem unchangedRead {s : SourceRepositorySnapshot} : Heeds may (Read m past fun _ more =>
    ∃ resolved, TopOf m more s.repo resolved ∧ Stated m more resolved s.head s.status) past
    (assertSourceUnchanged m s) := by
  refine readBind (validateRead quiet) fun resolved one _ top => ?_
  refine readBind (stateRead quiet) fun said two _ held => ?_
  obtain ⟨head,status⟩ := said
  obtain ⟨saidHead,saidStatus⟩ := held
  dsimp only at saidHead saidStatus ⊢
  split
  · exact readFail
  next same =>
    obtain ⟨sameHead,sameStatus⟩ := not_or.mp same
    refine readDone ⟨resolved,top.within fun x inside => by simp [inside],head,status,?_⟩
    exact ⟨by simp [saidHead],by simp [saidStatus],not_not.mp sameHead,not_not.mp sameStatus⟩

theorem differenceRead (reading : Reading args) : Heeds may
    (Read m past fun result more => Differs m more repo args result) past
    (gitDifference m repo args) := by
  refine readBind (readCall quiet (.process repo reading)) fun ended more _ held => ?_
  cases ended with
  | ok result => exact readDone (.inl (by simpa [WorktreeManager.said] using held))
  | error error =>
    dsimp only
    split
    next one => exact readDone (.inr ⟨error,one,by simpa using held,rfl⟩)
    · exact readFail

theorem filesRead (files : List String) : Heeds may (Read m past fun patches more =>
    List.Forall₂ (Shown m more repo) files patches) past (captureFiles m repo files) := by
  induction files generalizing past with
  | nil => exact readDone .nil
  | cons file rest ih =>
    refine readBind (bothRead quiet (differenceRead quiet (.untracked .binary file))
      fun past => differenceRead quiet (.untracked .stat file)) fun patch one _ shown => ?_
    refine readBind ih fun others two _ held => readDone ?_
    obtain ⟨front,back,rfl,first,second⟩ := shown
    rw [List.append_nil]
    refine .cons ⟨first.within fun x inside => ?_,second.within fun x inside => ?_⟩
      (held.imp fun _ _ own => own.within fun x inside => List.mem_append_right _ inside)
    · exact List.mem_append_left _ (List.mem_append_left _ inside)
    · exact List.mem_append_left _ (List.mem_append_right _ inside)

theorem untrackedRead : Heeds may (Read m past fun patches more =>
    ∃ listing, m.said repo listArgs listing ∈ more ∧
      List.Forall₂ (Shown m more repo) (listedFiles listing.stdout) patches) past
    (captureUntracked m repo) := by
  refine readBind (gitRead quiet .listing) fun listing one _ said => ?_
  refine heedsMono (fun r later read => ?_) (filesRead quiet (listedFiles listing.stdout))
  obtain ⟨two,rfl,reads,held⟩ := read
  refine ⟨two,rfl,reads,fun patches same => ⟨listing,List.mem_append_left _ said,?_⟩⟩
  exact (held patches same).imp fun _ _ own => own.within fun x inside =>
    List.mem_append_right _ inside

theorem branchRead : Heeds may (Read m past fun _ _ => True) past (currentBranch m repo) := by
  refine readBind (readCall quiet (.process repo .symbolic)) fun ended more _ _ => ?_
  cases ended with
  | ok result => exact readDone True.intro
  | error error =>
    dsimp only
    split
    · exact readDone True.intro
    · exact readFail

theorem captureRead : Heeds may (Read m past fun s more => Captured m input more s) past
    (capture m input.worktreePath input.baseCommit) := by
  refine readBind (validateRead quiet) fun repo one _ top => ?_
  refine checkedHeeds (fun _ => readNone) fun ref named => ?_
  refine readBind (commitRead quiet (refSafe named)) fun base two _ resolved => ?_
  obtain ⟨⟨result,resolved,same⟩,id⟩ := resolved
  refine readBind (bothRead quiet (gitRead quiet .head) fun _ =>
    bothRead quiet (gitRead quiet .branched) fun _ =>
    bothRead quiet (gitRead quiet (.difference .binary base id)) fun _ =>
    bothRead quiet (gitRead quiet (.difference .stat base id)) fun _ =>
      gitRead quiet (.log base id)) fun said three _ held => ?_
  obtain ⟨head,status,diff,stat,commits⟩ := said
  obtain ⟨a,_,rfl,saidHead,b,_,rfl,saidStatus,c,_,rfl,saidDiff,d,e,rfl,saidStat,saidCommits⟩ := held
  refine readBind (untrackedRead quiet) fun patches four _ listed => ?_
  obtain ⟨listing,saidList,shown⟩ := listed
  refine readBind (branchRead quiet) fun branch five _ _ => ?_
  refine readBind (readCall quiet .clock) fun now six _ _ => readDone ?_
  dsimp only at saidHead saidStatus saidDiff saidStat saidCommits
  exact ⟨top.within fun x inside => by simp [inside],
    ⟨ref,result,named,by simp [resolved],same,id⟩,⟨head,by simp [saidHead],rfl⟩,
    ⟨status,by simp [saidStatus],rfl⟩,⟨commits,by simp [saidCommits],rfl⟩,diff,stat,listing,
    patches,by simp [saidDiff],by simp [saidStat],by simp [saidList],
    shown.imp fun _ _ own => own.within fun x inside => by simp [inside],rfl,rfl⟩

end

theorem readRun {α W : Type} {E : Environment Question Answer W} {p : Dialog α} {w last : W}
    {log : List (Entry Question Answer W)} {r : Except String α} {found : α → Past → Prop}
    (run : Run E p w log (some r) last)
    (read : Heeds (fun _ q => Reads m q) (Read m [] found) [] p) :
    (∀ x ∈ talk log, Reads m x.1) ∧ ∀ b, r = .ok b → found b (talk log) := by
  obtain ⟨_,ends⟩ := runHeeds run read
  obtain ⟨more,same,reads,held⟩ := ends r rfl
  rw [List.nil_append,List.nil_append] at same
  exact same ▸ ⟨reads,held⟩

/-- A source that was captured and later found unchanged was clean at the one time and at the
other, at one and the same commit: as git said of the work tree the path is in, and then of the
one the snapshot's own path is in. Nothing was done to it in looking. -/
theorem sourceUnchanged {W : Type} {E : Environment Question Answer W} {w w' mid last : W}
    {log log' : List (Entry Question Answer W)} {s : SourceRepositorySnapshot}
    (before : Run E (captureSourceSnapshot m repo) w log (some (.ok s)) mid)
    (after : Run E (assertSourceUnchanged m s) w' log' (some (.ok ())) last) :
    TopOf m (talk log) repo s.repo ∧ Stated m (talk log) s.repo s.head s.status ∧
      trim s.status = "" ∧ (∃ resolved, TopOf m (talk log') s.repo resolved ∧
        Stated m (talk log') resolved s.head s.status) ∧
      ∀ x ∈ talk log ++ talk log', Reads m x.1 := by
  have quiet : ∀ (past : Past) (q : Question), Reads m q → (fun (_ : Past) q => Reads m q) past q :=
    fun _ _ reads => reads
  obtain ⟨reads,held⟩ := readRun before (snapshotRead quiet)
  obtain ⟨reads',held'⟩ := readRun after (unchangedRead quiet)
  obtain ⟨top,stated,clean⟩ := held s rfl
  exact ⟨top,stated,clean,held' () rfl,fun x inside =>
    (List.mem_append.mp inside).elim (reads x) (reads' x)⟩

def sourceSnapshot : SourceRepositorySnapshot := ⟨"/repo",commitText,""⟩

theorem sourceAlone : ∃ log log' : List (Entry Question Answer Unit),
    TopOf manager (talk log) "repo" "/repo" ∧ Stated manager (talk log) "/repo" commitText "" ∧
      ∃ resolved, TopOf manager (talk log') "/repo" resolved ∧
        Stated manager (talk log') resolved commitText "" := by
  have before := playedRun reply (captureSourceSnapshot manager "repo")
  have after := playedRun reply (assertSourceUnchanged manager sourceSnapshot)
  have captured : (played reply (captureSourceSnapshot manager "repo")).2 = .ok sourceSnapshot := by
    decide +kernel
  have unchanged : (played reply (assertSourceUnchanged manager sourceSnapshot)).2 = .ok () := by
    decide +kernel
  rw [captured] at before
  rw [unchanged] at after
  obtain ⟨top,stated,_,later,_⟩ := sourceUnchanged before after
  exact ⟨_,_,top,stated,later⟩

theorem mayRead (past : Past) (q : Question) (reads : Reads m q) : MayAsk m input past q :=
  .reads reads

theorem writesHeeds {s : GitSnapshot} (captured : Captured m input past s) :
    Heeds (MayAsk m input) (fun r later => ∀ set, r = .ok set →
      later = past ++ written input set ∧ set.snapshot = s) past (do
        let status ← ask (.writeText input.taskId input.runId .gitStatus "git-status.txt" s.status)
        let diff ← ask (.writeText input.taskId input.runId .diff "diff.patch" s.diff)
        let commits ← ask (.writeText input.taskId input.runId .commit "commits.txt" s.commits)
        let metadata ← ask (.writeJson input.taskId input.runId .metadata "git-metadata.json"
          (metadataOf s))
        pure ⟨s,status,diff,commits,metadata⟩) := by
  have kept (more : Past) : Captured m input (past ++ more) s :=
    captured.within fun x inside => List.mem_append_left _ inside
  refine heedsStep (.status s captured) (fun _ _ same => by cases same) fun status => ?_
  refine heedsStep (.diff s (kept _)) (fun _ _ same => by cases same) fun diff => ?_
  rw [List.append_assoc]
  refine heedsStep (.commits s (kept _)) (fun _ _ same => by cases same) fun commits => ?_
  rw [List.append_assoc]
  refine heedsStep (.metadata s (kept _)) (fun _ _ same => by cases same) fun metadata => ?_
  intro set same
  cases Except.ok.inj same
  exact ⟨List.append_assoc _ _ _,rfl⟩

def Reviewed (m : WorktreeManager) (input : ReviewInput) (past : Past)
    (set : ReviewArtifactSet) : Prop :=
  ∃ front, past = front ++ written input set ∧ (∀ x ∈ front, Reads m x.1) ∧
    Captured m input front set.snapshot

theorem reviewHeeds : Heeds (MayAsk m input)
    (fun r later => ∀ set, r = .ok set → Reviewed m input later set) []
    (captureReviewArtifacts m input) := by
  refine heedsBind (heedsMono (fun r front read => ?_) (captureRead mayRead))
  obtain ⟨_,rfl,reads,captured⟩ := read
  cases r with
  | error error => exact fun _ same => by cases same
  | ok s =>
    have captured := captured s rfl
    refine heedsMono (fun r later wrote set same => ?_) (writesHeeds captured)
    obtain ⟨rfl,rfl⟩ := wrote set same
    exact ⟨_,rfl,reads,captured⟩

/-- Whatever git and the files answer, a capture changes nothing in the repository, and the
artifacts of a review are written only once it is whole: with what git said of the worktree
against the one commit, and of every file that git listed as untracked. -/
theorem reviewCaptured {W : Type} {E : Environment Question Answer W} {w last : W}
    {log : List (Entry Question Answer W)} {outcome : Option (Except String ReviewArtifactSet)}
    (run : Run E (captureReviewArtifacts m input) w log outcome last) :
    Proper (MayAsk m input) [] (talk log) ∧
      ∀ set, outcome = some (.ok set) → Reviewed m input (talk log) set := by
  obtain ⟨proper,ends⟩ := runHeeds run reviewHeeds
  exact ⟨proper,fun set same => ends _ same set rfl⟩

end

def untrackedReply (command : String) (args : List String) :
    Except ProcessExecutionError ProcessResult :=
  if args.drop 4 = listArgs then .ok ⟨String.ofList ("new.txt".toList ++ [Char.ofNat 0]),""⟩
  else if args.drop 4 = untrackedArgs .binary "new.txt" then
    .error ⟨command ++ " exited with 1",command,args,some 1,none,"+new",""⟩
  else .ok (gitReply (args.drop 4))

def reviewReply : (q : Question) → Except String (Answer q)
  | .runProcess command args => .ok (untrackedReply command args)
  | .writeText taskId runId kind name data =>
      .ok ⟨taskId,runId,kind,name,name,name,name,"",data.utf8ByteSize,0⟩
  | .writeJson taskId runId kind name _ => .ok ⟨taskId,runId,kind,name,name,name,name,"",0,0⟩
  | q => reply q

def reviewInput : ReviewInput := ⟨"Task_1","run.2","/repo",none⟩

theorem untrackedReviewed : ∃ (set : ReviewArtifactSet) (log : List (Entry Question Answer Unit)),
    Reviewed manager reviewInput (talk log) set ∧ set.snapshot.diff = "+new" := by
  have shown : (played reviewReply (captureReviewArtifacts manager reviewInput)).2.map
    (fun set => set.snapshot.diff) = .ok "+new" := by decide +kernel
  cases ended : (played reviewReply (captureReviewArtifacts manager reviewInput)).2 with
  | error error =>
    rw [ended] at shown
    cases shown
  | ok set =>
    rw [ended] at shown
    exact ⟨set,_,(reviewCaptured (playedRun reviewReply
      (captureReviewArtifacts manager reviewInput))).2 set (congrArg some ended),
      Except.ok.inj shown⟩

end ControlCenter.ReviewCaptures
