import ControlCenter.ArtifactRecords
import ControlCenter.RunLogic
import Mathlib.Logic.Function.Basic
import Mathlib.Logic.Function.Iterate

/-! Any number of writes of artifacts and of calls that record them in the database, in
single steps that interleave; any of them may stop for good between two steps. -/
namespace ControlCenter.EvidenceSteps
open AccpEnvelope Protocol Table Db DbReviews ArtifactFiles RunLogic JsonValue
open ArtifactRecords (Instant)

structure Evidence (B : Type := String) [Contents B] where
  input : ArtifactWriteInput B
  countable : ZodSchema.safeInteger (Contents.byteLength input.data) = true

inductive Phase where
  | reading
  | confirming (prior : ArtifactMetadata)
  | installing
  | comparing
  | recording
  | rereading
  | returned (metadata : ArtifactMetadata)
  | failed (error : String)
  -- The process is dead, or a system call has failed.
  | gone
  deriving DecidableEq, Repr

def Phase.left : Phase → Nat
  | .reading => 5
  | .installing => 4
  | .comparing => 3
  | .recording => 2
  | .confirming _ | .rereading => 1
  | .returned _ | .failed _ | .gone => 0

def Phase.after {α : Type} (next : α → Phase) : Outcome α → Phase
  | .ok a => next a
  | .error error => .failed error

section
variable {B : Type} [Contents B] (s : ArtifactStore B) (input : ArtifactWriteInput B) (now : Int)

def safeSegments : Outcome Unit := do
  assertSafePathSegment input.taskId "taskId"
  assertSafePathSegment input.runId "runId"
  assertSafePathSegment input.name "artifact name"

def begun : Phase := Phase.after (fun () => .reading) (safeSegments input)

def agreedMetadata (files : Files B) : Outcome ArtifactMetadata := do
  let held ← s.readStoredMetadata (s.metadataPath input) files
  assertMetadataMatches held (s.immutableMetadata input now)
  .ok held

def sameBytes (files : Files B) : Outcome Unit := do
  let existing ← readRegularFile (s.destination input) files
  if existing = input.data then .ok () else .error (bytesConflict (s.destination input))

def advance (phase : Phase) (files : Files B) : Phase × Files B := match phase with
  | .reading => match files.lookup (s.metadataPath input) with
      | none => (.installing,files)
      | some _ => (Phase.after .confirming (agreedMetadata s input now files),files)
  | .confirming prior => (Phase.after (fun () => .returned prior) (sameBytes s input files),files)
  | .installing => match installExclusiveFile (s.destination input) input.data files with
      | (true,files) => (.recording,files)
      | (false,files) => (.comparing,files)
  | .comparing => (Phase.after (fun () => .recording) (sameBytes s input files),files)
  | .recording =>
      let metadata := s.immutableMetadata input now
      match installExclusiveFile (s.metadataPath input) (s.renderMetadata metadata) files with
      | (true,files) => (.returned metadata,files)
      | (false,files) => (.rereading,files)
  | .rereading => (Phase.after .returned (agreedMetadata s input now files),files)
  | .returned _ | .failed _ | .gone => (phase,files)

end

def insertArtifact (m : Moment) (input : ArtifactInput) (db : ControlCenterDb) :
    Outcome (Option Json × ControlCenterDb) :=
  if !sha256Text input.artifact.sha256 then
    .error "Artifact sha256 must be a lowercase SHA-256 digest"
  else if !(ZodSchema.safeInteger input.artifact.sizeBytes &&
      decide (0 ≤ input.artifact.sizeBytes)) then
    .error "Artifact size must be a non-negative safe integer"
  else do
    let metadata ← artifactError input.metadata
    match recordedArtifact input.artifact db with
    | some _ => .ok (metadata,db)
    | none => do
        references (db.hasTask input.artifact.taskId && db.hasRun (some input.artifact.runId))
        let artifacts ← unique "artifacts.id"
          (db.artifacts.insert (insertedArtifact m input.artifact metadata))
        .ok (metadata,{db with artifacts})

def selectArtifact (input : ArtifactMetadata) (metadata : Option Json) (db : ControlCenterDb) :
    Outcome ArtifactRow := do
  let row ← found "Artifact disappeared after insert" (recordedArtifact input db)
  if sameArtifact row input metadata then .ok row
  else .error ("Artifact database evidence must be identical for immutable path: " ++ input.path)

inductive CallPhase where
  | inserting
  | selecting (metadata : Option Json)
  | returned (row : ArtifactRow)
  | failed (error : String)
  | gone

def CallPhase.left : CallPhase → Nat
  | .inserting => 2
  | .selecting _ => 1
  | .returned _ | .failed _ | .gone => 0

structure Call where
  moment : Moment
  input : ArtifactInput
  phase : CallPhase

def Call.advance (c : Call) (db : ControlCenterDb) : CallPhase × ControlCenterDb :=
  match c.phase with
  | .inserting => match insertArtifact c.moment c.input db with
      | .ok (metadata,db) => (.selecting metadata,db)
      | .error error => (.failed error,db)
  | .selecting metadata => match selectArtifact c.input.artifact metadata db with
      | .ok row => (.returned row,db)
      | .error error => (.failed error,db)
  | phase => (phase,db)

structure Writing (B : Type := String) [Contents B] where
  evidence : Evidence B
  phase : Phase

structure Home (B : Type := String) [Contents B] where
  files : Files B
  -- Which files are records of artifacts is kept in the model alone.
  records : AList fun _ : String => ArtifactMetadata
  db : ControlCenterDb
  writings : Nat → Option (Writing B)
  calls : Nat → Option Call

def Home.new {B : Type} [Contents B] (db : ControlCenterDb) : Home B := ⟨∅,∅,db,fun _ => none,fun _ => none⟩

inductive Event (B : Type := String) [Contents B] where
  | write (i : Nat) (evidence : Evidence B)
  | move (i : Nat) (now : Instant)
  | stop (i : Nat)
  | addArtifact (j : Nat) (m : Moment) (input : ArtifactInput)
  | answer (j : Nat)
  | hangUp (j : Nat)

section
variable {B : Type} [Contents B] (s : ArtifactStore B) (home : Home B)

def noted (input : ArtifactWriteInput B) (now : Int) (phase : Phase) :
    AList fun _ : String => ArtifactMetadata :=
  match phase,home.files.lookup (s.metadataPath input) with
  | .recording,none =>
      home.records.insert (s.metadataPath input) (s.immutableMetadata input now)
  | _,_ => home.records

def Home.setWriting (i : Nat) (w : Writing B) : Home B :=
  {home with writings := Function.update home.writings i (some w)}

def Home.setCall (j : Nat) (c : Call) : Home B :=
  {home with calls := Function.update home.calls j (some c)}

def Home.move (i : Nat) (w : Writing B) (now : Int) : Home B :=
  let input := w.evidence.input
  let next := advance s input now w.phase home.files
  {home.setWriting i ⟨w.evidence,next.1⟩ with
    files := next.2
    records := noted s home input now w.phase}

def Home.answer (j : Nat) (c : Call) : Home B :=
  let next := c.advance home.db
  {home.setCall j {c with phase := next.1} with db := next.2}

def step : Event B → Home B
  | .write i evidence => match home.writings i with
      | none => home.setWriting i ⟨evidence,begun evidence.input⟩
      | some _ => home
  | .move i now => match home.writings i with
      | none => home
      | some w => home.move s i w now.1
  | .stop i => match home.writings i with
      | none => home
      | some w => if w.phase.left = 0 then home else home.setWriting i ⟨w.evidence,.gone⟩
  | .addArtifact j m input => match home.calls j with
      | none => home.setCall j ⟨m,input,.inserting⟩
      | some _ => home
  | .answer j => match home.calls j with
      | none => home
      | some c => home.answer j c
  | .hangUp j => match home.calls j with
      | none => home
      | some c => if c.phase.left = 0 then home else home.setCall j {c with phase := .gone}
end

structure Unchanged {B : Type} [Contents B] (home later : Home B) : Prop where
  files : ∀ {path text}, home.files.lookup path = some text →
    later.files.lookup path = some text
  rows : ∀ {input row}, recordedArtifact input home.db = some row →
    recordedArtifact input later.db = some row
section
variable {B : Type} [Contents B] {s : ArtifactStore B} {home later : Home B}
  {input : ArtifactWriteInput B} {now : Int} {files : Files B} {phase : Phase}

theorem Unchanged.trans {last : Home B} (first : Unchanged home later)
    (second : Unchanged later last) : Unchanged home last :=
  ⟨fun h => second.files (first.files h),fun h => second.rows (first.rows h)⟩
theorem insertKept {α : Type} {table : AList fun _ : String => α} {path key : String} {v w : α}
    (fresh : table.lookup key = none) (held : table.lookup path = some v) :
    (table.insert key w).lookup path = some v := by
  have other : path ≠ key := by
    rintro rfl
    cases fresh.symm.trans held
  rw [AList.lookup_insert_ne other]
  exact held
theorem advanceFiles (s : ArtifactStore B) (home : Home B) (input : ArtifactWriteInput B) (now : Int)
    (phase : Phase) :
    ((advance s input now phase home.files).2 = home.files ∧
      noted s home input now phase = home.records) ∨
    (phase = .installing ∧ home.files.lookup (s.destination input) = none ∧
      (advance s input now phase home.files).2 =
        home.files.insert (s.destination input) input.data ∧
      noted s home input now phase = home.records) ∨
    (phase = .recording ∧ home.files.lookup (s.metadataPath input) = none ∧
      (advance s input now phase home.files).2 = home.files.insert (s.metadataPath input)
        (s.renderMetadata (s.immutableMetadata input now)) ∧
      noted s home input now phase =
        home.records.insert (s.metadataPath input) (s.immutableMetadata input now)) := by
  cases phase with
  | reading =>
    left
    simp only [advance,noted,and_true]
    split <;> rfl
  | installing =>
    cases held : home.files.lookup (s.destination input) with
    | none => exact .inr (.inl ⟨rfl,rfl,by simp only [advance,installAbsent held],rfl⟩)
    | some bytes => exact .inl ⟨by simp only [advance,installPresent held],rfl⟩
  | recording =>
    cases held : home.files.lookup (s.metadataPath input) with
    | none =>
      right
      right
      simp [advance,noted,installAbsent held,held]
    | some text =>
      left
      simp [advance,noted,installPresent held,held]
  | _ => exact .inl ⟨rfl,rfl⟩

theorem moveUnchanged (s : ArtifactStore B) (home : Home B) (i : Nat) (w : Writing B) (now : Int) :
    Unchanged home (home.move s i w now) := by
  refine ⟨fun held => ?_,id⟩
  unfold Home.move
  dsimp only
  rcases advanceFiles s home w.evidence.input now w.phase with
    ⟨files,_⟩ | ⟨_,fresh,files,_⟩ | ⟨_,fresh,files,_⟩
  · rw [files]
    exact held
  · rw [files]
    exact insertKept fresh held
  · rw [files]
    exact insertKept fresh held

theorem findAppended {α : Type} {test : α → Bool} {rows : List α} {row : α} {more : List α}
    (found_ : rows.find? test = some row) : (rows ++ more).find? test = some row := by
  rw [List.find?_append,found_]
  rfl

theorem insertedRows {m : Moment} {input : ArtifactInput} {metadata : Option Json}
    {db after : ControlCenterDb} (inserted : insertArtifact m input db = .ok (metadata,after)) :
    artifactError input.metadata = .ok metadata ∧
      sha256Text input.artifact.sha256 = true ∧
      (ZodSchema.safeInteger input.artifact.sizeBytes &&
        decide (0 ≤ input.artifact.sizeBytes)) = true ∧
      (after = db ∧ (∃ row, recordedArtifact input.artifact db = some row) ∨
        recordedArtifact input.artifact db = none ∧ after.artifacts.rows =
          db.artifacts.rows ++ [insertedArtifact m input.artifact metadata]) := by
  unfold insertArtifact at inserted
  split at inserted
  next => cases inserted
  next digest =>
    split at inserted
    next => cases inserted
    next sized =>
      obtain ⟨value,read,inserted⟩ := exceptBind inserted
      simp only [Bool.not_eq_true,Bool.not_eq_false'] at digest sized
      split at inserted
      next row there =>
        cases Except.ok.inj inserted
        exact ⟨read,digest,sized,.inl ⟨rfl,row,there⟩⟩
      next absent =>
        obtain ⟨_,_,inserted⟩ := exceptBind inserted
        obtain ⟨artifacts,added,inserted⟩ := exceptBind inserted
        cases Except.ok.inj inserted
        refine ⟨read,digest,sized,.inr ⟨absent,?_⟩⟩
        cases fresh : db.artifacts.insert (insertedArtifact m input.artifact metadata) with
        | none => rw [fresh] at added; cases added
        | some rows =>
          rw [fresh] at added
          cases Except.ok.inj added
          exact insertRows fresh

theorem answerUnchanged (home : Home B) (j : Nat) (c : Call) : Unchanged home (home.answer j c) := by
  refine ⟨id,fun held => ?_⟩
  unfold Home.answer Call.advance
  split
  next =>
    split
    next metadata db inserted =>
      obtain ⟨_,_,_,⟨same,_⟩ | ⟨_,rows⟩⟩ := insertedRows inserted
      · rw [same]
        exact held
      · unfold recordedArtifact at held ⊢
        rw [rows]
        exact findAppended held
    next => exact held
  next => split <;> exact held
  next => exact held

theorem stepUnchanged (home : Home B) (e : Event B) : Unchanged home (step s home e) := by
  cases e with
  | write i evidence =>
    simp only [step]
    split <;> exact ⟨id,id⟩
  | move i now =>
    simp only [step]
    split
    next => exact ⟨id,id⟩
    next w _ => exact moveUnchanged s home i w now.1
  | stop i =>
    simp only [step]
    split
    next => exact ⟨id,id⟩
    next => split <;> exact ⟨id,id⟩
  | addArtifact j m input =>
    simp only [step]
    split <;> exact ⟨id,id⟩
  | answer j =>
    simp only [step]
    split
    next => exact ⟨id,id⟩
    next c _ => exact answerUnchanged home j c
  | hangUp j =>
    simp only [step]
    split
    next => exact ⟨id,id⟩
    next => split <;> exact ⟨id,id⟩

theorem reachUnchanged (home : Home B) (events : List (Event B)) :
    Unchanged home (reach (step s) home events) :=
  reachKept (step s) (I := Unchanged home)
    (fun _ e known => known.trans (stepUnchanged _ e)) ⟨id,id⟩ events
theorem agreedOk {m : ArtifactMetadata} : agreedMetadata s input now files = .ok m ↔
    (∃ text, files.lookup (s.metadataPath input) = some text ∧ s.parseMetadata text = some m) ∧
      sameRecord m (s.immutableMetadata input 0) = true := by
  unfold agreedMetadata
  constructor
  · intro agreed
    obtain ⟨held,stored,agreed⟩ := exceptBind agreed
    obtain ⟨_,matched,agreed⟩ := exceptBind agreed
    cases Except.ok.inj agreed
    exact ⟨storedOk.mp stored,matchesOk.mp matched⟩
  · rintro ⟨stored,same⟩
    rw [storedOk.mpr stored]
    have matched : assertMetadataMatches m (s.immutableMetadata input now) = .ok () :=
      matchesOk.mpr same
    show (assertMetadataMatches m _ >>= fun _ => .ok m) = .ok m
    rw [matched]
    rfl

theorem sameBytesOk : sameBytes s input files = .ok () ↔
    files.lookup (s.destination input) = some input.data := by
  unfold sameBytes
  constructor
  · intro same
    obtain ⟨existing,read,same⟩ := exceptBind same
    split at same
    next equal => exact equal ▸ readOk.mp read
    next => cases same
  · intro held
    rw [readOk.mpr held]
    exact if_pos rfl
theorem afterLeft {α : Type} {next : α → Phase} {n : Nat} (bound : ∀ a, (next a).left ≤ n)
    (outcome : Outcome α) : (Phase.after next outcome).left ≤ n := by
  cases outcome with
  | ok a => exact bound a
  | error => exact Nat.zero_le n

theorem advanceLeft (s : ArtifactStore B) (input : ArtifactWriteInput B) (now : Int) (phase : Phase)
    (files : Files B) : (advance s input now phase files).1.left ≤ phase.left - 1 := by
  cases phase with
  | reading =>
    simp only [advance]
    split
    next => exact Nat.le_refl 4
    next => exact afterLeft (fun _ => Nat.le_of_ble_eq_true rfl) _
  | confirming prior => exact afterLeft (fun _ => Nat.le_refl 0) _
  | installing =>
    simp only [advance]
    split
    · exact Nat.le_succ 2
    · exact Nat.le_refl 3
  | comparing => exact afterLeft (fun _ => Nat.le_refl 2) _
  | recording =>
    simp only [advance]
    split
    · exact Nat.zero_le _
    · exact Nat.le_refl 1
  | rereading => exact afterLeft (fun _ => Nat.le_refl 0) _
  | returned | failed | gone => exact Nat.le_refl 0
omit [Contents B] in
theorem safeOk : safeSegments input = .ok () ↔ ArtifactStore.Safe input := by
  unfold safeSegments
  constructor
  · intro checked
    obtain ⟨_,task,rest⟩ := exceptBind checked
    obtain ⟨_,run,name⟩ := exceptBind rest
    exact ⟨segmentOk.mp task,segmentOk.mp run,segmentOk.mp name⟩
  · rintro ⟨task,run,name⟩
    rw [segmentOk.mpr task,segmentOk.mpr run,segmentOk.mpr name]
    rfl

omit [Contents B] in
theorem begunCases (input : ArtifactWriteInput B) :
    (ArtifactStore.Safe input ∧ begun input = .reading) ∨
      (¬ArtifactStore.Safe input ∧ ∃ error, begun input = .failed error) := by
  unfold begun
  cases checked : safeSegments input with
  | ok => exact .inl ⟨safeOk.mp checked,rfl⟩
  | error error =>
    refine .inr ⟨fun safe => ?_,error,rfl⟩
    rw [safeOk.mpr safe] at checked
    cases checked

theorem writeParts : s.write input now files = (safeSegments input >>= fun _ =>
    match files.lookup (s.metadataPath input) with
    | some _ => s.confirm input now files
    | none => s.install input now files) := by
  unfold ArtifactStore.write safeSegments
  cases assertSafePathSegment input.taskId "taskId" with
  | error => rfl
  | ok =>
    cases assertSafePathSegment input.runId "runId" with
    | error => rfl
    | ok => rfl

theorem confirmParts : s.confirm input now files = (agreedMetadata s input now files >>= fun prior =>
    sameBytes s input files >>= fun _ => .ok (prior,files)) := by
  unfold ArtifactStore.confirm agreedMetadata sameBytes
  cases s.readStoredMetadata (s.metadataPath input) files with
  | error => rfl
  | ok prior =>
    simp only [bind,Except.bind]
    cases assertMetadataMatches prior (s.immutableMetadata input now) with
    | error => rfl
    | ok =>
      cases readRegularFile (s.destination input) files with
      | error => rfl
      | ok existing =>
        dsimp only
        split <;> rfl

theorem writeSteps (s : ArtifactStore B) (input : ArtifactWriteInput B) (now : Int) (files : Files B) :
    (fun p : Phase × Files B => advance s input now p.1 p.2)^[5] (begun input,files) =
      match s.write input now files with
      | .ok (m,after) => (.returned m,after)
      | .error error => (.failed error,files) := by
  rw [writeParts]
  unfold begun
  cases safeSegments input with
  | error => rfl
  | ok =>
    simp only [Phase.after,Function.iterate_succ_apply,Function.iterate_zero_apply,bind,Except.bind]
    cases recorded : files.lookup (s.metadataPath input) with
    | some text =>
      rw [confirmParts]
      simp only [advance,recorded,bind,Except.bind]
      cases agreedMetadata s input now files with
      | error => rfl
      | ok prior =>
        simp only [Phase.after]
        cases sameBytes s input files <;> rfl
    | none =>
      unfold ArtifactStore.install
      cases held : files.lookup (s.destination input) with
      | none =>
        have fresh : (files.insert (s.destination input) input.data).lookup (s.metadataPath input) =
            none := (AList.lookup_insert_ne pathsDiffer).trans recorded
        rw [writeAbsent held]
        simp only [advance,recorded,installAbsent held,installAbsent fresh,bind,Except.bind]
      | some bytes =>
        rw [writePresent input.data held]
        by_cases same : bytes = input.data
        · have equal : sameBytes s input files = .ok () := sameBytesOk.mpr (held.trans (congrArg some same))
          simp only [advance,recorded,installPresent held,equal,Phase.after,installAbsent recorded,
            if_pos same,bind,Except.bind]
        · have other : sameBytes s input files = .error (bytesConflict (s.destination input)) := by
            unfold sameBytes
            rw [readOk.mpr held]
            exact if_neg same
          simp only [advance,recorded,installPresent held,other,Phase.after,if_neg same,bind,
            Except.bind]

def moves (i : Nat) : Event B → Bool
  | .move k _ => k == i
  | _ => false

def answers (j : Nat) : Event B → Bool
  | .answer k => k == j
  | _ => false

theorem stepWriting (home : Home B) {i : Nat} {w : Writing B} (found : home.writings i = some w)
    (e : Event B) : ∃ phase, (step s home e).writings i = some ⟨w.evidence,phase⟩ ∧
      phase.left ≤ w.phase.left - [e].countP (moves i) := by
  have stays : ∃ phase, home.writings i = some ⟨w.evidence,phase⟩ ∧ phase.left ≤ w.phase.left - 0 :=
    ⟨w.phase,found,Nat.le_refl _⟩
  cases e with
  | write k evidence =>
    simp only [step]
    split
    next fresh =>
      have other : i ≠ k := by
        rintro rfl
        cases fresh.symm.trans found
      exact ⟨w.phase,by simpa [Home.setWriting,Function.update_of_ne other] using found,
        Nat.le_refl _⟩
    next => exact stays
  | move k now =>
    simp only [step]
    by_cases same : k = i
    · subst same
      rw [found]
      refine ⟨_,Function.update_self ..,?_⟩
      simpa [moves] using advanceLeft s w.evidence.input now.1 w.phase home.files
    · have idle : [(Event.move k now : Event B)].countP (moves i) = 0 := by simp [moves,same]
      rw [idle]
      split
      next => exact stays
      next other _ =>
        refine ⟨w.phase,?_,Nat.le_refl _⟩
        exact (Function.update_of_ne (Ne.symm same) ..).trans found
  | stop k =>
    simp only [step]
    split
    next => exact stays
    next other found' =>
      split
      next => exact stays
      next =>
        by_cases same : i = k
        · subst same
          cases found.symm.trans found'
          exact ⟨.gone,Function.update_self ..,Nat.zero_le _⟩
        · exact ⟨w.phase,(Function.update_of_ne same ..).trans found,Nat.le_refl _⟩
  | addArtifact j m input =>
    simp only [step]
    split <;> exact stays
  | answer j =>
    simp only [step]
    split <;> exact stays
  | hangUp j =>
    simp only [step]
    split
    · exact stays
    · split <;> exact stays

theorem reachWriting (home : Home B) {i : Nat} {w : Writing B} (found : home.writings i = some w)
    (events : List (Event B)) : ∃ phase, (reach (step s) home events).writings i =
      some ⟨w.evidence,phase⟩ ∧ phase.left ≤ w.phase.left - events.countP (moves i) := by
  induction events generalizing home w with
  | nil => exact ⟨w.phase,found,Nat.le_refl _⟩
  | cons e rest ih =>
    obtain ⟨phase,found,first⟩ := stepWriting (s := s) home found e
    obtain ⟨last,found,second⟩ := ih (step s home e) found
    refine ⟨last,found,?_⟩
    have parts : (e::rest).countP (moves i) = [e].countP (moves i) + rest.countP (moves i) := by
      rw [List.countP_cons,List.countP_cons,List.countP_nil]
      omega
    dsimp only at second
    omega
mutual
theorem sameSelf (v : Json) (written : v ≠ .undefined) (distinct : Distinct v.image) :
    sameJson v.image v.image = true := by
  cases v with
  | undefined => exact absurd rfl written
  | null => rfl
  | boolean b => exact beq_self_eq_true b
  | number n =>
    cases n with
    | finite | negativeZero => exact beq_self_eq_true _
    | infinity | nan => rfl
  | string text => exact beq_self_eq_true text
  | array items => exact sameItemsSelf items distinct
  | object members =>
    have each := sameMembersSelf members (imageMembers members) distinct.2 fun k v listed =>
      lookupMember distinct.1 listed
    simp only [Json.image,sameJson,beq_self_eq_true,Bool.true_and]
    exact each

theorem sameItemsSelf (items : List Json) (distinct : DistinctItems (imageItems items)) :
    sameItems (imageItems items) (imageItems items) = true := by
  cases items with
  | nil => rfl
  | cons v rest =>
    cases v with
    | undefined =>
      simp only [imageItems,sameItems,sameJson,Bool.true_and]
      exact sameItemsSelf rest distinct.2
    | null | boolean | number | string | array | object =>
      exact Bool.and_eq_true_iff.mpr ⟨sameSelf _ Json.noConfusion distinct.1,
        sameItemsSelf rest distinct.2⟩

theorem sameMembersSelf (members all : List (String × Json))
    (distinct : DistinctMembers (imageMembers members))
    (found_ : ∀ k v, (k,v) ∈ imageMembers members → JsonValue.lookup k all = some v) :
    sameMembers (imageMembers members) all = true := by
  cases members with
  | nil => rfl
  | cons member rest =>
    obtain ⟨k,v⟩ := member
    cases v with
    | undefined => exact sameMembersSelf rest all distinct found_
    | null | boolean | number | string | array | object =>
      simp only [imageMembers,sameMembers]
      rw [found_ _ _ List.mem_cons_self]
      exact Bool.and_eq_true_iff.mpr ⟨sameSelf _ Json.noConfusion distinct.1,
        sameMembersSelf rest all distinct.2 fun k v listed =>
          found_ k v (List.mem_cons_of_mem _ listed)⟩
end

theorem artifactRead {v : Option Json} {metadata : Option Json}
    (distinct : ∀ u, v = some u → Distinct u.image) (read : artifactError v = .ok metadata) :
    sameMetadata metadata metadata = true := by
  unfold artifactError at read
  split at read
  next => cases read; rfl
  next u =>
    split at read
    next => cases read
    next members image =>
      cases read
      have written : u ≠ .undefined := by
        rintro rfl
        cases image
      have self := sameSelf u written (distinct u rfl)
      rw [image] at self
      exact self
    next => cases read; rfl
    next => cases read

theorem insertedSame {m : Moment} {input : ArtifactMetadata} {metadata : Option Json}
    (counted : 0 ≤ input.sizeBytes) (self : sameMetadata metadata metadata = true) :
    sameArtifact (insertedArtifact m input metadata) input metadata = true := by
  simp [sameArtifact,insertedArtifact,counted,self]

theorem addArtifactSteps {m : Moment} {input : ArtifactInput} {db : ControlCenterDb}
    (distinct : ∀ v, input.metadata = some v → Distinct v.image) :
    addArtifact m input db = (do
      let (metadata,after) ← insertArtifact m input db
      let row ← selectArtifact input.artifact metadata after
      .ok (row,after)) := by
  unfold addArtifact insertArtifact
  split
  next => rfl
  next =>
    split
    next => rfl
    next sized =>
      simp only [Bool.not_eq_true,Bool.not_eq_false',Bool.and_eq_true,decide_eq_true_eq] at sized
      cases read : artifactError input.metadata with
      | error => rfl
      | ok metadata =>
        simp only [bind,Except.bind]
        cases recorded : recordedArtifact input.artifact db with
        | some row =>
          simp only [selectArtifact,recorded,found,bind,Except.bind]
          split <;> rfl
        | none =>
          dsimp only
          cases references (db.hasTask input.artifact.taskId &&
              db.hasRun (some input.artifact.runId)) with
          | error => rfl
          | ok =>
            dsimp only
            cases fresh : db.artifacts.insert (insertedArtifact m input.artifact metadata) with
            | none => rfl
            | some artifacts =>
              have there : recordedArtifact input.artifact {db with artifacts} =
                  some (insertedArtifact m input.artifact metadata) := by
                unfold recordedArtifact at recorded ⊢
                rw [insertRows fresh,List.find?_append,recorded]
                simp [insertedArtifact]
              have same := insertedSame (m := m) sized.2 (artifactRead distinct read)
              simp [unique,selectArtifact,there,found,same,bind,Except.bind]

theorem callLeft (c : Call) (db : ControlCenterDb) :
    (c.advance db).1.left ≤ c.phase.left - 1 := by
  obtain ⟨m,input,phase⟩ := c
  cases phase with
  | inserting =>
    simp only [Call.advance]
    split
    · exact Nat.le_refl 1
    · exact Nat.zero_le _
  | selecting metadata =>
    simp only [Call.advance]
    split <;> exact Nat.zero_le _
  | returned | failed | gone => exact Nat.le_refl 0
end

end ControlCenter.EvidenceSteps
