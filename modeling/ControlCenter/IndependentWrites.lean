import ControlCenter.ImmutableEvidence

/-! Two writes of artifacts, step by step in any order: which of them leave each other alone. -/
namespace ControlCenter.IndependentWrites
open AccpEnvelope ArtifactFiles EvidenceSteps RunLogic
open ArtifactRecords (Instant)
open ImmutableEvidence (Legible legibleRecords)

inductive Side where
  | left
  | right
  deriving DecidableEq, Repr

section
variable {B : Type} [Contents B] (s : ArtifactStore B) (inputs : Side → ArtifactWriteInput B)
  (now : Side → Int)

structure Both (B : Type) where
  phase : Side → Phase
  files : Files B

def Both.begun (files : Files B) : Both B := ⟨fun side => EvidenceSteps.begun (inputs side),files⟩

def turn (b : Both B) (side : Side) : Both B :=
  let next := advance s (inputs side) (now side) (b.phase side) b.files
  ⟨Function.update b.phase side next.1,next.2⟩

def own (side : Side) (p : Phase × Files B) : Phase × Files B :=
  advance s (inputs side) (now side) p.1 p.2

def paths (side : Side) : List String :=
  [s.destination (inputs side),s.metadataPath (inputs side)]

-- Where both would succeed, both do in any order, each as if the other had not happened.
def Independent : Prop := ∀ (files : Files B) (now : Side → Instant),
  (∀ side, (s.write (inputs side) (now side).1 files).isOk = true) →
  ∀ turns : List Side, (∀ side, 5 ≤ turns.count side) →
    let last := reach (turn s inputs fun side => (now side).1) (.begun inputs files) turns
    ∀ side, ∃ metadata after, s.write (inputs side) (now side).1 files = .ok (metadata,after) ∧
      last.phase side = .returned metadata ∧
      ∀ path ∈ paths s inputs side, last.files.lookup path = after.lookup path

end

def Differ {B : Type} (input other : ArtifactWriteInput B) : Prop :=
  input.taskId ≠ other.taskId ∨ input.runId ≠ other.runId ∨ input.name ≠ other.name

def Shadows {B : Type} (record artifact : ArtifactWriteInput B) : Prop :=
  record.taskId = artifact.taskId ∧ record.runId = artifact.runId ∧
    record.name = artifact.name ++ ".metadata.json"

section
variable {B : Type} [Contents B] {s : ArtifactStore B} {input other : ArtifactWriteInput B} {now : Int}

theorem segmentChars {value : String} (safe : safeSegment value = true) : '/' ∉ value.toList := by
  unfold safeSegment at safe
  split at safe
  next empty => simp [empty]
  next first rest chars =>
    simp only [Bool.and_eq_true,List.all_eq_true] at safe
    obtain ⟨⟨opens,-⟩,others⟩ := safe
    rw [chars]
    intro member
    rcases List.mem_cons.mp member with rfl | member
    · exact absurd opens (by decide)
    · exact absurd (others _ member) (by decide)

theorem splitAt {α : Type} {mark : α} {front back front' back' : List α} (apart : mark ∉ front)
    (apart' : mark ∉ front') (same : front ++ mark::back = front' ++ mark::back') :
    front = front' ∧ back = back' := by
  induction front generalizing front' with
  | nil =>
    cases front' with
    | nil => exact ⟨rfl,(List.cons.inj same).2⟩
    | cons c rest =>
      obtain ⟨rfl,-⟩ := List.cons.inj same
      exact absurd List.mem_cons_self apart'
  | cons c rest ih =>
    cases front' with
    | nil =>
      obtain ⟨rfl,-⟩ := List.cons.inj same
      exact absurd List.mem_cons_self apart
    | cons c' rest' =>
      obtain ⟨rfl,tails⟩ := List.cons.inj same
      obtain ⟨rfl,rfl⟩ := ih (fun member => apart (List.mem_cons_of_mem _ member))
        (fun member => apart' (List.mem_cons_of_mem _ member)) tails
      exact ⟨rfl,rfl⟩

def located (root taskId runId name : String) : List Char :=
  root.toList ++ '/'::(taskId.toList ++ '/'::(runId.toList ++ '/'::name.toList))

omit [Contents B] in
theorem destinationChars : (s.destination input).toList =
    located s.realRoot input.taskId input.runId input.name := by
  have slash : ("/" : String).toList = ['/'] := by decide
  simp [ArtifactStore.destination,located,toString,slash]

theorem locatedSame {root task run name task' run' name' : String} (safe : safeSegment task = true)
    (safeRun : safeSegment run = true) (safe' : safeSegment task' = true)
    (safeRun' : safeSegment run' = true)
    (same : located root task run name = located root task' run' name') :
    task = task' ∧ run = run' ∧ name = name' := by
  have rest := (List.cons.inj (List.append_cancel_left same)).2
  obtain ⟨sameTask,rest⟩ := splitAt (segmentChars safe) (segmentChars safe') rest
  obtain ⟨sameRun,sameName⟩ := splitAt (segmentChars safeRun) (segmentChars safeRun') rest
  exact ⟨String.toList_injective sameTask,String.toList_injective sameRun,
    String.toList_injective sameName⟩

omit [Contents B] in
theorem destinationSame (safe : ArtifactStore.Safe input) (safe' : ArtifactStore.Safe other)
    (same : s.destination input = s.destination other) :
    input.taskId = other.taskId ∧ input.runId = other.runId ∧ input.name = other.name := by
  have chars := congrArg String.toList same
  rw [destinationChars,destinationChars] at chars
  exact locatedSame safe.1 safe.2.1 safe'.1 safe'.2.1 chars

omit [Contents B] in
theorem shadowPath (safe : ArtifactStore.Safe input) (safe' : ArtifactStore.Safe other) :
    s.destination input = s.metadataPath other ↔ Shadows input other := by
  have record : (s.metadataPath other).toList =
      located s.realRoot other.taskId other.runId (other.name ++ ".metadata.json") := by
    simp [ArtifactStore.metadataPath,destinationChars,located]
  constructor
  · intro same
    have chars := congrArg String.toList same
    rw [destinationChars,record] at chars
    exact locatedSame safe.1 safe.2.1 safe'.1 safe'.2.1 chars
  · rintro ⟨task,run,name⟩
    apply String.toList_injective
    rw [destinationChars,record,task,run,name]

def Alike (paths : List String) (files files' : Files B) : Prop :=
  ∀ path ∈ paths, files.lookup path = files'.lookup path

omit [Contents B] in
theorem insertAlike {paths : List String} {files files' : Files B} (alike : Alike paths files files')
    (path : String) (data : B) : Alike paths (files.insert path data) (files'.insert path data) := by
  intro p listed
  by_cases same : p = path
  · rw [same,AList.lookup_insert,AList.lookup_insert]
  · rw [AList.lookup_insert_ne same,AList.lookup_insert_ne same]
    exact alike p listed

theorem advanceAlike (now : Int) {files files' : Files B} (phase : Phase)
    (alike : Alike [s.destination input,s.metadataPath input] files files') :
    (advance s input now phase files).1 = (advance s input now phase files').1 ∧
      Alike [s.destination input,s.metadataPath input] (advance s input now phase files).2
        (advance s input now phase files').2 := by
  have bytes := alike (s.destination input) (by simp)
  have record := alike (s.metadataPath input) (by simp)
  have agreed : agreedMetadata s input now files = agreedMetadata s input now files' := by
    simp only [agreedMetadata,ArtifactStore.readStoredMetadata,readRegularFile,record]
  have equal : sameBytes s input files = sameBytes s input files' := by
    simp only [sameBytes,readRegularFile,bytes]
  cases phase with
  | reading =>
    simp only [advance,record,agreed]
    split <;> exact ⟨rfl,alike⟩
  | confirming prior =>
    simp only [advance,equal]
    exact ⟨trivial,alike⟩
  | comparing =>
    simp only [advance,equal]
    exact ⟨trivial,alike⟩
  | rereading =>
    simp only [advance,agreed]
    exact ⟨trivial,alike⟩
  | installing =>
    cases held : files'.lookup (s.destination input) with
    | none =>
      simp only [advance,installAbsent held,installAbsent (bytes.trans held)]
      exact ⟨trivial,insertAlike alike _ _⟩
    | some there =>
      simp only [advance,installPresent held,installPresent (bytes.trans held)]
      exact ⟨trivial,alike⟩
  | recording =>
    cases held : files'.lookup (s.metadataPath input) with
    | none =>
      simp only [advance,installAbsent held,installAbsent (record.trans held)]
      exact ⟨trivial,insertAlike alike _ _⟩
    | some there =>
      simp only [advance,installPresent held,installPresent (record.trans held)]
      exact ⟨trivial,alike⟩
  | returned | failed | gone => exact ⟨rfl,alike⟩

theorem advanceElsewhere (phase : Phase) (files : Files B) {path : String}
    (apart : path ≠ s.destination input) (apart' : path ≠ s.metadataPath input) :
    (advance s input now phase files).2.lookup path = files.lookup path := by
  rcases advanceFiles s ⟨files,∅,.empty,fun _ => none,fun _ => none⟩ input now phase with
    ⟨same,-⟩ | ⟨-,-,same,-⟩ | ⟨-,-,same,-⟩
  · exact congrArg (AList.lookup path) same
  · exact (congrArg (AList.lookup path) same).trans (AList.lookup_insert_ne apart)
  · exact (congrArg (AList.lookup path) same).trans (AList.lookup_insert_ne apart')

end

section
variable {B : Type} [Contents B] {s : ArtifactStore B} {inputs : Side → ArtifactWriteInput B}
  {now : Side → Int}

theorem sideAlone (now : Side → Int) (side : Side) (apart : ∀ other, other ≠ side → ∀ path ∈ paths s inputs side,
      path ≠ s.destination (inputs other) ∧ path ≠ s.metadataPath (inputs other))
    (turns : List Side) (b : Both B) (p : Phase × Files B) (phase : b.phase side = p.1)
    (alike : Alike (paths s inputs side) b.files p.2) :
    let last := reach (turn s inputs now) b turns
    let alone := (own s inputs now side)^[turns.count side] p
    last.phase side = alone.1 ∧ Alike (paths s inputs side) last.files alone.2 := by
  induction turns generalizing b p with
  | nil => exact ⟨phase,alike⟩
  | cons t turns ih =>
    by_cases mine : t = side
    · subst mine
      obtain ⟨next,kept⟩ := advanceAlike (now t) p.1 alike
      rw [List.count_cons_self,Function.iterate_succ_apply]
      refine ih (turn s inputs now b t) (own s inputs now t p) ?_ ?_
      · simp only [turn,Function.update_self,phase]
        exact next
      · simp only [turn,phase]
        exact kept
    · rw [List.count_cons_of_ne mine]
      refine ih (turn s inputs now b t) p ?_ fun path listed => ?_
      · exact (Function.update_of_ne (Ne.symm mine) _ _).trans phase
      · obtain ⟨fromBytes,fromRecord⟩ := apart t mine path listed
        exact (advanceElsewhere _ _ fromBytes fromRecord).trans (alike path listed)

theorem settledStays (input : ArtifactWriteInput B) (at_ : Int) {p : Phase × Files B}
    (settled : p.1.left = 0) (n : Nat) :
    (fun p : Phase × Files B => advance s input at_ p.1 p.2)^[n] p = p := by
  obtain ⟨phase,files⟩ := p
  refine Function.iterate_fixed ?_ n
  cases phase with
  | returned | failed | gone => rfl
  | reading | confirming | installing | comparing | recording | rereading => cases settled

theorem ownWrites (s : ArtifactStore B) (inputs : Side → ArtifactWriteInput B)
    (now : Side → Int) (side : Side) (files : Files B) {n : Nat} (enough : 5 ≤ n) :
    (own s inputs now side)^[n] (begun (inputs side),files) =
      match s.write (inputs side) (now side) files with
      | .ok (m,after) => (.returned m,after)
      | .error error => (.failed error,files) := by
  obtain ⟨more,rfl⟩ := Nat.exists_eq_add_of_le' enough
  have wrote := writeSteps s (inputs side) (now side) files
  rw [Function.iterate_add_apply]
  show (fun p : Phase × Files B => advance s (inputs side) (now side) p.1 p.2)^[more] _ = _
  rw [show (own s inputs now side)^[5] (begun (inputs side),files) = _ from wrote]
  apply settledStays
  split <;> rfl

theorem turnsOf (s : ArtifactStore B) (now : Side → Int) (side : Side) (b : Both B) (n : Nat) :
    let last := reach (turn s inputs now) b (List.replicate n side)
    let alone := (own s inputs now side)^[n] (b.phase side,b.files)
    last.phase side = alone.1 ∧ last.files = alone.2 ∧
      ∀ other, other ≠ side → last.phase other = b.phase other := by
  induction n generalizing b with
  | zero => exact ⟨rfl,rfl,fun _ _ => rfl⟩
  | succ n ih =>
    obtain ⟨phase,files,others⟩ := ih (turn s inputs now b side)
    have next : ((turn s inputs now b side).phase side,(turn s inputs now b side).files) =
        own s inputs now side (b.phase side,b.files) := by
      simp only [turn,Function.update_self,own]
    rw [next] at phase files
    refine ⟨phase,files,fun other apart => (others other apart).trans ?_⟩
    exact Function.update_of_ne apart _ _

omit [Contents B] in
theorem metadataLength (input : ArtifactWriteInput B) :
    (s.metadataPath input).length = (s.destination input).length + 14 := by
  rw [ArtifactStore.metadataPath,String.length_append]
  congr 1

theorem writeFresh {input : ArtifactWriteInput B} (safe : ArtifactStore.Safe input) (at_ : Int) :
    s.write input at_ ∅ = .ok (s.immutableMetadata input at_,
      ((∅ : Files B).insert (s.destination input) input.data).insert (s.metadataPath input)
        (s.renderMetadata (s.immutableMetadata input at_))) := by
  have absent (path : String) : (∅ : Files B).lookup path = none := rfl
  have fresh : ((∅ : Files B).insert (s.destination input) input.data).lookup (s.metadataPath input) =
      none := AList.lookup_insert_ne pathsDiffer
  rw [writeParts,safeOk.mpr safe]
  simp only [bind,Except.bind,absent]
  unfold ArtifactStore.install
  rw [writeAbsent (absent _)]
  simp only [bind,Except.bind,installAbsent fresh]

theorem apartIndependent (apart : ∀ side other, other ≠ side → ∀ path ∈ paths s inputs side,
    path ≠ s.destination (inputs other) ∧ path ≠ s.metadataPath (inputs other)) :
    Independent s inputs := by
  intro files now succeeds turns enough last side
  obtain ⟨phase,alike⟩ := sideAlone (fun side => (now side).1) side (apart side) turns
    (.begun inputs files) (begun (inputs side),files) rfl fun _ _ => rfl
  rw [ownWrites s inputs (fun side => (now side).1) side files (enough side)] at phase alike
  cases wrote : s.write (inputs side) (now side).1 files with
  | error error =>
    have returned := succeeds side
    rw [wrote] at returned
    cases returned
  | ok written =>
    rw [wrote] at phase alike
    exact ⟨written.1,written.2,rfl,phase,alike⟩

theorem shadowWrites {owner other : Side} (apart : other ≠ owner)
    (safe : ∀ side, ArtifactStore.Safe (inputs side))
    (shadows : Shadows (inputs other) (inputs owner)) (independent : Independent s inputs)
    (now : Side → Instant) : (inputs other).data =
      s.renderMetadata (s.immutableMetadata (inputs owner) (now owner).1) := by
  have both : ∀ side, side = owner ∨ side = other := by
    intro side
    cases side <;> cases owner <;> cases other <;> simp at apart ⊢
  have enough (side : Side) : 5 ≤ (List.replicate 5 owner ++ List.replicate 5 other).count side := by
    rw [List.count_append]
    rcases both side with rfl | rfl <;> rw [List.count_replicate_self] <;> omega
  have fresh (side : Side) : (s.write (inputs side) (now side).1 ∅).isOk = true := by
    rw [writeFresh (safe side)]
    rfl
  obtain ⟨m,after,-,returned,-⟩ := independent ∅ now fresh _ enough other
  rw [reachAppend] at returned
  obtain ⟨-,files,others⟩ := turnsOf s (fun side => (now side).1) owner
    (.begun inputs ∅) 5
  have wrote := ownWrites s inputs (fun side => (now side).1) owner ∅
    (Nat.le_refl 5)
  rw [writeFresh (safe owner)] at wrote
  have held := files.trans (congrArg Prod.snd wrote)
  generalize reach (turn s inputs fun side => (now side).1) (.begun inputs ∅)
    (List.replicate 5 owner) = middle at returned held others
  obtain ⟨phase,-,-⟩ := turnsOf s (fun side => (now side).1) other middle 5
  rw [others other apart,show Both.phase (.begun inputs ∅) other = begun (inputs other) from rfl,
    ownWrites s inputs _ other middle.files (Nat.le_refl 5)] at phase
  have place := (shadowPath (s := s) (safe other) (safe owner)).mpr shadows
  have recordApart : s.metadataPath (inputs other) ≠ s.metadataPath (inputs owner) := by
    rw [← place]
    exact pathsDiffer
  have bytesApart : s.metadataPath (inputs other) ≠ s.destination (inputs owner) := by
    intro same
    have lengths := congrArg String.length same
    rw [metadataLength,place,metadataLength] at lengths
    omega
  have succeeded : (s.write (inputs other) (now other).1 middle.files).isOk = true := by
    cases outcome : s.write (inputs other) (now other).1 middle.files with
    | ok => rfl
    | error error =>
      rw [outcome] at phase
      cases phase.symm.trans returned
  have agrees := (writeReturns.mp succeeded).2
  unfold ArtifactStore.Agrees at agrees
  rw [held,AList.lookup_insert_ne recordApart,AList.lookup_insert_ne bytesApart] at agrees
  refine (agrees _ ?_).symm
  rw [place,AList.lookup_insert]

theorem shadowsEachOther {inputs : Side → Evidence B} (legible : Legible s)
    (safe : ∀ side, ArtifactStore.Safe (inputs side).input)
    (independent : Independent s fun side => (inputs side).input) {owner other : Side}
    (apart : other ≠ owner) : ¬ Shadows (inputs other).input (inputs owner).input := by
  intro shadows
  have data (now : Instant) := shadowWrites apart safe shadows independent fun _ => now
  have same := (data ⟨0,by decide⟩).symm.trans (data ⟨1,by decide⟩)
  have records := congrArg s.parseMetadata same
  rw [legible (inputs owner) ⟨0,by decide⟩,legible (inputs owner) ⟨1,by decide⟩] at records
  have times : (0 : Int) = 1 := congrArg DbReviews.ArtifactMetadata.createdAt (Option.some.inj records)
  omega

theorem pathsApart {inputs : Side → Evidence B}
    (safe : ∀ side, ArtifactStore.Safe (inputs side).input)
    (distinct : Differ (inputs .left).input (inputs .right).input)
    (unshadowed : ∀ side other, other ≠ side → ¬ Shadows (inputs other).input (inputs side).input)
    (side other : Side) (apart : other ≠ side) (path : String)
    (listed : path ∈ paths s (fun side => (inputs side).input) side) :
    path ≠ s.destination (inputs other).input ∧ path ≠ s.metadataPath (inputs other).input := by
  have different : s.destination (inputs side).input ≠ s.destination (inputs other).input := by
    intro same
    obtain ⟨task,run,name⟩ := destinationSame (safe side) (safe other) same
    cases side <;> cases other
    · exact apart rfl
    · exact distinct.elim (· task) (·.elim (· run) (· name))
    · exact distinct.elim (· task.symm) (·.elim (· run.symm) (· name.symm))
    · exact apart rfl
  rcases List.mem_cons.mp listed with rfl | listed
  · exact ⟨different,fun same =>
      unshadowed other side apart.symm ((shadowPath (safe side) (safe other)).mp same)⟩
  · obtain rfl := List.mem_singleton.mp listed
    exact ⟨fun same => unshadowed side other apart ((shadowPath (safe other) (safe side)).mp same.symm),
      fun same => different (ImmutableEvidence.samePath same)⟩

end

/-- Two writes of different artifacts leave each other alone exactly when neither is named
like the other's record. -/
theorem writesIndependent {B : Type} [Contents B] {t : ArtifactRecords.Texts B} (lawful : t.Lawful)
    {sha256Hex : B → String} (digests : ∀ bytes, DbReviews.sha256Text (sha256Hex bytes) = true)
    (realHome realRoot : String) (inputs : Side → Evidence B)
    (safe : ∀ side, ArtifactStore.Safe (inputs side).input)
    (distinct : Differ (inputs .left).input (inputs .right).input) :
    Independent (ArtifactRecords.artifactStore t realHome realRoot sha256Hex)
        (fun side => (inputs side).input) ↔
      ∀ side other, other ≠ side → ¬ Shadows (inputs other).input (inputs side).input := by
  have legible := legibleRecords lawful digests realHome realRoot
  constructor
  · exact fun independent owner other apart => shadowsEachOther legible safe independent apart
  · exact fun unshadowed => apartIndependent (pathsApart safe distinct unshadowed)

def plan : Evidence := ⟨⟨"task_1","run_1",.result,"plan.txt","go"⟩,by decide⟩

def noteAndPlan : Side → Evidence
  | .left => ImmutableEvidence.note
  | .right => plan

theorem noteAndPlanIndependent : Independent ImmutableEvidence.store
    (fun side => (noteAndPlan side).input) := by
  refine (writesIndependent ArtifactRecords.recordTextsLawful ImmutableEvidence.noteDigests "/home/.acc"
    "/home/.acc/artifacts" noteAndPlan ?_ (.inr (.inr (by decide +kernel)))).mpr ?_
  · intro side
    cases side <;> exact ⟨by decide +kernel,by decide +kernel,by decide +kernel⟩
  · rintro side other - ⟨-,-,name⟩
    revert name
    cases side <;> cases other <;> decide +kernel

def noteAndShadow : Side → Evidence
  | .left => ImmutableEvidence.note
  | .right => ImmutableEvidence.shadow

theorem noteAndShadowCollide : (∀ side, ArtifactStore.Safe (noteAndShadow side).input) ∧
    Differ (noteAndShadow .left).input (noteAndShadow .right).input ∧
    ¬ Independent ImmutableEvidence.store (fun side => (noteAndShadow side).input) := by
  have safe (side : Side) : ArtifactStore.Safe (noteAndShadow side).input := by
    cases side <;> exact ⟨by decide +kernel,by decide +kernel,by decide +kernel⟩
  refine ⟨safe,.inr (.inr (by decide +kernel)),fun independent => ?_⟩
  have legible := legibleRecords ArtifactRecords.recordTextsLawful ImmutableEvidence.noteDigests
    "/home/.acc" "/home/.acc/artifacts"
  have unshadowed := @shadowsEachOther String _ _ noteAndShadow legible safe independent .left .right
  exact unshadowed nofun ⟨rfl,rfl,by decide +kernel⟩

end ControlCenter.IndependentWrites
