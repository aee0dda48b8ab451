import ControlCenter.EvidenceSteps

/-! Artifacts that never change: what is installed and recorded first stays, retries return
it, and what conflicts with it fails, over every run whose artifacts keep apart. -/
namespace ControlCenter.ImmutableEvidence
open AccpEnvelope Protocol Table Db DbReviews ArtifactFiles RunLogic JsonValue EvidenceSteps
open ArtifactRecords (Instant)

section
variable {B : Type} [Contents B] (s : ArtifactStore B) (home : Home B)

-- No file of an artifact comes to lie where a write under way has its record, and no write
-- begins that finds one there.
def Apart : Event B → Prop
  | .write i evidence => home.writings i = none →
      (home.files.lookup (s.metadataPath evidence.input)).isSome = true →
        (home.records.lookup (s.metadataPath evidence.input)).isSome = true
  | .move i _ => ∀ w, home.writings i = some w → w.phase = .installing →
      home.files.lookup (s.destination w.evidence.input) = none →
      ∀ j other, home.writings j = some other → other.phase.left ≠ 0 →
        s.metadataPath other.evidence.input ≠ s.destination w.evidence.input
  | _ => True

def Conflicts (input : ArtifactWriteInput B) : Prop :=
  (∃ bytes, home.files.lookup (s.destination input) = some bytes ∧ bytes ≠ input.data) ∨
    ∃ m, home.records.lookup (s.metadataPath input) = some m ∧
      sameRecord m (s.immutableMetadata input 0) = false

structure Written (input : ArtifactWriteInput B) (m : ArtifactMetadata) : Prop where
  bytes : home.files.lookup (s.destination input) = some input.data
  record : home.records.lookup (s.metadataPath input) = some m
  same : sameRecord m (s.immutableMetadata input 0) = true

def Known (input : ArtifactWriteInput B) : Phase → Prop
  | .reading | .installing | .gone => True
  | .confirming prior => home.records.lookup (s.metadataPath input) = some prior ∧
      sameRecord prior (s.immutableMetadata input 0) = true
  | .comparing => (home.files.lookup (s.destination input)).isSome = true
  | .recording => home.files.lookup (s.destination input) = some input.data
  | .rereading => home.files.lookup (s.destination input) = some input.data ∧
      (home.records.lookup (s.metadataPath input)).isSome = true
  | .returned m => Written s home input m
  | .failed _ => ArtifactStore.Safe input → Conflicts s home input

structure Kept : Prop where
  recorded : ∀ path m, home.records.lookup path = some m →
    ∃ (evidence : Evidence B) (now : Instant), m = s.immutableMetadata evidence.input now.1 ∧
      path = s.metadataPath evidence.input ∧
      home.files.lookup path = some (s.renderMetadata m) ∧
      home.files.lookup (s.destination evidence.input) = some evidence.input.data
  clean : ∀ i w, home.writings i = some w → w.phase.left ≠ 0 →
    (home.files.lookup (s.metadataPath w.evidence.input)).isSome = true →
      (home.records.lookup (s.metadataPath w.evidence.input)).isSome = true
  safe : ∀ i w, home.writings i = some w → w.phase.left ≠ 0 →
    ArtifactStore.Safe w.evidence.input
  known : ∀ i w, home.writings i = some w → Known s home w.evidence.input w.phase

end
def Legible {B : Type} [Contents B] (s : ArtifactStore B) : Prop := ∀ (evidence : Evidence B) (now : Instant),
  s.parseMetadata (s.renderMetadata (s.immutableMetadata evidence.input now.1)) =
    some (s.immutableMetadata evidence.input now.1)
structure Grows {B : Type} [Contents B] (home later : Home B) : Prop extends Unchanged home later where
  records : ∀ {path m}, home.records.lookup path = some m → later.records.lookup path = some m
section
variable {B : Type} [Contents B] {s : ArtifactStore B} {home later : Home B}
  {input : ArtifactWriteInput B} {now : Int} {files : Files B} {phase : Phase}
theorem Grows.trans {last : Home B} (first : Grows home later) (second : Grows later last) :
    Grows home last :=
  ⟨first.toUnchanged.trans second.toUnchanged,fun h => second.records (first.records h)⟩
theorem isSomeKept {α : Type} {held : Option α} {later : Option α}
    (kept : ∀ v, held = some v → later = some v) (there : held.isSome = true) :
    later.isSome = true := by
  obtain ⟨v,same⟩ := Option.isSome_iff_exists.mp there
  rw [kept v same]
  rfl
omit [Contents B] in
theorem samePath {other : ArtifactWriteInput B}
    (same : s.metadataPath input = s.metadataPath other) :
    s.destination input = s.destination other := by
  unfold ArtifactStore.metadataPath at same
  have chars := congrArg String.toList same
  simp only [String.toList_append,List.append_left_inj] at chars
  exact String.toList_injective chars

theorem Kept.read (legible : Legible s) (kept : Kept s home) {m : ArtifactMetadata}
    (recorded : home.records.lookup (s.metadataPath input) = some m) :
    (∃ text, home.files.lookup (s.metadataPath input) = some text ∧
      s.parseMetadata text = some m) ∧
    (home.files.lookup (s.destination input)).isSome = true := by
  obtain ⟨evidence,now,rfl,path,held,bytes⟩ := kept.recorded _ m recorded
  refine ⟨⟨_,held,legible evidence now⟩,?_⟩
  rw [samePath path,bytes]
  rfl

theorem Kept.agreed (legible : Legible s) (kept : Kept s home) {m : ArtifactMetadata}
    (recorded : home.records.lookup (s.metadataPath input) = some m) (next : ArtifactMetadata → Phase)
    (known : sameRecord m (s.immutableMetadata input 0) = true → Known s home input (next m)) :
    Known s home input (Phase.after next (agreedMetadata s input now home.files)) := by
  obtain ⟨⟨text,held,parsed⟩,_⟩ := kept.read legible recorded
  cases agreed : agreedMetadata s input now home.files with
  | ok read =>
    obtain ⟨⟨text',held',parsed'⟩,same⟩ := agreedOk.mp agreed
    cases held.symm.trans held'
    cases parsed.symm.trans parsed'
    exact known same
  | error =>
    refine fun _ => .inr ⟨m,recorded,Bool.eq_false_iff.mpr fun same => ?_⟩
    rw [agreedOk.mpr ⟨⟨text,held,parsed⟩,same⟩] at agreed
    cases agreed

theorem knownBytes {next : Unit → Phase}
    (there : (home.files.lookup (s.destination input)).isSome = true)
    (known : home.files.lookup (s.destination input) = some input.data →
      Known s home input (next ())) :
    Known s home input (Phase.after next (sameBytes s input home.files)) := by
  cases same : sameBytes s input home.files with
  | ok => exact known (sameBytesOk.mp same)
  | error =>
    obtain ⟨bytes,held⟩ := Option.isSome_iff_exists.mp there
    refine fun _ => .inl ⟨bytes,held,fun equal => ?_⟩
    rw [sameBytesOk.mpr (equal ▸ held)] at same
    cases same

theorem knownAs (home : Home B) {later : Home B} (files : later.files = home.files)
    (records : later.records = home.records) (known : Known s home input phase) : Known s later input phase := by
  cases phase with
  | returned m => exact ⟨files ▸ known.bytes,records ▸ known.record,known.same⟩
  | reading | installing | gone => trivial
  | confirming | comparing | recording | rereading | failed =>
    simp only [Known,Conflicts,files,records]
    exact known

theorem knownLater (grows : Grows home later) (known : Known s home input phase) :
    Known s later input phase := by
  cases phase with
  | reading | installing | gone => trivial
  | confirming prior => exact ⟨grows.records known.1,known.2⟩
  | comparing => exact isSomeKept (fun _ => grows.files) known
  | recording => exact grows.files known
  | rereading => exact ⟨grows.files known.1,isSomeKept (fun _ => grows.records) known.2⟩
  | returned m => exact ⟨grows.files known.bytes,grows.records known.record,known.same⟩
  | failed error =>
    intro safe
    rcases known safe with ⟨bytes,held,other⟩ | ⟨m,held,other⟩
    · exact .inl ⟨bytes,grows.files held,other⟩
    · exact .inr ⟨m,grows.records held,other⟩
theorem Kept.unrecorded {path : String} (kept : Kept s home)
    (fresh : home.files.lookup path = none) : home.records.lookup path = none := by
  cases recorded : home.records.lookup path with
  | none => rfl
  | some m =>
    obtain ⟨_,_,_,_,held,_⟩ := kept.recorded path m recorded
    cases fresh.symm.trans held

theorem Kept.moveGrows (kept : Kept s home) (i : Nat) (w : Writing B) (now : Int) :
    Grows home (home.move s i w now) := by
  refine ⟨moveUnchanged s home i w now,fun held => ?_⟩
  unfold Home.move
  dsimp only
  rcases advanceFiles s home w.evidence.input now w.phase with
    ⟨_,records⟩ | ⟨_,_,_,records⟩ | ⟨_,fresh,_,records⟩
  · rw [records]
    exact held
  · rw [records]
    exact held
  · rw [records]
    exact insertKept (kept.unrecorded fresh) held

theorem Kept.advances (legible : Legible s) (kept : Kept s home) {i : Nat} {w : Writing B}
    (found : home.writings i = some w) (now : Int) :
    Known s (home.move s i w now) w.evidence.input
      (advance s w.evidence.input now w.phase home.files).1 := by
  obtain ⟨⟨input,countable⟩,phase⟩ := w
  have grows := kept.moveGrows i ⟨⟨input,countable⟩,phase⟩ now
  have known := kept.known i _ found
  have clean := kept.clean i _ found
  dsimp only at known clean
  cases phase with
  | reading =>
    refine knownLater grows ?_
    simp only [advance]
    split
    next => trivial
    next text held =>
      obtain ⟨m,recorded⟩ :=
        Option.isSome_iff_exists.mp (clean (by decide) (by rw [held]; rfl))
      exact kept.agreed legible recorded _ fun same => ⟨recorded,same⟩
  | confirming prior =>
    refine knownLater grows ?_
    exact knownBytes (kept.read legible known.1).2 fun bytes => ⟨bytes,known.1,known.2⟩
  | installing =>
    unfold advance Home.move
    cases held : home.files.lookup (s.destination input) with
    | none =>
      simp only [advance,installAbsent held]
      exact AList.lookup_insert _
    | some bytes =>
      simp only [advance,installPresent held]
      exact Option.isSome_iff_exists.mpr ⟨bytes,held⟩
  | comparing =>
    refine knownLater grows ?_
    exact knownBytes known id
  | recording =>
    unfold advance Home.move
    cases held : home.files.lookup (s.metadataPath input) with
    | none =>
      simp only [advance,installAbsent held,noted,held]
      refine ⟨?_,AList.lookup_insert _,recordSame⟩
      exact (AList.lookup_insert_ne pathsDiffer.symm).trans known
    | some text =>
      simp only [advance,installPresent held,noted,held]
      exact ⟨known,clean (by decide) (by rw [held]; rfl)⟩
  | rereading =>
    refine knownLater grows ?_
    obtain ⟨m,recorded⟩ := Option.isSome_iff_exists.mp known.2
    exact kept.agreed legible recorded _ fun same => ⟨known.1,recorded,same⟩
  | returned | failed | gone => exact knownLater grows known

theorem setSource {i j : Nat} {w other : Writing B}
    (found : (Function.update home.writings i (some w)) j = some other) :
    (j = i ∧ other = w) ∨ (j ≠ i ∧ home.writings j = some other) := by
  by_cases same : j = i
  · subst same
    exact .inl ⟨rfl,by simpa [eq_comm] using found⟩
  · exact .inr ⟨same,by simpa [Function.update_of_ne same] using found⟩

theorem movedSource {i j : Nat} {w other : Writing B} (now : Int)
    (known : home.writings i = some w)
    (found : (home.move s i w now).writings j = some other) (live : other.phase.left ≠ 0) :
    ∃ before, home.writings j = some before ∧ before.evidence = other.evidence ∧
      before.phase.left ≠ 0 := by
  rcases setSource found with ⟨rfl,rfl⟩ | ⟨_,found⟩
  · have bound := advanceLeft s w.evidence.input now w.phase home.files
    refine ⟨w,known,rfl,?_⟩
    dsimp only at live
    omega
  · exact ⟨other,found,rfl,live⟩

theorem Kept.moves (legible : Legible s) (kept : Kept s home) {i : Nat} {w : Writing B}
    {now : Instant} (found : home.writings i = some w) (apart : Apart s home (.move i now)) :
    Kept s (home.move s i w now.1) := by
  have grows := kept.moveGrows i w now.1
  constructor
  · intro path m recorded
    have before (old : home.records.lookup path = some m) :
        ∃ (evidence : Evidence B) (now' : Instant), m = s.immutableMetadata evidence.input now'.1 ∧
          path = s.metadataPath evidence.input ∧
          (home.move s i w now.1).files.lookup path = some (s.renderMetadata m) ∧
          (home.move s i w now.1).files.lookup (s.destination evidence.input) =
            some evidence.input.data := by
      obtain ⟨evidence,now',same,own,held,bytes⟩ := kept.recorded path m old
      exact ⟨evidence,now',same,own,grows.files held,grows.files bytes⟩
    rcases advanceFiles s home w.evidence.input now.1 w.phase with
      ⟨_,records⟩ | ⟨_,_,_,records⟩ | ⟨phase,fresh,files,records⟩
    · exact before (records ▸ recorded)
    · exact before (records ▸ recorded)
    · have recorded : (home.records.insert (s.metadataPath w.evidence.input)
          (s.immutableMetadata w.evidence.input now.1)).lookup path = some m := records ▸ recorded
      by_cases own : path = s.metadataPath w.evidence.input
      · subst own
        rw [AList.lookup_insert] at recorded
        cases recorded
        have known := kept.known i w found
        rw [phase] at known
        refine ⟨w.evidence,now,rfl,rfl,?_,grows.files known⟩
        show (advance s w.evidence.input now.1 w.phase home.files).2.lookup _ = _
        rw [files]
        exact AList.lookup_insert _
      · rw [AList.lookup_insert_ne own] at recorded
        exact before recorded
  · intro j other found' live there
    obtain ⟨old,found',same,live⟩ := movedSource now.1 found found' live
    rw [← same] at there ⊢
    have clean := kept.clean j old found' live
    have there : ((advance s w.evidence.input now.1 w.phase home.files).2.lookup
      (s.metadataPath old.evidence.input)).isSome = true := there
    rcases advanceFiles s home w.evidence.input now.1 w.phase with
      ⟨files,_⟩ | ⟨phase,fresh,files,_⟩ | ⟨_,_,files,records⟩
    · rw [files] at there
      exact isSomeKept (fun _ => grows.records) (clean there)
    · rw [files,AList.lookup_insert_ne (apart w found phase fresh j old found' live)] at there
      exact isSomeKept (fun _ => grows.records) (clean there)
    · show ((noted s home w.evidence.input now.1 w.phase).lookup _).isSome = true
      by_cases own : s.metadataPath old.evidence.input = s.metadataPath w.evidence.input
      · rw [records,own,AList.lookup_insert]
        rfl
      · rw [files,AList.lookup_insert_ne own] at there
        rw [records,AList.lookup_insert_ne own]
        exact clean there
  · intro j other found' live
    obtain ⟨old,found',same,live⟩ := movedSource now.1 found found' live
    exact same ▸ kept.safe j old found' live
  · intro j other found'
    rcases setSource found' with ⟨rfl,rfl⟩ | ⟨_,found'⟩
    · exact kept.advances legible found now.1
    · exact knownLater grows (kept.known j other found')

theorem Kept.sets (kept : Kept s home) {i : Nat} {w : Writing B}
    (safe : w.phase.left ≠ 0 → ArtifactStore.Safe w.evidence.input)
    (clean : w.phase.left ≠ 0 →
      (home.files.lookup (s.metadataPath w.evidence.input)).isSome = true →
      (home.records.lookup (s.metadataPath w.evidence.input)).isSome = true)
    (known : Known s home w.evidence.input w.phase) : Kept s (home.setWriting i w) := by
  constructor
  · exact kept.recorded
  · intro j other found
    rcases setSource found with ⟨rfl,rfl⟩ | ⟨_,found⟩
    · exact clean
    · exact kept.clean j other found
  · intro j other found
    rcases setSource found with ⟨rfl,rfl⟩ | ⟨_,found⟩
    · exact safe
    · exact kept.safe j other found
  · intro j other found
    refine knownAs home rfl rfl ?_
    rcases setSource found with ⟨rfl,rfl⟩ | ⟨_,found⟩
    · exact known
    · exact kept.known j other found
theorem Kept.step (legible : Legible s) (kept : Kept s home) {e : Event B}
    (apart : Apart s home e) : Kept s (step s home e) := by
  have calls {calls : Nat → Option Call} {db : ControlCenterDb} :
      Kept s {home with calls := calls, db := db} := by
    refine ⟨kept.recorded,kept.clean,kept.safe,fun i w found => ?_⟩
    exact knownAs home rfl rfl (kept.known i w found)
  cases e with
  | write i evidence =>
    simp only [EvidenceSteps.step]
    split
    next fresh =>
      rcases begunCases evidence.input with ⟨safe,phase⟩ | ⟨unsafe_,error,phase⟩
      · refine kept.sets (fun _ => safe) (fun _ => apart fresh) ?_
        rw [phase]
        trivial
      · rw [phase]
        refine kept.sets (fun live => absurd rfl live) (fun live => absurd rfl live) ?_
        exact fun safe => absurd safe unsafe_
    next => exact kept
  | move i now =>
    simp only [EvidenceSteps.step]
    split
    next => exact kept
    next w found => exact kept.moves legible found apart
  | stop i =>
    simp only [EvidenceSteps.step]
    split
    next => exact kept
    next =>
      split
      next => exact kept
      next => exact kept.sets (fun live => absurd rfl live) (fun live => absurd rfl live) trivial
  | addArtifact j m input =>
    simp only [EvidenceSteps.step]
    split
    · exact calls
    · exact kept
  | answer j =>
    simp only [EvidenceSteps.step]
    split
    · exact kept
    · exact calls
  | hangUp j =>
    simp only [EvidenceSteps.step]
    split
    · exact kept
    · split
      · exact kept
      · exact calls
theorem stepGrows (kept : Kept s home) (e : Event B) : Grows home (step s home e) := by
  refine ⟨stepUnchanged home e,?_⟩
  cases e with
  | move i now =>
    simp only [step]
    split
    next => exact id
    next w _ => exact (kept.moveGrows i w now.1).records
  | write | stop | addArtifact | answer | hangUp =>
    simp only [step]
    repeat' split
    all_goals exact id
end

def Repeats (row : ArtifactRow) (input : ArtifactInput) : Prop :=
  sha256Text input.artifact.sha256 = true ∧
    (ZodSchema.safeInteger input.artifact.sizeBytes && decide (0 ≤ input.artifact.sizeBytes)) = true ∧
    ∃ metadata, artifactError input.metadata = .ok metadata ∧
      sameArtifact row input.artifact metadata = true

def CallKnown (row : ArtifactRow) (input : ArtifactInput) : CallPhase → Prop
  | .inserting | .gone => True
  | .selecting metadata => sha256Text input.artifact.sha256 = true ∧
      (ZodSchema.safeInteger input.artifact.sizeBytes &&
        decide (0 ≤ input.artifact.sizeBytes)) = true ∧
      artifactError input.metadata = .ok metadata
  | .returned row' => row' = row ∧ Repeats row input
  | .failed _ => ¬Repeats row input

section
variable {B : Type} [Contents B] {s : ArtifactStore B} {home later : Home B} {row : ArtifactRow}

theorem insertRecorded {m : Moment} {input : ArtifactInput} {metadata : Option Json}
    {db : ControlCenterDb} (digest : sha256Text input.artifact.sha256 = true)
    (sized : (ZodSchema.safeInteger input.artifact.sizeBytes &&
      decide (0 ≤ input.artifact.sizeBytes)) = true)
    (read : artifactError input.metadata = .ok metadata)
    (recorded : recordedArtifact input.artifact db = some row) :
    insertArtifact m input db = .ok (metadata,db) := by
  unfold insertArtifact
  rw [digest,sized,read]
  simp [bind,Except.bind,recorded]

theorem selectRecorded {input : ArtifactMetadata} {db : ControlCenterDb}
    (recorded : recordedArtifact input db = some row) (metadata : Option Json) :
    (sameArtifact row input metadata = true ∧ selectArtifact input metadata db = .ok row) ∨
    (sameArtifact row input metadata = false ∧
      ∃ error, selectArtifact input metadata db = .error error) := by
  unfold selectArtifact
  rw [recorded]
  cases same : sameArtifact row input metadata with
  | true => exact .inl ⟨rfl,if_pos same⟩
  | false => exact .inr ⟨rfl,_,if_neg (Bool.eq_false_iff.mp same)⟩

theorem advanceRecorded (c : Call) {db : ControlCenterDb}
    (recorded : recordedArtifact c.input.artifact db = some row)
    (known : CallKnown row c.input c.phase) :
    CallKnown row c.input (c.advance db).1 ∧ (c.advance db).2 = db := by
  obtain ⟨m,input,phase⟩ := c
  cases phase with
  | inserting =>
    simp only [Call.advance]
    cases inserted : insertArtifact m input db with
    | ok value =>
      obtain ⟨metadata,after⟩ := value
      obtain ⟨read,digest,sized,⟨same,_⟩ | ⟨absent,_⟩⟩ := insertedRows inserted
      · exact ⟨⟨digest,sized,read⟩,same⟩
      · cases absent.symm.trans recorded
    | error error =>
      refine ⟨?_,rfl⟩
      rintro ⟨digest,sized,metadata,read,_⟩
      rw [insertRecorded digest sized read recorded] at inserted
      cases inserted
  | selecting metadata =>
    obtain ⟨digest,sized,read⟩ := known
    simp only [Call.advance]
    rcases selectRecorded recorded metadata with ⟨same,selected⟩ | ⟨differs,error,selected⟩
    · rw [selected]
      exact ⟨⟨rfl,digest,sized,metadata,read,same⟩,rfl⟩
    · rw [selected]
      refine ⟨?_,rfl⟩
      rintro ⟨_,_,metadata',read',same⟩
      cases read.symm.trans read'
      exact Bool.false_ne_true (differs.symm.trans same)
  | returned | failed | gone => exact ⟨known,rfl⟩
theorem stepCall (s : ArtifactStore B) (home : Home B) {j : Nat} {c : Call}
    (found : home.calls j = some c) (e : Event B) :
    ∃ phase, (step s home e).calls j = some {c with phase} ∧
      phase.left ≤ c.phase.left - [e].countP (answers j) ∧
      ∀ row, recordedArtifact c.input.artifact home.db = some row →
        CallKnown row c.input c.phase → CallKnown row c.input phase := by
  have stays : ∃ phase, home.calls j = some {c with phase} ∧ phase.left ≤ c.phase.left - 0 ∧
      ∀ row, recordedArtifact c.input.artifact home.db = some row →
        CallKnown row c.input c.phase → CallKnown row c.input phase :=
    ⟨c.phase,found,Nat.le_refl _,fun _ _ known => known⟩
  have others {k : Nat} {other : Call} (different : j ≠ k) :
      Function.update home.calls k (some other) j = some c :=
    (Function.update_of_ne different ..).trans found
  cases e with
  | write i evidence =>
    simp only [step]
    split <;> exact stays
  | move i now =>
    simp only [step]
    split <;> exact stays
  | stop i =>
    simp only [step]
    split
    · exact stays
    · split <;> exact stays
  | addArtifact k m input =>
    simp only [step]
    split
    next fresh =>
      have other : j ≠ k := by
        rintro rfl
        cases fresh.symm.trans found
      exact ⟨c.phase,others other,Nat.le_refl _,fun _ _ known => known⟩
    next => exact stays
  | answer k =>
    simp only [step]
    by_cases same : k = j
    · subst same
      rw [found]
      refine ⟨_,Function.update_self ..,?_,fun row recorded known => ?_⟩
      · simpa [answers] using callLeft c home.db
      · exact (advanceRecorded c recorded known).1
    · have idle : [(Event.answer k : Event B)].countP (answers j) = 0 := by simp [answers,same]
      rw [idle]
      split
      next => exact stays
      next => exact ⟨c.phase,others (Ne.symm same),Nat.le_refl _,fun _ _ known => known⟩
  | hangUp k =>
    simp only [step]
    split
    next => exact stays
    next other found' =>
      split
      next => exact stays
      next =>
        by_cases same : j = k
        · subst same
          cases found.symm.trans found'
          exact ⟨.gone,Function.update_self ..,Nat.zero_le _,fun _ _ _ => trivial⟩
        · exact ⟨c.phase,others same,Nat.le_refl _,fun _ _ known => known⟩

theorem reachCall (s : ArtifactStore B) (home : Home B) {j : Nat} {c : Call}
    (found : home.calls j = some c) (events : List (Event B)) :
    ∃ phase, (reach (step s) home events).calls j = some {c with phase} ∧
      phase.left ≤ c.phase.left - events.countP (answers j) ∧
      ∀ row, recordedArtifact c.input.artifact home.db = some row →
        CallKnown row c.input c.phase → CallKnown row c.input phase := by
  induction events generalizing home c with
  | nil => exact ⟨c.phase,found,Nat.le_refl _,fun _ _ known => known⟩
  | cons e rest ih =>
    obtain ⟨phase,found,first,knows⟩ := stepCall s home found e
    obtain ⟨last,found,second,knows'⟩ := ih (step s home e) found
    refine ⟨last,found,?_,fun row recorded known => ?_⟩
    · have parts : (e::rest).countP (answers j) =
          [e].countP (answers j) + rest.countP (answers j) := by
        rw [List.countP_cons,List.countP_cons,List.countP_nil]
        omega
      dsimp only at second
      omega
    · exact knows' row ((stepUnchanged home e).rows recorded) (knows row recorded known)

end

def Resolved {B : Type} [Contents B] (s : ArtifactStore B) (later : Home B) (input : ArtifactWriteInput B) : Phase → Prop
  | .returned m => Written s later input m
  | .failed _ => Conflicts s later input
  | _ => True

/-- From one state of a run to a later one: nothing that is installed or recorded changes;
a write under way ends within its own steps, with the record that is installed or, where
bytes or record conflict, with an error; and a call whose row is there returns it or,
where the row conflicts, fails. Conflicting ones change nothing. -/
structure Immutable {B : Type} [Contents B] (s : ArtifactStore B) (home : Home B) (events : List (Event B)) : Prop where
  grows : Grows home (reach (step s) home events)
  resolved : ∀ i w, home.writings i = some w → w.phase.left ≠ 0 →
    ∃ phase, (reach (step s) home events).writings i = some ⟨w.evidence,phase⟩ ∧
      Resolved s (reach (step s) home events) w.evidence.input phase ∧
      (5 ≤ events.countP (moves i) → phase.left = 0)
  retried : ∀ i w m phase, home.writings i = some w → w.phase.left ≠ 0 →
    Written s home w.evidence.input m →
    (reach (step s) home events).writings i = some ⟨w.evidence,phase⟩ → phase.left = 0 →
    phase = .returned m ∨ phase = .gone
  conflicting : ∀ i w now, home.writings i = some w → Conflicts s home w.evidence.input →
    (home.move s i w now).files = home.files ∧ (home.move s i w now).records = home.records ∧
    ∀ m, (reach (step s) home events).writings i ≠ some ⟨w.evidence,.returned m⟩
  called : ∀ j c row, home.calls j = some c → c.phase = .inserting →
    recordedArtifact c.input.artifact home.db = some row →
    (home.answer j c).db = home.db ∧
    ∃ phase, (reach (step s) home events).calls j = some {c with phase} ∧
      CallKnown row c.input phase ∧ (2 ≤ events.countP (answers j) → phase.left = 0)

section
variable {B : Type} [Contents B] {s : ArtifactStore B} {home : Home B} {input : ArtifactWriteInput B}

theorem writtenAgrees {m : ArtifactMetadata} (written : Written s home input m) :
    ¬Conflicts s home input := by
  rintro (⟨bytes,held,other⟩ | ⟨m',recorded,other⟩)
  · cases written.bytes.symm.trans held
    exact other rfl
  · cases written.record.symm.trans recorded
    exact Bool.false_ne_true (other.symm.trans written.same)

theorem Conflicts.later {later : Home B} (grows : Grows home later)
    (conflicts : Conflicts s home input) : Conflicts s later input := by
  rcases conflicts with ⟨bytes,held,other⟩ | ⟨m,recorded,other⟩
  · exact .inl ⟨bytes,grows.files held,other⟩
  · exact .inr ⟨m,grows.records recorded,other⟩

theorem Written.later {later : Home B} {m : ArtifactMetadata} (grows : Grows home later)
    (written : Written s home input m) : Written s later input m :=
  ⟨grows.files written.bytes,grows.records written.record,written.same⟩

theorem Kept.conflicting (legible : Legible s) (kept : Kept s home) {i : Nat} {w : Writing B}
    (found : home.writings i = some w) (conflicts : Conflicts s home w.evidence.input) (now : Int) :
    (home.move s i w now).files = home.files ∧ (home.move s i w now).records = home.records := by
  rcases advanceFiles s home w.evidence.input now w.phase with
    same | ⟨_,fresh,_,_⟩ | ⟨phase,fresh,_,_⟩
  · exact same
  · exfalso
    rcases conflicts with ⟨bytes,held,_⟩ | ⟨m,recorded,_⟩
    · cases fresh.symm.trans held
    · have there := (kept.read legible recorded).2
      rw [fresh] at there
      cases there
  · exfalso
    have known := kept.known i w found
    rw [phase] at known
    rcases conflicts with ⟨bytes,held,other⟩ | ⟨m,recorded,_⟩
    · cases held.symm.trans known
      exact other rfl
    · cases (kept.unrecorded fresh).symm.trans recorded

theorem immutableFrom (legible : Legible s) (kept : Kept s home) {events : List (Event B)}
    (apart : ∀ front e back, events = front ++ e::back →
      Apart s (reach (step s) home front) e) : Immutable s home events := by
  obtain ⟨keptLater,grows⟩ : Kept s (reach (step s) home events) ∧
      Grows home (reach (step s) home events) :=
    reachMet (step s) (I := fun later => Kept s later ∧ Grows home later)
      (fun _ e known met => ⟨known.1.step legible met,known.2.trans (stepGrows known.1 e)⟩)
      ⟨kept,⟨id,id⟩,id⟩ apart events [] (List.append_nil events).symm
  have resolved (i : Nat) (w : Writing B) (phase : Phase) (found : home.writings i = some w)
      (live : w.phase.left ≠ 0)
      (last : (reach (step s) home events).writings i = some ⟨w.evidence,phase⟩) :
      Resolved s (reach (step s) home events) w.evidence.input phase := by
    have known := keptLater.known i _ last
    cases phase with
    | returned m => exact known
    | failed error => exact known (kept.safe i w found live)
    | _ => trivial
  refine ⟨grows,?_,?_,?_,?_⟩
  · intro i w found live
    obtain ⟨phase,last,left⟩ := reachWriting (s := s) home found events
    refine ⟨phase,last,resolved i w phase found live last,fun moved => ?_⟩
    have most : w.phase.left ≤ 5 := by cases w.phase <;> simp [Phase.left]
    omega
  · intro i w m phase found live written last settled
    have outcome := resolved i w phase found live last
    have written := written.later grows
    cases phase with
    | returned m' =>
      cases written.record.symm.trans outcome.record
      exact .inl rfl
    | failed error => exact absurd outcome (writtenAgrees written)
    | gone => exact .inr rfl
    | reading | confirming | installing | comparing | recording | rereading => cases settled
  · intro i w now found conflicts
    obtain ⟨files,records⟩ := kept.conflicting legible found conflicts now
    refine ⟨files,records,fun m last => ?_⟩
    have written := keptLater.known i _ last
    exact writtenAgrees written (conflicts.later grows)
  · intro j c row found phase recorded
    have known : CallKnown row c.input c.phase := by
      rw [phase]
      trivial
    obtain ⟨last,final,left,knows⟩ := reachCall s home found events
    refine ⟨(advanceRecorded c recorded known).2,last,final,knows row recorded known,fun n => ?_⟩
    rw [phase] at left
    have two : CallPhase.inserting.left = 2 := rfl
    omega

theorem keptNew (db : ControlCenterDb) : Kept s (.new db) :=
  ⟨fun _ _ recorded => (nomatch recorded),fun _ _ found => (nomatch found),
    fun _ _ found => (nomatch found),fun _ _ found => (nomatch found)⟩

theorem legibleRecords {t : ArtifactRecords.Texts B} (lawful : t.Lawful) {sha256Hex : B → String}
    (digests : ∀ text, sha256Text (sha256Hex text) = true) (realHome realRoot : String) :
    Legible (ArtifactRecords.artifactStore t realHome realRoot sha256Hex) := fun evidence now =>
  ArtifactRecords.metadataRead lawful
    ⟨digests evidence.input.data,evidence.countable,Int.natCast_nonneg _,now.2⟩

structure Alike (s : ArtifactStore B) (evidence : Evidence B) (home : Home B) : Prop where
  writes : ∀ i w, home.writings i = some w → w.evidence = evidence
  clean : (home.files.lookup (s.metadataPath evidence.input)).isSome = true →
    (home.records.lookup (s.metadataPath evidence.input)).isSome = true

theorem Alike.sets {evidence : Evidence B} (alike : Alike s evidence home) {i : Nat} {w : Writing B}
    (own : w.evidence = evidence) : Alike s evidence (home.setWriting i w) := by
  refine ⟨fun j other found => ?_,alike.clean⟩
  rcases setSource found with ⟨_,rfl⟩ | ⟨_,found⟩
  · exact own
  · exact alike.writes j other found

theorem Alike.moves {evidence : Evidence B} (alike : Alike s evidence home) {i : Nat} {w : Writing B}
    (found : home.writings i = some w) (now : Int) : Alike s evidence (home.move s i w now) := by
  have own := alike.writes i w found
  constructor
  · intro j other found'
    rcases setSource found' with ⟨_,rfl⟩ | ⟨_,found'⟩
    · exact own
    · exact alike.writes j other found'
  · show ((advance s w.evidence.input now w.phase home.files).2.lookup _).isSome = true →
      ((noted s home w.evidence.input now w.phase).lookup _).isSome = true
    rw [own]
    rcases advanceFiles s home evidence.input now w.phase with
      ⟨files,records⟩ | ⟨_,_,files,records⟩ | ⟨_,_,files,records⟩
    · rw [files,records]
      exact alike.clean
    · rw [files,records,AList.lookup_insert_ne pathsDiffer]
      exact alike.clean
    · rw [records,AList.lookup_insert]
      exact fun _ => rfl

theorem Alike.step {evidence : Evidence B} (alike : Alike s evidence home) (e : Event B)
    (same : ∀ i other, e = .write i other → other = evidence) :
    Alike s evidence (step s home e) := by
  cases e with
  | write i other =>
    simp only [EvidenceSteps.step]
    split
    next => exact alike.sets (same i other rfl)
    next => exact alike
  | move i now =>
    simp only [EvidenceSteps.step]
    split
    next => exact alike
    next w found => exact alike.moves found now.1
  | stop i =>
    simp only [EvidenceSteps.step]
    split
    next => exact alike
    next w found =>
      split
      next => exact alike
      next => exact alike.sets (alike.writes i w found)
  | addArtifact | answer | hangUp =>
    simp only [EvidenceSteps.step]
    repeat' split
    all_goals exact ⟨alike.writes,alike.clean⟩

theorem retriesApart (evidence : Evidence B) (db : ControlCenterDb) {events : List (Event B)}
    (alike : ∀ i other, (Event.write i other : Event B) ∈ events → other = evidence) :
    ∀ front e back, events = front ++ e::back → Apart s (reach (step s) (.new db) front) e := by
  have own (front : List (Event B)) (e : Event B) (back : List (Event B)) (split : events = front ++ e::back)
      (i : Nat) (other : Evidence B) (same : e = .write i other) : other = evidence :=
    alike i other (by rw [split,same]; simp)
  intro front e back split
  have met : Alike s evidence (reach (step s) (.new db) front) :=
    reachMet (step s) (fun _ e known same => known.step e same)
      ⟨fun _ _ found => (nomatch found),fun there => (nomatch there)⟩ own front (e::back) split
  cases e with
  | write i other =>
    intro _ there
    cases own front _ back split i other rfl
    exact met.clean there
  | move i now =>
    intro w found _ _ j other found' _
    rw [met.writes i w found,met.writes j other found']
    exact pathsDiffer
  | stop | addArtifact | answer | hangUp => trivial

/-- What an artifact's path and sidecar hold, and what the database says of a run and a path,
never changes; and in a run whose artifacts keep apart whatever is written again comes back. -/
theorem artifactsImmutable {t : ArtifactRecords.Texts B} (lawful : t.Lawful)
    {sha256Hex : B → String} (digests : ∀ text, sha256Text (sha256Hex text) = true)
    (realHome realRoot : String) (db : ControlCenterDb) (front back : List (Event B)) :
    let s := ArtifactRecords.artifactStore t realHome realRoot sha256Hex
    Unchanged (reach (step s) (.new db) front) (reach (step s) (.new db) (front ++ back)) ∧
    ((∀ before e after, front ++ back = before ++ e::after →
        Apart s (reach (step s) (.new db) before) e) →
      Immutable s (reach (step s) (.new db) front) back) := by
  intro s
  have legible : Legible s := legibleRecords lawful digests realHome realRoot
  refine ⟨?_,fun apart => ?_⟩
  · rw [reachAppend]
    exact reachUnchanged _ back
  · have kept : Kept s (reach (step s) (.new db) front) :=
      reachMet (step s) (fun _ _ known met => known.step legible met) (keptNew db) apart front back
        rfl
    refine immutableFrom legible kept fun mid e after split => ?_
    rw [← reachAppend]
    exact apart (front ++ mid) e after (by rw [split,List.append_assoc])

end

def noteDigest (text : String) : String :=
  if text = "hi" then "8f434346648f6b96df89dda901c5176b10a6d83961dd3c1ac88b59b2dc327aa4"
  else "2d711642b726b04401627ca9fbac32f5c8530fb1903cc4db02258717921a4881"

theorem noteDigests (text : String) : sha256Text (noteDigest text) = true := by
  unfold noteDigest
  split <;> decide

def note : Evidence := ⟨⟨"task_1","run_1",.result,"note.txt","hi"⟩,by decide⟩

def shadow : Evidence := ⟨⟨"task_1","run_1",.result,"note.txt.metadata.json","x"⟩,by decide⟩

def epoch : Instant := ⟨0,by decide⟩

def store : ArtifactStore :=
  ArtifactRecords.artifactStore ArtifactRecords.recordTexts "/home/.acc" "/home/.acc/artifacts"
    noteDigest

def crashed : List Event := [.write 0 note,.move 0 epoch,.move 0 epoch,.stop 0]

def retry (i : Nat) : List Event := .write i note::List.replicate 5 (.move i epoch)

theorem artifactsImmutableRetry :
    Unchanged (reach (step store) (.new .empty) crashed)
      (reach (step store) (.new .empty) (crashed ++ retry 1)) ∧
    Immutable store (reach (step store) (.new .empty) crashed) (retry 1) := by
  have immutable := artifactsImmutable ArtifactRecords.recordTextsLawful noteDigests "/home/.acc"
    "/home/.acc/artifacts" .empty crashed (retry 1)
  refine ⟨immutable.1,immutable.2 ?_⟩
  refine retriesApart note .empty fun i other listed => ?_
  simp [crashed,retry] at listed
  rcases listed with listed | listed <;> exact listed.2

def collided : List Event :=
  crashed ++ [.write 1 shadow,.move 1 epoch,.move 1 epoch] ++ retry 2

theorem retryFails : ArtifactStore.Safe note.input ∧
    (let home := reach (step store) (.new .empty) collided
     home.files.lookup (store.destination note.input) = some note.input.data ∧
     ¬Conflicts store home note.input ∧
     ((home.writings 2).map fun w => match w.phase with
      | .failed _ => true
      | _ => false) = some true) := by
  have ends : (let home := reach (step store) (.new .empty) collided
     home.files.lookup (store.destination note.input) = some note.input.data ∧
     home.records.lookup (store.metadataPath note.input) = none ∧
     ((home.writings 2).map fun w => match w.phase with
      | .failed _ => true
      | _ => false) = some true) := by
    decide +kernel
  obtain ⟨bytes,unrecorded,fails⟩ := ends
  refine ⟨⟨by decide +kernel,by decide +kernel,by decide +kernel⟩,bytes,?_,fails⟩
  rintro (⟨bytes',held,other⟩ | ⟨m,recorded,_⟩)
  · cases bytes.symm.trans held
    exact other rfl
  · cases unrecorded.symm.trans recorded

end ControlCenter.ImmutableEvidence
