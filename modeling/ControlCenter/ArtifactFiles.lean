import ControlCenter.DbReviews
import Mathlib.Data.List.AList

/-! The artifact store: evidence files under the home directory, each with a record of it
beside it. A path that holds a file is never written again. -/
namespace ControlCenter.ArtifactFiles
open AccpEnvelope Protocol Db DbReviews

class Contents (B : Type) where
  equals : DecidableEq B
  byteLength : B → Nat

instance {B : Type} [Contents B] : DecidableEq B := Contents.equals

instance : Contents String := ⟨inferInstance,String.utf8ByteSize⟩

instance : Contents (List UInt8) := ⟨inferInstance,List.length⟩

abbrev Files (B : Type := String) := AList fun _ : String => B

structure ArtifactWriteInput (B : Type := String) where
  taskId : String
  runId : String
  kind : ArtifactKind
  name : String
  data : B

structure ArtifactStore (B : Type := String) where
  realHome : String
  realRoot : String
  sha256Hex : B → String
  -- How a record is written, and the record a file holds, if it holds a valid one.
  renderMetadata : ArtifactMetadata → B
  parseMetadata : B → Option ArtifactMetadata

def letterOrDigit (c : Char) : Bool := c.isAlpha || c.isDigit

-- /^[A-Za-z0-9][A-Za-z0-9._-]{0,159}$/, which neither "." nor ".." matches.
def safeSegment (value : String) : Bool := match value.toList with
  | [] => false
  | first::rest => letterOrDigit first && decide (rest.length ≤ 159) &&
      rest.all fun c => letterOrDigit c || ['.','_','-'].contains c

def assertSafePathSegment (value label : String) : Outcome Unit :=
  if safeSegment value then .ok ()
  else .error s!"{label} must contain only letters, numbers, dot, underscore, or dash"

def bytesConflict (destination : String) : String :=
  s!"Artifact bytes must be identical for immutable path: {destination}"

section
variable {B : Type} [Contents B]

def readRegularFile (path : String) (files : Files B) : Outcome B :=
  found s!"ENOENT: no such file or directory, open '{path}'" (files.lookup path)

def installExclusiveFile (destination : String) (data : B) (files : Files B) : Bool × Files B :=
  match files.lookup destination with
  | some _ => (false,files)
  | none => (true,files.insert destination data)

def atomicWriteFile (destination : String) (data : B) (files : Files B) : Outcome (Files B) :=
  match installExclusiveFile destination data files with
  | (true,files) => .ok files
  | (false,files) => do
      let existing ← readRegularFile destination files
      if existing = data then .ok files else .error (bytesConflict destination)

def sameRecord (actual expected : ArtifactMetadata) : Bool :=
  actual.taskId == expected.taskId && actual.runId == expected.runId &&
    actual.kind == expected.kind && actual.name == expected.name &&
    actual.path == expected.path && actual.relativePath == expected.relativePath &&
    actual.metadataPath == expected.metadataPath && actual.sha256 == expected.sha256 &&
    actual.sizeBytes == expected.sizeBytes

def assertMetadataMatches (actual expected : ArtifactMetadata) : Outcome Unit :=
  if sameRecord actual expected then .ok ()
  else .error s!"Artifact metadata must be identical for immutable path: {expected.path}"

namespace ArtifactStore
variable (s : ArtifactStore B) (input : ArtifactWriteInput B)

def destination : String := s!"{s.realRoot}/{input.taskId}/{input.runId}/{input.name}"

def metadataPath : String := s.destination input ++ ".metadata.json"

-- path.relative(realHome, destination), for a root in the home.
def relativePath : String :=
  String.ofList ((s.destination input).toList.drop (s.realHome.length + 1))

def immutableMetadata (createdAt : Int) : ArtifactMetadata :=
  ⟨input.taskId,input.runId,input.kind,input.name,s.destination input,s.relativePath input,
    s.metadataPath input,s.sha256Hex input.data,Contents.byteLength input.data,createdAt⟩

def readStoredMetadata (path : String) (files : Files B) : Outcome ArtifactMetadata := do
  let text ← readRegularFile path files
  found s!"Artifact metadata must contain a valid immutable evidence record: {path}"
    (s.parseMetadata text)

def confirm (now : Int) (files : Files B) : Outcome (ArtifactMetadata × Files B) := do
  let prior ← s.readStoredMetadata (s.metadataPath input) files
  assertMetadataMatches prior (s.immutableMetadata input now)
  let existing ← readRegularFile (s.destination input) files
  if existing = input.data then .ok (prior,files)
  else .error (bytesConflict (s.destination input))

def install (now : Int) (files : Files B) : Outcome (ArtifactMetadata × Files B) := do
  let expected := s.immutableMetadata input now
  let files ← atomicWriteFile (s.destination input) input.data files
  match installExclusiveFile (s.metadataPath input) (s.renderMetadata expected) files with
  | (true,files) => .ok (expected,files)
  | (false,files) => do
      let winner ← s.readStoredMetadata (s.metadataPath input) files
      assertMetadataMatches winner expected
      .ok (winner,files)

def write (now : Int) (files : Files B) : Outcome (ArtifactMetadata × Files B) := do
  assertSafePathSegment input.taskId "taskId"
  assertSafePathSegment input.runId "runId"
  assertSafePathSegment input.name "artifact name"
  match files.lookup (s.metadataPath input) with
  | some _ => s.confirm input now files
  | none => s.install input now files

def Safe : Prop := safeSegment input.taskId = true ∧ safeSegment input.runId = true ∧
  safeSegment input.name = true

def Agrees (now : Int) (files : Files B) : Prop := match files.lookup (s.metadataPath input) with
  | some text => (∃ prior, s.parseMetadata text = some prior ∧
      sameRecord prior (s.immutableMetadata input now) = true) ∧
      files.lookup (s.destination input) = some input.data
  | none => ∀ existing, files.lookup (s.destination input) = some existing → existing = input.data

end ArtifactStore

variable {s : ArtifactStore B} {input : ArtifactWriteInput B} {now : Int} {files : Files B}

omit [Contents B] in
theorem pathsDiffer : s.metadataPath input ≠ s.destination input := by
  intro same
  have lengths := congrArg String.length same
  unfold ArtifactStore.metadataPath at lengths
  rw [String.length_append] at lengths
  have suffix : (".metadata.json" : String).length = 14 := by decide
  omega

theorem exceptOk {ε α β : Type} {x : Except ε α} {f : α → Except ε β} :
    (x >>= f).isOk = true ↔ ∃ a, x = .ok a ∧ (f a).isOk = true := by
  cases x with
  | error e => exact iff_of_false Bool.false_ne_true fun ⟨_,same,_⟩ => nomatch same
  | ok a => exact ⟨fun h => ⟨a,rfl,h⟩,fun ⟨_,same,h⟩ => Except.ok.inj same ▸ h⟩

theorem checkedOk {ε β : Type} {x : Except ε Unit} {y : Except ε β} :
    (x >>= fun _ => y).isOk = true ↔ x = .ok () ∧ y.isOk = true := by
  rw [exceptOk]
  exact ⟨fun ⟨_,same,h⟩ => ⟨same,h⟩,fun ⟨same,h⟩ => ⟨(),same,h⟩⟩

theorem segmentOk {value label : String} :
    assertSafePathSegment value label = .ok () ↔ safeSegment value = true := by
  unfold assertSafePathSegment
  split
  · exact iff_of_true rfl ‹_›
  · exact iff_of_false (fun same => nomatch same) ‹_›

theorem matchesOk {actual expected : ArtifactMetadata} :
    assertMetadataMatches actual expected = .ok () ↔ sameRecord actual expected = true := by
  unfold assertMetadataMatches
  split
  · exact iff_of_true rfl ‹_›
  · exact iff_of_false (fun same => nomatch same) ‹_›

theorem foundOk {α : Type} {error : String} {held : Option α} {a : α} :
    found error held = .ok a ↔ held = some a := by
  cases held with
  | none => exact iff_of_false (fun same => nomatch same) fun same => nomatch same
  | some b => exact ⟨fun same => congrArg some (Except.ok.inj same),fun same => by cases same; rfl⟩

omit [Contents B] in
theorem readOk {path : String} {text : B} :
    readRegularFile path files = .ok text ↔ files.lookup path = some text := foundOk

omit [Contents B] in
theorem storedOk {path : String} {prior : ArtifactMetadata} :
    s.readStoredMetadata path files = .ok prior ↔
      ∃ text, files.lookup path = some text ∧ s.parseMetadata text = some prior := by
  unfold ArtifactStore.readStoredMetadata
  constructor
  · intro stored
    obtain ⟨text,read,parsed⟩ := AccpEnvelope.exceptBind stored
    exact ⟨text,readOk.mp read,foundOk.mp parsed⟩
  · rintro ⟨text,held,parsed⟩
    rw [readOk.mpr held]
    exact foundOk.mpr parsed

theorem confirmReturns {text : B} (recorded : files.lookup (s.metadataPath input) = some text) :
    (s.confirm input now files).isOk = true ↔ (∃ prior, s.parseMetadata text = some prior ∧
      sameRecord prior (s.immutableMetadata input now) = true) ∧
      files.lookup (s.destination input) = some input.data := by
  unfold ArtifactStore.confirm
  simp only [exceptOk,storedOk,readOk]
  constructor
  · rintro ⟨prior,⟨text',held,parsed⟩,_,matched,existing,read,same⟩
    rw [recorded] at held
    cases held
    split at same
    · rename_i equal
      exact ⟨⟨prior,parsed,matchesOk.mp matched⟩,by rw [read,equal]⟩
    · exact absurd same Bool.false_ne_true
  · rintro ⟨⟨prior,parsed,matched⟩,read⟩
    exact ⟨prior,⟨text,recorded,parsed⟩,(),matchesOk.mpr matched,input.data,read,
      by rw [if_pos rfl]; rfl⟩

omit [Contents B] in
theorem installAbsent {path : String} {data : B} (none : files.lookup path = none) :
    installExclusiveFile path data files = (true,files.insert path data) := by
  unfold installExclusiveFile
  rw [none]

omit [Contents B] in
theorem installPresent {path : String} {data held : B} (present : files.lookup path = some held) :
    installExclusiveFile path data files = (false,files) := by
  unfold installExclusiveFile
  rw [present]

theorem writeAbsent {path : String} {data : B} (none : files.lookup path = none) :
    atomicWriteFile path data files = .ok (files.insert path data) := by
  unfold atomicWriteFile
  rw [installAbsent none]

theorem writePresent {path : String} {held : B} (data : B) (present : files.lookup path = some held) :
    atomicWriteFile path data files =
      if held = data then .ok files else .error (bytesConflict path) := by
  unfold atomicWriteFile
  rw [installPresent present]
  dsimp only
  rw [readOk.mpr present]
  rfl

theorem installReturnsFresh {after : Files B} (written : atomicWriteFile (s.destination input)
    input.data files = .ok after) (unrecorded : after.lookup (s.metadataPath input) = none) :
    (s.install input now files).isOk = true := by
  unfold ArtifactStore.install
  dsimp only
  rw [exceptOk]
  refine ⟨after,written,?_⟩
  rw [installAbsent unrecorded]
  rfl

theorem installReturns (unrecorded : files.lookup (s.metadataPath input) = none) :
    (s.install input now files).isOk = true ↔
      ∀ existing, files.lookup (s.destination input) = some existing → existing = input.data := by
  cases held : files.lookup (s.destination input) with
  | none =>
    refine iff_of_true (installReturnsFresh (writeAbsent held) ?_) fun existing same => nomatch same
    rw [AList.lookup_insert_ne pathsDiffer]
    exact unrecorded
  | some existing =>
    have written := writePresent input.data held
    by_cases same : existing = input.data
    · rw [if_pos same] at written
      exact iff_of_true (installReturnsFresh written unrecorded) fun other equal =>
        (Option.some.inj equal).symm.trans same
    · rw [if_neg same] at written
      refine iff_of_false ?_ fun all => same (all existing rfl)
      unfold ArtifactStore.install
      dsimp only
      rw [written]
      exact Bool.false_ne_true

/-- A write of a safe path is refused exactly when the path holds other evidence. -/
theorem writeReturns : (s.write input now files).isOk = true ↔
    ArtifactStore.Safe input ∧ s.Agrees input now files := by
  unfold ArtifactStore.write ArtifactStore.Safe ArtifactStore.Agrees
  simp only [checkedOk,segmentOk,and_assoc]
  cases recorded : files.lookup (s.metadataPath input) with
  | none => rw [installReturns recorded]
  | some text => rw [confirmReturns recorded]

theorem recordSame {a : ArtifactMetadata} : sameRecord a a = true := by
  simp [sameRecord]

theorem writeRecord {artifact : ArtifactMetadata} {after : Files B}
    (written : s.write input now files = .ok (artifact,after)) :
    sameRecord artifact (s.immutableMetadata input now) = true := by
  unfold ArtifactStore.write at written
  obtain ⟨_,_,written⟩ := exceptBind written
  obtain ⟨_,_,written⟩ := exceptBind written
  obtain ⟨_,_,written⟩ := exceptBind written
  split at written
  · obtain ⟨prior,_,written⟩ := exceptBind written
    obtain ⟨_,matched,written⟩ := exceptBind written
    obtain ⟨existing,_,written⟩ := exceptBind written
    split at written
    · cases Except.ok.inj written
      exact matchesOk.mp matched
    · cases written
  · obtain ⟨held,_,written⟩ := exceptBind written
    split at written
    · cases Except.ok.inj written
      exact recordSame
    · obtain ⟨winner,_,written⟩ := exceptBind written
      obtain ⟨_,matched,written⟩ := exceptBind written
      cases Except.ok.inj written
      exact matchesOk.mp matched

end

end ControlCenter.ArtifactFiles
