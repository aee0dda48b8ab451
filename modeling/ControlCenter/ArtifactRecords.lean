import ControlCenter.ArtifactFiles
import Mathlib.Logic.Encodable.Basic
import Mathlib.Logic.Equiv.List

/-! The record beside an artifact's file as a JSON text: how it is written and which texts
are read as one, whatever JSON and dates are exactly. -/
namespace ControlCenter.ArtifactRecords
open JsonValue Protocol DbReviews ArtifactFiles

-- What JSON.stringify and JSON.parse, to and from the bytes of a file, Date.toISOString and
-- Date.parse do.
structure Texts (B : Type := String) where
  stringify : Json → B
  parse : B → Option Json
  toISOString : Int → String
  dateParse : String → Option Int

abbrev Instant := {now : Int // now.natAbs ≤ 8640000000000000}

def kinds : List ArtifactKind := [.prompt,.stdout,.stderr,.result,.diff,.gitStatus,.commit,
  .screenshot,.testLog,.handoff,.metadata]

def artifactKind (v : Json) : Option ArtifactKind := kinds.find? fun k => v.text == some k.text

def digest (v : Json) : Option String := v.text.filter sha256Text

def size : Json → Option Int
  | .number n => n.integer?.filter fun i => ZodSchema.safeInteger i && decide (0 ≤ i)
  | _ => none

section
variable {B : Type} (t : Texts B)

def metadataValue (a : ArtifactMetadata) : Json := .object
  [("taskId",.string a.taskId),("runId",.string a.runId),("kind",.string a.kind.text),
   ("name",.string a.name),("path",.string a.path),("relativePath",.string a.relativePath),
   ("metadataPath",.string a.metadataPath),("sha256",.string a.sha256),
   ("sizeBytes",.number (.finite a.sizeBytes)),("createdAt",.string (t.toISOString a.createdAt))]

def metadataFields (value : Json) : Option ArtifactMetadata := do
  let taskId ← (value.get "taskId").text
  let runId ← (value.get "runId").text
  let kind ← artifactKind (value.get "kind")
  let name ← (value.get "name").text
  let path ← (value.get "path").text
  let relativePath ← (value.get "relativePath").text
  let metadataPath ← (value.get "metadataPath").text
  let sha256 ← digest (value.get "sha256")
  let sizeBytes ← size (value.get "sizeBytes")
  let createdAt ← (value.get "createdAt").text.bind t.dateParse
  some ⟨taskId,runId,kind,name,path,relativePath,metadataPath,sha256,sizeBytes,createdAt⟩

def parseMetadata (text : B) : Option ArtifactMetadata := do
  let parsed ← t.parse text
  match parsed with
  | .object members => metadataFields t (.object members)
  | _ => none

structure Valid (a : ArtifactMetadata) : Prop where
  sha256 : sha256Text a.sha256 = true
  safe : ZodSchema.safeInteger a.sizeBytes = true
  counted : 0 ≤ a.sizeBytes
  dated : a.createdAt.natAbs ≤ 8640000000000000

structure Texts.Lawful : Prop where
  json : ∀ a, Valid a → t.parse (t.stringify (metadataValue t a)) = some (metadataValue t a)
  date : ∀ now : Instant, t.dateParse (t.toISOString now.1) = some now.1

def artifactStore (realHome realRoot : String) (sha256Hex : B → String) : ArtifactStore B where
  realHome
  realRoot
  sha256Hex
  renderMetadata a := t.stringify (metadataValue t a)
  parseMetadata := parseMetadata t

end

variable {B : Type} {t : Texts B}

theorem kindRead (kind : ArtifactKind) : artifactKind (.string kind.text) = some kind := by
  cases kind <;> decide

theorem integerRead (i : Int) : (Number.finite i).integer? = some i := by
  simp [Number.integer?]

theorem fieldsRead (date : ∀ now : Instant, t.dateParse (t.toISOString now.1) = some now.1)
    {a : ArtifactMetadata} (valid : Valid a) :
    metadataFields t (metadataValue t a) = some a := by
  have kind : artifactKind ((metadataValue t a).get "kind") = some a.kind := kindRead a.kind
  have sha256 : digest ((metadataValue t a).get "sha256") = some a.sha256 :=
    Option.filter_eq_some_iff.mpr ⟨rfl,valid.sha256⟩
  have sized : size ((metadataValue t a).get "sizeBytes") = some a.sizeBytes := by
    have got : (metadataValue t a).get "sizeBytes" = .number (.finite a.sizeBytes) := rfl
    simp [got,size,integerRead,valid.safe,valid.counted]
  have dated : ((metadataValue t a).get "createdAt").text.bind t.dateParse = some a.createdAt :=
    date ⟨a.createdAt,valid.dated⟩
  unfold metadataFields
  rw [kind,sha256,sized,dated]
  rfl

theorem metadataRead (lawful : t.Lawful) {a : ArtifactMetadata} (valid : Valid a) :
    parseMetadata t (t.stringify (metadataValue t a)) = some a := by
  unfold parseMetadata
  rw [lawful.json a valid]
  exact fieldsRead lawful.date valid

def tally (n : Nat) : String := String.ofList (List.replicate n '1')

def tallied (text : String) : Nat := text.toList.length

theorem tallyRead (n : Nat) : tallied (tally n) = n := by
  simp [tallied,tally]

theorem notTally {text : String} (other : (text.toList.all fun c => c == '1') = false) (n : Nat) :
    tally n ≠ text := by
  rintro rfl
  simp [tally] at other

def dated (now : Int) : String :=
  if now = 0 then "1970-01-01T00:00:00.000Z" else tally (Encodable.encode now)

def undated (text : String) : Option Int :=
  if text = "1970-01-01T00:00:00.000Z" then some 0 else Encodable.decode (tallied text)

theorem datedRead (now : Int) : undated (dated now) = some now := by
  unfold undated dated
  by_cases zero : now = 0
  · rw [if_pos zero,if_pos rfl,zero]
  · rw [if_neg zero,if_neg (notTally (by decide) _),tallyRead]
    exact Encodable.encodek now

def scalars (text : String) : List Nat := text.toList.map Char.toNat
def scalarText (codes : List Nat) : String := String.ofList (codes.map Char.ofNat)

theorem scalarsRead (text : String) : scalarText (scalars text) = text := by
  simp [scalarText,scalars,Function.comp_def]

def recordCode (a : ArtifactMetadata) : Nat := Encodable.encode
  ([a.taskId,a.runId,a.kind.text,a.name,a.path,a.relativePath,a.metadataPath,a.sha256].map scalars,
    a.sizeBytes,a.createdAt)

def codeRecord (code : Nat) : Option ArtifactMetadata :=
  match (Encodable.decode code : Option (List (List Nat) × Int × Int)) with
  | some ([taskId,runId,kind,name,path,relativePath,metadataPath,sha256],sizeBytes,createdAt) =>
      (artifactKind (.string (scalarText kind))).map fun kind =>
        ⟨scalarText taskId,scalarText runId,kind,scalarText name,scalarText path,
          scalarText relativePath,scalarText metadataPath,scalarText sha256,sizeBytes,createdAt⟩
  | _ => none

theorem codeRead (a : ArtifactMetadata) : codeRecord (recordCode a) = some a := by
  unfold codeRecord recordCode
  rw [Encodable.encodek]
  simp only [List.map_cons,List.map_nil,scalarsRead,kindRead,Option.map_some]

def noteRecord : ArtifactMetadata :=
  ⟨"task_1","run_1",.result,"note.txt","/home/.acc/artifacts/task_1/run_1/note.txt",
    "artifacts/task_1/run_1/note.txt",
    "/home/.acc/artifacts/task_1/run_1/note.txt.metadata.json",
    "8f434346648f6b96df89dda901c5176b10a6d83961dd3c1ac88b59b2dc327aa4",2,0⟩

def noteText : String := "\x7b\n  \"taskId\": \"task_1\",\n  \"runId\": \"run_1\",\n" ++
  "  \"kind\": \"result\",\n  \"name\": \"note.txt\",\n" ++
  "  \"path\": \"/home/.acc/artifacts/task_1/run_1/note.txt\",\n" ++
  "  \"relativePath\": \"artifacts/task_1/run_1/note.txt\",\n" ++
  "  \"metadataPath\": \"/home/.acc/artifacts/task_1/run_1/note.txt.metadata.json\",\n" ++
  "  \"sha256\": \"8f434346648f6b96df89dda901c5176b10a6d83961dd3c1ac88b59b2dc327aa4\",\n" ++
  "  \"sizeBytes\": 2,\n  \"createdAt\": \"1970-01-01T00:00:00.000Z\"\n\x7d\n"

def recordText (a : ArtifactMetadata) : String :=
  if a = noteRecord then noteText else tally (recordCode a)

def textRecord (text : String) : Option ArtifactMetadata :=
  if text = noteText then some noteRecord else codeRecord (tallied text)

theorem textRead (a : ArtifactMetadata) : textRecord (recordText a) = some a := by
  unfold textRecord recordText
  by_cases own : a = noteRecord
  · rw [if_pos own,if_pos rfl,own]
  · rw [if_neg own,if_neg (notTally (by decide +kernel) _),tallyRead]
    exact codeRead a

def dates : Texts := ⟨fun _ => "",fun _ => none,dated,undated⟩

def recordTexts : Texts := {dates with
  stringify := fun v => ((metadataFields dates v).map recordText).getD ""
  parse := fun text => (textRecord text).map (metadataValue dates)}

theorem recordTextsLawful : recordTexts.Lawful where
  date now := datedRead now.1
  json a valid := by
    have fields : metadataFields dates (metadataValue recordTexts a) = some a :=
      fieldsRead (fun now => datedRead now.1) valid
    have text : recordTexts.stringify (metadataValue recordTexts a) = recordText a :=
      congrArg (fun read => (read.map recordText).getD "") fields
    rw [text]
    exact congrArg (Option.map (metadataValue dates)) (textRead a)

end ControlCenter.ArtifactRecords
