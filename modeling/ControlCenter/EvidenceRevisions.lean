import ControlCenter.Interference
import ControlCenter.ReviewDecisions

/-! Reviewers who decide by the revision they read, among all that the processes do: whether
the artifacts they saw are all there is when their decision is taken. -/
namespace ControlCenter.EvidenceRevisions
open JsonValue AccpEnvelope Protocol Table Db DbReviews DbRuns Dialogue Ports Coordinator Execution Operations
open ControlCenter.System RunLogic Interference ReviewDecisions

def recorded (taskId : String) (db : ControlCenterDb) : List ArtifactRow :=
  db.artifacts.rows.filter fun r => r.taskId == taskId

structure Inspection where
  review : ReviewRow
  evidence : List ArtifactRow

structure Desk where
  center : Center
  inspections : List Inspection

namespace Desk

def initial : Desk := ⟨.initial,[]⟩
def db (d : Desk) : ControlCenterDb := d.center.world.db

end Desk

inductive Event where
  | system (e : System.Event)
  | inspect (reviewId : String)

def inspect (reviewId : String) (db : ControlCenterDb) : List Inspection :=
  ((db.reviews.get reviewId).filter fun r => r.status == .pending).toList.map fun review =>
    ⟨review,recorded review.taskId db⟩

def step (fleet : Nat → Options) (d : Desk) : Event → Desk
  | .system e => {d with center := (System.step fleet d.center e).getD d.center}
  | .inspect reviewId => {d with inspections := d.inspections ++ inspect reviewId d.db}

def decidedBy (i : Who) (c : Choice) (w : World) : Question → Option Expected
  | .approveTaskReview taskId note expected =>
      if (respond i c w (.approveTaskReview taskId note expected)).1.isOk then expected else none
  | .requestTaskRework taskId note expected =>
      if (respond i c w (.requestTaskRework taskId note expected)).1.isOk then expected else none
  | _ => none

def decides (s : Center) : System.Event → Option Expected
  | .turn id pick c => do
      let (i,q) ← asking s (.turn id pick c)
      decidedBy i c s.world q
  | _ => none

def Bound (d : Desk) : Event → Prop
  | .system e => ∀ seen ∈ d.inspections,
      decides d.center e = some ⟨seen.review.id,seen.review.updatedAt⟩ →
        recorded seen.review.taskId d.db = seen.evidence
  | .inspect _ => True

def Current (db : ControlCenterDb) (seen : Inspection) : Prop :=
  ∃ r, db.reviews.get seen.review.id = some r ∧ r.status = .pending ∧
    r.updatedAt = seen.review.updatedAt

def Undisturbed (d : Desk) : Event → Prop
  | .system (.turn id pick c) => ∀ i input,
      asking d.center (.turn id pick c) = some (i,.addArtifact input) → c.busy = none →
        Adds ⟨c.now,c.uuid⟩ input d.db → ∀ seen ∈ d.inspections, Current d.db seen →
          seen.review.taskId ≠ input.artifact.taskId
  | _ => True

def Holds (db : ControlCenterDb) (seen : Inspection) : Prop :=
  ∃ r, db.reviews.get seen.review.id = some r ∧ r.taskId = seen.review.taskId ∧
    (Current db seen → recorded seen.review.taskId db = seen.evidence)

section
variable {m : Moment} {db next : ControlCenterDb} {seen : Inspection}

theorem holdsKept {r r' : ReviewRow} (artifacts : next.artifacts = db.artifacts)
    (holds : Holds db seen) (held : db.reviews.get seen.review.id = some r)
    (held' : next.reviews.get seen.review.id = some r') (own : r'.taskId = r.taskId)
    (kept : r'.status = .pending → r' = r) : Holds next seen := by
  obtain ⟨_,before,ofTask,bound⟩ := holds
  cases held.symm.trans before
  refine ⟨r',held',own.trans ofTask,?_⟩
  rintro ⟨_,now,pending,same⟩
  cases held'.symm.trans now
  have equal := kept pending
  unfold recorded at bound ⊢
  rw [artifacts]
  exact bound ⟨r,held,equal ▸ pending,equal ▸ same⟩

theorem movesHold {call : DbCall} (holds : Holds db seen) (moves : EvidenceMoves m db next call)
    (apart : ∀ input, call = .addArtifact input → Adds m input db → Current db seen →
      seen.review.taskId ≠ input.artifact.taskId) : Holds next seen := by
  obtain ⟨r,held,own,bound⟩ := holds
  cases moves with
  | same artifacts reviews =>
    exact holdsKept artifacts ⟨r,held,own,bound⟩ held (reviews ▸ held) rfl fun _ => rfl
  | @added input row adds ofTask rows reviews =>
    refine ⟨r,reviews ▸ held,own,fun current => ?_⟩
    have current : Current db seen := by
      unfold Current at current ⊢
      rwa [reviews] at current
    have other := apart input rfl adds current
    have foreign : (row.taskId == seen.review.taskId) = false := by
      rw [ofTask]
      exact beq_eq_false_iff_ne.mpr other.symm
    rw [← bound current]
    unfold recorded
    rw [rows,List.filter_append,List.filter_cons,foreign]
    simp
  | @opened _ review artifacts inserted _ =>
    obtain ⟨listed,keyed⟩ := getSome.mp held
    have other := (insertSome inserted).1 r listed
    have read : next.reviews.get seen.review.id = some r := by
      rw [getInsert inserted,if_neg fun equal => other (keyed.trans equal.symm),held]
    exact holdsKept artifacts ⟨r,held,own,bound⟩ held read rfl fun _ => rfl
  | @decided _ review status note artifacts _ _ final reviews =>
    have read : next.reviews.get seen.review.id =
        some (if r.id == review.id then decided m status note r else r) := by
      have updated : (DbReviews.decideReview m review status note db).reviews.get seen.review.id =
          (db.reviews.get seen.review.id).map fun r =>
            if r.id == review.id then decided m status note r else r :=
        @getUpdate _ _ _ _ _ _ _ (decided m status note) fun _ => rfl
      rw [reviews,updated,held]
      rfl
    refine holdsKept artifacts ⟨r,held,own,bound⟩ held read ?_ fun pending => ?_
    · split <;> rfl
    · split at pending
      · exact absurd pending final
      next other => exact if_neg other

end

section
variable {fleet : Nat → Options}

def Known (d : Desk) : Prop := ∀ seen ∈ d.inspections, Holds d.db seen

theorem inspectHolds {reviewId : String} {db : ControlCenterDb} {seen : Inspection}
    (listed : seen ∈ inspect reviewId db) : Holds db seen := by
  obtain ⟨review,read,rfl⟩ := List.mem_map.mp listed
  obtain ⟨held,_⟩ := Option.filter_eq_some_iff.mp (Option.mem_toList.mp read)
  have keyed : review.id = reviewId := (getSome.mp held).2
  exact ⟨review,keyed ▸ held,rfl,fun _ => rfl⟩

theorem knownStep (d : Desk) (e : Event) (known : Known d) (undisturbed : Undisturbed d e) :
    Known (step fleet d e) := by
  cases e with
  | inspect reviewId =>
    intro seen listed
    rcases List.mem_append.mp listed with old | new
    · exact known seen old
    · exact inspectHolds new
  | system e =>
    cases moved : System.step fleet d.center e with
    | none =>
      have same : step fleet d (.system e) = d := by
        simp only [step,moved,Option.getD_none]
      rwa [same]
    | some after =>
      have same : step fleet d (.system e) = {d with center := after} := by
        simp only [step,moved,Option.getD_some]
      rw [same]
      intro seen listed
      have holds := known seen listed
      show Holds after.world.db seen
      cases e with
      | start process call =>
        cases Option.some.inj moved
        exact holds
      | crash process =>
        cases Option.some.inj moved
        exact holds
      | turn id pick c =>
        rcases turnWorld moved with same | ⟨i,q,asks,_,same⟩
        · rwa [same]
        · rw [same]
          rcases respondAnswered i c d.center.world q with kept | ⟨idle,call,calls,performed⟩
          · rwa [kept]
          · refine movesHold holds (callEvidence performed) fun input equal adds current => ?_
            have asked : q = .addArtifact input := by
              subst equal
              cases q with
              | addArtifact other =>
                cases Option.some.inj calls
                rfl
              | _ => cases calls
            subst asked
            exact undisturbed i input asks idle adds seen listed current

theorem admittedCurrent {taskId : String} {e : Expected} {db : ControlCenterDb}
    {review : ReviewRow} (admitted : Admitted taskId (some e) db review) :
    ∃ r, db.reviews.get e.reviewId = some r ∧ r.status = .pending ∧ r.updatedAt = e.updatedAt :=
  ⟨review,(Option.filter_eq_some_iff.mp admitted.addressed).1,admitted.pending,
    admitted.current e rfl⟩

theorem acceptedSource {i : Who} {c : Choice} {w : World} {q : Question} {e : Expected}
    (accepted : decidedBy i c w q = some e) :
    ∃ r, w.db.reviews.get e.reviewId = some r ∧ r.status = .pending ∧ r.updatedAt = e.updatedAt := by
  cases q with
  | approveTaskReview taskId note expected =>
    simp only [decidedBy,Option.ite_none_right_eq_some] at accepted
    obtain ⟨returned,rfl⟩ := accepted
    obtain ⟨row,next,performed⟩ := storedReturned (respondReturned rfl returned)
    obtain ⟨review,admitted,_⟩ := approveSource performed
    exact admittedCurrent admitted
  | requestTaskRework taskId note expected =>
    simp only [decidedBy,Option.ite_none_right_eq_some] at accepted
    obtain ⟨returned,rfl⟩ := accepted
    obtain ⟨row,next,performed⟩ := storedReturned (respondReturned rfl returned)
    obtain ⟨review,_,_,admitted,_⟩ := reworkSource performed
    exact admittedCurrent admitted
  | _ => cases accepted

theorem knownBound (d : Desk) (e : Event) (known : Known d) : Bound d e := by
  cases e with
  | inspect reviewId => trivial
  | system e =>
    intro seen listed decided
    cases e with
    | start process call => cases decided
    | crash process => cases decided
    | turn id pick c =>
      simp only [decides,bind,Option.bind_eq_some_iff] at decided
      obtain ⟨⟨i,q⟩,_,accepted⟩ := decided
      obtain ⟨_,_,_,bound⟩ := known seen listed
      have current : Current d.db seen := acceptedSource accepted
      exact bound current

theorem revisionBindsEvidence (fleet : Nat → Options) (events : List Event)
    (undisturbed : ∀ front e back, events = front ++ e::back →
      Undisturbed (reach (step fleet) .initial front) e) :
    ∀ front e back, events = front ++ e::back → Bound (reach (step fleet) .initial front) e := by
  intro front e back split
  have start : Known Desk.initial := fun _ listed => absurd listed List.not_mem_nil
  have known := reachMet (step fleet) knownStep start undisturbed front (e::back) split
  exact knownBound _ e known

end

def digest : String := "aaaaaaaaaaaaaaaaaaaaaaaaaaaaaaaaaaaaaaaaaaaaaaaaaaaaaaaaaaaaaaaa"

def reply : (q : Question) → Except String (Answer q)
  | .randomUuids => .ok fun _ => "1"
  | .resolvePath path => .ok path
  | .availability _ => .ok ⟨true,"",none⟩
  | .createWorktree taskId runId repo baseRef =>
      .ok ⟨taskId,runId,repo,"/worktree","task","HEAD",baseRef,0⟩
  | .captureSourceSnapshot repo => .ok ⟨repo,"HEAD",""⟩
  | .assertSourceUnchanged .. => .ok ()
  | .prepareRunDirectory .. => .ok "/run"
  | .writeArtifact taskId runId kind name _ =>
      .ok ⟨taskId,runId,kind,name,"/evidence/" ++ name,name,"/metadata/" ++ name,digest,1,0⟩
  | .startTask .. => .ok ⟨[],.ok ⟨"agent",none,"/run/out","/run/err","/run/result"⟩⟩
  | .collectResult .. =>
      .ok ⟨.succeeded,0,"/run/out","/run/err","/run/result",some 0,none,"Done.",none,none⟩
  | .inspectFile path => .ok ⟨"/run",path,true,false,0⟩
  | .readFile _ => .ok ""
  | .captureReviewArtifacts .. => .ok []
  | _ => .error "not asked"

def turns (thread : Nat) (pick : Pick String) (first count : Nat) : List Event :=
  (List.range' first count).map fun k => .system (.turn ⟨thread,0⟩ pick
    ⟨0,String.ofList (List.replicate k 'i'),none,reply⟩)

def reviewable : Json := .object [("id",.string "task"),("goal",.string "Fix it"),
  ("repo",.string "/repo"),("agent",.string "codex"),("handoffRequired",.boolean true)]

def executed : List Event :=
  .system (.start 0 (.createTask reviewable))::turns 0 .main 0 10 ++
  .system (.start 0 .runNext)::turns 1 .main 10 17 ++ turns 1 (.member "step_1") 27 47 ++
  turns 1 .join 74 1 ++ turns 1 .main 75 18

def worker : Nat → Options := fun _ => ⟨"worker",100,fun _ => true⟩

def reviewId : String := "review_" ++ String.ofList (List.replicate 91 'i')

def screenshot : Screenshot :=
  ⟨"task","run_" ++ String.ofList (List.replicate 30 'i'),"a.png",.png,
    [0x89,0x50,0x4e,0x47,0x0d,0x0a,0x1a,0x0a],[]⟩

def settled (d : Desk) : Event → Bool
  | .system e => d.inspections.isEmpty || match asking d.center e with
      | some (_,.addArtifact _) => false
      | _ => true
  | .inspect _ => true

theorem settledUndisturbed {d : Desk} {e : Event} (quiet : settled d e = true) :
    Undisturbed d e := by
  cases e with
  | inspect reviewId => trivial
  | system e =>
    cases e with
    | start process call => trivial
    | crash process => trivial
    | turn id pick c =>
      intro i input asks _ _ seen listed
      simp only [settled,asks,Bool.or_false,List.isEmpty_iff] at quiet
      rw [quiet] at listed
      cases listed

def approving : List Event := executed ++ .inspect reviewId::
  .system (.start 0 (.approveReview reviewId 0 none))::turns 2 .main 100 1

def decision : System.Event := .turn ⟨2,0⟩ .main ⟨0,"decision",none,reply⟩

theorem revisionBindsApproval :
    (decides (reach (step worker) .initial approving).center decision).isSome = true ∧
      Bound (reach (step worker) .initial approving) (.system decision) := by
  have checked : everyStep (step worker) settled .initial (approving ++ [.system decision]) := by
    decide +kernel
  refine ⟨by decide +kernel,revisionBindsEvidence worker _ (fun _ _ _ split => ?_) approving
    (.system decision) [] rfl⟩
  exact settledUndisturbed (everyStepSource (step worker) checked split)

def attached : List Event := executed ++ .inspect reviewId::
  .system (.start 0 (.attachScreenshot screenshot))::turns 2 .main 100 4 ++
  .system (.start 0 (.approveReview reviewId 0 none))::turns 3 .main 104 1

def late : System.Event := .turn ⟨3,0⟩ .main ⟨0,"late",none,reply⟩

def staleApproval (d : Desk) : Bool := d.inspections.any fun seen =>
  decides d.center late == some ⟨seen.review.id,seen.review.updatedAt⟩ &&
    (recorded seen.review.taskId d.db).length != seen.evidence.length

theorem unseenApproved : ¬∀ front e back, attached ++ [.system late] = front ++ e::back →
    Bound (reach (step worker) .initial front) e := by
  intro binds
  have stale : staleApproval (reach (step worker) .initial attached) = true := by decide +kernel
  obtain ⟨seen,listed,both⟩ := List.any_eq_true.mp stale
  obtain ⟨accepted,more⟩ := Bool.and_eq_true_iff.mp both
  have same := binds attached (.system late) [] rfl seen listed (by simpa using accepted)
  rw [same] at more
  simp at more

end ControlCenter.EvidenceRevisions
