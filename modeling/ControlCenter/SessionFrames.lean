import ControlCenter.ActionLogic
import ControlCenter.Session

/-! What the calls of a session may change, for every relation between the state before
and the state after that admits the changes they make. -/
namespace ControlCenter.SessionFrames
open JsonValue AccpEnvelope AccpSeal StateStore Session ActionLogic

variable {σ κ α β : Type} {excused : Fault → Prop}
  {R : NodeSession σ κ → NodeSession σ κ → Prop}

structure Sealing (R : NodeSession σ κ → NodeSession σ κ → Prop) : Prop where
  refl : ∀ s, R s s
  trans : ∀ s t u, R s t → R t u → R s u
  outSeq : ∀ s outSeq, R s {s with outSeq}
  draws : ∀ s draws, R s {s with draws}

structure Reading [NodeStateStore σ] (excused : Fault → Prop)
    (R : NodeSession σ κ → NodeSession σ κ → Prop) : Prop extends Sealing R where
  events : ∀ c, Frame excused R (onStore (NodeStateStore.eventsAfter c))
  truncations : Frame excused R (onStore NodeStateStore.loadTruncations)

structure Buffering [NodeStateStore σ] (excused : Fault → Prop)
    (R : NodeSession σ κ → NodeSession σ κ → Prop) : Prop extends Reading excused R where
  deleted : ∀ c, Frame excused R (onStore (NodeStateStore.deleteEventAt c))
  truncated : ∀ a b reason, Frame excused R (onStore (NodeStateStore.appendTruncation a b reason))

structure Journaling [NodeStateStore σ] (excused : Fault → Prop)
    (R : NodeSession σ κ → NodeSession σ κ → Prop) : Prop extends Buffering excused R where
  appended : ∀ e, Frame excused R (onStore (NodeStateStore.appendEventAndAdvanceCursor e))
  acked : ∀ c, Frame excused R (onStore (NodeStateStore.setAckedCursor c))
  pruned : ∀ c, Frame excused R (onStore (NodeStateStore.pruneUpTo c))
  nodeCursor : ∀ s nodeCursor, R s {s with nodeCursor}
  ackedCursor : ∀ s c, R s {s with ackedCursor := max s.ackedCursor c}

structure Serving (R : NodeSession σ κ → NodeSession σ κ → Prop) : Prop
    extends Sealing R where
  store : ∀ s store, R s {s with store}
  kernelState : ∀ s kernelState, R s {s with kernelState}
  nodeCursor : ∀ s nodeCursor, R s {s with nodeCursor}
  ackedCursor : ∀ s c, R s {s with ackedCursor := max s.ackedCursor c}
  offerAnswers : ∀ s offerAnswers, R s {s with offerAnswers}

@[simp] theorem wpChanging (f : NodeSession σ κ → NodeSession σ κ)
    (Q : Unit → NodeSession σ κ → Prop) (E : Fault → NodeSession σ κ → Prop)
    (s : NodeSession σ κ) : wp (changing f) Q E s ↔ Q () (f s) := Iff.rfl

@[simp] theorem wpOrThrow (result : Except String α) (Q : α → NodeSession σ κ → Prop)
    (E : Fault → NodeSession σ κ → Prop) (s : NodeSession σ κ) :
    wp (orThrow result) Q E s ↔ match result with
      | .ok a => Q a s
      | .error message => E (.thrown message) s := by
  cases result <;> rfl

theorem frameOrThrow (refl : ∀ s, R s s) (result : Except String α) :
    Frame excused R (orThrow result : SessionM σ κ α) := by
  cases result with
  | ok a => exact framePure a refl
  | error message => exact frameThrow _ refl

theorem frameChanging {f : NodeSession σ κ → NodeSession σ κ} (each : ∀ s, R s (f s)) :
    Frame excused R (changing f) := frameModify each

theorem frameStore (each : ∀ s store, R s {s with store}) (m : StoreM σ α) :
    Frame excused R (onStore m : SessionM σ κ α) := fun s => by
  unfold wp onStore
  rcases m s.store with ⟨a | a,store⟩
  · exact fun _ => each s store
  · exact each s store

theorem frameKernel (each : ∀ s kernelState, R s {s with kernelState})
    (m : ExceptT String (StateM κ) α) :
    Frame excused R (onKernel m : SessionM σ κ α) := fun s => by
  unfold wp onKernel
  rcases m s.kernelState with ⟨a | a,next⟩
  · exact fun _ => each s next
  · exact each s next

def Reviewed (excused : Fault → Prop) (R : NodeSession σ κ → NodeSession σ κ → Prop)
    (n : Node κ) : Prop := ∀ onReviewDecision, n.kernel.onReviewDecision = some onReviewDecision →
  ∀ decision, Frame excused R (onKernel (onReviewDecision decision))

theorem reviewedAny {n : Node κ} (each : ∀ s kernelState, R s {s with kernelState}) :
    Reviewed excused R n := fun _ _ _ => frameKernel each _

theorem Serving.journaling [NodeStateStore σ] (serving : Serving R) : Journaling excused R where
  toSealing := serving.toSealing
  events _ := frameStore serving.store _
  truncations := frameStore serving.store _
  deleted _ := frameStore serving.store _
  truncated _ _ _ := frameStore serving.store _
  appended _ := frameStore serving.store _
  acked _ := frameStore serving.store _
  pruned _ := frameStore serving.store _
  nodeCursor := serving.nodeCursor
  ackedCursor := serving.ackedCursor

theorem Serving.reading [NodeStateStore σ] (serving : Serving R) : Reading excused R :=
  serving.journaling.toReading

section Sealing
variable (sealing : Sealing R) (n : Node κ)
include sealing

theorem frameDraw (now : Int) : Frame excused R (drawUuid n now : SessionM σ κ String) :=
  frameSeq sealing.trans (frameGet sealing.refl) fun _ =>
    frameSeq sealing.trans (frameChanging fun t => sealing.draws t _) fun _ =>
      frameOrThrow sealing.refl _

theorem frameSeal (type : String) (payload : Json) (now : Int) (extra : Extra) :
    Frame excused R (sealMessage n type payload now extra : SessionM σ κ Envelope) :=
  frameSeq sealing.trans (frameChanging fun s => sealing.outSeq s _) fun _ =>
    frameSeq sealing.trans (frameDraw sealing n now) fun _ =>
      frameSeq sealing.trans (frameGet sealing.refl) fun _ => frameOrThrow sealing.refl _

theorem frameHandshake
    (each : ∀ s sessionId, R s
      {s with sessionId,epoch := none,outSeq := 0,welcome := none,connected := false,
              dedup := .empty})
    (now : Int) : Frame excused R (startHandshake n now : SessionM σ κ Envelope) :=
  frameSeq sealing.trans (frameDraw sealing n now) fun _ =>
    frameSeq sealing.trans (frameChanging fun s => each s _) fun _ =>
      frameSeq sealing.trans (frameGet sealing.refl) fun _ => frameSeal sealing n _ _ now _

theorem frameNack (nackFor code : String) (retryable : Bool) (detail : Option String)
    (now : Int) :
    Frame excused R (nack n nackFor code retryable detail now : SessionM σ κ (List Envelope)) :=
  frameSeq sealing.trans (frameSeal sealing n _ _ now _) fun _ => framePure _ sealing.refl

theorem frameAcknowledge (envelope : Envelope) (now : Int) :
    Frame excused R (acknowledge n envelope now : SessionM σ κ (List Envelope)) :=
  frameSeq sealing.trans (frameSeal sealing n _ _ now _) fun _ => framePure _ sealing.refl

theorem frameAnswer (envelope : Envelope) (idem : String) (answer : OfferAnswer) (now : Int) :
    Frame excused R (sealAnswer n envelope idem answer now : SessionM σ κ (List Envelope)) :=
  frameSeq sealing.trans (frameSeal sealing n _ _ now _) fun _ => framePure _ sealing.refl

theorem framePropose (payload : Json) (now : Int) :
    Frame excused R (proposeCompletion n payload now : SessionM σ κ Envelope) :=
  frameSeq sealing.trans (frameOrThrow sealing.refl _) fun _ => frameSeal sealing n _ _ now _

theorem frameRejected (raw : Json) (code : VerifyFailureCode) (detail : Option String)
    (now : Int) :
    Frame excused R (receiveRejected n raw code detail now : SessionM σ κ (List Envelope)) := by
  refine frameSeq sealing.trans (frameOrThrow sealing.refl _) fun attributed => ?_
  cases attributed with
  | none => exact framePure _ sealing.refl
  | some messageId =>
    dsimp only
    split
    · exact framePure _ sealing.refl
    · exact frameNack sealing n _ _ _ _ now

theorem frameParseWelcome (payload : Json) :
    Frame excused R (parseWelcome n payload : SessionM σ κ AccpMessages.Welcome) := by
  unfold parseWelcome
  split
  · exact framePure _ sealing.refl
  · exact frameThrow _ sealing.refl

theorem frameNotify (reviewed : Reviewed excused R n) (decision : Json) :
    Frame excused R (notifyReview n decision : SessionM σ κ Unit) := by
  unfold notifyReview
  split
  · exact framePure _ sealing.refl
  · exact reviewed _ ‹_› decision

theorem frameDecision (reviewed : Reviewed excused R n) (envelope : Envelope) (now : Int) :
    Frame excused R (receiveDecision n envelope now : SessionM σ κ (List Envelope)) :=
  frameSeq sealing.trans (frameOrThrow sealing.refl _) fun decision =>
    frameSeq sealing.trans (frameNotify sealing n reviewed decision) fun _ =>
      frameAcknowledge sealing n envelope now

end Sealing

section Reading
variable [NodeStateStore σ] (reads : Reading excused R) (n : Node κ)
include reads

theorem frameBatch (now : Int) (events : List NodeEvent) :
    Frame excused R (sealBatch n now events : SessionM σ κ Envelope) :=
  frameSeq reads.trans (frameDraw reads.toSealing n now) fun _ =>
    frameSeq reads.trans reads.truncations fun _ => frameSeal reads.toSealing n _ _ now _

theorem frameBatches (now : Int) (limit : Nat) (batches : List (List NodeEvent))
    (out : List Envelope) :
    Frame excused R (sealBatches n now limit batches out : SessionM σ κ (List Envelope)) := by
  induction batches generalizing out with
  | nil => exact framePure out reads.refl
  | cons events rest ih =>
    refine frameSeq reads.trans (frameBatch reads n now events) fun envelope => ?_
    dsimp only
    split
    · exact framePure _ reads.refl
    · exact ih _

theorem frameFlush (now : Int) (fromCursor : Option Nat) :
    Frame excused R (flush n now fromCursor : SessionM σ κ (List Envelope)) := by
  refine frameSeq reads.trans (frameGet reads.refl) fun s => ?_
  split
  · exact frameSeq reads.trans (reads.events _) fun _ => frameBatches reads n now _ _ _
  · exact framePure _ reads.refl

theorem frameSummary (now : Int) :
    Frame excused R (reconcileSummary n now : SessionM σ κ Envelope) :=
  frameSeq reads.trans (frameGet reads.refl) fun _ =>
    frameSeq reads.trans reads.truncations fun _ => frameSeal reads.toSealing n _ _ now _

theorem frameReplay (now : Int) (fromCursor : Option Nat) :
    Frame excused R (do
      let replays ← flush n now fromCursor
      let truncations ← onStore NodeStateStore.loadTruncations
      if truncations.isEmpty then pure replays
      else do
        let summary ← reconcileSummary n now
        pure (summary::replays) : SessionM σ κ (List Envelope)) := by
  refine frameSeq reads.trans (frameFlush reads n now _) fun replays => ?_
  refine frameSeq reads.trans reads.truncations fun truncations => ?_
  split
  · exact framePure _ reads.refl
  · exact frameSeq reads.trans (frameSummary reads n now) fun _ => framePure _ reads.refl

theorem frameWelcome
    (each : ∀ s welcome epoch connected, R s {s with welcome,epoch,connected})
    (envelope : Envelope) (now : Int) :
    Frame excused R (receiveWelcome n envelope now : SessionM σ κ (List Envelope)) := by
  refine frameSeq reads.trans (frameParseWelcome reads.toSealing n _) fun welcome => ?_
  refine frameSeq reads.trans (frameGet reads.refl) fun s => ?_
  split
  · exact frameSeq reads.trans (frameChanging fun t => each t _ _ _) fun _ =>
      framePure _ reads.refl
  · exact frameSeq reads.trans (frameChanging fun t => each t _ _ _) fun _ =>
      frameReplay reads n now _

theorem frameDispatch (reviewed : Reviewed excused R n) (envelope : Envelope) (now : Int)
    (welcome : envelope.type = "node.welcome" → Frame excused R (receiveWelcome n envelope now))
    (ack : envelope.type = "message.ack" → Frame excused R (receiveAck n envelope))
    (offer : envelope.type = "work.offer" → Frame excused R (receiveOffer n envelope now)) :
    Frame excused R (dispatch n envelope now : SessionM σ κ (List Envelope)) := by
  unfold dispatch
  split
  · exact welcome ‹_›
  split
  · exact ack ‹_›
  split
  · exact offer ‹_›
  split
  · exact frameDecision reads.toSealing n reviewed envelope now
  split
  · exact frameAcknowledge reads.toSealing n envelope now
  · exact frameNack reads.toSealing n _ _ _ _ now

end Reading

section Buffering
variable [NodeStateStore σ] (buffers : Buffering excused R) (n : Node κ)
include buffers

theorem frameDrop (fuel unacked : List NodeEvent) (dropped : List Nat) :
    Frame excused R (dropVictims n fuel unacked dropped : SessionM σ κ (List Nat)) := by
  induction fuel generalizing unacked dropped with
  | nil => exact framePure _ buffers.refl
  | cons _ fuel ih =>
    unfold dropVictims
    split
    · exact framePure _ buffers.refl
    split
    · exact framePure _ buffers.refl
    · refine frameSeq buffers.trans (buffers.deleted _) fun _ => ?_
      refine frameSeq buffers.trans (frameGet buffers.refl) fun s => ?_
      exact frameSeq buffers.trans (buffers.events _) fun _ => ih _ _

omit n in
theorem frameRecord (ranges : List (Nat × Nat)) :
    Frame excused R (recordTruncations ranges : SessionM σ κ Unit) := by
  induction ranges with
  | nil => exact framePure _ buffers.refl
  | cons r rest ih => exact frameSeq buffers.trans (buffers.truncated _ _ _) fun _ => ih

theorem frameEnforce : Frame excused R (enforceBufferBounds n : SessionM σ κ Unit) := by
  refine frameSeq buffers.trans (frameGet buffers.refl) fun s => ?_
  refine frameSeq buffers.trans (buffers.events _) fun unacked => ?_
  split
  · exact framePure _ buffers.refl
  · exact frameSeq buffers.trans (frameDrop buffers n _ _ _) fun _ => frameRecord buffers _

end Buffering

section Journaling
variable [NodeStateStore σ] (journals : Journaling excused R) (n : Node κ)
include journals

theorem frameEmit (kind : String) (data : List (String × Json)) (ids : EventIds) (now : Int) :
    Frame excused R (emitEvent n kind data ids now : SessionM σ κ NodeEvent) :=
  frameSeq journals.trans (frameGet journals.refl) fun _ =>
    frameSeq journals.trans (frameDraw journals.toSealing n now) fun _ =>
      frameSeq journals.trans (journals.appended _) fun _ =>
        frameSeq journals.trans (frameChanging fun t => journals.nodeCursor t _) fun _ =>
          frameSeq journals.trans (frameEnforce journals.toBuffering n) fun _ =>
            framePure _ journals.refl

theorem frameAck (envelope : Envelope) :
    Frame excused R (receiveAck n envelope : SessionM σ κ (List Envelope)) := by
  refine frameSeq journals.trans (frameOrThrow journals.refl _) fun ack => ?_
  split
  · exact framePure _ journals.refl
  · exact frameSeq journals.trans (frameChanging fun t => journals.ackedCursor t _) fun _ =>
      frameSeq journals.trans (frameGet journals.refl) fun _ =>
        frameSeq journals.trans (journals.acked _) fun _ =>
          frameSeq journals.trans (journals.pruned _) fun _ => framePure _ journals.refl

end Journaling

section Serving
variable [NodeStateStore σ] (serving : Serving R) (n : Node κ)
include serving

theorem frameOffer (envelope : Envelope) (now : Int) :
    Frame excused R (receiveOffer n envelope now : SessionM σ κ (List Envelope)) := by
  refine frameSeq serving.trans (frameOrThrow serving.refl _) fun offer => ?_
  refine frameSeq serving.trans (frameGet serving.refl) fun s => ?_
  split
  · exact frameAnswer serving.toSealing n envelope _ _ now
  · refine frameSeq serving.trans (frameKernel serving.kernelState _) fun decision => ?_
    refine frameSeq serving.trans (frameChanging fun t => serving.offerAnswers t _) fun _ => ?_
    refine frameSeq serving.trans (frameStore serving.store _) fun _ => ?_
    exact frameAnswer serving.toSealing n envelope _ _ now

theorem frameServed (envelope : Envelope) (now : Int)
    (welcome : envelope.type = "node.welcome" → Frame excused R (receiveWelcome n envelope now)) :
    Frame excused R (dispatch n envelope now : SessionM σ κ (List Envelope)) :=
  frameDispatch serving.reading n (reviewedAny serving.kernelState) envelope now welcome
    (fun _ => frameAck serving.journaling n envelope) fun _ => frameOffer serving n envelope now

end Serving

end ControlCenter.SessionFrames
