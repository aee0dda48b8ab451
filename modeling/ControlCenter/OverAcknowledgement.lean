import ControlCenter.SessionRuns

/-! The acknowledged cursor follows message.ack alone, whatever cursor the peer names.
It stays within the node cursor, and later events stay offered, exactly in the runs
whose acknowledgements name cursors the node has handed out. -/
namespace ControlCenter.OverAcknowledgement
open JsonValue AccpEnvelope AccpIds AccpMessages AccpSeal StateStore Session PositionLedger
open JournalView JournalRefinement ActionLogic SessionFrames SessionRuns LawfulNodeStateStore

variable {σ κ α : Type} [NodeStateStore σ] (n : Node κ)

def appliedAck (s : NodeSession σ κ) (raw : Json) (now : Int) : Option Nat :=
  match verifySealedEnvelope n.platform raw n.credentials.cloudPublicKeyPem now with
  | .ok (.ok envelope _) =>
    if isExpectedCloudEnvelope n s envelope && !(s.dedup.check envelope.messageId).1 &&
        envelope.type == "message.ack" then
      match parsePayload n.platform "message.ack" envelope.payload with
      | .ok ack => cursorAck ack
      | .error _ => none
    else none
  | _ => none

def ackOf (s : NodeSession σ κ) : Operation κ → Option Nat
  | .receive raw now => appliedAck n s raw now
  | _ => none

def after : NodeSession σ κ → List (Operation κ) → NodeSession σ κ
  | s,[] => s
  | s,op::rest => after (op.perform n s).2 rest

def StoresSucceed : NodeSession σ κ → List (Operation κ) → Prop
  | _,[] => True
  | s,op::rest => (∀ fault, (op.perform n s).1 = .error fault → ¬storeFault fault) ∧
      StoresSucceed (op.perform n s).2 rest

def acks : NodeSession σ κ → List (Operation κ) → List Nat
  | _,[] => []
  | s,op::rest => (ackOf n s op).toList ++ acks (op.perform n s).2 rest

-- Every acknowledgement names a cursor the node has handed out when it arrives.
def Honest : NodeSession σ κ → List (Operation κ) → Prop
  | _,[] => True
  | s,op::rest => (∀ highest, ackOf n s op = some highest → highest ≤ s.nodeCursor) ∧
      Honest (op.perform n s).2 rest

def emittedBy (s : NodeSession σ κ) : Operation κ → Option NodeEvent
  | .emitEvent kind data ids now => (emitEvent n kind data ids now s).1.toOption
  | _ => none

def Offered (s : NodeSession σ κ) (c : Nat) : Prop :=
  ∀ floor, floor = s.ackedCursor ∨ floor < c → ∀ events,
    (NodeStateStore.eventsAfter floor s.store).1 = .ok events → c ∈ events.map (·.cursor)

variable [LawfulNodeStateStore σ]

structure NothingOverAcked (s : NodeSession σ κ) (ops : List (Operation κ)) : Prop where
  within : ∀ front back, ops = front ++ back →
    (after n s front).ackedCursor ≤ (after n s front).nodeCursor
  offered : ∀ front op middle back event, ops = front ++ op :: (middle ++ back) →
    emittedBy n (after n s front) op = some event →
    (∀ highest ∈ acks n (after n s (front ++ [op])) middle, highest < event.cursor) →
    (∀ r ∈ reported (after n s (front ++ op :: middle)), ¬(r.1 ≤ event.cursor ∧
      event.cursor ≤ r.2)) →
    Offered (after n s (front ++ op :: middle)) event.cursor

def Pinned (s t : NodeSession σ κ) : Prop := Synced s →
  Synced t ∧ t.ackedCursor = s.ackedCursor ∧ t.nodeCursor = s.nodeCursor

theorem pinnedTrans (s t u : NodeSession σ κ) (front : Pinned s t) (back : Pinned t u) :
    Pinned s u := fun synced => by
  obtain ⟨first,acked,node⟩ := front synced
  obtain ⟨second,acked',node'⟩ := back first
  exact ⟨second,acked'.trans acked,node'.trans node⟩

theorem pinnedQuiet {m : SessionM σ κ α} (quiet : IsQuiet m) : Frame storeFault Pinned m :=
  quiet.mono fun _ _ still synced =>
    ⟨(still synced).synced synced,(still synced).acked,(still synced).node⟩

theorem pinnedSave (idem : String) (answer : OfferAnswer) : Frame storeFault Pinned
    (onStore (NodeStateStore.saveOfferAnswer idem answer.type answer.payload) :
      SessionM σ κ Unit) := fun s => by
  apply wpOnStore
  · intro _ store saving synced
    have wrote := saved synced.ok store saving
    have seen := wroteView wrote
    exact ⟨⟨wroteOk wrote,by rw [seen]; exact synced.node,by rw [seen]; exact synced.acked⟩,
      rfl,rfl⟩
  · intro message t unexcused
    exact absurd trivial unexcused

theorem pinnedOffer (envelope : Envelope) (now : Int) :
    Frame storeFault Pinned (receiveOffer n envelope now : SessionM σ κ (List Envelope)) := by
  refine frameSeq pinnedTrans (pinnedQuiet (frameOrThrow quietRefl _)) fun offer => ?_
  refine frameSeq pinnedTrans (pinnedQuiet (frameGet quietRefl)) fun s => ?_
  split
  · exact pinnedQuiet (frameAnswer quietSealing n envelope _ _ now)
  · refine frameSeq pinnedTrans (pinnedQuiet (frameKernel quietKernel _)) fun decision => ?_
    refine frameSeq pinnedTrans (pinnedQuiet (frameChanging fun _ _ => ⟨rfl,rfl,rfl⟩)) fun _ => ?_
    refine frameSeq pinnedTrans (pinnedSave _ _) fun _ => ?_
    exact pinnedQuiet (frameAnswer quietSealing n envelope _ _ now)

theorem pinnedDispatch (envelope : Envelope) (now : Int) (other : envelope.type ≠ "message.ack") :
    Frame storeFault Pinned (dispatch n envelope now : SessionM σ κ (List Envelope)) := by
  unfold dispatch
  rw [if_neg other]
  split
  · exact pinnedQuiet (frameWelcome quietReading n quietConnection envelope now)
  split
  · exact pinnedOffer n envelope now
  split
  · exact pinnedQuiet (frameDecision quietSealing n (reviewedAny quietKernel) envelope now)
  split
  · exact pinnedQuiet (frameAcknowledge quietSealing n envelope now)
  · exact pinnedQuiet (frameNack quietSealing n _ _ _ _ now)

def Raised (highest : Option Nat) (s t : NodeSession σ κ) : Prop :=
  t.ackedCursor = max s.ackedCursor (highest.getD 0) ∧ t.nodeCursor = s.nodeCursor

theorem raisedPinned {s t : NodeSession σ κ} (synced : Synced s) (pinned : Pinned s t) :
    Raised none s t := by
  obtain ⟨_,acked,node⟩ := pinned synced
  exact ⟨by simpa using acked,node⟩

omit [LawfulNodeStateStore σ] in
theorem ackRaises (envelope : Envelope) (s : NodeSession σ κ) :
    wp (receiveAck n envelope) (fun _ t => Raised
        (match parsePayload n.platform "message.ack" envelope.payload with
          | .ok ack => cursorAck ack
          | .error _ => none) s t)
      (fun e t => ¬storeFault e → Raised
        (match parsePayload n.platform "message.ack" envelope.payload with
          | .ok ack => cursorAck ack
          | .error _ => none) s t) s := by
  unfold receiveAck
  rw [wpBind]
  cases parsePayload n.platform "message.ack" envelope.payload with
  | error message => exact fun _ => ⟨by simp,rfl⟩
  | ok ack =>
    rw [orThrow,wpPure]
    dsimp only
    cases cursorAck ack with
    | none => exact ⟨by simp,rfl⟩
    | some highest =>
      dsimp only
      rw [wpBind,changing,wpModify,wpBind,wpGet,wpBind]
      apply wpOnStore
      · intro _ store _
        rw [wpBind]
        apply wpOnStore
        · intro _ store' _
          exact ⟨rfl,rfl⟩
        · intro message t unexcused
          exact absurd trivial unexcused
      · intro message t unexcused
        exact absurd trivial unexcused

theorem receiveRaises (raw : Json) (now : Int) (s : NodeSession σ κ) (synced : Synced s) :
    wp (receive n raw now) (fun _ t => Raised (appliedAck n s raw now) s t)
      (fun e t => ¬storeFault e → Raised (appliedAck n s raw now) s t) s := by
  have pinned {β : Type} {m : SessionM σ κ β} (frame : Frame storeFault Pinned m) :
      wp m (fun _ t => Raised none s t) (fun e t => ¬storeFault e → Raised none s t) s :=
    wpMono (frame s) (fun _ _ h => raisedPinned synced h)
      fun _ _ h unexcused => raisedPinned synced (h unexcused)
  unfold receive appliedAck
  rw [wpBind]
  cases verifySealedEnvelope n.platform raw n.credentials.cloudPublicKeyPem now with
  | error message => exact fun _ => ⟨by simp,rfl⟩
  | ok verified =>
    rw [orThrow,wpPure]
    cases verified with
    | failed code detail => exact pinned (pinnedQuiet (frameRejected quietSealing n raw code detail now))
    | ok envelope payload =>
      dsimp only
      rw [wpBind,wpGet]
      cases expected : isExpectedCloudEnvelope n s envelope with
      | false => exact pinned (pinnedQuiet (frameNack quietSealing n _ _ _ _ now))
      | true =>
        simp only [Bool.not_true,Bool.false_eq_true,if_false,Bool.true_and]
        rw [wpBind,changing,wpModify]
        cases duplicate : (s.dedup.check envelope.messageId).1 with
        | true => exact ⟨by simp,rfl⟩
        | false =>
          simp only [Bool.false_eq_true,if_false,Bool.not_false,Bool.true_and,beq_iff_eq]
          by_cases ack : envelope.type = "message.ack"
          · rw [if_pos ack]
            unfold dispatch
            rw [if_neg (by rw [ack]; decide),if_pos ack]
            exact ackRaises n envelope _
          · rw [if_neg ack]
            have still : Synced {s with dedup := (s.dedup.check envelope.messageId).2} :=
              ⟨synced.ok,synced.node,synced.acked⟩
            exact wpMono (pinnedDispatch n envelope now ack _)
              (fun _ t h => raisedPinned (s := {s with
                dedup := (s.dedup.check envelope.messageId).2}) still h)
              fun _ t h unexcused => raisedPinned (s := {s with
                dedup := (s.dedup.check envelope.messageId).2}) still (h unexcused)

def unexcused (s : NodeSession σ κ) (op : Operation κ) : Prop :=
  ∀ fault, (op.perform n s).1 = .error fault → ¬storeFault fault

omit [LawfulNodeStateStore σ] in
theorem framedOperation {R : NodeSession σ κ → NodeSession σ κ → Prop} {s : NodeSession σ κ}
    (op : Operation κ) {m : SessionM σ κ α} (same : op.perform n = discarding m)
    (h : wp m (fun _ t => R s t) (fun e t => ¬storeFault e → R s t) s)
    (clean : unexcused n s op) : R s (op.perform n s).2 := by
  have framed : wp (op.perform n) (fun _ t => R s t) (fun e t => ¬storeFault e → R s t) s := by
    rw [same,discarding,wpBind]
    exact h
  cases result : (op.perform n s).1 with
  | ok _ => exact wpOk (Q := fun _ t => R s t) framed (Prod.ext result rfl)
  | error fault =>
    have failed := wpError (E := fun e t => ¬storeFault e → R s t) framed (Prod.ext result rfl)
    exact failed (clean fault result)

theorem stepRaises {s : NodeSession σ κ} (synced : Synced s) (op : Operation κ)
    (clean : unexcused n s op) :
    (op.perform n s).2.ackedCursor = max s.ackedCursor ((ackOf n s op).getD 0) ∧
    (ackOf n s op = none ∨ (op.perform n s).2.nodeCursor = s.nodeCursor) := by
  have pinned {m : SessionM σ κ Unit} (frame : Frame storeFault Pinned m)
      (same : op.perform n = m) : Raised none s (op.perform n s).2 := by
    subst same
    have done : Pinned s (op.perform n s).2 := by
      cases result : (op.perform n s).1 with
      | ok _ => exact frame.ok (Prod.ext result rfl)
      | error fault => exact frame.error (Prod.ext result rfl) (clean fault result)
    exact raisedPinned synced done
  have discarded {β : Type} {m : SessionM σ κ β} (isQuiet : IsQuiet m) :
      Frame storeFault Pinned (discarding m) :=
    pinnedQuiet (frameSeq quietTrans isQuiet fun _ => framePure () quietRefl)
  cases op with
  | receive raw now =>
    have raised := framedOperation n (.receive raw now) (R := Raised (appliedAck n s raw now))
      rfl (receiveRaises n raw now s synced) clean
    exact ⟨raised.1,.inr raised.2⟩
  | emitEvent kind data ids now =>
    have acked := framedOperation n (.emitEvent kind data ids now)
      (R := fun s t => t.ackedCursor = s.ackedCursor) rfl
      (wpMono (emitSpec n kind data ids now s synced) (fun _ _ h => h.2.acked)
        fun _ _ h unexcused => (h unexcused).acked) clean
    exact ⟨by simpa [ackOf] using acked,.inl rfl⟩
  | startHandshake now => exact ⟨(pinned (discarded (quietHandshake n now)) rfl).1,.inl rfl⟩
  | flush now fromCursor =>
    exact ⟨(pinned (discarded (frameFlush quietReading n now fromCursor)) rfl).1,.inl rfl⟩
  | proposeCompletion payload now =>
    refine ⟨(pinned (discarded ?_) rfl).1,.inl rfl⟩
    exact frameSeq quietTrans (frameOrThrow quietRefl _) fun _ => frameSeal quietSealing n _ _ now _
  | disconnect => exact ⟨(pinned (pinnedQuiet quietDisconnect) rfl).1,.inl rfl⟩
  | restart kernelState =>
    exact ⟨(pinned (pinnedQuiet (quietRestart kernelState)) rfl).1,.inl rfl⟩

omit [LawfulNodeStateStore σ] in
theorem cleanStep {s : NodeSession σ κ} {op : Operation κ} (clean : unexcused n s op) :
    Step n s (op.perform n s).2 := ⟨op,(op.perform n s).1,Prod.mk.eta.symm,clean⟩

omit [LawfulNodeStateStore σ] in
theorem afterRun {s : NodeSession σ κ} {ops : List (Operation κ)}
    (clean : StoresSucceed n s ops) : Run n s (after n s ops) := by
  induction ops generalizing s with
  | nil => exact .refl
  | cons op rest ih => exact .head (cleanStep n clean.1) (ih clean.2)

omit [LawfulNodeStateStore σ] in
theorem afterAppend (s : NodeSession σ κ) (front back : List (Operation κ)) :
    after n s (front ++ back) = after n (after n s front) back := by
  induction front generalizing s with
  | nil => rfl
  | cons op rest ih => exact ih _

omit [LawfulNodeStateStore σ] in
theorem succeedAppend {s : NodeSession σ κ} {front back : List (Operation κ)} :
    StoresSucceed n s (front ++ back) ↔
      StoresSucceed n s front ∧ StoresSucceed n (after n s front) back := by
  induction front generalizing s with
  | nil => simp [StoresSucceed,after]
  | cons op rest ih => simp only [List.cons_append,StoresSucceed,after,ih,and_assoc]

omit [LawfulNodeStateStore σ] in
theorem honestAppend {s : NodeSession σ κ} {front back : List (Operation κ)} :
    Honest n s (front ++ back) ↔ Honest n s front ∧ Honest n (after n s front) back := by
  induction front generalizing s with
  | nil => simp [Honest,after]
  | cons op rest ih => simp only [List.cons_append,Honest,after,ih,and_assoc]

theorem ackedAfter {s : NodeSession σ κ} {ops : List (Operation κ)}
    (kept : Kept n.maxBufferedEvents s) (clean : StoresSucceed n s ops) {c : Nat}
    (below : s.ackedCursor < c) (each : ∀ highest ∈ acks n s ops, highest < c) :
    (after n s ops).ackedCursor < c := by
  induction ops generalizing s with
  | nil => exact below
  | cons op rest ih =>
    have raised := (stepRaises n kept.synced op clean.1).1
    have next := keptStep kept (cleanStep n clean.1)
    simp only [acks,List.mem_append] at each
    refine ih next clean.2 ?_ fun highest later => each highest (.inr later)
    rw [raised]
    cases ack : ackOf n s op with
    | none => simpa using below
    | some highest =>
      have small := each highest (.inl (by simp [ack]))
      simp only [Option.getD_some]
      omega

theorem honestWithin {s : NodeSession σ κ} {ops : List (Operation κ)}
    (kept : Kept n.maxBufferedEvents s) (clean : StoresSucceed n s ops)
    (honest : Honest n s ops) (within : s.ackedCursor ≤ s.nodeCursor) :
    (after n s ops).ackedCursor ≤ (after n s ops).nodeCursor := by
  induction ops generalizing s with
  | nil => exact within
  | cons op rest ih =>
    have raised := (stepRaises n kept.synced op clean.1).1
    have up := (stepMonotone kept (cleanStep n clean.1)).2
    refine ih (keptStep kept (cleanStep n clean.1)) clean.2 honest.2 ?_
    rw [raised]
    cases ack : ackOf n s op with
    | none => simp only [Option.getD_none]; omega
    | some highest =>
      have small := honest.1 highest ack
      simp only [Option.getD_some]
      omega

theorem withinHonest {s : NodeSession σ κ} {ops : List (Operation κ)}
    (kept : Kept n.maxBufferedEvents s) (clean : StoresSucceed n s ops)
    (within : ∀ front back, ops = front ++ back →
      (after n s front).ackedCursor ≤ (after n s front).nodeCursor) : Honest n s ops := by
  induction ops generalizing s with
  | nil => exact trivial
  | cons op rest ih =>
    refine ⟨fun highest ack => ?_,?_⟩
    · obtain ⟨raised,still⟩ := stepRaises n kept.synced op clean.1
      have first : (op.perform n s).2.ackedCursor ≤ (op.perform n s).2.nodeCursor :=
        within [op] rest rfl
      rcases still with none | same
      · rw [ack] at none; contradiction
      · rw [raised,ack,same] at first
        simp only [Option.getD_some] at first
        omega
    · refine ih (keptStep kept (cleanStep n clean.1)) clean.2 fun front back split => ?_
      exact within (op::front) back (by rw [split,List.cons_append])

theorem journaledOffered {s : NodeSession σ κ} (synced : Synced s) {c : Nat}
    (above : s.ackedCursor < c) (listed : c ∈ (view s.store).positions) : Offered s c := by
  intro floor low events read
  have lower : floor < c := by
    rcases low with rfl | low
    · exact above
    · exact low
  obtain ⟨_,entries⟩ := LawfulNodeStateStore.events synced.ok events _ (Prod.ext read rfl)
  obtain ⟨e,he,rfl⟩ := List.mem_map.mp listed
  have inside : e ∈ events.map entryOf := by
    rw [entries]
    exact List.mem_filter.mpr ⟨he,decide_eq_true lower⟩
  obtain ⟨event,hevent,rfl⟩ := List.mem_map.mp inside
  exact List.mem_map_of_mem hevent

theorem emittedSpec {s : NodeSession σ κ} (synced : Synced s) {op : Operation κ}
    {event : NodeEvent} (h : emittedBy n s op = some event) :
    Emitted n.maxBufferedEvents s event (op.perform n s).2 := by
  cases op with
  | emitEvent kind data ids now =>
    have spec := emitSpec n kind data ids now s synced
    rcases run : emitEvent n kind data ids now s with ⟨result,t⟩
    rw [emittedBy,run] at h
    cases result with
    | error _ => contradiction
    | ok e =>
      cases Option.some.inj h
      have emitted := (wpOk spec run).2
      have same : ((Operation.emitEvent kind data ids now).perform n s).2 = t := by
        show (discarding (emitEvent n kind data ids now) s).2 = t
        simp only [discarding,bind,ExceptT.bind,ExceptT.mk,StateT.bind,run]
        rfl
      rw [same]
      exact emitted
  | _ => contradiction

/-- Nothing is lost to an over-acknowledgement exactly in the runs whose acknowledgements
all name cursors the node has handed out. -/
theorem overAcknowledgement {kernelState : κ} {ops : List (Operation κ)}
    (clean : StoresSucceed n (opened kernelState : NodeSession σ κ) ops) :
    NothingOverAcked n (opened kernelState : NodeSession σ κ) ops ↔
      Honest n (opened kernelState : NodeSession σ κ) ops := by
  have start := keptOpened (σ := σ) n.maxBufferedEvents kernelState
  constructor
  · intro nothing
    exact withinHonest n start clean nothing.within
  · intro honest
    refine ⟨fun front back split => ?_,?_⟩
    · rw [split] at honest clean
      exact honestWithin n start (succeedAppend n |>.mp clean).1 (honestAppend n |>.mp honest).1
        le_rfl
    · intro front op middle back event split emits small silent
      rw [split,← List.cons_append,← List.append_assoc] at honest clean
      have cleanUp := (succeedAppend n |>.mp clean).1
      obtain ⟨cleanFront,cleanRest⟩ := succeedAppend n |>.mp cleanUp
      have honestFront := (honestAppend n |>.mp (honestAppend n |>.mp honest).1).1
      have before := keptRun start (afterRun n cleanFront)
      have within := honestWithin n start cleanFront honestFront le_rfl
      have emitted := emittedSpec n before.synced emits
      have next := keptStep before (cleanStep n cleanRest.1)
      have last := keptRun start (afterRun n cleanUp)
      generalize hs : (opened kernelState : NodeSession σ κ) = first at *
      rw [afterAppend] at small last silent ⊢
      have above : (after n (after n first front) (op::middle)).ackedCursor <
          event.cursor := by
        refine ackedAfter n next cleanRest.2 ?_ small
        rw [emitted.acked,emitted.cursor]
        omega
      have high : event.cursor ≤
          (after n (after n first front) (op::middle)).nodeCursor := by
        rw [← emitted.node]
        exact (runMonotone next (afterRun n cleanRest.2)).2
      have once := last.sound.once event.cursor (by rw [← last.synced.acked]; exact above)
        (by rw [← last.synced.node]; exact high)
      have none : (view (after n (after n first front) (op::middle)).store).gone.countP
          (inRange event.cursor) = 0 := by
        apply List.countP_eq_zero.mpr
        intro r hr
        simpa [inRange] using silent r hr
      refine journaledOffered last.synced above (List.count_pos_iff.mp ?_)
      rw [Ledger.accounts,none] at once
      omega

def cloudAck (sessionId : String) (highest : Nat) : Json := .object
  [("protocol",.string "accp/1.0"),
   ("schemaDigest",.string ("sha256:" ++ String.ofList (List.replicate 64 '0'))),
   ("type",.string "message.ack"),
   ("messageId",.string "019b76da-a800-7000-8000-000000000001"),
   ("sessionId",.string sessionId),
   ("workspaceId",.string "00000000-0000-7000-8000-000000000000"),
   ("senderId",.string "cloud"),("sequence",.nat 1),
   ("sentAt",.string "2026-01-01T00:00:00.000Z"),
   ("payloadDigest",.string ("sha256:" ++ String.ofList (List.replicate 64 '0'))),
   ("payload",.object
     [("ackFor",.string "019b76da-a800-7000-8000-000000000002"),
      ("cursorAck",.object [("highestContiguousCursor",.nat highest),("gaps",.array [])])]),
   ("signature",.string "ed25519:c2ln")]

def overAckedRun : List (Operation Unit) :=
  [.startHandshake 1767225600000,
   .receive (cloudAck "019b76da-a800-7000-8000-000000000000" 5) 1767225600000,
   noted "run.started"]

def resetNode : NodeSession InMemoryNodeStateStore Unit := opened ()

theorem resetNodeLoses : StoresSucceed (idleNode 10) resetNode overAckedRun ∧
    ¬NothingOverAcked (idleNode 10) resetNode overAckedRun ∧
    ¬Offered (after (idleNode 10) resetNode overAckedRun) 1 := by
  refine ⟨⟨returnedNoFault (by decide +kernel),returnedNoFault (by decide +kernel),
    returnedNoFault (by decide +kernel),trivial⟩,fun nothing => ?_,fun offered => ?_⟩
  · have within := nothing.within overAckedRun [] (List.append_nil _).symm
    revert within
    decide +kernel
  · have listed := offered _ (.inl rfl) _ rfl
    revert listed
    decide +kernel

def honestRun : List (Operation Unit) :=
  [.startHandshake 1767225600000,noted "run.started",
   .receive (cloudAck "019b76da-a800-7000-8000-000000000000" 1) 1767225600000]

theorem honestRunKeeps : NothingOverAcked (idleNode 10) resetNode honestRun := by
  have clean : StoresSucceed (idleNode 10) resetNode honestRun :=
    ⟨returnedNoFault (by decide +kernel),returnedNoFault (by decide +kernel),
      returnedNoFault (by decide +kernel),trivial⟩
  have last : ackOf (idleNode 10) (after (idleNode 10) resetNode (honestRun.take 2))
      (.receive (cloudAck "019b76da-a800-7000-8000-000000000000" 1) 1767225600000) = some 1 := by
    decide +kernel
  refine (overAcknowledgement (idleNode 10) clean).mpr ⟨by simp [ackOf],
    by simp [ackOf,noted],?_,trivial⟩
  intro highest ack
  cases Option.some.inj (last.symm.trans ack)
  decide +kernel

end ControlCenter.OverAcknowledgement
