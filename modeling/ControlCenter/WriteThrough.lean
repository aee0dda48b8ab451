import ControlCenter.OfferAgreement

/-! The cursors and answers a session caches and those the next session would load. An
acknowledgement and a decided answer are cached first, so a store call that throws parts them,
and so does an answer the store reads back under another key. -/
namespace ControlCenter.WriteThrough
open JsonValue AccpEnvelope AccpMessages AccpSeal StateStore Session ActionLogic
open SessionFrames SessionRuns Admission DurableRecords OfferLedger OfferAgreement
open OverAcknowledgement (after afterAppend appliedAck ackOf)

variable {σ κ α : Type} (n : Node κ) [NodeStateStore σ] [RecordStore σ]

def Agrees (s : NodeSession σ κ) : Prop := cached s = loaded s

def RecordsSame (s t : NodeSession σ κ) : Prop := cached t = cached s ∧ loaded t = loaded s

theorem RecordsSame.agrees {s t : NodeSession σ κ} (same : RecordsSame s t) (agrees : Agrees s) :
    Agrees t := same.1.trans (agrees.trans same.2.symm)

theorem recordsStore {m : StoreM σ α} {excused : Fault → Prop}
    (changes : Changes RecordStore.contents RecordStore.contents m) :
    Frame excused RecordsSame (onStore m : SessionM σ κ α) :=
  frameChanges changes (fun _ _ kept => ⟨rfl,congrArg Contents.toRecords kept⟩)
    fun _ _ kept => ⟨rfl,congrArg Contents.toRecords kept⟩

theorem recordsBuffering {excused : Fault → Prop} :
    Buffering excused (RecordsSame : NodeSession σ κ → NodeSession σ κ → Prop) where
  refl _ := ⟨rfl,rfl⟩
  trans _ _ _ front back := ⟨back.1.trans front.1,back.2.trans front.2⟩
  outSeq _ _ := ⟨rfl,rfl⟩
  draws _ _ := ⟨rfl,rfl⟩
  events c := recordsStore (RecordStore.events c)
  truncations := recordsStore RecordStore.truncations
  deleted c := recordsStore (RecordStore.deleted c)
  truncated a b r := recordsStore (RecordStore.truncated a b r)

theorem emitAgrees (kind : String) (data : List (String × Json)) (ids : EventIds) (now : Int)
    {s : NodeSession σ κ} (agrees : Agrees s) : Agrees (emitEvent n kind data ids now s).2 := by
  have buffers : Buffering (fun _ => False)
    (RecordsSame : NodeSession σ κ → NodeSession σ κ → Prop) := recordsBuffering
  unfold emitEvent
  rw [runOk (show (get : SessionM σ κ _) s = (.ok s,s) from rfl)]
  have draws := (frameDraw buffers.toSealing n now).always s
  rcases drawing : drawUuid n now s with ⟨fault | eventId,t⟩
  · rw [runError drawing]
    rw [drawing] at draws
    exact draws.agrees agrees
  · rw [runOk drawing]
    rw [drawing] at draws
    have before : Agrees t := draws.agrees agrees
    rcases appending : (onStore (NodeStateStore.appendEventAndAdvanceCursor
      ⟨s.nodeCursor + 1,eventId,kind,AccpIds.toISOString now,data,ids.runId,ids.taskId⟩) :
        SessionM σ κ Unit) t with ⟨result,u⟩
    obtain ⟨store,rfl,⟨_,rfl,_,moved⟩ | ⟨message,rfl,_,same⟩⟩ :=
      storeWrites (RecordStore.appended _) appending
    · rw [runOk appending]
      refine RecordsSame.agrees (s := {t with store,nodeCursor := s.nodeCursor + 1}) ?_ ?_
      · exact (frameSeq buffers.trans (frameEnforce buffers n) fun _ =>
          framePure _ buffers.refl).always _
      · refine Eq.trans ?_ (congrArg Contents.toRecords moved).symm
        have before : cached t = (RecordStore.contents t.store).toRecords := before
        show _ = {(RecordStore.contents t.store).toRecords with nodeCursor := s.nodeCursor + 1}
        rw [← before]
        rfl
    · rw [runError appending]
      exact before.trans (congrArg Contents.toRecords same).symm

omit [NodeStateStore σ] [RecordStore σ] in
theorem appliedAdmitted (s : NodeSession σ κ) (raw : Json) (now : Int) :
    appliedAck n s raw now = (admission n s raw now).dispatched.bind fun envelope =>
      if envelope.type = "message.ack" then
        (parsePayload n.platform "message.ack" envelope.payload).toOption.bind cursorAck
      else none := by
  unfold appliedAck admission
  cases verifySealedEnvelope n.platform raw n.credentials.cloudPublicKeyPem now with
  | error message => rfl
  | ok verified =>
    cases verified with
    | failed code detail => rfl
    | ok envelope payload =>
      dsimp only
      cases isExpectedCloudEnvelope n s envelope with
      | false => rfl
      | true =>
        cases seen : s.dedup.seen.contains envelope.messageId with
        | true => rw [checkSeen seen]; rfl
        | false =>
          rw [checkFresh seen]
          by_cases type : envelope.type = "message.ack"
          · cases parsed : parsePayload n.platform "message.ack" envelope.payload <;>
              simp [type,parsed,Outcome.dispatched,Except.toOption]
          · simp [type,Outcome.dispatched]

theorem ackRecords {envelope : Envelope} {ack : Json}
    (parsed : parsePayload n.platform "message.ack" envelope.payload = .ok ack)
    (s : NodeSession σ κ) : match cursorAck ack with
      | none => RecordsSame s (receiveAck n envelope s).2
      | some highest =>
        cached (receiveAck n envelope s).2 =
          {cached s with ackedCursor := max s.ackedCursor highest} ∧
        match (NodeStateStore.setAckedCursor (max s.ackedCursor highest) s.store).1 with
        | .ok _ => loaded (receiveAck n envelope s).2 =
            {loaded s with ackedCursor := max s.ackedCursor highest}
        | .error _ => loaded (receiveAck n envelope s).2 = loaded s := by
  unfold receiveAck
  rw [parsed,runOk (show (orThrow (.ok ack) : SessionM σ κ _) s = (.ok ack,s) from rfl)]
  cases cursorAck ack with
  | none => exact ⟨rfl,rfl⟩
  | some highest =>
    dsimp only
    rw [runOk (show (changing _ : SessionM σ κ Unit) s = (.ok (),_) from rfl),
      runOk (show (get : SessionM σ κ (NodeSession σ κ)) _ = (.ok _,_) from rfl)]
    rcases setting : (onStore (NodeStateStore.setAckedCursor (max s.ackedCursor highest)) :
      SessionM σ κ Unit) {s with ackedCursor := max s.ackedCursor highest} with ⟨result,t⟩
    obtain ⟨store,rfl,⟨_,rfl,called,moved⟩ | ⟨message,rfl,called,same⟩⟩ :=
      storeWrites (RecordStore.acked _) setting
    · rw [runOk setting,called]
      have buffers : Buffering (fun _ => False)
        (RecordsSame : NodeSession σ κ → NodeSession σ κ → Prop) := recordsBuffering
      have prunes : Frame (fun _ => False) RecordsSame
          (onStore (NodeStateStore.pruneUpTo (max s.ackedCursor highest)) >>= fun _ =>
            pure [] : SessionM σ κ (List Envelope)) :=
        frameSeq buffers.trans (recordsStore (RecordStore.pruned _)) fun _ =>
          framePure _ buffers.refl
      have last := prunes.always {s with store,ackedCursor := max s.ackedCursor highest}
      exact ⟨last.1,last.2.trans (congrArg Contents.toRecords moved)⟩
    · rw [runError setting,called]
      exact ⟨rfl,congrArg Contents.toRecords same⟩

def Unrecorded (s : NodeSession σ κ) (op : Operation κ) : Prop :=
  (∃ highest message, ackOf n s op = some highest ∧ s.ackedCursor < highest ∧
    (NodeStateStore.setAckedCursor highest s.store).1 = .error message) ∨
  ∃ d, decidedBy n s op = some d ∧ ((∃ message,
    (NodeStateStore.saveOfferAnswer d.idem d.answer.type d.answer.payload s.store).1 =
      .error message) ∨ ¬LoadsBack s.store d.idem)

theorem recordedReceive {s : NodeSession σ κ} {raw : Json} {now : Int} (agrees : Agrees s)
    (written : ¬Unrecorded n s (.receive raw now)) : Agrees (receive n raw now s).2 := by
  cases chosen : decidedBy n s (.receive raw now) with
  | some d =>
    obtain ⟨_,_,envelope,same,inside⟩ := decidedSource n chosen
    cases same
    obtain ⟨decision,_,_,answer⟩ := inside.decided
    obtain ⟨plain,_⟩ := answerPlain (offerTexts inside.offer.parsed) decision now
    rw [← answer] at plain
    obtain ⟨cache,store⟩ := answeredReceive n inside
    cases saving : (NodeStateStore.saveOfferAnswer d.idem d.answer.type d.answer.payload
      s.store).1 with
    | error message => exact absurd (.inr ⟨d,chosen,.inl ⟨message,saving⟩⟩) written
    | ok _ =>
      rw [saving] at store
      rw [RecordStore.keptPlain plain] at store
      have back : LoadsBack s.store d.idem := not_not.mp fun other =>
        written (.inr ⟨d,chosen,.inr other⟩)
      have saved := (congrArg Contents.toRecords store).trans (savedBack back _)
      exact cache.trans ((congrArg (·.answering d.idem d.answer) agrees).trans saved.symm)
  | none =>
    have buffers : Buffering (fun _ => False)
      (RecordsSame : NodeSession σ κ → NodeSession σ κ → Prop) := recordsBuffering
    have reads : Reading (fun _ => False) fun s t : NodeSession σ κ => Agrees s → Agrees t :=
      { refl := fun _ => id
        trans := fun _ _ _ front back => back ∘ front
        outSeq := fun _ _ => id
        draws := fun _ _ => id
        events := fun c => (buffers.events c).mono fun _ _ => RecordsSame.agrees
        truncations := buffers.truncations.mono fun _ _ => RecordsSame.agrees }
    refine undecidedReceive n reads (reviewedAny fun _ _ => id) (fun _ _ _ _ _ => id)
      (fun _ _ => id) (fun _ _ _ _ => id) chosen
      (fun envelope outcome type before => ?_) agrees
    cases parsed : parsePayload n.platform "message.ack" envelope.payload with
    | error message =>
      unfold receiveAck
      rw [parsed]
      exact before
    | ok ack =>
      have records := ackRecords n parsed (recorded s envelope)
      cases named : cursorAck ack with
      | none =>
        rw [named] at records
        exact records.agrees before
      | some highest =>
        rw [named] at records
        obtain ⟨cache,store⟩ := records
        have acked : ackOf n s (.receive raw now) = some highest := by
          rw [ackOf,appliedAdmitted,outcome]
          simp [Outcome.dispatched,type,parsed,Except.toOption,named]
        cases setting : (NodeStateStore.setAckedCursor (max s.ackedCursor highest) s.store).1 with
        | ok _ =>
          rw [show (recorded s envelope).store = s.store from rfl,
            show (recorded s envelope).ackedCursor = s.ackedCursor from rfl,setting] at store
          have before : cached (recorded s envelope) = loaded (recorded s envelope) := before
          exact cache.trans ((congrArg (fun r : Records => {r with
            ackedCursor := max s.ackedCursor highest}) before).trans store.symm)
        | error message =>
          rw [show (recorded s envelope).store = s.store from rfl,
            show (recorded s envelope).ackedCursor = s.ackedCursor from rfl,setting] at store
          have low : highest ≤ s.ackedCursor := by
            by_contra above
            rw [Nat.max_eq_right (by omega)] at setting
            exact written (.inl ⟨highest,message,acked,by omega,setting⟩)
          rw [show (recorded s envelope).ackedCursor = s.ackedCursor from rfl,
            Nat.max_eq_left low] at cache
          exact cache.trans (before.trans store.symm)

theorem recordedStep {s : NodeSession σ κ} (op : Operation κ) (agrees : Agrees s)
    (written : ¬Unrecorded n s op) : Agrees (op.perform n s).2 := by
  have buffers : Buffering (fun _ => False)
    (RecordsSame : NodeSession σ κ → NodeSession σ κ → Prop) := recordsBuffering
  have calm {β : Type} {m : SessionM σ κ β} (frame : Frame (fun _ => False) RecordsSame m) :
      Agrees (discarding m s).2 := by
    rw [discardingState]
    exact (frame.always s).agrees agrees
  cases op with
  | emitEvent kind data ids now =>
    rw [Operation.perform,discardingState]
    exact emitAgrees n kind data ids now agrees
  | flush now fromCursor => exact calm (frameFlush buffers.toReading n now fromCursor)
  | proposeCompletion payload now => exact calm (framePropose buffers.toSealing n payload now)
  | startHandshake now =>
    exact calm (frameHandshake buffers.toSealing n (fun _ _ => ⟨rfl,rfl⟩) now)
  | disconnect => exact agrees
  | restart kernelState =>
    obtain ⟨store,⟨fault,_,cache⟩ | ⟨_,cache⟩⟩ := restartRecords kernelState s
    · exact cache.trans (agrees.trans (congrArg Contents.toRecords store).symm)
    · exact cache.trans (congrArg Contents.toRecords store).symm
  | receive raw now =>
    rw [Operation.perform,discardingState]
    exact recordedReceive n agrees written

omit [NodeStateStore σ] [RecordStore σ] in
theorem ackSource {s : NodeSession σ κ} {op : Operation κ} {highest : Nat}
    (acked : ackOf n s op = some highest) : ∃ raw now envelope ack, op = .receive raw now ∧
      admission n s raw now = .delivered envelope ∧ envelope.type = "message.ack" ∧
      parsePayload n.platform "message.ack" envelope.payload = .ok ack ∧
      cursorAck ack = some highest := by
  cases op with
  | receive raw now =>
    rw [ackOf,appliedAdmitted,Option.bind_eq_some_iff] at acked
    obtain ⟨envelope,delivered,inside⟩ := acked
    split at inside
    · obtain ⟨ack,parsed,named⟩ := Option.bind_eq_some_iff.mp inside
      exact ⟨raw,now,envelope,ack,rfl,dispatchedSource delivered,‹_›,toOptionSome parsed,named⟩
    · contradiction
  | _ => contradiction

theorem unrecordedParts {s : NodeSession σ κ} {op : Operation κ} (agrees : Agrees s)
    (unrecorded : Unrecorded n s op) : ¬Agrees (op.perform n s).2 := by
  intro next
  rcases unrecorded with ⟨highest,message,acked,above,setting⟩ | ⟨d,chosen,lost⟩
  · obtain ⟨raw,now,envelope,ack,rfl,outcome,type,parsed,named⟩ := ackSource n acked
    have records := ackRecords n parsed (recorded s envelope)
    have high : max s.ackedCursor highest = highest := Nat.max_eq_right above.le
    rw [named] at records
    obtain ⟨cache,store⟩ := records
    rw [show (recorded s envelope).ackedCursor = s.ackedCursor from rfl,high] at cache store
    rw [show (recorded s envelope).store = s.store from rfl,setting] at store
    have done : receive n raw now s = receiveAck n envelope (recorded s envelope) := by
      rw [receiveAdmitted,outcome]
      dsimp only
      rw [dispatch,if_neg (by rw [type]; decide),if_pos type]
    rw [Operation.perform,discardingState,done] at next
    have equal : highest = s.ackedCursor :=
      congrArg Records.ackedCursor (cache.symm.trans (next.trans (store.trans agrees.symm)))
    omega
  · obtain ⟨raw,now,envelope,rfl,inside⟩ := decidedSource n chosen
    obtain ⟨decision,_,_,answer⟩ := inside.decided
    obtain ⟨plain,type⟩ := answerPlain (offerTexts inside.offer.parsed) decision now
    rw [← answer] at plain type
    obtain ⟨cache,store⟩ := answeredReceive n inside
    rw [Operation.perform,discardingState] at next
    have answers : s.offerAnswers = (stored s).answers := congrArg Records.answers agrees
    have cachedOwn : (loaded (receive n raw now s).2).answers.lookup d.idem = some d.answer := by
      rw [← next,cache]
      exact Finmap.lookup_insert _
    have unchanged : (loaded (receive n raw now s).2).answers.lookup d.idem =
        s.offerAnswers.lookup d.idem := by
      rw [answers]
      cases saving : (NodeStateStore.saveOfferAnswer d.idem d.answer.type d.answer.payload
        s.store).1 with
      | error message =>
        rw [saving] at store
        exact congrArg (fun c : Contents => c.answers.lookup d.idem) store.1
      | ok _ =>
        rw [saving] at store lost
        have elsewhere := lost.resolve_left (by rintro ⟨message,failed⟩; cases failed)
        exact (congrArg (fun c : Contents => c.answers.lookup d.idem) store).trans
          (savedElsewhere elsewhere _)
    have held : heldAnswer n s (idemOf envelope) = some d.answer := by
      rw [heldAnswer,← inside.idem,← unchanged,cachedOwn,Option.filter_some,answerKnown type]
      rfl
    rw [inside.unheld] at held
    contradiction

structure WrittenThrough (s : NodeSession σ κ) (ops : List (Operation κ)) : Prop where
  agrees : ∀ front back, ops = front ++ back → Agrees (after n s front)
  durable : ∀ front op back, ops = front ++ op::back →
    ∀ sealed ∈ answersBy n (after n s front) op, Loaded (after n s (front ++ [op])) sealed

theorem agreesLoaded {s : NodeSession σ κ} {op : Operation κ} (next : Agrees (op.perform n s).2)
    {sealed : Envelope} (listed : sealed ∈ answersBy n s op) : Loaded (op.perform n s).2 sealed := by
  cases offered : deliveredOffer n s op with
  | none =>
    rw [unoffered n offered] at listed
    contradiction
  | some delivered =>
    obtain ⟨envelope,offer⟩ := delivered
    obtain ⟨raw,now,rfl,source⟩ := offerSource n offered
    obtain ⟨_,answer,returned⟩ := offerAnswered n source listed
    rw [Operation.perform,discardingState] at next ⊢
    refine ⟨_,returned.key,?_⟩
    have same : (receive n raw now s).2.offerAnswers = (stored (receive n raw now s).2).answers :=
      congrArg Records.answers next
    rw [← same,returned.type,returned.payload]
    exact returned.cached

/-- Every call of a run leaves the caches as a new session would load them, and returns no
answer that is not stored, exactly when no call's own record is refused by the store or loaded
under another key. -/
theorem writesThrough {kernelState : κ} {blank start : NodeSession σ κ}
    {ops : List (Operation κ)} (built : restart kernelState blank = (.ok (),start)) :
    WrittenThrough n start ops ↔
      ∀ front op back, ops = front ++ op::back → ¬Unrecorded n (after n start front) op := by
  have agrees : Agrees start := by
    obtain ⟨store,⟨fault,failed,_⟩ | ⟨_,cache⟩⟩ := restartRecords kernelState blank
    · rw [built] at failed
      contradiction
    · rw [built] at store cache
      exact cache.trans (congrArg Contents.toRecords store).symm
  have every := everyAfter n (I := Agrees) (D := fun s op => ¬Unrecorded n s op)
    (fun s op agrees => ⟨fun next unrecorded => unrecordedParts n agrees unrecorded next,
      recordedStep n op agrees⟩) agrees ops
  constructor
  · exact fun holds => every.mp holds.agrees
  · intro written
    have all := every.mpr written
    refine ⟨all,fun front op back split sealed listed => ?_⟩
    have next := all (front ++ [op]) back (by rw [split,List.append_assoc]; rfl)
    rw [afterLast] at next ⊢
    exact agreesLoaded n next listed

def filled (failures : List (Option String)) : NodeSession (Flaky InMemoryNodeStateStore) Unit :=
  (restart () ⟨⟨.empty,none::none::failures⟩,(),0,0,∅,"",none,0,none,.empty,false,0⟩).2

def offeredTwice : List (Operation Unit) :=
  [.startHandshake 1767225600000,
   offering "019b76da-a800-7000-8000-000000000001" "019b76da-a800-7000-8000-0000000000a1",
   offering "019b76da-a800-7000-8000-000000000002" "019b76da-a800-7000-8000-0000000000a1"]

theorem builtNode (failures : List (Option String)) :
    restart () ⟨⟨.empty,none::none::failures⟩,(),0,0,∅,"",none,0,none,.empty,false,0⟩ =
      (.ok (),filled failures) := rfl

theorem builtFile : restart () fileNode = (.ok (),fileNode) := rfl

theorem unstoredAnswerSent : (∃ start : NodeSession (Flaky InMemoryNodeStateStore) Unit,
    (∃ blank, restart () blank = (.ok (),start)) ∧
    ¬WrittenThrough (idleNode 10) start offeredTwice ∧
    ∃ sealed ∈ answersBy (idleNode 10) (after (idleNode 10) start (offeredTwice.take 2))
        (offering "019b76da-a800-7000-8000-000000000002" "019b76da-a800-7000-8000-0000000000a1"),
      ¬Loaded (after (idleNode 10) start offeredTwice) sealed) ∧
    ∃ start : NodeSession (SqliteNodeStateStore nodeSqlite) Unit,
      (∃ blank, restart () blank = (.ok (),start)) ∧
      ¬WrittenThrough (idleNode 10) start (cutFront.take 2) := by
  have checked : (collected (idleNode 10) (answersBy (idleNode 10)) (filled [some "disk full"])
      (offeredTwice.take 2)).length = 0 ∧
    ((answersBy (idleNode 10) (after (idleNode 10) (filled [some "disk full"])
      (offeredTwice.take 2)) (offering "019b76da-a800-7000-8000-000000000002"
        "019b76da-a800-7000-8000-0000000000a1")).map (·.idempotencyKey) = [some "offer-1"] ∧
    ((stored (after (idleNode 10) (filled [some "disk full"]) offeredTwice)).answers.lookup
      "offer-1").isNone = true) := by decide +kernel
  obtain ⟨_,keys,absent⟩ := checked
  obtain ⟨sealed,listed,key⟩ := List.map_eq_singleton_iff.mp keys
  have undurable : ¬Loaded (after (idleNode 10) (filled [some "disk full"]) offeredTwice) sealed := by
    rintro ⟨other,named,found⟩
    rw [key] at named
    cases Option.some.inj named
    rw [Option.isNone_iff_eq_none.mp absent] at found
    cases found
  have sent := List.mem_singleton.mpr (rfl : sealed = sealed)
  rw [← listed] at sent
  have cut : ((cached (after (idleNode 10) fileNode (cutFront.take 2))).answers.lookup
        cutKey).isSome = true ∧
      ((loaded (after (idleNode 10) fileNode (cutFront.take 2))).answers.lookup
        cutKey).isSome = false := by decide +kernel
  refine ⟨⟨_,⟨_,builtNode _⟩,
    fun holds => undurable (holds.durable (offeredTwice.take 2) _ [] rfl sealed sent),
    sealed,sent,undurable⟩,fileNode,⟨_,builtFile⟩,fun holds => ?_⟩
  have agrees := holds.agrees (cutFront.take 2) [] (List.append_nil _).symm
  have same := congrArg (fun r : Records => (r.answers.lookup cutKey).isSome) agrees
  exact Bool.noConfusion (cut.1.symm.trans (same.trans cut.2))

theorem twiceAnswered : WrittenThrough (idleNode 10)
      (opened () : NodeSession InMemoryNodeStateStore Unit) offeredTwice ∧
    (collected (idleNode 10) (answersBy (idleNode 10))
      (opened () : NodeSession InMemoryNodeStateStore Unit) offeredTwice).length = 2 := by
  have built : restart () (opened () : NodeSession InMemoryNodeStateStore Unit) =
    (.ok (),opened ()) := rfl
  refine ⟨(writesThrough (idleNode 10) built).mpr ?_,by decide +kernel⟩
  rintro front op back split (⟨highest,message,_,_,setting⟩ | ⟨d,_,⟨message,saving⟩ | elsewhere⟩)
  · cases (show (.ok () : Except String Unit) = .error message from setting)
  · cases (show (.ok () : Except String Unit) = .error message from saving)
  · exact elsewhere ⟨(rfl : d.idem = d.idem),rfl⟩

end ControlCenter.WriteThrough
