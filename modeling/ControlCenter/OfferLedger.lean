import ControlCenter.DurableRecords
import ControlCenter.SealedEnvelopes

/-! What one call does to the offer answers. A delivered offer replays the answer held for
its key or has the kernel decide one, which is cached and then stored. -/
namespace ControlCenter.OfferLedger
open JsonValue ZodSchema AccpEnvelope AccpIds AccpMessages AccpSeal StateStore Session
open ActionLogic SessionFrames SessionRuns Admission DurableRecords SealedEnvelopes

theorem offerSchema (p : Platform) : schemaOf p "work.offer" = some (workOfferSchema p) := by
  simp [schemaOf,messageSchemas]

theorem parsedOffer {p : Platform} {payload offer : Json}
    (h : parsePayload p "work.offer" payload = .ok offer) :
    workOfferSchema p payload = some offer := by
  simp only [parsePayload,offerSchema,Option.bind_some] at h
  split at h
  · cases Except.ok.inj h
    assumption
  · contradiction

structure OfferTexts (offer : Json) where
  taskId : String
  runId : String
  leaseId : String
  digest : String
  task : offer.get "taskId" = .string taskId
  run : offer.get "runId" = .string runId
  lease : (offer.get "lease").get "leaseId" = .string leaseId
  plan : (offer.get "planRevision").get "digest" = .string digest

theorem offerTexts {p : Platform} {payload offer : Json}
    (h : parsePayload p "work.offer" payload = .ok offer) : Nonempty (OfferTexts offer) := by
  have accepted := parsedOffer h
  have task := objectField accepted (by simp [field]) (f := field "taskId" uuidSchema) (by simp) rfl
  have run := objectField accepted (by simp [field]) (f := field "runId" uuidSchema) (by simp) rfl
  have lease := objectField accepted (by simp [field]) (f := field "lease" (object
     [field "leaseId" uuidSchema,field "expiresAt" dateTimeSchema,
      field "renewIntervalMs" (integerFrom 5000)])) (by simp) rfl
  have plan := objectField accepted (by simp [field]) (f := field "planRevision" (object
     [field "digest" sha256HexSchema,field "baseCommit" gitShaSchema])) (by simp) rfl
  have leaseId := objectField lease (by decide) (f := field "leaseId" uuidSchema) (by simp) rfl
  have digest := objectField plan (by decide) (f := field "digest" sha256HexSchema) (by simp) rfl
  obtain ⟨taskId,sameTask,_⟩ := stringThatText task
  obtain ⟨runId,sameRun,_⟩ := stringThatText run
  obtain ⟨leaseText,sameLease,_⟩ := stringThatText leaseId
  obtain ⟨digestText,sameDigest,_⟩ := stringThatText digest
  exact ⟨⟨taskId,runId,leaseText,digestText,sameTask,sameRun,sameLease,sameDigest⟩⟩

def answerTypes : List String := ["work.accepted","work.declined"]

theorem answerPlain {offer : Json} (texts : Nonempty (OfferTexts offer)) (decision : OfferDecision)
    (now : Int) : Plain (answerOf offer decision now).payload ∧
      (answerOf offer decision now).type ∈ answerTypes := by
  obtain ⟨texts⟩ := texts
  cases decision with
  | accept =>
    refine ⟨⟨by simp [answerOf],?_⟩,by simp [answerOf,answerTypes]⟩
    simp [answerOf,texts.task,texts.run,texts.lease,texts.plan,Json.image,imageMembers]
  | decline reason detail =>
    refine ⟨⟨by simp [answerOf],?_⟩,by simp [answerOf,answerTypes]⟩
    cases detail <;>
      simp [answerOf,texts.task,texts.run,texts.lease,Json.image,imageMembers,present]

section
variable {σ κ : Type} (n : Node κ)

def idemOf (envelope : Envelope) : String := envelope.idempotencyKey.getD ""

def heldAnswer (s : NodeSession σ κ) (idem : String) : Option OfferAnswer :=
  (s.offerAnswers.lookup idem).filter fun a => isAccpMessageType n.platform a.type

def deliveredOffer (s : NodeSession σ κ) (op : Operation κ) : Option (Envelope × Json) :=
  (deliveredBy n s op).bind fun envelope =>
    if envelope.type = "work.offer" then
      (parsePayload n.platform "work.offer" envelope.payload).toOption.map fun offer =>
        (envelope,offer)
    else none

structure Decided where
  idem : String
  offer : Json
  answer : OfferAnswer

def decidedBy (s : NodeSession σ κ) : Operation κ → Option Decided
  | .receive raw now => (deliveredOffer n s (.receive raw now)).bind fun (envelope,offer) =>
      match heldAnswer n s (idemOf envelope),(n.kernel.decideOffer offer s.kernelState).1 with
      | none,.ok decision => some ⟨idemOf envelope,offer,answerOf offer decision now⟩
      | _,_ => none
  | _ => none

variable [NodeStateStore σ]

theorem offerReceived {envelope : Envelope} {offer : Json} {now : Int} (s : NodeSession σ κ)
    (parsed : parsePayload n.platform "work.offer" envelope.payload = .ok offer) :
    receiveOffer n envelope now s = match heldAnswer n s (idemOf envelope) with
      | some answered => sealAnswer n envelope (idemOf envelope) answered now s
      | none => match n.kernel.decideOffer offer s.kernelState with
        | (.error message,kernelState) => (.error (.thrown message),{s with kernelState})
        | (.ok decision,kernelState) =>
          let answer := answerOf offer decision now
          (onStore (NodeStateStore.saveOfferAnswer (idemOf envelope) answer.type answer.payload)
            >>= fun _ => sealAnswer n envelope (idemOf envelope) answer now)
            {s with
              kernelState,offerAnswers := s.offerAnswers.insert (idemOf envelope) answer} := by
  unfold receiveOffer
  rw [parsed]
  refine (runOk rfl).trans ?_
  refine (runOk rfl).trans ?_
  show (match heldAnswer n s (idemOf envelope) with
    | some answered => _
    | none => _ : SessionM σ κ (List Envelope)) s = _
  cases heldAnswer n s (idemOf envelope) with
  | some answered => rfl
  | none =>
    dsimp only
    rcases decided : n.kernel.decideOffer offer s.kernelState with ⟨message | decision,kernelState⟩
    · have failed : (onKernel (n.kernel.decideOffer offer) : SessionM σ κ _) s =
          (.error (.thrown message),{s with kernelState}) := by rw [onKernel,decided]
      exact runError failed
    · have made : (onKernel (n.kernel.decideOffer offer) : SessionM σ κ _) s =
          (.ok decision,{s with kernelState}) := by rw [onKernel,decided]
      exact (runOk made).trans (runOk rfl)

structure OfferDelivered (s : NodeSession σ κ) (raw : Json) (now : Int) (envelope : Envelope)
    (offer : Json) : Prop where
  delivered : admission n s raw now = .delivered envelope
  type : envelope.type = "work.offer"
  parsed : parsePayload n.platform "work.offer" envelope.payload = .ok offer

omit [NodeStateStore σ] in
theorem offerSource {s : NodeSession σ κ} {op : Operation κ} {envelope : Envelope} {offer : Json}
    (h : deliveredOffer n s op = some (envelope,offer)) :
    ∃ raw now, op = .receive raw now ∧ OfferDelivered n s raw now envelope offer := by
  simp only [deliveredOffer,Option.bind_eq_some_iff] at h
  obtain ⟨e,delivered,inside⟩ := h
  split at inside
  · obtain ⟨o,parsed,same⟩ := Option.map_eq_some_iff.mp inside
    cases same
    cases op with
    | receive raw now =>
      exact ⟨raw,now,rfl,dispatchedSource delivered,‹_›,toOptionSome parsed⟩
    | _ => contradiction
  · contradiction

omit [NodeStateStore σ] in
theorem OfferDelivered.listed {s : NodeSession σ κ} {raw : Json} {now : Int}
    {envelope : Envelope} {offer : Json} (h : OfferDelivered n s raw now envelope offer) :
    deliveredOffer n s (.receive raw now) = some (envelope,offer) := by
  rw [deliveredOffer,deliveredBy,h.delivered,Outcome.dispatched,Option.bind_some,if_pos h.type,
    h.parsed]
  rfl

theorem dispatchOffer {envelope : Envelope} (now : Int) (type : envelope.type = "work.offer") :
    dispatch n envelope now = (receiveOffer n envelope now : SessionM σ κ (List Envelope)) := by
  rw [dispatch,if_neg (by rw [type]; decide),if_neg (by rw [type]; decide),if_pos type]

theorem offerDispatched {s : NodeSession σ κ} {raw : Json} {now : Int} {envelope : Envelope}
    {offer : Json} (h : OfferDelivered n s raw now envelope offer) :
    receive n raw now s = receiveOffer n envelope now (recorded s envelope) := by
  rw [receiveAdmitted,h.delivered]
  dsimp only
  rw [dispatchOffer n now h.type]

variable [RecordStore σ]

structure Answered {β : Type} (s : NodeSession σ κ) (d : Decided) (result : Except Fault β)
    (t : NodeSession σ κ) : Prop where
  cached : cached t = (cached s).answering d.idem d.answer
  stored : match (NodeStateStore.saveOfferAnswer d.idem d.answer.type d.answer.payload s.store).1
    with
    | .ok _ => stored t = savedContents s.store d.idem
        ⟨d.answer.type,RecordStore.kept σ d.answer.payload⟩
    | .error message => stored t = stored s ∧ result = .error (.store message)

theorem spentRecords {s t : NodeSession σ κ} (spent : Spent s t) :
    cached t = cached s ∧ stored t = stored s := by
  rw [spent]
  exact ⟨rfl,rfl⟩

theorem answerSaved (s : NodeSession σ κ) (d : Decided) (envelope : Envelope) (now : Int) :
    let run := (onStore (NodeStateStore.saveOfferAnswer d.idem d.answer.type d.answer.payload)
      >>= fun _ => sealAnswer n envelope d.idem d.answer now) s
    cached run.2 = cached s ∧
    match (NodeStateStore.saveOfferAnswer d.idem d.answer.type d.answer.payload s.store).1 with
    | .ok _ => stored run.2 = savedContents s.store d.idem
        ⟨d.answer.type,RecordStore.kept σ d.answer.payload⟩
    | .error message => stored run.2 = stored s ∧ run.1 = .error (.store message) := by
  intro run
  rcases saving : (onStore (NodeStateStore.saveOfferAnswer d.idem d.answer.type
    d.answer.payload) : SessionM σ κ Unit) s with ⟨result,t⟩
  obtain ⟨store,rfl,⟨_,rfl,called,moved⟩ | ⟨message,rfl,called,same⟩⟩ :=
    storeWrites (RecordStore.saved _ _ _) saving
  · have after : run = sealAnswer n envelope d.idem d.answer now {s with store} := runOk saving
    have spent := spentRecords ((frameAnswer spentSealing n envelope d.idem d.answer
      now).always {s with store})
    rw [called,after,spent.1,spent.2]
    exact ⟨rfl,moved⟩
  · have after : run = (.error (.store message),{s with store}) := runError saving
    rw [called,after]
    exact ⟨rfl,same,rfl⟩

structure DecidedIn (s : NodeSession σ κ) (raw : Json) (now : Int) (envelope : Envelope)
    (d : Decided) : Prop where
  offer : OfferDelivered n s raw now envelope d.offer
  idem : d.idem = idemOf envelope
  unheld : heldAnswer n s (idemOf envelope) = none
  decided : ∃ decision kernelState, n.kernel.decideOffer d.offer s.kernelState =
    (.ok decision,kernelState) ∧ d.answer = answerOf d.offer decision now

omit [NodeStateStore σ] [RecordStore σ] in
theorem decidedSource {s : NodeSession σ κ} {op : Operation κ} {d : Decided}
    (h : decidedBy n s op = some d) :
    ∃ raw now envelope, op = .receive raw now ∧ DecidedIn n s raw now envelope d := by
  cases op with
  | receive raw now =>
    simp only [decidedBy,Option.bind_eq_some_iff] at h
    obtain ⟨⟨envelope,offer⟩,delivered,inside⟩ := h
    obtain ⟨_,_,same,source⟩ := offerSource n delivered
    cases same
    dsimp only at inside
    cases held : heldAnswer n s (idemOf envelope) with
    | some answered => simp [held] at inside
    | none =>
      rcases decided : n.kernel.decideOffer offer s.kernelState with ⟨message | decision,kernelState⟩
      · simp [held,decided] at inside
      · simp only [held,decided,Option.some.injEq] at inside
        subst inside
        exact ⟨raw,now,envelope,rfl,source,rfl,held,decision,kernelState,decided,rfl⟩
  | _ => contradiction

theorem answeredReceive {s : NodeSession σ κ} {raw : Json} {now : Int} {envelope : Envelope}
    {d : Decided} (h : DecidedIn n s raw now envelope d) :
    Answered s d (receive n raw now s).1 (receive n raw now s).2 := by
  obtain ⟨decision,kernelState,decided,answer⟩ := h.decided
  have held : heldAnswer n (recorded s envelope) (idemOf envelope) = none := h.unheld
  have run : receiveOffer n envelope now (recorded s envelope) = _ :=
    offerReceived n _ h.offer.parsed
  rw [held,show (recorded s envelope).kernelState = s.kernelState from rfl,decided] at run
  simp only [← answer,← h.idem] at run
  rw [offerDispatched n h.offer,run]
  obtain ⟨cache,store⟩ := answerSaved n {recorded s envelope with
    kernelState,offerAnswers := s.offerAnswers.insert d.idem d.answer} d envelope now
  exact ⟨cache,store⟩

omit [RecordStore σ] in
theorem undecidedReceive {R : NodeSession σ κ → NodeSession σ κ → Prop}
    (reads : Reading (fun _ => False) R) (reviewed : Reviewed (fun _ => False) R n)
    (refused : ∀ s offer message kernelState, n.kernel.decideOffer offer s.kernelState =
      (.error message,kernelState) → R s {s with kernelState})
    (dedup : ∀ s dedup, R s {s with dedup})
    (connection : ∀ s welcome epoch connected, R s {s with welcome,epoch,connected})
    {s : NodeSession σ κ} {raw : Json} {now : Int}
    (none : decidedBy n s (.receive raw now) = none)
    (ack : ∀ envelope, admission n s raw now = .delivered envelope →
      envelope.type = "message.ack" →
      R (recorded s envelope) (receiveAck n envelope (recorded s envelope)).2) :
    R s (receive n raw now s).2 := by
  rw [receiveAdmitted]
  cases outcome : admission n s raw now with
  | thrown message => exact reads.refl s
  | rejected code detail => exact (frameRejected reads.toSealing n raw code detail now).always s
  | foreign envelope => exact (frameNack reads.toSealing n _ _ _ _ now).always s
  | duplicate envelope => exact reads.refl s
  | delivered envelope =>
    refine reads.trans s (recorded s envelope) _ (dedup s _) ?_
    by_cases offers : envelope.type = "work.offer"
    · dsimp only
      rw [dispatchOffer n now offers]
      cases parsed : parsePayload n.platform "work.offer" envelope.payload with
      | error message =>
        have thrown : receiveOffer n envelope now (recorded s envelope) =
            (.error (.thrown message),recorded s envelope) := by
          unfold receiveOffer
          rw [parsed]
          exact runError rfl
        rw [thrown]
        exact reads.refl _
      | ok offer =>
        have listed := OfferDelivered.listed n ⟨outcome,offers,parsed⟩
        rw [decidedBy,listed,Option.bind_some] at none
        rw [offerReceived n _ parsed,show heldAnswer n (recorded s envelope) (idemOf envelope) =
          heldAnswer n s (idemOf envelope) from rfl,
          show (recorded s envelope).kernelState = s.kernelState from rfl]
        cases held : heldAnswer n s (idemOf envelope) with
        | some answered =>
          exact (frameAnswer reads.toSealing n envelope _ answered now).always _
        | none =>
          rcases decided : n.kernel.decideOffer offer s.kernelState with
            ⟨message | decision,next⟩
          · exact refused (recorded s envelope) offer message next decided
          · simp [held,decided] at none
    by_cases acks : envelope.type = "message.ack"
    · dsimp only
      rw [dispatch,if_neg (by rw [acks]; decide),if_pos acks]
      exact ack envelope outcome acks
    · exact (frameDispatch reads n reviewed envelope now
        (fun _ => frameWelcome reads n connection envelope now)
        (fun acked => absurd acked acks) fun offer => absurd offer offers).always _

theorem keptReceive {s : NodeSession σ κ} {raw : Json} {now : Int}
    (none : decidedBy n s (.receive raw now) = none) : AnswersSame s (receive n raw now s).2 := by
  have journals : Journaling (fun _ => False)
    (AnswersSame : NodeSession σ κ → NodeSession σ κ → Prop) := answersJournaling
  exact undecidedReceive n journals.toReading (reviewedAny fun _ _ => ⟨rfl,rfl⟩)
    (fun _ _ _ _ _ => ⟨rfl,rfl⟩) (fun _ _ => ⟨rfl,rfl⟩) (fun _ _ _ _ => ⟨rfl,rfl⟩) none fun envelope _ _ => (frameAck journals n envelope).always _

def answersBy (s : NodeSession σ κ) : Operation κ → List Envelope
  | .receive raw now => ((receive n raw now s).1.toOption.getD []).filter fun e =>
      answerTypes.contains e.type
  | _ => []

omit [RecordStore σ] in
theorem returnsReceived {T : Envelope → Prop} (s : NodeSession σ κ) (raw : Json) (now : Int)
    (replies : ∀ (u : NodeSession σ κ) type payload extra e,
      type = "message.nack" ∨ type = "message.ack" → Sealed n u type payload now extra e → T e)
    (welcome : ∀ envelope, admission n s raw now = .delivered envelope →
      envelope.type = "node.welcome" →
      wp (receiveWelcome n envelope now) (fun out _ => ∀ e ∈ out, T e) (fun _ _ => True)
        (recorded s envelope))
    (offer : ∀ envelope, admission n s raw now = .delivered envelope →
      envelope.type = "work.offer" →
      wp (receiveOffer n envelope now) (fun out _ => ∀ e ∈ out, T e) (fun _ _ => True)
        (recorded s envelope)) :
    wp (receive n raw now) (fun out _ => ∀ e ∈ out, T e) (fun _ _ => True) s := by
  have nacks {nackFor code retryable detail} : Returns T
      (nack n nackFor code retryable detail now : SessionM σ κ (List Envelope)) :=
    returnsSealed n fun u e => replies u _ _ _ e (.inl rfl)
  have acknowledges (envelope : Envelope) : Returns T
      (acknowledge n envelope now : SessionM σ κ (List Envelope)) :=
    returnsSealed n fun u e => replies u _ _ _ e (.inr rfl)
  have admitted := receiveAdmitted n s raw now
  cases outcome : admission n s raw now with
  | thrown message =>
    rw [outcome] at admitted
    unfold wp
    rw [admitted]
    trivial
  | rejected code detail =>
    rw [outcome] at admitted
    have rejects : Returns T
        (receiveRejected n raw code detail now : SessionM σ κ (List Envelope)) :=
      returnsAfter fun attributed => by
        cases attributed with
        | none => exact returnsNone
        | some messageId =>
          dsimp only
          split
          · exact returnsNone
          · exact nacks
    dsimp only at admitted
    exact wpSame admitted (rejects s)
  | foreign envelope =>
    rw [outcome] at admitted
    dsimp only at admitted
    exact wpSame admitted (nacks s)
  | duplicate envelope =>
    rw [outcome] at admitted
    unfold wp
    rw [admitted]
    simp
  | delivered envelope =>
    rw [outcome] at admitted
    dsimp only at admitted
    refine wpSame admitted ?_
    unfold dispatch
    split
    · exact welcome envelope outcome ‹_›
    split
    · have applies : Returns T (receiveAck n envelope : SessionM σ κ (List Envelope)) :=
        returnsAfter fun ack => by
          split
          · exact returnsNone
          · exact returnsAfter fun _ => returnsAfter fun _ => returnsAfter fun _ =>
              returnsAfter fun _ => returnsNone
      exact applies _
    split
    · exact offer envelope outcome ‹_›
    split
    · have notifies : Returns T
          (receiveDecision n envelope now : SessionM σ κ (List Envelope)) :=
        returnsAfter fun decision => returnsAfter fun _ => acknowledges envelope
      exact notifies _
    split
    · exact acknowledges envelope _
    · exact nacks _

omit [RecordStore σ] in
theorem unoffered {s : NodeSession σ κ} {op : Operation κ}
    (none : deliveredOffer n s op = none) : answersBy n s op = [] := by
  cases op with
  | receive raw now =>
    have other (u : NodeSession σ κ) {type : String} {payload : Json} {extra : Extra}
        (apart : type ∉ answerTypes) (e : Envelope) (sealed : Sealed n u type payload now extra e) :
        e.type ∉ answerTypes := by rw [sealed.type]; exact apart
    have silent := returnsReceived n (T := fun e => e.type ∉ answerTypes) s raw now
      (fun u type payload extra e reply => by
        rcases reply with rfl | rfl
        · exact other u (by decide) e
        · exact other u (by decide) e)
      (fun envelope _ _ => returnsWelcome n (fun u _ _ _ => other u (by decide))
        (fun u _ => other u (by decide)) envelope _)
      (fun envelope outcome type => by
        unfold receiveOffer
        cases parsed : parsePayload n.platform "work.offer" envelope.payload with
        | ok offer => rw [OfferDelivered.listed n ⟨outcome,type,parsed⟩] at none; contradiction
        | error message => trivial)
    rw [answersBy,List.filter_eq_nil_iff]
    intro e listed
    rw [List.contains_iff_mem]
    rcases run : receive n raw now s with ⟨fault | out,t⟩
    · rw [run] at listed
      simp [Except.toOption] at listed
    · rw [run] at listed
      exact wpOk (Q := fun out _ => ∀ e ∈ out, e.type ∉ answerTypes) silent run e listed
  | _ => rfl

structure AnswerReturned (s t : NodeSession σ κ) (op : Operation κ) (envelope : Envelope)
    (offer : Json) (sealed : Envelope) (answer : OfferAnswer) : Prop where
  key : sealed.idempotencyKey = some (idemOf envelope)
  type : sealed.type = answer.type
  payload : sealed.payload = answer.payload
  cached : t.offerAnswers.lookup (idemOf envelope) = some answer
  source : heldAnswer n s (idemOf envelope) = some answer ∨
    decidedBy n s op = some ⟨idemOf envelope,offer,answer⟩

omit [RecordStore σ] [NodeStateStore σ] in
theorem answerSealed (envelope : Envelope) (idem : String) (answer : OfferAnswer) (now : Int)
    (s : NodeSession σ κ) : wp (sealAnswer n envelope idem answer now)
      (fun out t => InClock now ∧ t.offerAnswers = s.offerAnswers ∧ ∃ e, out = [e] ∧
        e.type = answer.type ∧ e.payload = answer.payload ∧ e.idempotencyKey = some idem)
      (fun _ _ => ¬(InClock now ∧ canonical answer.payload = true)) s := by
  have spec := sealSpec n answer.type answer.payload now ⟨some idem,some envelope.messageId⟩ s
  have seals : Frame (fun _ => False) Spent (sealMessage n answer.type answer.payload now
    ⟨some idem,some envelope.messageId⟩ : SessionM σ κ Envelope) := frameSeal spentSealing n _ _ now _
  unfold sealAnswer
  rw [wpBind]
  refine wpIntro (fun e t run => ?_) fun fault t run => (wpError spec run).2
  obtain ⟨sealed,clock,_⟩ := wpOk spec run
  have spent : Spent s t := seals.ok run
  exact ⟨clock,by rw [spent],e,rfl,sealed.type,sealed.payload,sealed.idempotencyKey⟩

theorem offerAnswered {s : NodeSession σ κ} {raw : Json} {now : Int} {envelope : Envelope}
    {offer : Json} (h : OfferDelivered n s raw now envelope offer) {sealed : Envelope}
    (listed : sealed ∈ answersBy n s (.receive raw now)) : InClock now ∧ ∃ answer,
    AnswerReturned n s (receive n raw now s).2 (.receive raw now) envelope offer sealed answer := by
  have found := List.mem_of_mem_filter listed
  rcases run : receive n raw now s with ⟨fault | out,t⟩
  · rw [run] at found
    simp [Except.toOption] at found
  · rw [run] at found
    have inside : sealed ∈ out := found
    rw [offerDispatched n h,offerReceived n _ h.parsed,show heldAnswer n (recorded s envelope)
      (idemOf envelope) = heldAnswer n s (idemOf envelope) from rfl,
      show (recorded s envelope).kernelState = s.kernelState from rfl] at run
    cases held : heldAnswer n s (idemOf envelope) with
    | some answered =>
      rw [held] at run
      obtain ⟨clock,same,e,rfl,type,payload,key⟩ :=
        wpOk (answerSealed n envelope _ answered now _) run
      cases List.mem_singleton.mp inside
      refine ⟨clock,answered,key,type,payload,?_,.inl held⟩
      have cache := (Option.filter_eq_some_iff.mp held).1
      rw [same]
      exact cache
    | none =>
      rw [held] at run
      rcases decided : n.kernel.decideOffer offer s.kernelState with
        ⟨message | decision,kernelState⟩
      · rw [decided] at run
        cases congrArg Prod.fst run
      · rw [decided] at run
        dsimp only at run
        have chosen : decidedBy n s (.receive raw now) =
            some ⟨idemOf envelope,offer,answerOf offer decision now⟩ := by
          simp [decidedBy,OfferDelivered.listed n h,held,decided]
        rcases saving : (onStore (NodeStateStore.saveOfferAnswer (idemOf envelope)
          (answerOf offer decision now).type (answerOf offer decision now).payload) :
            SessionM σ κ Unit) {recorded s envelope with
              kernelState
              offerAnswers := (recorded s envelope).offerAnswers.insert (idemOf envelope)
                (answerOf offer decision now)} with ⟨result,u⟩
        obtain ⟨store,rfl,⟨_,rfl,called,moved⟩ | ⟨message,rfl,called,same⟩⟩ :=
          storeWrites (RecordStore.saved _ _ _) saving
        · rw [runOk saving] at run
          obtain ⟨clock,same,e,rfl,type,payload,key⟩ :=
            wpOk (answerSealed n envelope _ (answerOf offer decision now) now _) run
          cases List.mem_singleton.mp inside
          refine ⟨clock,_,key,type,payload,?_,.inr chosen⟩
          rw [same]
          exact Finmap.lookup_insert _
        · rw [runError saving] at run
          cases congrArg Prod.fst run

omit n in
theorem restartRecords (kernelState : κ) (s : NodeSession σ κ) :
    stored (restart kernelState s).2 = stored s ∧
    ((∃ fault, (restart kernelState s).1 = .error fault ∧
      cached (restart kernelState s).2 = cached s) ∨
     ((restart kernelState s).1 = .ok () ∧
      cached (restart kernelState s).2 = (stored s).toRecords)) := by
  unfold restart
  rcases first : (onStore NodeStateStore.loadCursors : SessionM σ κ Cursors) s with ⟨result,t⟩
  obtain ⟨store,rfl,⟨c,rfl,called,still⟩ | ⟨message,rfl,called,still⟩⟩ :=
    storeWrites RecordStore.cursors first
  · rw [runOk first]
    rcases second : (onStore NodeStateStore.loadOfferAnswers : SessionM σ κ OfferAnswers)
      {s with store} with ⟨result,u⟩
    obtain ⟨store',rfl,⟨a,rfl,called',still'⟩ | ⟨message,rfl,called',still'⟩⟩ :=
      storeWrites RecordStore.answers second
    · rw [runOk second]
      have read := RecordStore.cursorsLoaded (Prod.ext called rfl)
      have answers := RecordStore.answersLoaded (Prod.ext called' rfl)
      refine ⟨still'.trans still,.inr ⟨rfl,?_⟩⟩
      have same : RecordStore.contents store = RecordStore.contents s.store := still
      rw [same] at answers
      simp only [changing,modify,cached]
      show Records.mk c.nodeCursor c.ackedCursor a = _
      rw [read.1,read.2,answers]
      rfl
    · rw [runError second]
      exact ⟨still'.trans still,.inl ⟨_,rfl,rfl⟩⟩
  · rw [runError first]
    exact ⟨still,.inl ⟨_,rfl,rfl⟩⟩

theorem answersStep (s : NodeSession σ κ) (op : Operation κ) :
    (decidedBy n s op = none ∧ (AnswersSame s (op.perform n s).2 ∨
      (∃ kernelState, op = .restart kernelState) ∧ (op.perform n s).1 = .ok () ∧
        (op.perform n s).2.offerAnswers = (stored s).answers ∧
        (stored (op.perform n s).2).held = (stored s).held)) ∨
    ∃ d, decidedBy n s op = some d ∧ Answered s d (op.perform n s).1 (op.perform n s).2 := by
  have journals : Journaling (fun _ => False)
    (AnswersSame : NodeSession σ κ → NodeSession σ κ → Prop) := answersJournaling
  have calm {β : Type} {m : SessionM σ κ β} (frame : Frame (fun _ => False) AnswersSame m) :
      AnswersSame s (discarding m s).2 := by
    rw [discardingState]
    exact frame.always s
  cases op with
  | emitEvent kind data ids now => exact .inl ⟨rfl,.inl (calm (frameEmit journals n kind data ids now))⟩
  | flush now fromCursor => exact .inl ⟨rfl,.inl (calm (frameFlush journals.toReading n now fromCursor))⟩
  | proposeCompletion payload now =>
    exact .inl ⟨rfl,.inl (calm (framePropose journals.toSealing n payload now))⟩
  | startHandshake now =>
    exact .inl ⟨rfl,.inl (calm (frameHandshake journals.toSealing n (fun _ _ => ⟨rfl,rfl⟩) now))⟩
  | disconnect => exact .inl ⟨rfl,.inl ⟨rfl,rfl⟩⟩
  | restart kernelState =>
    refine .inl ⟨rfl,?_⟩
    obtain ⟨store,⟨fault,_,cache⟩ | ⟨returned,cache⟩⟩ := restartRecords kernelState s
    · exact .inl ⟨congrArg Records.answers cache,congrArg Contents.held store⟩
    · exact .inr ⟨⟨_,rfl⟩,returned,congrArg Records.answers cache,congrArg Contents.held store⟩
  | receive raw now =>
    rw [Operation.perform,discardingState]
    cases chosen : decidedBy n s (.receive raw now) with
    | none => exact .inl ⟨rfl,.inl (keptReceive n chosen)⟩
    | some d =>
      obtain ⟨_,_,envelope,same,inside⟩ := decidedSource n chosen
      cases same
      obtain ⟨cache,store⟩ := answeredReceive n inside
      refine .inr ⟨d,rfl,cache,?_⟩
      cases saving : (NodeStateStore.saveOfferAnswer d.idem d.answer.type d.answer.payload
        s.store).1 with
      | ok _ => rw [saving] at store; exact store
      | error message =>
        rw [saving] at store
        exact ⟨store.1,discardingError store.2⟩

end

def offerPayload (taskId digest : String) : Json := .object
  [("taskId",.string taskId),("runId",.string "019b76da-a800-7000-8000-0000000000b1"),
   ("taskRevision",.nat 1),
   ("planRevision",.object [("digest",.string digest),
     ("baseCommit",.string (String.ofList (List.replicate 40 'b')))]),
   ("lease",.object [("leaseId",.string "019b76da-a800-7000-8000-0000000000c1"),
     ("expiresAt",.string "2026-01-01T01:00:00.000Z"),("renewIntervalMs",.nat 15000)]),
   ("policyBundle",.object
     [("digest",.string ("sha256:" ++ String.ofList (List.replicate 64 '0'))),
      ("bytesUrl",.string "https://policy.example/bundle")]),
   ("requiredCapabilities",.array []),("requiredSecrets",.array [])]

def offeringUnder (key messageId taskId : String) : Operation Unit :=
  .receive (cloudEnvelope "019b76da-a800-7000-8000-000000000000" messageId "work.offer"
    (some key) (offerPayload taskId (String.ofList (List.replicate 64 'a')))) 1767225600000

def offering : String → String → Operation Unit := offeringUnder "offer-1"

end ControlCenter.OfferLedger
