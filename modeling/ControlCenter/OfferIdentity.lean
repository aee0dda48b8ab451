import ControlCenter.OfferAgreement

/-! Which offer an answer is about. A held answer is found by its key alone, so an offer is
answered about itself exactly when the answer held for its key was made for its request. -/
namespace ControlCenter.OfferIdentity
open JsonValue AccpEnvelope AccpIds AccpMessages StateStore Session ActionLogic
open SessionRuns Admission DurableRecords OfferLedger SealedEnvelopes OfferAgreement
open OverAcknowledgement (after afterAppend)

-- What an offer asks for; each is a text in a parsed offer.
structure Request where
  taskId : String
  runId : String
  leaseId : String
  digest : String
  baseCommit : String
  deriving DecidableEq

def requestOf (offer : Json) : Request :=
  ⟨textAt "taskId" offer,textAt "runId" offer,textAt "leaseId" (offer.get "lease"),
    textAt "digest" (offer.get "planRevision"),textAt "baseCommit" (offer.get "planRevision")⟩

structure About (offer : Json) (sealed : Envelope) : Prop where
  taskId : sealed.payload.get "taskId" = offer.get "taskId"
  runId : sealed.payload.get "runId" = offer.get "runId"
  leaseId : sealed.payload.get "leaseId" = (offer.get "lease").get "leaseId"
  digest : sealed.type = "work.accepted" →
    sealed.payload.get "planRevisionDigest" = (offer.get "planRevision").get "digest"

structure MadeFor (offer : Json) (answer : OfferAnswer) : Prop where
  texts : Nonempty (OfferTexts offer)
  made : ∃ decision now, answer = answerOf offer decision now

theorem sameTexts {earlier offer : Json} (made : Nonempty (OfferTexts earlier))
    (asked : Nonempty (OfferTexts offer)) (same : requestOf earlier = requestOf offer) :
    earlier.get "taskId" = offer.get "taskId" ∧ earlier.get "runId" = offer.get "runId" ∧
    (earlier.get "lease").get "leaseId" = (offer.get "lease").get "leaseId" ∧
    (earlier.get "planRevision").get "digest" = (offer.get "planRevision").get "digest" := by
  obtain ⟨a⟩ := made
  obtain ⟨b⟩ := asked
  obtain ⟨task,run,lease,digest,_⟩ := Request.mk.inj same
  simp only [textAt,a.task,a.run,a.lease,a.plan,b.task,b.run,b.lease,b.plan,Json.text,
    Option.getD_some] at task run lease digest
  simp only [a.task,a.run,a.lease,a.plan,b.task,b.run,b.lease,b.plan,task,run,lease,digest,
    and_self]

theorem MadeFor.about {earlier offer : Json} {answer : OfferAnswer} {sealed : Envelope}
    (made : MadeFor earlier answer) (asked : Nonempty (OfferTexts offer))
    (same : requestOf earlier = requestOf offer) (type : sealed.type = answer.type)
    (payload : sealed.payload = answer.payload) : About offer sealed := by
  obtain ⟨decision,now,rfl⟩ := made.made
  obtain ⟨task,run,lease,plan⟩ := sameTexts made.texts asked same
  constructor
  case taskId => rw [payload,← task]; cases decision <;> rfl
  case runId => rw [payload,← run]; cases decision <;> rfl
  case leaseId => rw [payload,← lease]; cases decision <;> rfl
  case digest =>
    intro accepted
    rw [payload,← plan]
    cases decision with
    | accept => rfl
    | decline reason detail => rw [type] at accepted; simp [answerOf] at accepted

theorem MadeFor.known {offer : Json} {answer : OfferAnswer} (made : MadeFor offer answer) :
    answer.type ∈ answerTypes := by
  obtain ⟨decision,now,rfl⟩ := made.made
  exact (answerPlain made.texts decision now).2

theorem MadeFor.plain {offer : Json} {answer : OfferAnswer} (made : MadeFor offer answer) :
    Plain answer.payload := by
  obtain ⟨decision,now,rfl⟩ := made.made
  exact (answerPlain made.texts decision now).1

theorem MadeFor.canonical {offer : Json} {answer : OfferAnswer} (made : MadeFor offer answer) :
    canonical answer.payload = true := by
  obtain ⟨decision,now,rfl⟩ := made.made
  obtain ⟨texts⟩ := made.texts
  cases decision with
  | accept =>
    simp [answerOf,texts.task,texts.run,texts.lease,texts.plan,SealedEnvelopes.canonical,
      canonicalMember]
  | decline reason detail =>
    cases detail <;> simp [answerOf,texts.task,texts.run,texts.lease,SealedEnvelopes.canonical,
      canonicalMember,present]

structure Origins where
  cached : String → Option Json
  stored : String → Option Json

def Explains (origin : String → Option Json) (answers : OfferAnswers) : Prop :=
  ∀ key, match answers.lookup key with
    | none => origin key = none
    | some answer => ∃ offer, origin key = some offer ∧ MadeFor offer answer

theorem Explains.insert {origin : String → Option Json} {answers : OfferAnswers} {offer : Json}
    {answer : OfferAnswer} (explains : Explains origin answers) (made : MadeFor offer answer)
    (idem : String) :
    Explains (Function.update origin idem (some offer)) (answers.insert idem answer) := by
  intro key
  by_cases same : key = idem
  · subst same
    rw [Finmap.lookup_insert]
    exact ⟨offer,Function.update_self ..,made⟩
  · rw [Finmap.lookup_insert_of_ne _ same,Function.update_of_ne same]
    exact explains key

section
variable {σ κ : Type} (n : Node κ) [NodeStateStore σ] [RecordStore σ]

def advance (s : NodeSession σ κ) (op : Operation κ) (o : Origins) : Origins :=
  match decidedBy n s op with
  | some d =>
    let cached := Function.update o.cached d.idem (some d.offer)
    match (NodeStateStore.saveOfferAnswer d.idem d.answer.type d.answer.payload s.store).1 with
    | .ok _ => ⟨cached,if RecordStore.loads s.store d.idem then
        Function.update o.stored (loadedKey σ d.idem) (some d.offer) else o.stored⟩
    | .error _ => ⟨cached,o.stored⟩
  | none => match op,(op.perform n s).1 with
    | .restart _,.ok _ => ⟨o.stored,o.stored⟩
    | _,_ => o

def origins (s : NodeSession σ κ) (ops : List (Operation κ)) (o : Origins) : Origins :=
  carried n (advance n) s ops o

structure Traced (s : NodeSession σ κ) (o : Origins) : Prop where
  cached : Explains o.cached s.offerAnswers
  stored : Explains o.stored (stored s).answers

theorem tracedRestart {s : NodeSession σ κ} {o : Origins} (traced : Traced s o) (kernelState : κ) :
    Traced (restart kernelState s).2 (advance n s (.restart kernelState) o) := by
  obtain ⟨store,⟨fault,failed,cache⟩ | ⟨returned,cache⟩⟩ := restartRecords kernelState s
  · have kept : advance n s (.restart kernelState) o = o := by
      simp only [advance,decidedBy,Operation.perform,failed]
    rw [kept]
    refine ⟨?_,by rw [store]; exact traced.stored⟩
    rw [show (restart kernelState s).2.offerAnswers = s.offerAnswers from
      congrArg Records.answers cache]
    exact traced.cached
  · have reloaded : advance n s (.restart kernelState) o = ⟨o.stored,o.stored⟩ := by
      simp only [advance,decidedBy,Operation.perform,returned]
    rw [reloaded]
    refine ⟨?_,by rw [store]; exact traced.stored⟩
    rw [show (restart kernelState s).2.offerAnswers = (stored s).answers from
      congrArg Records.answers cache]
    exact traced.stored

theorem tracedStep {s : NodeSession σ κ} {o : Origins} (traced : Traced s o)
    (op : Operation κ) : Traced (op.perform n s).2 (advance n s op o) := by
  cases chosen : decidedBy n s op with
  | none =>
    by_cases restarts : ∃ kernelState, op = .restart kernelState
    · obtain ⟨kernelState,rfl⟩ := restarts
      exact tracedRestart n traced kernelState
    · have kept : advance n s op o = o := by
        unfold advance
        rw [chosen]
        dsimp only
        split
        · exact absurd ⟨_,rfl⟩ restarts
        · rfl
      have same : AnswersSame s (op.perform n s).2 := by
        rcases answersStep n s op with ⟨_,same | ⟨restart,_⟩⟩ | ⟨d,decided,_⟩
        · exact same
        · exact absurd restart restarts
        · rw [chosen] at decided
          contradiction
      rw [kept]
      exact ⟨by rw [same.1]; exact traced.cached,by rw [same.loaded]; exact traced.stored⟩
  | some d =>
    obtain ⟨raw,now,envelope,rfl,inside⟩ := decidedSource n chosen
    obtain ⟨decision,_,_,answer⟩ := inside.decided
    have made : MadeFor d.offer d.answer :=
      ⟨offerTexts inside.offer.parsed,decision,now,answer⟩
    obtain ⟨cache,store⟩ := answeredReceive n inside
    have cached : Explains (Function.update o.cached d.idem (some d.offer))
        (receive n raw now s).2.offerAnswers := by
      rw [show (receive n raw now s).2.offerAnswers = s.offerAnswers.insert d.idem d.answer from
        congrArg Records.answers cache]
      exact traced.cached.insert made d.idem
    unfold advance
    rw [Operation.perform,discardingState,chosen]
    dsimp only
    cases saving : (NodeStateStore.saveOfferAnswer d.idem d.answer.type d.answer.payload
      s.store).1 with
    | error message =>
      rw [saving] at store
      exact ⟨cached,by rw [store.1]; exact traced.stored⟩
    | ok _ =>
      rw [saving] at store
      rw [RecordStore.keptPlain made.plain] at store
      refine ⟨cached,?_⟩
      rw [show (stored (receive n raw now s).2).answers = (savedContents s.store d.idem
        d.answer).answers from congrArg (fun c : Contents => c.answers) store]
      unfold savedContents Contents.saving
      dsimp only
      cases RecordStore.loads s.store d.idem with
      | true => exact traced.stored.insert made (loadedKey σ d.idem)
      | false => exact traced.stored

theorem tracedRun {s : NodeSession σ κ} {o : Origins} (traced : Traced s o)
    (ops : List (Operation κ)) : Traced (after n s ops) (origins n s ops o) :=
  carriedKept n (advance n) (I := Traced) (fun _ op _ traced => tracedStep n traced op) traced ops

theorem originHeld {s : NodeSession σ κ} {o : Origins} (traced : Traced s o) (key : String) :
    match heldAnswer n s key with
    | none => o.cached key = none
    | some answer => ∃ offer, o.cached key = some offer ∧ MadeFor offer answer := by
  have known := traced.cached key
  rw [heldAnswer]
  cases found : s.offerAnswers.lookup key with
  | none =>
    rw [found] at known
    exact known
  | some answer =>
    rw [found] at known
    obtain ⟨offer,origin,made⟩ := known
    rw [Option.filter_some,answerKnown made.known]
    exact ⟨offer,origin,made⟩

omit [RecordStore σ] in
theorem heldReturned {s : NodeSession σ κ} {raw : Json} {now : Int} {envelope : Envelope}
    {offer : Json} (h : OfferDelivered n s raw now envelope offer) {answer : OfferAnswer}
    (held : heldAnswer n s (idemOf envelope) = some answer) (clock : InClock now)
    (known : answer.type ∈ answerTypes) (text : canonical answer.payload = true) :
    ∃ sealed, sealed ∈ answersBy n s (.receive raw now) := by
  have run : receive n raw now s = sealAnswer n envelope (idemOf envelope) answer now
      (recorded s envelope) := by
    rw [offerDispatched n h,offerReceived n _ h.parsed,show heldAnswer n (recorded s envelope)
      (idemOf envelope) = heldAnswer n s (idemOf envelope) from rfl,held]
  rcases returned : receive n raw now s with ⟨fault | out,t⟩
  · rw [run] at returned
    exact absurd ⟨clock,text⟩ (wpError (answerSealed n _ _ _ now _) returned)
  · obtain ⟨_,_,sealed,rfl,type,_⟩ := wpOk (answerSealed n _ _ _ now _) (run.symm.trans returned)
    refine ⟨sealed,?_⟩
    rw [answersBy,returned]
    simp [Except.toOption,type,known]

def unanswered : Origins := ⟨fun _ => none,fun _ => none⟩

structure OwnAnswers (s : NodeSession σ κ) (ops : List (Operation κ)) : Prop where
  about : ∀ front op back, ops = front ++ op::back →
    ∀ sealed ∈ answersBy n (after n s front) op, ∃ envelope offer,
      deliveredOffer n (after n s front) op = some (envelope,offer) ∧ About offer sealed
  unborrowed : ∀ front op back envelope offer earlier, ops = front ++ op::back →
    deliveredOffer n (after n s front) op = some (envelope,offer) →
    (origins n s front unanswered).cached (idemOf envelope) = some earlier →
    answersBy n (after n s front) op ≠ [] → requestOf earlier = requestOf offer

theorem aboutOwn {s : NodeSession σ κ} {o : Origins} (traced : Traced s o) {raw : Json}
    {now : Int} {envelope : Envelope} {offer : Json}
    (h : OfferDelivered n s raw now envelope offer)
    (same : InClock now → ∀ earlier, o.cached (idemOf envelope) = some earlier →
      requestOf earlier = requestOf offer) {sealed : Envelope}
    (listed : sealed ∈ answersBy n s (.receive raw now)) : About offer sealed := by
  obtain ⟨clock,answer,returned⟩ := offerAnswered n h listed
  rcases returned.source with held | decided
  · have known := originHeld n traced (idemOf envelope)
    rw [held] at known
    obtain ⟨earlier,origin,made⟩ := known
    exact made.about (offerTexts h.parsed) (same clock earlier origin) returned.type
      returned.payload
  · obtain ⟨_,_,_,op,inside⟩ := decidedSource n decided
    cases op
    obtain ⟨decision,_,_,answered⟩ := inside.decided
    have made : MadeFor offer answer := ⟨offerTexts h.parsed,decision,_,answered⟩
    exact made.about made.texts rfl returned.type returned.payload

/-- Over every run from an empty store, with store faults, crashes and restarts anywhere,
every answer is about its own offer exactly when no offer meets an answer held under its
key for a different request. -/
theorem ownAnswers {start : NodeSession σ κ} {ops : List (Operation κ)}
    (empty : start.offerAnswers = ∅ ∧ (stored start).answers = ∅) :
    OwnAnswers n start ops ↔ ∀ front raw now back envelope offer earlier,
      ops = front ++ .receive raw now :: back →
      deliveredOffer n (after n start front) (.receive raw now) = some (envelope,offer) →
      InClock now → (origins n start front unanswered).cached (idemOf envelope) = some earlier →
      requestOf earlier = requestOf offer := by
  have traced (front : List (Operation κ)) :
      Traced (after n start front) (origins n start front unanswered) := by
    refine tracedRun n ⟨?_,?_⟩ front
    · rw [empty.1]; exact fun _ => rfl
    · rw [empty.2]; exact fun _ => rfl
  constructor
  · intro holds front raw now back envelope offer earlier split delivered clock origin
    obtain ⟨_,_,same,source⟩ := offerSource n delivered
    cases same
    have known := originHeld n (traced front) (idemOf envelope)
    cases held : heldAnswer n (after n start front) (idemOf envelope) with
    | none =>
      rw [held,origin] at known
      contradiction
    | some answer =>
      rw [held] at known
      obtain ⟨_,_,made⟩ := known
      obtain ⟨sealed,listed⟩ := heldReturned n source held clock made.known made.canonical
      exact holds.unborrowed front _ back envelope offer earlier split delivered origin
        (List.ne_nil_of_mem listed)
  · intro same
    constructor
    case about =>
      intro front op back split sealed listed
      cases offered : deliveredOffer n (after n start front) op with
      | none =>
        rw [unoffered n offered] at listed
        contradiction
      | some delivered =>
        obtain ⟨envelope,offer⟩ := delivered
        obtain ⟨raw,now,rfl,source⟩ := offerSource n offered
        exact ⟨envelope,offer,rfl,aboutOwn n (traced front) source (fun clock earlier =>
          same front raw now back envelope offer earlier split offered clock) listed⟩
    case unborrowed =>
      intro front op back envelope offer earlier split delivered origin some
      obtain ⟨raw,now,rfl,source⟩ := offerSource n delivered
      obtain ⟨sealed,listed⟩ := List.exists_mem_of_ne_nil _ some
      exact same front raw now back envelope offer earlier split delivered
        (offerAnswered n source listed).1 origin

end

def firstOffer : Operation Unit :=
  offering "019b76da-a800-7000-8000-000000000001" "019b76da-a800-7000-8000-0000000000a1"

def reusedKey : Operation Unit :=
  offering "019b76da-a800-7000-8000-000000000002" "019b76da-a800-7000-8000-0000000000a2"

theorem otherTaskAnswered : ∃ (start : NodeSession InMemoryNodeStateStore Unit)
    (ops : List (Operation Unit)), start.offerAnswers = ∅ ∧ (stored start).answers = ∅ ∧
    ¬OwnAnswers (idleNode 10) start ops := by
  have checked : ((answersBy (idleNode 10) (after (idleNode 10)
        (opened () : NodeSession InMemoryNodeStateStore Unit)
        [.startHandshake 1767225600000,firstOffer]) reusedKey).map
          fun e => textAt "taskId" e.payload) = ["019b76da-a800-7000-8000-0000000000a1"] ∧
      (deliveredOffer (idleNode 10) (after (idleNode 10)
        (opened () : NodeSession InMemoryNodeStateStore Unit)
        [.startHandshake 1767225600000,firstOffer]) reusedKey).map
          (fun d => textAt "taskId" d.2) = some "019b76da-a800-7000-8000-0000000000a2" := by
    decide +kernel
  refine ⟨opened (),[.startHandshake 1767225600000,firstOffer,reusedKey],rfl,rfl,fun holds => ?_⟩
  obtain ⟨sealed,answered,task⟩ := List.map_eq_singleton_iff.mp checked.1
  have listed := List.mem_singleton.mpr (rfl : sealed = sealed)
  rw [← answered] at listed
  obtain ⟨envelope,offer,delivered,about⟩ := holds.about
    [.startHandshake 1767225600000,firstOffer] reusedKey [] rfl sealed listed
  have other := checked.2
  rw [delivered] at other
  have same : textAt "taskId" sealed.payload = textAt "taskId" offer := by
    rw [textAt,textAt,about.taskId]
  rw [task,show textAt "taskId" offer = _ from Option.some.inj other] at same
  exact absurd same (by decide)

def keepsRequest {κ : Type} (n : Node κ) (s : NodeSession InMemoryNodeStateStore κ)
    (op : Operation κ) (o : Origins) : Bool :=
  (deliveredOffer n s op).all fun (envelope,offer) =>
    (o.cached (idemOf envelope)).all fun earlier => decide (requestOf earlier = requestOf offer)

def redeliveredOffer : List (Operation Unit) :=
  [.startHandshake 1767225600000,firstOffer,.restart (),.startHandshake 1767225600000,
   offering "019b76da-a800-7000-8000-000000000002" "019b76da-a800-7000-8000-0000000000a1"]

theorem redeliveredOwn : OwnAnswers (idleNode 10)
    (opened () : NodeSession InMemoryNodeStateStore Unit) redeliveredOffer := by
  have keeps : everyCall (idleNode 10) (advance (idleNode 10)) (keepsRequest (idleNode 10))
    (opened () : NodeSession InMemoryNodeStateStore Unit) redeliveredOffer unanswered = true := by
      decide +kernel
  refine (ownAnswers (idleNode 10) ⟨rfl,rfl⟩).mpr ?_
  intro front raw now back envelope offer earlier split delivered _ origin
  have kept := everyCallSource (idleNode 10) _ keeps split
  rw [keepsRequest,delivered] at kept
  dsimp only [Option.all_some] at kept
  rw [show (carried (idleNode 10) (advance (idleNode 10)) _ front unanswered).cached
    (idemOf envelope) = some earlier from origin] at kept
  exact of_decide_eq_true kept

end ControlCenter.OfferIdentity
