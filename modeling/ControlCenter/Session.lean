import ControlCenter.AccpSeal
import ControlCenter.StateStore

/-! The ACCP v1 node session: durable state behind the store, cursors and offer
answers cached and written through, and the state of one connection. -/
namespace ControlCenter.Session
open JsonValue ZodSchema AccpEnvelope AccpIds AccpMessages AccpSeal StateStore

def protocol : String := "accp/1.0"

def protectedKindPrefixes : List String := ["run.completion","effect.","verification."]

def protectedKind (kind : String) : Bool :=
  protectedKindPrefixes.any fun p => p.toList.isPrefixOf kind.toList

structure NodeCredentials where
  nodeId : String
  workspaceId : String
  cloudPublicKeyPem : String

inductive OfferDecision where
  | accept
  | decline (reason : String) (detail : Option String)
  deriving DecidableEq, Repr

structure KernelBridge (κ : Type) where
  decideOffer : Json → ExceptT String (StateM κ) OfferDecision
  onReviewDecision : Option (Json → ExceptT String (StateM κ) Unit)

structure Node (κ : Type) where
  platform : Platform
  credentials : NodeCredentials
  privateKey : String
  kernel : KernelBridge κ
  schemaBundleDigest : String
  maxBufferedEvents : Nat

structure NodeSession (σ κ : Type) where
  store : σ
  kernelState : κ
  nodeCursor : Nat
  ackedCursor : Nat
  offerAnswers : OfferAnswers
  sessionId : String
  epoch : Option Nat
  outSeq : Nat
  welcome : Option Welcome
  dedup : MessageDedupIndex
  connected : Bool
  draws : Nat

inductive Fault where
  | store (message : String)
  | thrown (message : String)
  deriving DecidableEq, Repr

abbrev SessionM (σ κ α : Type) := ExceptT Fault (StateM (NodeSession σ κ)) α

section
variable {σ κ α : Type}

def onStore (m : StoreM σ α) : SessionM σ κ α := fun s =>
  match m s.store with
  | (.ok a,store) => (.ok a,{s with store})
  | (.error message,store) => (.error (.store message),{s with store})

def onKernel (m : ExceptT String (StateM κ) α) : SessionM σ κ α := fun s =>
  match m s.kernelState with
  | (.ok a,kernelState) => (.ok a,{s with kernelState})
  | (.error message,kernelState) => (.error (.thrown message),{s with kernelState})

def orThrow : Except String α → SessionM σ κ α
  | .ok a => pure a
  | .error message => throw (.thrown message)

def changing (f : NodeSession σ κ → NodeSession σ κ) : SessionM σ κ Unit := modify f

variable (n : Node κ)

def drawUuid (now : Int) : SessionM σ κ String := do
  let s ← get
  changing fun s => {s with draws := s.draws + 1}
  orThrow (uuidV7 now (n.platform.randomBytes s.draws))

structure Extra where
  idempotencyKey : Option String
  causationId : Option String

def noExtra : Extra := ⟨none,none⟩

-- The method #seal: the sequence number is spent even when sealing throws.
def sealMessage (type : String) (payload : Json) (now : Int) (extra : Extra) :
    SessionM σ κ Envelope := do
  changing fun s => {s with outSeq := s.outSeq + 1}
  let messageId ← drawUuid n now
  let s ← get
  orThrow (sealEnvelope n.platform
    ⟨protocol,n.schemaBundleDigest,type,messageId,s.sessionId,n.credentials.workspaceId,
      s!"node:{n.credentials.nodeId}",extra.idempotencyKey,none,extra.causationId,s.outSeq,
      toISOString now,none,payload⟩ n.privateKey)

def helloPayload (nodeCursor : Nat) : Json := .object
  [("supportedProtocols",.array [.string protocol]),
   ("schemaBundleDigest",.string n.schemaBundleDigest),
   ("nodeVersion",.string "0.1.0-skeleton"),("platform",.string n.platform.hostPlatform),
   ("adapterManifests",.array []),("capabilities",.array [.string "worktree"]),
   ("capacity",.object [("maxConcurrentRuns",.nat 1),("availableRuns",.nat 1)]),
   ("resume",.object [("cloudCursor",.nat 0),("nodeCursor",.nat nodeCursor)])]

def startHandshake (now : Int) : SessionM σ κ Envelope := do
  let sessionId ← drawUuid n now
  changing fun s => {s with
    sessionId,epoch := none,outSeq := 0,welcome := none,connected := false,dedup := .empty}
  let s ← get
  sealMessage n "node.hello" (helloPayload n s.nodeCursor) now noExtra

def disconnect : SessionM σ κ Unit :=
  changing fun s => {s with connected := false,welcome := none,epoch := none}

structure EventIds where
  runId : Option String
  taskId : Option String

variable [NodeStateStore σ]

-- Each round deletes the first unprotected event; the list of events is fuel enough
-- because every round leaves fewer of them.
def dropVictims : List NodeEvent → List NodeEvent → List Nat → SessionM σ κ (List Nat)
  | [],_,dropped => pure dropped
  | _::fuel,unacked,dropped =>
    if unacked.length ≤ n.maxBufferedEvents then pure dropped
    else match unacked.find? fun e => !protectedKind e.kind with
      | none => pure dropped
      | some victim => do
          onStore (NodeStateStore.deleteEventAt victim.cursor)
          let s ← get
          let unacked ← onStore (NodeStateStore.eventsAfter s.ackedCursor)
          dropVictims fuel unacked (dropped ++ [victim.cursor])

def extendRanges (ranges : List (Nat × Nat)) (cursor : Nat) : List (Nat × Nat) :=
  match ranges.getLast? with
  | some last =>
    if cursor = last.2 + 1 then ranges.dropLast ++ [(last.1,cursor)]
    else ranges ++ [(cursor,cursor)]
  | none => [(cursor,cursor)]

def contiguousRanges (cursors : List Nat) : List (Nat × Nat) :=
  (cursors.dedup.insertionSort (· ≤ ·)).foldl extendRanges []

def recordTruncations : List (Nat × Nat) → SessionM σ κ Unit
  | [] => pure ()
  | (fromCursor,toCursor)::rest => do
      onStore (NodeStateStore.appendTruncation fromCursor toCursor "BUFFER_BYTES")
      recordTruncations rest

def enforceBufferBounds : SessionM σ κ Unit := do
  let s ← get
  let unacked ← onStore (NodeStateStore.eventsAfter s.ackedCursor)
  if unacked.length ≤ n.maxBufferedEvents then pure ()
  else
    let dropped ← dropVictims n unacked unacked []
    recordTruncations (contiguousRanges dropped)

def emitEvent (kind : String) (data : List (String × Json)) (ids : EventIds) (now : Int) :
    SessionM σ κ NodeEvent := do
  let s ← get
  let cursor := s.nodeCursor + 1
  let eventId ← drawUuid n now
  let event : NodeEvent := ⟨cursor,eventId,kind,toISOString now,data,ids.runId,ids.taskId⟩
  onStore (NodeStateStore.appendEventAndAdvanceCursor event)
  changing fun s => {s with nodeCursor := cursor}
  enforceBufferBounds n
  pure event

def contiguousEventRuns (events : List NodeEvent) : List (List NodeEvent) :=
  events.splitBy fun previous event => event.cursor == previous.cursor + 1

-- run.slice(i, i + size) for i = 0, size, 2 * size, ...; size is positive.
def slicesFrom (size : Nat) : List NodeEvent → List NodeEvent → List (List NodeEvent)
  | [],_ => []
  | _,[] => []
  | _::fuel,run => run.take size :: slicesFrom size fuel (run.drop size)

def slices (size : Nat) (run : List NodeEvent) : List (List NodeEvent) :=
  slicesFrom size run run

def batchPayload (batchId : String) (events : List NodeEvent) (truncated : Bool) : Json :=
  .object
    [("batchId",.string batchId),("firstCursor",.nat ((events.head?.map (·.cursor)).getD 0)),
     ("lastCursor",.nat ((events.getLast?.map (·.cursor)).getD 0)),
     ("events",.array (events.map NodeEvent.toJson)),
     ("truncatedPendingReconcile",.boolean truncated)]

def sealBatch (now : Int) (events : List NodeEvent) : SessionM σ κ Envelope := do
  let batchId ← drawUuid n now
  let truncations ← onStore NodeStateStore.loadTruncations
  sealMessage n "run.event_batch" (batchPayload batchId events (!truncations.isEmpty)) now
    noExtra

def sealBatches (now : Int) (maxUnackedBatches : Nat) :
    List (List NodeEvent) → List Envelope → SessionM σ κ (List Envelope)
  | [],out => pure out
  | events::rest,out => do
      let envelope ← sealBatch n now events
      let out := out ++ [envelope]
      if maxUnackedBatches ≤ out.length then pure out
      else sealBatches now maxUnackedBatches rest out

def flush (now : Int) (fromCursor : Option Nat) : SessionM σ κ (List Envelope) := do
  let s ← get
  match s.connected,s.welcome with
  | true,some welcome => do
      let pending ← onStore (NodeStateStore.eventsAfter (fromCursor.getD s.ackedCursor))
      sealBatches n now welcome.maxUnackedBatches
        ((contiguousEventRuns pending).flatMap (slices welcome.maxEventsPerBatch)) []
  | _,_ => pure []

def proposeCompletion (payload : Json) (now : Int) : SessionM σ κ Envelope := do
  let completion ← orThrow (parsePayload n.platform "run.completion_proposed" payload)
  sealMessage n "run.completion_proposed" completion now
    ⟨some ("completion:" ++ textAt "runId" completion ++ ":" ++
      textAt "completionDigest" completion),none⟩

def truncationJson (t : Truncation) : Json := .object
  [("fromCursor",.nat t.fromCursor),("toCursor",.nat t.toCursor),
   ("reason",.string t.reason.text)]

def reconcileSummary (now : Int) : SessionM σ κ Envelope := do
  let s ← get
  let truncations ← onStore NodeStateStore.loadTruncations
  sealMessage n "reconcile.summary" (.object
    [("nodeCursor",.nat s.nodeCursor),("cloudCursorApplied",.nat 0),
     ("activeLeases",.array []),("unknownRuns",.array []),
     ("artifactManifestDigests",.array []),
     ("truncations",.array (truncations.map truncationJson))]) now noExtra

end

mutual
-- String(value) of a JSON value: an object with a member named toString has no callable
-- one left, and its valueOf is the object itself.
def stringOf (p : Platform) : Json → Except String String
  | .undefined => .ok "undefined"
  | .null => .ok "null"
  | .boolean b => .ok (if b then "true" else "false")
  | .number (.finite q) => .ok (finiteText p q)
  | .number .negativeZero => .ok "0"
  | .number (.infinity negative) => .ok (if negative then "-Infinity" else "Infinity")
  | .number .nan => .ok "NaN"
  | .string s => .ok s
  | .array items => do
      let parts ← joinedItems p items
      .ok (String.intercalate "," parts)
  | .object members => match lookup "toString" members with
    | none => .ok "[object Object]"
    | some _ => .error "Cannot convert object to primitive value"

def joinedItems (p : Platform) : List Json → Except String (List String)
  | [] => .ok []
  | .undefined::rest | .null::rest => do
      let tail ← joinedItems p rest
      .ok (""::tail)
  | v::rest => do
      let head ← stringOf p v
      let tail ← joinedItems p rest
      .ok (head::tail)
end

def attributedId (p : Platform) : Json → Except String (Option String)
  | .object members => match lookup "messageId" members with
    | none => .ok none
    | some v => (stringOf p v).map some
  | _ => .ok none

def nackPayload (nackFor code : String) (retryable : Bool) (detail : Option String) : Json :=
  .object ([("nackFor",.string nackFor),("code",.string code),("retryable",.boolean retryable)]
    ++ present "detail" detail)

def ackPayload (ackFor : String) : Json := .object [("ackFor",.string ackFor)]

section
variable {σ κ : Type} (n : Node κ)

def nack (nackFor code : String) (retryable : Bool) (detail : Option String) (now : Int) :
    SessionM σ κ (List Envelope) := do
  let envelope ← sealMessage n "message.nack" (nackPayload nackFor code retryable detail) now
    noExtra
  pure [envelope]

def receiveRejected (raw : Json) (code : VerifyFailureCode) (detail : Option String)
    (now : Int) : SessionM σ κ (List Envelope) := do
  match ← orThrow (attributedId n.platform raw) with
  | none => pure []
  | some messageId =>
    if code = .signatureInvalid then pure []
    else nack n messageId code.text (decide (code = .expired)) detail now

def isExpectedCloudEnvelope (s : NodeSession σ κ) (envelope : Envelope) : Bool :=
  envelope.protocol == protocol && envelope.senderId == "cloud" &&
    envelope.workspaceId == n.credentials.workspaceId && envelope.sessionId == s.sessionId

def acknowledge (envelope : Envelope) (now : Int) : SessionM σ κ (List Envelope) := do
  let ack ← sealMessage n "message.ack" (ackPayload envelope.messageId) now noExtra
  pure [ack]

variable [NodeStateStore σ]

def parseWelcome (payload : Json) : SessionM σ κ Welcome :=
  match parseAs nodeWelcomeSchema payload with
  | some welcome => pure welcome
  | none => throw (.thrown (n.platform.zodIssues "node.welcome" payload))

def receiveWelcome (envelope : Envelope) (now : Int) : SessionM σ κ (List Envelope) := do
  let welcome ← parseWelcome n envelope.payload
  let s ← get
  if s.epoch.any fun epoch => decide (welcome.connectionEpoch < epoch) then
    disconnect
    pure []
  else
    changing fun s => {s with
      welcome := some welcome,epoch := some welcome.connectionEpoch,connected := true}
    let replays ← flush n now (some welcome.nodeCursorAck)
    let truncations ← onStore NodeStateStore.loadTruncations
    if truncations.isEmpty then pure replays
    else do
      let summary ← reconcileSummary n now
      pure (summary::replays)

def cursorAck (ack : Json) : Option Nat := match ack.get "cursorAck" with
  | .object members => some (cursorAt "highestContiguousCursor" (.object members))
  | _ => none

def receiveAck (envelope : Envelope) : SessionM σ κ (List Envelope) := do
  let ack ← orThrow (parsePayload n.platform "message.ack" envelope.payload)
  match cursorAck ack with
  | none => pure []
  | some highest => do
      changing fun s => {s with ackedCursor := max s.ackedCursor highest}
      let s ← get
      onStore (NodeStateStore.setAckedCursor s.ackedCursor)
      onStore (NodeStateStore.pruneUpTo s.ackedCursor)
      pure []

def answerOf (offer : Json) (decision : OfferDecision) (now : Int) : OfferAnswer :=
  let base := [("taskId",offer.get "taskId"),("runId",offer.get "runId"),
    ("leaseId",(offer.get "lease").get "leaseId")]
  match decision with
  | .accept => ⟨"work.accepted",.object (base ++
      [("persistedAt",.string (toISOString now)),
       ("planRevisionDigest",(offer.get "planRevision").get "digest")])⟩
  | .decline reason detail =>
      ⟨"work.declined",.object (base ++ [("reason",.string reason)] ++ present "detail" detail)⟩

def sealAnswer (envelope : Envelope) (idem : String) (answer : OfferAnswer) (now : Int) :
    SessionM σ κ (List Envelope) := do
  let sealed ← sealMessage n answer.type answer.payload now
    ⟨some idem,some envelope.messageId⟩
  pure [sealed]

def receiveOffer (envelope : Envelope) (now : Int) : SessionM σ κ (List Envelope) := do
  let offer ← orThrow (parsePayload n.platform "work.offer" envelope.payload)
  let idem := envelope.idempotencyKey.getD ""
  let s ← get
  match (s.offerAnswers.lookup idem).filter fun a => isAccpMessageType n.platform a.type with
  | some answered => sealAnswer n envelope idem answered now
  | none => do
      let decision ← onKernel (n.kernel.decideOffer offer)
      let answer := answerOf offer decision now
      changing fun s => {s with offerAnswers := s.offerAnswers.insert idem answer}
      onStore (NodeStateStore.saveOfferAnswer idem answer.type answer.payload)
      sealAnswer n envelope idem answer now

-- this.#kernel.onReviewDecision?.(decision)
def notifyReview (decision : Json) : SessionM σ κ Unit :=
  match n.kernel.onReviewDecision with
  | none => pure ()
  | some onReviewDecision => onKernel (onReviewDecision decision)

def receiveDecision (envelope : Envelope) (now : Int) : SessionM σ κ (List Envelope) := do
  let decision ← orThrow (parsePayload n.platform "review.decision" envelope.payload)
  notifyReview n decision
  acknowledge n envelope now

def acknowledgedTypes : List String :=
  ["run.completion_accepted","lease.renewed","lease.revoked","run.cancel_requested",
   "reconcile.request"]

def dispatch (envelope : Envelope) (now : Int) : SessionM σ κ (List Envelope) :=
  if envelope.type = "node.welcome" then receiveWelcome n envelope now
  else if envelope.type = "message.ack" then receiveAck n envelope
  else if envelope.type = "work.offer" then receiveOffer n envelope now
  else if envelope.type = "review.decision" then receiveDecision n envelope now
  else if acknowledgedTypes.contains envelope.type then acknowledge n envelope now
  else nack n envelope.messageId "UNKNOWN_TYPE" false none now

def receive (raw : Json) (now : Int) : SessionM σ κ (List Envelope) := do
  match ← orThrow (verifySealedEnvelope n.platform raw n.credentials.cloudPublicKeyPem now) with
  | .failed code detail => receiveRejected n raw code detail now
  | .ok envelope _ => do
      let s ← get
      if !isExpectedCloudEnvelope n s envelope then
        nack n envelope.messageId "SCHEMA_VIOLATION" false
          (some "unexpected protocol, sender, workspace, or node session") now
      else
        let (duplicate,dedup) := s.dedup.check envelope.messageId
        changing fun s => {s with dedup}
        if duplicate then pure [] else dispatch n envelope now

-- The constructor, over a store that another session may have filled.
def restart (kernelState : κ) : SessionM σ κ Unit := do
  let cursors ← onStore NodeStateStore.loadCursors
  let offerAnswers ← onStore NodeStateStore.loadOfferAnswers
  changing fun s => {s with
    kernelState,nodeCursor := cursors.nodeCursor,ackedCursor := cursors.ackedCursor,
    offerAnswers,sessionId := "",epoch := none,outSeq := 0,welcome := none,dedup := .empty,
    connected := false}

end

end ControlCenter.Session
