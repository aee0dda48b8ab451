import ControlCenter.AccpIds

/-! The payload schema of every ACCP v1 message type, section by section. -/
namespace ControlCenter.AccpMessages
open JsonValue ZodSchema AccpEnvelope

def textUpTo (high : Nat) : Schema := stringSized 0 high
def url (p : Platform) : Schema := stringThat p.isUrl

def capacity : Schema := object
  [field "maxConcurrentRuns" positive,field "availableRuns" nonnegative]

def cursorRange : Schema := object
  [field "fromCursor" cursorSchema,field "toCursor" cursorSchema]

def nodeHelloSchema : Schema := object
  [field "supportedProtocols" (nonemptyArray string),field "schemaBundleDigest" digestSchema,
   field "nodeVersion" string,field "platform" string,
   field "adapterManifests" (array (object
     [field "adapterId" string,field "manifestDigest" digestSchema,
      field "readiness"
        (oneOf ["ready","degraded","unavailable","misconfigured","unauthenticated"])])),
   field "capabilities" (array string),field "capacity" capacity,
   field "resume" (object [field "cloudCursor" cursorSchema,field "nodeCursor" cursorSchema])]

def welcomeLimits : Schema := object
  [field "maxUnackedBatches" positive,field "maxEventsPerBatch" positive,
   field "maxEnvelopeBytes" positive,field "heartbeatIntervalMs" (literal 15000),
   field "deadAfterMs" (literal 45000)]

def nodeWelcomeSchema : Schema := object
  [field "protocol" string,field "connectionEpoch" positive,
   field "schemaBundleDigest" digestSchema,field "cloudCursor" cursorSchema,
   field "nodeCursorAck" cursorSchema,field "policyBundleDigest" digestSchema,
   field "limits" welcomeLimits,field "serverTime" dateTimeSchema,
   optional "deprecation" (object
     [field "noNewWorkAt" dateTimeSchema,field "removalAt" dateTimeSchema])]

def nodeHeartbeatSchema : Schema := object
  [field "status" (oneOf ["online","degraded","draining"]),field "capacity" capacity,
   field "activeLeaseIds" (array uuidSchema),
   field "buffer" (object [field "events" cursorSchema,field "bytes" integer])]

def workOfferSchema (p : Platform) : Schema := object
  [field "taskId" uuidSchema,field "runId" uuidSchema,field "taskRevision" positive,
   field "planRevision" (object [field "digest" sha256HexSchema,field "baseCommit" gitShaSchema]),
   field "lease" (object
     [field "leaseId" uuidSchema,field "expiresAt" dateTimeSchema,
      field "renewIntervalMs" (integerFrom 5000)]),
   field "policyBundle" (object [field "digest" digestSchema,field "bytesUrl" (url p)]),
   field "requiredCapabilities" (array string),field "requiredSecrets" (array string)]

def workAcceptedSchema : Schema := object
  [field "taskId" uuidSchema,field "runId" uuidSchema,field "leaseId" uuidSchema,
   field "persistedAt" dateTimeSchema,field "planRevisionDigest" sha256HexSchema]

def declineReasons : List String :=
  ["REPO_BASE_UNAVAILABLE","SECRET_MISSING","CAPABILITY_MISSING","POLICY_BUNDLE_UNSUPPORTED",
   "CAPACITY"]

def workDeclinedSchema : Schema := object
  [field "taskId" uuidSchema,field "runId" uuidSchema,field "leaseId" uuidSchema,
   field "reason" (oneOf declineReasons),optional "detail" (textUpTo 2000),
   optional "retryAfterMs" positive]

def leaseRenewedSchema : Schema := object
  [field "leaseId" uuidSchema,field "runId" uuidSchema,field "expiresAt" dateTimeSchema]

def leaseRevokedSchema : Schema := object
  [field "leaseId" uuidSchema,field "runId" uuidSchema,
   field "reason" (oneOf ["OPERATOR_STOP","POLICY_CHANGE","SUPERSEDED","NODE_DEGRADED"]),
   field "stopDeadlineAt" dateTimeSchema]

def runCancelRequestedSchema : Schema := object
  [field "runId" uuidSchema,field "reason" (textUpTo 2000),field "deadlineAt" dateTimeSchema]

def runMessagePostedSchema : Schema := object
  [field "runId" uuidSchema,field "operatorMessageId" uuidSchema,
   field "body" (stringSized 1 16384),field "postedBy" string,field "postedAt" dateTimeSchema]

def nodeEventShape : List Field :=
  [field "cursor" cursorSchema,field "eventId" uuidSchema,optional "runId" uuidSchema,
   optional "taskId" uuidSchema,field "kind" string,field "occurredAt" dateTimeSchema,
   field "data" record]

def nodeEventSchema : Schema := object nodeEventShape

def eventsSchema : Schema :=
  arraySized nodeEventSchema fun n => decide (1 ≤ n) && decide (n ≤ 256)

def eventBatchShape : Schema := object
  [field "batchId" uuidSchema,field "firstCursor" cursorSchema,field "lastCursor" cursorSchema,
   field "events" eventsSchema,withDefault "truncatedPendingReconcile" boolean (.boolean false)]

def cursorAt (key : String) (v : Json) : Nat := (v.get key).natural

def itemsOf : Json → List Json
  | .array items => items
  | _ => []

def contiguousFrom (first : Nat) : List Json → Bool
  | [] => true
  | e::rest => cursorAt "cursor" e == first && contiguousFrom (first + 1) rest

-- lastCursor = firstCursor + count - 1, written without subtraction.
def runEventBatchSchema : Schema := refined eventBatchShape fun batch =>
  cursorAt "lastCursor" batch + 1 ==
    cursorAt "firstCursor" batch + (itemsOf (batch.get "events")).length &&
  contiguousFrom (cursorAt "firstCursor" batch) (itemsOf (batch.get "events"))

def artifactDeclaredSchema : Schema := object
  [field "artifactId" uuidSchema,field "runId" uuidSchema,field "taskId" uuidSchema,
   field "kind" string,field "mediaType" string,field "sizeBytes" positive,
   field "digest" sha256HexSchema,field "partSizeBytes" (literal 8388608),
   field "partCount" positive,field "redactionState" (oneOf ["none","redacted"]),
   field "provenance" (object [field "producer" string,optional "stepId" string])]

def artifactUploadGrantedSchema (p : Platform) : Schema := object
  [field "artifactId" uuidSchema,field "uploadId" string,
   field "parts" (array (object
     [field "partNumber" positive,field "url" (url p),field "expiresAt" dateTimeSchema,
      field "maxBytes" positive])),
   field "committedParts" (array (object
     [field "partNumber" positive,field "digest" sha256HexSchema]))]

def artifactCommittedSchema : Schema := object
  [field "artifactId" uuidSchema,field "uploadId" string,field "sizeBytes" positive,
   field "digest" sha256HexSchema,
   field "parts" (nonemptyArray (object
     [field "partNumber" positive,field "sizeBytes" positive,field "digest" sha256HexSchema]))]

def runCompletionProposedSchema : Schema := object
  [field "runId" uuidSchema,field "taskId" uuidSchema,field "taskRevision" positive,
   field "planRevisionDigest" sha256HexSchema,
   field "outcome" (oneOf ["succeeded","failed","stopped","stale","unknown"]),
   field "completionDigest" sha256HexSchema,field "evidenceManifestDigest" sha256HexSchema,
   field "finalCursor" cursorSchema,
   optional "verification" (object
     [field "status" (oneOf ["passed","failed","error","cancelled"]),
      field "artifactId" uuidSchema])]

def runCompletionAcceptedSchema : Schema := object
  [field "runId" uuidSchema,field "completionDigest" sha256HexSchema,
   field "taskStatus" (oneOf ["needs-review","done","blocked","queued"])]

def reviewDecisionSchema : Schema := object
  [field "reviewId" uuidSchema,field "taskId" uuidSchema,field "runId" uuidSchema,
   field "subjectDigest" sha256HexSchema,
   field "decision" (oneOf ["approved","rework-requested","rejected","expired","superseded"]),
   field "decidedBy" string,field "decidedAt" dateTimeSchema,
   optional "feedback" (object
     [field "note" (textUpTo 16384),field "criterionIds" (array string)])]

def effectGrantedSchema : Schema := object
  [field "grantId" uuidSchema,field "effectKey" string,field "runId" uuidSchema,
   field "taskId" uuidSchema,field "kind" string,field "parametersDigest" sha256HexSchema,
   field "providerTarget" string,field "riskClass" string,field "expiresAt" dateTimeSchema,
   optional "compensation" (object
     [field "kind" string,field "parametersDigest" sha256HexSchema])]

def effectRevokedSchema : Schema := object
  [field "grantId" uuidSchema,field "effectKey" string,field "reason" (textUpTo 2000)]

def effectObservedSchema : Schema := object
  [field "grantId" uuidSchema,field "effectKey" string,field "runId" uuidSchema,
   field "status" (oneOf ["succeeded","failed","unknown","compensating","compensated"]),
   optional "receipt" record,optional "reason" (textUpTo 2000),
   field "observedAt" dateTimeSchema]

def messageAckSchema : Schema := object
  [field "ackFor" uuidSchema,
   optional "cursorAck" (object
     [field "highestContiguousCursor" cursorSchema,field "gaps" (array cursorRange)])]

def nackCodeSchema : Schema := oneOf
  ["SIGNATURE_INVALID","CLOCK_SKEW_EXCEEDED","SCHEMA_VIOLATION","VERSION_UNSUPPORTED",
   "SEQUENCE_REGRESSION","IDEMPOTENCY_CONFLICT","PAYLOAD_TOO_LARGE","UNKNOWN_TYPE","EXPIRED",
   "RATE_LIMITED","LEASE_UNKNOWN","SUBJECT_STALE","CAPABILITY_MISSING",
   "ARTIFACT_DIGEST_MISMATCH","ARTIFACT_SIZE_MISMATCH"]

def messageNackSchema : Schema := object
  [field "nackFor" uuidSchema,field "code" nackCodeSchema,field "retryable" boolean,
   optional "detail" (textUpTo 2000)]

def truncationReasons : List String := ["BUFFER_BYTES","BUFFER_AGE"]

def reconcileSummarySchema : Schema := object
  [field "nodeCursor" cursorSchema,field "cloudCursorApplied" cursorSchema,
   field "activeLeases" (array (object
     [field "leaseId" uuidSchema,field "runId" uuidSchema,field "expiresAt" dateTimeSchema])),
   field "unknownRuns" (array (object [field "runId" uuidSchema,field "reason" string])),
   field "artifactManifestDigests" (array sha256HexSchema),
   field "truncations" (array (object
     [optional "runId" uuidSchema,field "fromCursor" cursorSchema,field "toCursor" cursorSchema,
      field "reason" (oneOf truncationReasons)]))]

def reconcileRequestSchema : Schema := object
  [field "missingRanges" (array cursorRange),
   field "quarantine" (array (object
     [field "runId" uuidSchema,field "reason" (textUpTo 2000)]))]

def messageSchemas (p : Platform) : List (String × Schema) :=
  [("node.hello",nodeHelloSchema),("node.welcome",nodeWelcomeSchema),
   ("node.heartbeat",nodeHeartbeatSchema),("work.offer",workOfferSchema p),
   ("work.accepted",workAcceptedSchema),("work.declined",workDeclinedSchema),
   ("lease.renewed",leaseRenewedSchema),("lease.revoked",leaseRevokedSchema),
   ("run.cancel_requested",runCancelRequestedSchema),
   ("run.message_posted",runMessagePostedSchema),("run.event_batch",runEventBatchSchema),
   ("artifact.declared",artifactDeclaredSchema),
   ("artifact.upload_granted",artifactUploadGrantedSchema p),
   ("artifact.committed",artifactCommittedSchema),
   ("run.completion_proposed",runCompletionProposedSchema),
   ("run.completion_accepted",runCompletionAcceptedSchema),
   ("review.decision",reviewDecisionSchema),("effect.granted",effectGrantedSchema),
   ("effect.revoked",effectRevokedSchema),("effect.observed",effectObservedSchema),
   ("message.ack",messageAckSchema),("message.nack",messageNackSchema),
   ("reconcile.summary",reconcileSummarySchema),("reconcile.request",reconcileRequestSchema)]

def schemaOf (p : Platform) (type : String) : Option Schema :=
  ((messageSchemas p).find? fun entry => entry.1 == type).map (·.2)

def isAccpMessageType (p : Platform) (type : String) : Bool := (schemaOf p type).isSome

def parsePayload (p : Platform) (type : String) (payload : Json) : Except String Json :=
  match (schemaOf p type).bind fun schema => schema payload with
  | some parsed => .ok parsed
  | none => .error (p.zodIssues type payload)

structure Parsed (schema : Schema) where
  value : Json
  accepted : ∃ raw, schema raw = some value

def parseAs (schema : Schema) (raw : Json) : Option (Parsed schema) :=
  match h : schema raw with
  | some value => some ⟨value,raw,h⟩
  | none => none

abbrev Welcome := Parsed nodeWelcomeSchema

def Welcome.limit (key : String) (w : Welcome) : Nat := cursorAt key (w.value.get "limits")
def Welcome.maxEventsPerBatch (w : Welcome) : Nat := w.limit "maxEventsPerBatch"
def Welcome.maxUnackedBatches (w : Welcome) : Nat := w.limit "maxUnackedBatches"
def Welcome.connectionEpoch (w : Welcome) : Nat := cursorAt "connectionEpoch" w.value
def Welcome.nodeCursorAck (w : Welcome) : Nat := cursorAt "nodeCursorAck" w.value

end ControlCenter.AccpMessages
