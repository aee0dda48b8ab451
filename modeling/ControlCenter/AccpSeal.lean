import ControlCenter.AccpMessages

/-! Sealing an envelope under the sender's key and the full inbound verification, in
the order shape, type, signature, payload digest, clock skew, expiry, payload. -/
namespace ControlCenter.AccpSeal
open JsonValue ZodSchema AccpEnvelope AccpIds AccpMessages

structure UnsignedEnvelope where
  protocol : String
  schemaDigest : String
  type : String
  messageId : String
  sessionId : String
  workspaceId : String
  senderId : String
  idempotencyKey : Option String
  correlationId : Option String
  causationId : Option String
  sequence : Nat
  sentAt : String
  expiresAt : Option String
  payload : Json

def UnsignedEnvelope.withDigest (u : UnsignedEnvelope) (payloadDigest signature : String) :
    Envelope :=
  ⟨u.protocol,u.schemaDigest,u.type,u.messageId,u.sessionId,u.workspaceId,u.senderId,
    u.idempotencyKey,u.correlationId,u.causationId,u.sequence,u.sentAt,u.expiresAt,
    payloadDigest,u.payload,signature⟩

def sealEnvelope (p : Platform) (unsigned : UnsignedEnvelope) (privateKey : String) :
    Except String Envelope := do
  let payloadDigest ← computePayloadDigest p unsigned.payload
  let input ← buildSigningInput p (unsigned.withDigest payloadDigest "")
  .ok (unsigned.withDigest payloadDigest ("ed25519:" ++ p.edSign privateKey input))

inductive VerifyFailureCode where
  | schemaViolation
  | unknownType
  | signatureInvalid
  | clockSkewExceeded
  | expired
  deriving DecidableEq, Repr

def VerifyFailureCode.text : VerifyFailureCode → String
  | .schemaViolation => "SCHEMA_VIOLATION"
  | .unknownType => "UNKNOWN_TYPE"
  | .signatureInvalid => "SIGNATURE_INVALID"
  | .clockSkewExceeded => "CLOCK_SKEW_EXCEEDED"
  | .expired => "EXPIRED"

inductive VerifyResult where
  | ok (envelope : Envelope) (payload : Json)
  | failed (code : VerifyFailureCode) (detail : Option String)

def verifyPayload (p : Platform) (envelope : Envelope) : VerifyResult :=
  match parsePayload p envelope.type envelope.payload with
  | .ok payload => .ok envelope payload
  | .error message => .failed .schemaViolation (some message)

def verifySealedEnvelope (p : Platform) (raw : Json) (senderPublicKeyPem : String)
    (nowMs : Int) : Except String VerifyResult :=
  match parseEnvelope raw with
  | none => .ok (.failed .schemaViolation (some "envelope shape"))
  | some envelope =>
    if !isAccpMessageType p envelope.type then
      .ok (.failed .unknownType (some envelope.type))
    else do
      let input ← buildSigningInput p envelope
      let valid ← p.edVerify senderPublicKeyPem input
        (String.ofList (envelope.signature.toList.drop 8))
      if !valid then .ok (.failed .signatureInvalid none)
      else do
        let payloadDigest ← computePayloadDigest p envelope.payload
        if payloadDigest ≠ envelope.payloadDigest then
          .ok (.failed .signatureInvalid (some "payload digest"))
        else if !isWithinClockSkew envelope.sentAt nowMs then
          .ok (.failed .clockSkewExceeded none)
        else if isExpired envelope.expiresAt nowMs then .ok (.failed .expired none)
        else .ok (verifyPayload p envelope)

structure Verified (p : Platform) (raw : Json) (senderPublicKeyPem : String) (nowMs : Int)
    (envelope : Envelope) (payload : Json) : Prop where
  parsed : parseEnvelope raw = some envelope
  known : isAccpMessageType p envelope.type = true
  signed : ∃ input, buildSigningInput p envelope = .ok input ∧ p.edVerify senderPublicKeyPem
    input (String.ofList (envelope.signature.toList.drop 8)) = .ok true
  digested : computePayloadDigest p envelope.payload = .ok envelope.payloadDigest
  timely : isWithinClockSkew envelope.sentAt nowMs = true
  unexpired : isExpired envelope.expiresAt nowMs = false
  payload : parsePayload p envelope.type envelope.payload = .ok payload

theorem verifiedSource {p : Platform} {raw : Json} {key : String} {nowMs : Int}
    {envelope : Envelope} {payload : Json}
    (h : verifySealedEnvelope p raw key nowMs = .ok (.ok envelope payload)) :
    Verified p raw key nowMs envelope payload := by
  unfold verifySealedEnvelope at h
  split at h
  · simp at h
  · rename_i e parsed
    split at h
    · simp at h
    rename_i known
    obtain ⟨input,signing,h⟩ := exceptBind h
    obtain ⟨valid,checked,h⟩ := exceptBind h
    cases valid with
    | false => simp at h
    | true =>
      obtain ⟨digest,digested,h⟩ := exceptBind h
      split at h
      · simp at h
      rename_i same
      split at h
      · simp at h
      rename_i timely
      split at h
      · simp at h
      rename_i unexpired
      unfold verifyPayload at h
      split at h
      · rename_i payload' accepted
        cases Except.ok.inj h
        exact ⟨parsed,by simpa using known,⟨input,signing,checked⟩,
          by rw [digested,not_not.mp same],by simpa using timely,by simpa using unexpired,accepted⟩
      · simp at h

end ControlCenter.AccpSeal
