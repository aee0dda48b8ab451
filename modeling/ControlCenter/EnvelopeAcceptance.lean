import ControlCenter.SealedEnvelopes
import ControlCenter.SessionRuns

/-! What an accepted envelope has been checked for, and the values on which verification
throws or accepts an expiry that is no instant. -/
namespace ControlCenter.EnvelopeAcceptance
open JsonValue AccpEnvelope AccpIds AccpMessages AccpSeal SealedEnvelopes

def Enrolled (p : Platform) (senderPublicKeyPem : String) : Prop :=
  ∀ input signature, (p.edVerify senderPublicKeyPem input signature).isOk = true

def Signed (p : Platform) (senderPublicKeyPem : String) (e : Envelope) : Prop :=
  ∃ input, canonicalJson p e.unsigned = .ok input ∧
    p.edVerify senderPublicKeyPem input (String.ofList (e.signature.toList.drop 8)) = .ok true

mutual
-- The values JSON.parse can produce: nothing is undefined, no number is none, and no name
-- occurs twice.
def parsedJson : Json → Bool
  | .undefined | .number .nan => false
  | .array items => parsedItems items
  | .object members => decide (members.map Prod.fst).Nodup && parsedMembers members
  | _ => true

def parsedItems : List Json → Bool
  | [] => true
  | v::rest => parsedJson v && parsedItems rest

def parsedMembers : List (String × Json) → Bool
  | [] => true
  | (_,v)::rest => parsedJson v && parsedMembers rest
end

structure Accepted (p : Platform) (raw : Json) (senderPublicKeyPem : String) (nowMs : Int)
    (e : Envelope) (payload : Json) : Prop where
  shaped : parseEnvelope raw = some e
  known : isAccpMessageType p e.type = true
  signed : Signed p senderPublicKeyPem e
  digested : ∃ text, canonicalJson p e.payload = .ok text ∧
    e.payloadDigest = "sha256:" ++ p.sha256Hex text
  timely : ∃ sent, dateParse e.sentAt = some sent ∧
    ((nowMs - sent).natAbs : Int) ≤ clockSkewToleranceMs
  unexpired : e.expiresAt = none ∨ ∃ text expiry, e.expiresAt = some text ∧
    dateParse text = some expiry ∧ nowMs - clockSkewToleranceMs ≤ expiry
  payload : parsePayload p e.type e.payload = .ok payload

section
variable (p : Platform) (raw : Json) (key : String) (nowMs : Int)

structure Answered : Prop where
  returns : (verifySealedEnvelope p raw key nowMs).isOk = true
  accepted : ∀ e payload, verifySealedEnvelope p raw key nowMs = .ok (.ok e payload) →
    Accepted p raw key nowMs e payload

structure Admissible (e : Envelope) : Prop where
  digested : computePayloadDigest p e.payload = .ok e.payloadDigest
  timely : isWithinClockSkew e.sentAt nowMs = true
  payload : (parsePayload p e.type e.payload).isOk = true

structure Checkable (e : Envelope) : Prop where
  finite : canonical e.payload = true
  dated : Signed p key e → Admissible p nowMs e → ∀ text, e.expiresAt = some text →
    (dateParse text).isSome = true

end

section
variable {p : Platform} {raw : Json} {key : String} {nowMs : Int} {e : Envelope} {payload : Json}

theorem memberParsed {members : List (String × Json)} (parsed : parsedMembers members = true)
    {name : String} {v : Json} (held : lookup name members = some v) : parsedJson v = true := by
  induction members with
  | nil => cases held
  | cons member rest ih =>
    obtain ⟨other,own⟩ := member
    obtain ⟨first,rest⟩ := Bool.and_eq_true_iff.mp parsed
    rw [lookupCons] at held
    split at held
    · exact Option.some.inj held ▸ first
    · exact ih rest held

theorem payloadGiven (received : parsedJson raw = true) (parsed : parseEnvelope raw = some e) :
    e.payload ≠ .undefined := by
  obtain ⟨members,rfl,_,payload⟩ := envelopeMembers parsed
  intro missing
  have own := memberParsed (Bool.and_eq_true_iff.mp received).2 payload
  rw [missing] at own
  cases own

theorem unsignedReturns : (buildSigningInput p e).isOk = true ↔
    e.payload = .undefined ∨ canonical e.payload = true := by
  unfold buildSigningInput
  rw [canonicalText]
  constructor
  · intro whole
    simp only [Envelope.unsigned,canonical,canonicalAppend,Bool.and_eq_true] at whole
    have payload (v : Json) (last : canonicalMember [("payload",v)] = true) :
        v = .undefined ∨ canonical v = true := by
      cases v <;> simp_all [canonicalMember]
    exact payload e.payload (Bool.and_eq_true_iff.mp whole.2).2
  · rintro (missing | whole)
    · simp only [Envelope.unsigned,canonical,canonicalAppend,canonicalPresent,missing]
      rfl
    · exact canonicalUnsigned whole

theorem digestReturns : (computePayloadDigest p payload).isOk = canonical payload := by
  unfold computePayloadDigest
  rw [isOkMap,canonicalText]

theorem timelySent : isWithinClockSkew e.sentAt nowMs = true ↔
    ∃ sent, dateParse e.sentAt = some sent ∧
      ((nowMs - sent).natAbs : Int) ≤ clockSkewToleranceMs := by
  unfold isWithinClockSkew
  cases dateParse e.sentAt with
  | none => simp
  | some sent => simp

theorem datedExpiry (dated : ∀ text, e.expiresAt = some text → (dateParse text).isSome = true)
    (unexpired : isExpired e.expiresAt nowMs = false) :
    e.expiresAt = none ∨ ∃ text expiry, e.expiresAt = some text ∧
      dateParse text = some expiry ∧ nowMs - clockSkewToleranceMs ≤ expiry := by
  cases held : e.expiresAt with
  | none => exact .inl rfl
  | some text =>
    obtain ⟨expiry,instant⟩ := Option.isSome_iff_exists.mp (dated text held)
    refine .inr ⟨text,expiry,rfl,instant,?_⟩
    unfold isExpired at unexpired
    rw [held,Option.bind_some,instant] at unexpired
    simpa using unexpired

theorem expiredDated {text : String} (held : e.expiresAt = some text)
    (expired : isExpired e.expiresAt nowMs = true) : (dateParse text).isSome = true := by
  unfold isExpired at expired
  rw [held,Option.bind_some] at expired
  cases instant : dateParse text with
  | none => simp [instant] at expired
  | some expiry => rfl

theorem verifiedAccepted (verified : Verified p raw key nowMs e payload)
    (dated : ∀ text, e.expiresAt = some text → (dateParse text).isSome = true) :
    Accepted p raw key nowMs e payload where
  shaped := verified.parsed
  known := verified.known
  signed := verified.signed
  digested := by
    obtain ⟨text,written,same⟩ := exceptBind verified.digested
    exact ⟨text,written,(Except.ok.inj same).symm⟩
  timely := timelySent.mp verified.timely
  unexpired := datedExpiry dated verified.unexpired
  payload := verified.payload

theorem verifiedAdmissible (verified : Verified p raw key nowMs e payload) :
    Admissible p nowMs e :=
  ⟨verified.digested,verified.timely,by rw [verified.payload]; rfl⟩

def checkSigned (p : Platform) (nowMs : Int) (e : Envelope) : Except String VerifyResult := do
  let payloadDigest ← computePayloadDigest p e.payload
  if payloadDigest ≠ e.payloadDigest then
    .ok (.failed .signatureInvalid (some "payload digest"))
  else if !isWithinClockSkew e.sentAt nowMs then .ok (.failed .clockSkewExceeded none)
  else if isExpired e.expiresAt nowMs then .ok (.failed .expired none)
  else .ok (verifyPayload p e)

theorem verifyKnown (parsed : parseEnvelope raw = some e)
    (known : isAccpMessageType p e.type = true) :
    verifySealedEnvelope p raw key nowMs = (buildSigningInput p e >>= fun input =>
      p.edVerify key input (String.ofList (e.signature.toList.drop 8)) >>= fun valid =>
        if !valid then .ok (.failed .signatureInvalid none) else checkSigned p nowMs e) := by
  unfold verifySealedEnvelope
  rw [parsed]
  dsimp only
  rw [known]
  rfl

theorem checkReturns : (checkSigned p nowMs e).isOk = canonical e.payload := by
  rw [← digestReturns (p := p)]
  unfold checkSigned
  cases computePayloadDigest p e.payload with
  | error => rfl
  | ok digest =>
    simp only [bind,Except.bind]
    split
    · rfl
    · split
      · rfl
      · split <;> rfl

theorem signedAccepts (parsed : parseEnvelope raw = some e)
    (known : isAccpMessageType p e.type = true) (signed : Signed p key e) :
    verifySealedEnvelope p raw key nowMs = checkSigned p nowMs e := by
  obtain ⟨input,signing,valid⟩ := signed
  have signing : buildSigningInput p e = .ok input := signing
  rw [verifyKnown parsed known,signing]
  show (p.edVerify key input _ >>= _) = _
  rw [valid]
  rfl

theorem admissibleAccepts (admissible : Admissible p nowMs e)
    (unexpired : isExpired e.expiresAt nowMs = false) :
    ∃ payload, checkSigned p nowMs e = .ok (.ok e payload) := by
  obtain ⟨payload,accepted⟩ := okSome admissible.payload
  refine ⟨payload,?_⟩
  unfold checkSigned verifyPayload
  rw [admissible.digested,accepted]
  simp [bind,Except.bind,admissible.timely,unexpired]

theorem answeredCheckable (received : parsedJson raw = true)
    (parsed : parseEnvelope raw = some e) (known : isAccpMessageType p e.type = true)
    (answered : Answered p raw key nowMs) : Checkable p key nowMs e := by
  have returns := answered.returns
  constructor
  · rw [verifyKnown parsed known] at returns
    cases signing : buildSigningInput p e with
    | error => rw [signing] at returns; cases returns
    | ok input =>
      exact (unsignedReturns.mp (by rw [signing]; rfl)).resolve_left (payloadGiven received parsed)
  · intro signed admissible text held
    cases expiry : isExpired e.expiresAt nowMs with
    | true => exact expiredDated held expiry
    | false =>
      obtain ⟨payload,accepts⟩ := admissibleAccepts admissible expiry
      have accepted := answered.accepted e payload ((signedAccepts parsed known signed).trans accepts)
      rcases accepted.unexpired with none_ | ⟨text',expiry,held',instant,_⟩
      · cases none_.symm.trans held
      · cases held.symm.trans held'
        rw [instant]
        rfl

theorem checkableReturns (enrolled : Enrolled p key) (parsed : parseEnvelope raw = some e)
    (known : isAccpMessageType p e.type = true) (checkable : Checkable p key nowMs e) :
    (verifySealedEnvelope p raw key nowMs).isOk = true := by
  obtain ⟨input,signing⟩ := okSome (unsignedReturns (p := p).mpr (.inr checkable.finite))
  obtain ⟨valid,checked⟩ := okSome (enrolled input (String.ofList (e.signature.toList.drop 8)))
  cases valid with
  | true =>
    have signed : Signed p key e := ⟨input,signing,checked⟩
    rw [signedAccepts parsed known signed,checkReturns]
    exact checkable.finite
  | false =>
    rw [verifyKnown parsed known,signing]
    show (p.edVerify key input _ >>= _).isOk = true
    rw [checked]
    rfl

end

def sealedValue (type payloadDigest : String) (members : List (String × Json)) : Json := .object
  ([("protocol",.string "accp/1.0"),
    ("schemaDigest",.string ("sha256:" ++ String.ofList (List.replicate 64 '0'))),
    ("type",.string type),("messageId",.string "019b76da-a800-7000-8000-000000000000"),
    ("sessionId",.string "019b76da-a800-7000-8000-000000000001"),
    ("workspaceId",.string "00000000-0000-7000-8000-000000000000"),("senderId",.string "cloud"),
    ("sequence",.nat 1),("sentAt",.string "2026-01-01T00:00:00.000Z"),
    ("payloadDigest",.string payloadDigest),("signature",.string "ed25519:c2ln")] ++ members)

def zeroDigest : String := "sha256:" ++ String.ofList (List.replicate 64 '0')

def acknowledging : Json :=
  .object [("ackFor",.string "019b76da-a800-7000-8000-000000000000")]

def overflowing : Json := sealedValue "message.ack" zeroDigest
  [("payload",.object [("cursorAck",.number (.infinity false))])]

def thirteenthMonth : Json := sealedValue "message.ack" zeroDigest
  [("payload",acknowledging),("expiresAt",.string "2026-13-01T00:00:00Z")]

def acceptedExpiry : Except String VerifyResult → Option String
  | .ok (.ok e _) => e.expiresAt
  | _ => none

example : (verifySealedEnvelope SessionRuns.idlePlatform
    (sealedValue "message.ack" zeroDigest []) "pem" 1767225600000).toOption.any (fun
      | .failed .schemaViolation _ => true
      | _ => false) = true := by decide +kernel

end ControlCenter.EnvelopeAcceptance
