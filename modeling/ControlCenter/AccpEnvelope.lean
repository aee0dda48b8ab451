import ControlCenter.ZodSchema
import Mathlib.Data.List.Lex

/-! ACCP v1 envelope: field patterns, canonical JSON, payload digest, clock rules
and the bounded duplicate index. Hashing, signing, randomness and the text of
numbers that are no safe integers come from the platform and stay uninterpreted. -/
namespace ControlCenter.AccpEnvelope
open JsonValue ZodSchema

structure Platform where
  sha256Hex : String → String
  -- The base64url signature of a text under an exported private key.
  edSign : String → String → String
  -- Public key, signed text, base64url signature; a malformed key throws.
  edVerify : String → String → String → Except String Bool
  isUrl : String → Bool
  -- JSON.stringify of a finite number that is not a safe integer.
  fractionText : Rat → String
  -- The sixteen bytes of the n-th draw.
  randomBytes : Nat → Fin 16 → Fin 256
  hostPlatform : String
  -- The text of a ZodError for a schema's name and a rejected value.
  zodIssues : String → Json → String

def hexText (n : Nat) (p : Char → Bool) : Pattern := List.replicate n p

def uuidPattern : Pattern :=
  hexText 8 anyHex ++ exactly "-" ++ hexText 4 anyHex ++ exactly "-7" ++ hexText 3 anyHex ++
    exactly "-" ++ [fun c => ['8','9','a','b','A','B'].contains c] ++ hexText 3 anyHex ++
    exactly "-" ++ hexText 12 anyHex

def uuidSchema : Schema := stringMatching uuidPattern
def digestSchema : Schema := stringMatching (exactly "sha256:" ++ hexText 64 lowerHex)
def sha256HexSchema : Schema := stringMatching (hexText 64 lowerHex)
def gitShaSchema : Schema := stringMatching (hexText 40 lowerHex)

def secondPattern : Pattern :=
  hexText 4 digit ++ exactly "-" ++ hexText 2 digit ++ exactly "-" ++ hexText 2 digit ++
    exactly "T" ++ hexText 2 digit ++ exactly ":" ++ hexText 2 digit ++ exactly ":" ++
    hexText 2 digit

def dateTimeTail : List Char → Bool
  | ['Z'] => true
  | '.'::rest => decide (2 ≤ rest.length) && decide (rest.length ≤ 10) &&
      fits (hexText (rest.length - 1) digit ++ exactly "Z") rest
  | _ => false

def dateTimeText (s : String) : Bool :=
  fits secondPattern (s.toList.take 19) && dateTimeTail (s.toList.drop 19)

def dateTimeSchema : Schema := stringThat dateTimeText
def cursorSchema : Schema := nonnegative

def lineTerminator (c : Char) : Bool := [0x0a,0x0d,0x2028,0x2029].contains c.toNat

def senderIdText (s : String) : Bool := s == "cloud" ||
  ("node:".toList.isPrefixOf s.toList && decide (5 < s.toList.length) &&
    (s.toList.drop 5).all fun c => !lineTerminator c)

def base64Url (c : Char) : Bool := alphanumeric c || c == '_' || c == '-'

def signatureText (s : String) : Bool :=
  let body := s.toList.drop 8
  let padding := body.dropWhile base64Url
  "ed25519:".toList.isPrefixOf s.toList && decide (padding.length < body.length) &&
    padding.all (· == '=')

def commandOrProposalTypes : List String :=
  ["work.offer","lease.renewed","lease.revoked","run.cancel_requested","run.message_posted",
   "review.decision","effect.granted","effect.revoked","work.accepted","work.declined",
   "run.completion_proposed","artifact.declared","artifact.upload_granted",
   "artifact.committed","effect.observed"]

def envelopeShape : Schema := object
  [field "protocol" nonemptyString,field "schemaDigest" digestSchema,
   field "type" nonemptyString,field "messageId" uuidSchema,field "sessionId" uuidSchema,
   field "workspaceId" uuidSchema,field "senderId" (stringThat senderIdText),
   optional "idempotencyKey" (stringSized 1 200),optional "correlationId" uuidSchema,
   optional "causationId" uuidSchema,field "sequence" positive,field "sentAt" dateTimeSchema,
   optional "expiresAt" dateTimeSchema,field "payloadDigest" digestSchema,
   field "payload" unknown,field "signature" (stringThat signatureText)]

def textAt (key : String) (v : Json) : String := (v.get key).text.getD ""

def envelopeSchema : Schema := refined envelopeShape fun v =>
  !(commandOrProposalTypes.contains (textAt "type" v) && textAt "idempotencyKey" v == "")

structure Envelope where
  protocol : String
  schemaDigest : String
  type : String
  messageId : String
  sessionId : String
  workspaceId : String
  senderId : String
  idempotencyKey : Option String
  correlationId : Option String
  causationId : Option String
  sequence : Nat
  sentAt : String
  expiresAt : Option String
  payloadDigest : String
  payload : Json
  signature : String
  deriving Repr

def Envelope.unsigned (e : Envelope) : Json := .object
  ([("protocol",.string e.protocol),("schemaDigest",.string e.schemaDigest),
    ("type",.string e.type),("messageId",.string e.messageId),
    ("sessionId",.string e.sessionId),("workspaceId",.string e.workspaceId),
    ("senderId",.string e.senderId)] ++ present "idempotencyKey" e.idempotencyKey ++
   present "correlationId" e.correlationId ++ present "causationId" e.causationId ++
   [("sequence",.nat e.sequence),("sentAt",.string e.sentAt)] ++
   present "expiresAt" e.expiresAt ++
   [("payloadDigest",.string e.payloadDigest),("payload",e.payload)])

def parseEnvelope (raw : Json) : Option Envelope := do
  let v ← envelopeSchema raw
  some ⟨textAt "protocol" v,textAt "schemaDigest" v,textAt "type" v,textAt "messageId" v,
    textAt "sessionId" v,textAt "workspaceId" v,textAt "senderId" v,
    (v.get "idempotencyKey").text,(v.get "correlationId").text,(v.get "causationId").text,
    (v.get "sequence").natural,textAt "sentAt" v,(v.get "expiresAt").text,
    textAt "payloadDigest" v,v.get "payload",textAt "signature" v⟩

theorem parsedEnvelope {raw : Json} {e : Envelope} (h : parseEnvelope raw = some e) :
    ∃ v, envelopeShape raw = some v ∧ e.sessionId = textAt "sessionId" v ∧
      e.messageId = textAt "messageId" v ∧ e.payload = v.get "payload" := by
  simp only [parseEnvelope,bind,Option.bind_eq_some_iff] at h
  obtain ⟨v,accepted,last⟩ := h
  cases Option.some.inj last
  simp only [envelopeSchema,refined,bind,Option.bind_eq_some_iff] at accepted
  obtain ⟨shaped,inside,checked⟩ := accepted
  split at checked <;> try contradiction
  cases Option.some.inj checked
  exact ⟨v,inside,rfl,rfl,rfl⟩

theorem envelopeMembers {raw : Json} {e : Envelope} (h : parseEnvelope raw = some e) :
    ∃ members, raw = .object members ∧
      lookup "messageId" members = some (.string e.messageId) ∧
      lookup "payload" members = some e.payload := by
  obtain ⟨v,inside,_,message,payload⟩ := parsedEnvelope h
  have own := objectField inside (by decide) (f := field "messageId" uuidSchema) (by simp) rfl
  have carried := objectField inside (by decide) (f := field "payload" unknown) (by simp) rfl
  cases raw with
  | object members =>
    refine ⟨members,rfl,?_,?_⟩
    · have same : v.get "messageId" = (Json.object members).get "messageId" := stringThatSame own
      obtain ⟨text,held,_⟩ := stringThatText own
      have held : v.get "messageId" = .string text := held
      rw [message,textAt,held]
      rw [held,getObject] at same
      cases found : lookup "messageId" members with
      | none => rw [found] at same; cases same
      | some value => rw [found] at same; exact congrArg some same.symm
    · unfold envelopeShape object at inside
      simp only [bind,Option.bind_eq_some_iff] at inside
      obtain ⟨parsed,read,_⟩ := inside
      have held := requiredHeld read (f := field "payload" unknown) (by simp) rfl
      have carried : some ((Json.object members).get "payload") = some (v.get "payload") := carried
      have held : (lookup "payload" members).isSome = true := held
      obtain ⟨value,found⟩ := Option.isSome_iff_exists.mp held
      rw [getObject,found] at carried
      rw [found,payload]
      exact carried
  | _ => cases inside

theorem parsedSession {raw : Json} {e : Envelope} (h : parseEnvelope raw = some e) :
    fits uuidPattern e.sessionId.toList = true := by
  obtain ⟨v,inside,session,_⟩ := parsedEnvelope h
  have own := objectField inside (by decide) (f := field "sessionId" uuidSchema) (by simp) rfl
  obtain ⟨text,same,fits⟩ := stringThatText own
  have read : textAt "sessionId" v = text := by
    rw [textAt,show v.get "sessionId" = .string text from same]
    rfl
  rw [session,read]
  exact fits

def hexDigits (n : Nat) : List Char := Nat.toDigits 16 n

def escaped (c : Char) : List Char :=
  if c = '"' then ['\\','"'] else if c = '\\' then ['\\','\\']
  else if c.toNat = 8 then ['\\','b'] else if c.toNat = 12 then ['\\','f']
  else if c = '\n' then ['\\','n'] else if c = '\r' then ['\\','r']
  else if c = '\t' then ['\\','t']
  else if c.toNat < 16 then ['\\','u','0','0','0'] ++ hexDigits c.toNat
  else if c.toNat < 32 then ['\\','u','0','0'] ++ hexDigits c.toNat
  else [c]

def quoted (s : String) : String :=
  String.ofList (['"'] ++ s.toList.flatMap escaped ++ ['"'])

def finiteText (p : Platform) (q : Rat) : String :=
  if q.den = 1 ∧ safeInteger q.num then toString q.num else p.fractionText q

def keyOrder (a b : List Nat × String) : Prop := a.1 ≤ b.1
instance : DecidableRel keyOrder := fun _ _ => by unfold keyOrder; infer_instance

mutual
def canonicalJson (p : Platform) : Json → Except String String
  | .null => .ok "null"
  | .boolean b => .ok (if b then "true" else "false")
  | .number (.finite q) => .ok (finiteText p q)
  | .number .negativeZero => .ok "0"
  | .number (.infinity _) | .number .nan => .error "non-finite number is not canonicalizable"
  | .string s => .ok (quoted s)
  | .undefined => .error "undefined is not canonicalizable"
  | .array items => do
      let parts ← canonicalItems p items
      .ok ("[" ++ String.intercalate "," parts ++ "]")
  | .object members => do
      let parts ← canonicalMembers p members
      .ok ("\x7b" ++ String.intercalate "," ((parts.insertionSort keyOrder).map (·.2)) ++ "\x7d")

def canonicalItems (p : Platform) : List Json → Except String (List String)
  | [] => .ok []
  | .undefined::rest => do
      let tail ← canonicalItems p rest
      .ok ("null"::tail)
  | v::rest => do
      let head ← canonicalJson p v
      let tail ← canonicalItems p rest
      .ok (head::tail)

def canonicalMembers (p : Platform) :
    List (String × Json) → Except String (List (List Nat × String))
  | [] => .ok []
  | (_,.undefined)::rest => canonicalMembers p rest
  | (k,v)::rest => do
      let head ← canonicalJson p v
      let tail ← canonicalMembers p rest
      .ok ((utf16 k,quoted k ++ ":" ++ head)::tail)
end

def computePayloadDigest (p : Platform) (payload : Json) : Except String String := do
  let text ← canonicalJson p payload
  .ok ("sha256:" ++ p.sha256Hex text)

def buildSigningInput (p : Platform) (e : Envelope) : Except String String :=
  canonicalJson p e.unsigned

theorem exceptBind {ε α β : Type} {m : Except ε α} {f : α → Except ε β} {b : β}
    (h : m >>= f = .ok b) : ∃ a, m = .ok a ∧ f a = .ok b := by
  cases m with
  | error e => contradiction
  | ok a => exact ⟨a,rfl,h⟩

end ControlCenter.AccpEnvelope
