import ControlCenter.CanonicalTexts
import ControlCenter.SessionRuns
import Mathlib.Logic.Encodable.Basic
import Mathlib.Logic.Equiv.List

/-! From an object in memory through the wire to the receiver: what is sealed is verified as
it was, whatever unknown members are added, and no other header or payload verifies under
its signature. -/
namespace ControlCenter.SealRoundTrip
open JsonValue ZodSchema AccpEnvelope AccpIds AccpMessages AccpSeal SealedEnvelopes
open CanonicalForm (normal)
open JsonText (Value)
open CanonicalTexts

def headerFields : List Field :=
  [field "protocol" nonemptyString,field "schemaDigest" digestSchema,
   field "type" nonemptyString,field "messageId" uuidSchema,field "sessionId" uuidSchema,
   field "workspaceId" uuidSchema,field "senderId" (stringThat senderIdText),
   optional "idempotencyKey" (stringSized 1 200),optional "correlationId" uuidSchema,
   optional "causationId" uuidSchema,field "sequence" positive,field "sentAt" dateTimeSchema,
   optional "expiresAt" dateTimeSchema]

def sealedFields : List Field :=
  [field "payloadDigest" digestSchema,field "payload" unknown,
   field "signature" (stringThat signatureText)]

theorem envelopeFields : envelopeShape = object (headerFields ++ sealedFields) := rfl

def headerNames : List String := headerFields.map Field.name
def envelopeNames : List String := (headerFields ++ sealedFields).map Field.name

structure Reads (raw : Json) (e : Envelope) : Prop where
  protocol : raw.get "protocol" = .string e.protocol
  schemaDigest : raw.get "schemaDigest" = .string e.schemaDigest
  type : raw.get "type" = .string e.type
  messageId : raw.get "messageId" = .string e.messageId
  sessionId : raw.get "sessionId" = .string e.sessionId
  workspaceId : raw.get "workspaceId" = .string e.workspaceId
  senderId : raw.get "senderId" = .string e.senderId
  idempotencyKey : raw.get "idempotencyKey" = (e.idempotencyKey.map Json.string).getD .undefined
  correlationId : raw.get "correlationId" = (e.correlationId.map Json.string).getD .undefined
  causationId : raw.get "causationId" = (e.causationId.map Json.string).getD .undefined
  sequence : raw.get "sequence" = .nat e.sequence
  sentAt : raw.get "sentAt" = .string e.sentAt
  expiresAt : raw.get "expiresAt" = (e.expiresAt.map Json.string).getD .undefined
  payloadDigest : raw.get "payloadDigest" = .string e.payloadDigest
  payload : raw.get "payload" = e.payload
  signature : raw.get "signature" = .string e.signature

section
variable {raw v : Json} {e : Envelope}

theorem textField (shaped : envelopeShape raw = some v) {name : String} {check : String → Bool}
    (i : Nat) (listed : (headerFields ++ sealedFields)[i]? = some (field name (stringThat check))) :
    raw.get name = .string (textAt name v) ∧ v.get name = raw.get name := by
  have listed := List.mem_of_getElem? listed
  have own := objectField (envelopeFields ▸ shaped) (by decide) listed rfl
  have same : v.get name = raw.get name := stringThatSame own
  obtain ⟨s,text,_⟩ := stringThatText own
  have text : v.get name = .string s := text
  refine ⟨?_,same⟩
  rw [← same,textAt,text]
  rfl

theorem optionalField (shaped : envelopeShape raw = some v) {name : String}
    {check : String → Bool} (i : Nat)
    (listed : (headerFields ++ sealedFields)[i]? = some (optional name (stringThat check))) :
    raw.get name = ((v.get name).text.map Json.string).getD .undefined ∧
      v.get name = raw.get name := by
  have listed := List.mem_of_getElem? listed
  have shaped := envelopeFields ▸ shaped
  obtain ⟨members,rfl⟩ : ∃ members, raw = .object members := by
    cases raw with
    | object members => exact ⟨members,rfl⟩
    | _ => contradiction
  obtain ⟨same,_⟩ := optionalText shaped (by decide) name check listed
  refine ⟨?_,same⟩
  simp only [object,bind,Option.bind_eq_some_iff] at shaped
  obtain ⟨out,found,last⟩ := shaped
  cases Option.some.inj last
  rcases memberParsed found (by decide) listed with ⟨absent,_,missing⟩ | ⟨value,held,own | ⟨_,default⟩⟩
  · have missing : lookup name out = none := missing
    have absent : (Json.object members).get name = .undefined := absent
    rw [absent,getObject name out,missing]
    rfl
  · have held : lookup name out = some value := held
    obtain ⟨s,rfl,_⟩ := stringThatText own
    rw [← same,getObject name out,held]
    rfl
  · contradiction

theorem sequenceField (shaped : envelopeShape raw = some v) :
    raw.get "sequence" = .nat (v.get "sequence").natural := by
  have own := objectField (envelopeFields ▸ shaped) (by decide) (f := field "sequence" positive)
    (by simp [headerFields]) rfl
  have own : positive (raw.get "sequence") = some (v.get "sequence") := own
  have same := integerFromSame own
  have least := positiveNatural own
  rw [same] at own least ⊢
  cases held : raw.get "sequence" with
  | number n =>
    rw [held] at least
    cases n with
    | finite q =>
      simp only [Json.natural,Number.integer?] at least
      split at least
      next whole =>
        simp only [Option.getD_some] at least
        have positive_ : 0 ≤ q.num := by omega
        simp only [Json.nat,Json.natural,Number.integer?,if_pos whole,Option.getD_some]
        congr 2
        have num : ((q.num.toNat : Int) : Rat) = q := by
          rw [Int.toNat_of_nonneg positive_]
          exact Rat.den_eq_one_iff q |>.mp whole
        exact_mod_cast num.symm
      next => simp at least
    | negativeZero | infinity | nan => simp [Json.natural,Number.integer?] at least
  | _ => rw [held] at own; contradiction

theorem parsedReads (parsed : parseEnvelope raw = some e) : Reads raw e := by
  simp only [parseEnvelope,bind,Option.bind_eq_some_iff] at parsed
  obtain ⟨v,accepted,last⟩ := parsed
  simp only [envelopeSchema,refined,bind,Option.bind_eq_some_iff] at accepted
  obtain ⟨w,shaped,checked⟩ := accepted
  split at checked <;> try contradiction
  cases Option.some.inj checked
  cases Option.some.inj last
  have payload := objectField (envelopeFields ▸ shaped) (by decide) (f := field "payload" unknown)
    (by simp [sealedFields]) rfl
  exact ⟨(textField shaped 0 rfl).1,(textField shaped 1 rfl).1,(textField shaped 2 rfl).1,
    (textField shaped 3 rfl).1,(textField shaped 4 rfl).1,(textField shaped 5 rfl).1,
    (textField shaped 6 rfl).1,(optionalField shaped 7 rfl).1,(optionalField shaped 8 rfl).1,
    (optionalField shaped 9 rfl).1,sequenceField shaped,(textField shaped 11 rfl).1,
    (optionalField shaped 12 rfl).1,(textField shaped 13 rfl).1,Option.some.inj payload,
    (textField shaped 15 rfl).1⟩

def signedNames : List String := headerNames ++ ["payloadDigest","payload"]

theorem unsignedGet (reads : Reads raw e) (k : String) :
    e.unsigned.get k = if k ∈ signedNames then raw.get k else .undefined := by
  have names : signedNames = ["protocol","schemaDigest","type","messageId","sessionId",
    "workspaceId","senderId","idempotencyKey","correlationId","causationId","sequence","sentAt",
    "expiresAt","payloadDigest","payload"] := rfl
  by_cases listed : k ∈ signedNames
  · rw [if_pos listed]
    rw [names] at listed
    simp only [List.mem_cons,List.not_mem_nil,or_false] at listed
    rcases listed with rfl | rfl | rfl | rfl | rfl | rfl | rfl | rfl | rfl | rfl | rfl | rfl | rfl |
      rfl | rfl
    all_goals
      simp [Envelope.unsigned,lookupAppend,lookupPresent,reads.protocol,reads.schemaDigest,
        reads.type,reads.messageId,reads.sessionId,reads.workspaceId,reads.senderId,
        reads.idempotencyKey,reads.correlationId,reads.causationId,reads.sequence,reads.sentAt,
        reads.expiresAt,reads.payloadDigest,reads.payload]
  · have other (name : String) (own : name ∈ signedNames) : ¬name = k := by
      rintro rfl
      exact listed own
    rw [if_neg listed]
    simp [Envelope.unsigned,lookupAppend,lookupPresent,other "protocol" (by decide),
      other "schemaDigest" (by decide),other "type" (by decide),other "messageId" (by decide),
      other "sessionId" (by decide),other "workspaceId" (by decide),other "senderId" (by decide),
      other "idempotencyKey" (by decide),other "correlationId" (by decide),
      other "causationId" (by decide),other "sequence" (by decide),other "sentAt" (by decide),
      other "expiresAt" (by decide),other "payloadDigest" (by decide),other "payload" (by decide)]

theorem parsesWire (headers : ∀ f ∈ headerFields ++ sealedFields, f.passes raw = true)
    (keyed : commandOrProposalTypes.contains (textAt "type" raw) = true →
      textAt "idempotencyKey" raw ≠ "") {members : List (String × Json)} (own : raw = .object members) :
    ∃ e, parseEnvelope raw = some e := by
  have shaped : accepts envelopeShape raw = true := by
    rw [own,envelopeFields,objectPass]
    exact List.all_eq_true.mpr (own ▸ headers)
  obtain ⟨v,shaped⟩ := Option.isSome_iff_exists.mp shaped
  have type : textAt "type" v = textAt "type" raw := by
    rw [textAt,(textField shaped 2 rfl).2,← textAt]
  have key : textAt "idempotencyKey" v = textAt "idempotencyKey" raw := by
    rw [textAt,(optionalField shaped 7 rfl).2,← textAt]
  have checked : (!(commandOrProposalTypes.contains (textAt "type" v) &&
      textAt "idempotencyKey" v == "")) = true := by
    rw [type,key]
    cases listed : commandOrProposalTypes.contains (textAt "type" raw) with
    | false => rfl
    | true => simpa using keyed listed
  unfold parseEnvelope envelopeSchema refined
  rw [shaped]
  exact ⟨_,by simp only [bind,Option.bind_some,if_pos checked]; rfl⟩

theorem fieldsAlike {w : Json} {shape : List Field}
    (same : ∀ f ∈ shape, v.get f.name = w.get f.name ∧ v.has f.name = w.has f.name) :
    fields v shape = fields w shape := by
  induction shape with
  | nil => rfl
  | cons f rest ih =>
    have own := same f List.mem_cons_self
    rw [fields,fields,own.1,own.2,ih fun g listed => same g (List.mem_cons_of_mem _ listed)]

theorem parsesAlike {members others : List (String × Json)}
    (same : ∀ name ∈ envelopeNames, lookup name members = lookup name others) :
    parseEnvelope (.object members) = parseEnvelope (.object others) := by
  have each (f : Field) (listed : f ∈ headerFields ++ sealedFields) :
      (Json.object members).get f.name = (Json.object others).get f.name ∧
        (Json.object members).has f.name = (Json.object others).has f.name := by
    rw [getObject,getObject,Json.has,Json.has,same f.name (List.mem_map_of_mem listed)]
    exact ⟨rfl,rfl⟩
  have shapes : envelopeShape (.object members) = envelopeShape (.object others) := by
    rw [envelopeFields,object,object,fieldsAlike each]
  unfold parseEnvelope envelopeSchema refined
  rw [shapes]

theorem verifiesAlike {w : Json} (p : Platform) (key : String) (now : Int)
    (same : parseEnvelope v = parseEnvelope w) :
    verifySealedEnvelope p v key now = verifySealedEnvelope p w key now := by
  unfold verifySealedEnvelope
  rw [same]

theorem imageGet {members : List (String × Json)} (unique : (members.map Prod.fst).Nodup)
    (k : String) : (Json.object (imageMembers members)).get k = ((Json.object members).get k).image := by
  induction members with
  | nil => rfl
  | cons member rest ih =>
    obtain ⟨name,v⟩ := member
    obtain ⟨fresh,unique⟩ := List.nodup_cons.mp unique
    have later := ih unique
    rw [getObject] at later ⊢
    rw [getObject] at later ⊢
    by_cases same : name = k
    · subst same
      have absent : lookup name rest = none := by
        cases held : lookup name rest with
        | none => rfl
        | some w => exact absurd (List.mem_map_of_mem (memberLooked held)) fresh
      rw [absent] at later
      cases v with
      | undefined =>
        rw [imageMembers,lookupCons,if_pos rfl]
        exact later
      | null | boolean | number | string | array | object =>
        rw [imageMembers,lookupCons,lookupCons,if_pos rfl,if_pos rfl]
        · rfl
        · exact Json.noConfusion
    · cases v with
      | undefined =>
        rw [imageMembers,lookupCons,if_neg same]
        exact later
      | null | boolean | number | string | array | object =>
        rw [imageMembers,lookupCons,lookupCons,if_neg same,if_neg same]
        · exact later
        · exact Json.noConfusion

theorem filterLookup (known : String → Bool) {k : String} (own : known k = true)
    (members : List (String × Json)) :
    lookup k (members.filter fun m => known m.1) = lookup k members := by
  induction members with
  | nil => rfl
  | cons member rest ih =>
    obtain ⟨name,v⟩ := member
    rw [List.filter_cons,lookupCons]
    by_cases same : name = k
    · rw [if_pos same,if_pos (by rw [same]; exact own),lookupCons,if_pos same]
    · rw [if_neg same]
      split
      · rw [lookupCons,if_neg same]
        exact ih
      · exact ih

end

inductive Scalar : Json → Prop
  | undefined : Scalar .undefined
  | string (text : String) : Scalar (.string text)
  | number (q : Rat) : Scalar (.number (.finite q))

theorem Scalar.image {v : Json} (scalar : Scalar v) : v.image = v := by
  cases scalar <;> rfl

theorem Scalar.written {v : Json} (scalar : Scalar v) : v = .undefined ∨ canonical v = true := by
  cases scalar with
  | undefined => exact .inl rfl
  | string text => exact .inr rfl
  | number q => exact .inr rfl

theorem Scalar.distinct {v : Json} (scalar : Scalar v) : Distinct v := by
  cases scalar <;> trivial

theorem Scalar.same {v w : Json} (scalar : Scalar v) (scalar' : Scalar w)
    (same : normal 0 (value v) = normal 0 (value w)) : v = w := by
  cases scalar with
  | undefined =>
    cases scalar' with
    | undefined => rfl
    | string | number => cases same
  | string text =>
    cases scalar' with
    | string text' => rw [unitsInjective (Value.string.inj same)]
    | undefined | number => cases same
  | number q =>
    cases scalar' with
    | number r => rw [Value.number.inj same]
    | undefined | string => cases same

theorem headerScalar {v : Json} {f : Field} (listed : f ∈ headerFields) (passes : f.passes v = true) :
    Scalar (v.get f.name) := by
  have required {name : String} {check : String → Bool}
      (passes : (field name (stringThat check)).passes v = true) : Scalar (v.get name) := by
    rw [requiredPass,Bool.and_eq_true] at passes
    have passes := passes.2
    cases held : v.get name with
    | string s => constructor
    | _ => rw [held] at passes; cases passes
  have numbers {name : String} (passes : (field name positive).passes v = true) :
      Scalar (v.get name) := by
    rw [requiredPass,Bool.and_eq_true] at passes
    have passes := passes.2
    cases held : v.get name with
    | number n =>
      rw [held] at passes
      cases n with
      | finite q => constructor
      | negativeZero => exact absurd passes (by decide)
      | infinity | nan => cases passes
    | _ => rw [held] at passes; cases passes
  have options {name : String} {check : String → Bool}
      (passes : (ZodSchema.optional name (stringThat check)).passes v = true) :
      Scalar (v.get name) := by
    unfold Field.passes ZodSchema.optional at passes
    dsimp only at passes
    cases held : v.get name with
    | undefined => constructor
    | string s => constructor
    | _ => rw [held] at passes; exact absurd (Bool.and_eq_true_iff.mp passes).2 Bool.false_ne_true
  simp only [headerFields,List.mem_cons,List.not_mem_nil,or_false] at listed
  rcases listed with rfl | rfl | rfl | rfl | rfl | rfl | rfl | rfl | rfl | rfl | rfl | rfl | rfl
  · exact required passes
  · exact required passes
  · exact required passes
  · exact required passes
  · exact required passes
  · exact required passes
  · exact required passes
  · exact options passes
  · exact options passes
  · exact options passes
  · exact numbers passes
  · exact required passes
  · exact options passes

section
variable (p : Platform) (unsigned : List (String × Json))

def payloadOf : Json := (Json.object unsigned).get "payload"

def withDigest (payloadDigest : String) : List (String × Json) :=
  unsigned ++ [("payloadDigest",.string payloadDigest)]

-- The object that is sealed may hold members that are undefined.
def sealEnvelope (privateKey : String) : Except String (List (String × Json)) := do
  let payloadDigest ← computePayloadDigest p (payloadOf unsigned)
  let input ← canonicalJson p (.object (withDigest unsigned payloadDigest))
  .ok (withDigest unsigned payloadDigest ++
    [("signature",.string ("ed25519:" ++ p.edSign privateKey input))])

structure HeaderOnly : Prop where
  unique : (unsigned.map Prod.fst).Nodup
  names : ∀ m ∈ unsigned, m.1 ∈ headerNames ++ ["payload"]
  fits : ∀ f ∈ headerFields, f.passes (.object unsigned) = true
  keyed : commandOrProposalTypes.contains (textAt "type" (.object unsigned)) = true →
    textAt "idempotencyKey" (.object unsigned) ≠ ""

structure Opened (e : Envelope) : Prop where
  header : ∀ name ∈ headerNames, e.unsigned.get name = (Json.object unsigned).get name
  payload : e.payload = (payloadOf unsigned).image

end

-- Under the public key a signature verifies for the text it was made for and no other.
structure IdealKeys (p : Platform) (privateKey publicKey : String) : Prop where
  verifies : ∀ input, p.edVerify publicKey input (p.edSign privateKey input) = .ok true
  binds : ∀ input other, p.edVerify publicKey other (p.edSign privateKey input) = .ok true →
    other = input
  written : ∀ input, signatureText ("ed25519:" ++ p.edSign privateKey input) = true

def Hashes (p : Platform) : Prop := ∀ text,
  fits (exactly "sha256:" ++ hexText 64 lowerHex) ("sha256:" ++ p.sha256Hex text).toList = true

section
variable {p : Platform} {unsigned : List (String × Json)} {privateKey publicKey : String}

theorem absentLookup {members : List (String × Json)} {k : String}
    (absent : k ∉ members.map Prod.fst) : lookup k members = none := by
  cases held : lookup k members with
  | none => rfl
  | some v => exact absurd (List.mem_map_of_mem (memberLooked held)) absent

theorem HeaderOnly.absent (header : HeaderOnly unsigned) {k : String}
    (unlisted : k ∉ headerNames ++ ["payload"]) : lookup k unsigned = none := by
  refine absentLookup fun listed => ?_
  obtain ⟨m,inside,rfl⟩ := List.mem_map.mp listed
  exact unlisted (header.names m inside)

theorem getAppended (front back : List (String × Json)) {k : String}
    (absent : lookup k back = none) :
    (Json.object (front ++ back)).get k = (Json.object front).get k := by
  rw [getObject,getObject,lookupAppend,absent,Option.or_none]

theorem HeaderOnly.sealedUnique (header : HeaderOnly unsigned) (digest signature : String) :
    ((withDigest unsigned digest ++ [("signature",Json.string signature)]).map Prod.fst).Nodup := by
  have fresh (k : String) (unlisted : k ∉ headerNames ++ ["payload"]) :
      k ∉ unsigned.map Prod.fst := by
    intro listed
    obtain ⟨m,inside,rfl⟩ := List.mem_map.mp listed
    exact unlisted (header.names m inside)
  simp only [withDigest,List.map_append,List.map_cons,List.map_nil,List.append_assoc,
    List.nodup_append,List.cons_append,List.nil_append]
  refine ⟨header.unique,by decide,fun a inside b listed same => ?_⟩
  subst same
  rcases List.mem_cons.mp listed with rfl | listed
  · exact fresh _ (by decide) inside
  · rw [List.mem_singleton] at listed
    exact fresh _ (by decide) (listed ▸ inside)

theorem HeaderOnly.digestUnique (header : HeaderOnly unsigned) (digest : String) :
    ((withDigest unsigned digest).map Prod.fst).Nodup := by
  have whole := header.sealedUnique digest ""
  rw [List.map_append] at whole
  exact (List.nodup_append.mp whole).1

theorem HeaderOnly.wireGet (header : HeaderOnly unsigned) (digest signature : String) (k : String)
    (signed : k ≠ "signature") :
    (Json.object (imageMembers (withDigest unsigned digest ++
      [("signature",.string signature)]))).get k =
      ((Json.object (withDigest unsigned digest)).get k).image := by
  rw [imageGet (header.sealedUnique _ _),getAppended (withDigest unsigned digest)]
  rw [lookupCons,if_neg signed.symm]
  rfl

theorem headerGet (digest : String) {k : String}
    (listed : k ∈ headerNames ++ ["payload"]) :
    (Json.object (withDigest unsigned digest)).get k = (Json.object unsigned).get k := by
  refine getAppended unsigned _ ?_
  rw [lookupCons,if_neg]
  · rfl
  · rintro rfl
    exact absurd listed (by decide)

theorem HeaderOnly.digestGet (header : HeaderOnly unsigned) (digest : String) :
    (Json.object (withDigest unsigned digest)).get "payloadDigest" = .string digest := by
  rw [getObject,withDigest,lookupAppend,header.absent (by decide)]
  rfl

theorem HeaderOnly.wireHeader (header : HeaderOnly unsigned) (digest signature : String)
    {name : String} (listed : name ∈ headerNames) :
    (Json.object (imageMembers (withDigest unsigned digest ++
      [("signature",.string signature)]))).get name = (Json.object unsigned).get name := by
  obtain ⟨f,inside,rfl⟩ := List.mem_map.mp listed
  have other : f.name ≠ "signature" := fun same => absurd (same ▸ listed) (by decide)
  rw [header.wireGet digest signature _ other,
    headerGet digest (List.mem_append_left _ listed)]
  exact (headerScalar inside (header.fits f inside)).image

theorem passesAlike {v w : Json} {f : Field} (same : w.get f.name = v.get f.name)
    (refuses : (f.schema .undefined).isNone = true) (passes : f.passes v = true) :
    f.passes w = true := by
  unfold Field.passes at passes ⊢
  rw [same]
  cases held : v.get f.name with
  | undefined =>
    rw [held] at passes
    cases presence : f.presence with
    | required =>
      rw [presence] at passes
      have accepted : (f.schema .undefined).isSome = true := (Bool.and_eq_true_iff.mp passes).2
      rw [← Option.not_isNone,refuses] at accepted
      cases accepted
    | optional | byDefault => rfl
  | null | boolean | number | string | array | object =>
    rw [held] at passes
    exact Bool.and_eq_true_iff.mpr ⟨hasGiven (by rw [same,held]; exact Json.noConfusion),
      (Bool.and_eq_true_iff.mp passes).2⟩

theorem headerRefuses : ∀ f ∈ headerFields, (f.schema .undefined).isNone = true :=
  List.all_eq_true.mp rfl

theorem imageDefined {v : Json} (defined : v ≠ .undefined) : v.image ≠ .undefined := by
  cases v with
  | undefined => exact absurd rfl defined
  | number n => cases n <;> exact Json.noConfusion
  | null | boolean | string | array | object => exact Json.noConfusion

theorem HeaderOnly.arrives (header : HeaderOnly unsigned) (hashes : Hashes p)
    (keys : IdealKeys p privateKey publicKey) (defined : payloadOf unsigned ≠ .undefined)
    (text input : String) :
    ∃ e, parseEnvelope (.object (imageMembers
      (withDigest unsigned ("sha256:" ++ p.sha256Hex text) ++
        [("signature",.string ("ed25519:" ++ p.edSign privateKey input))]))) = some e := by
  have getHeader (name : String) (listed : name ∈ headerNames) :=
    header.wireHeader ("sha256:" ++ p.sha256Hex text) ("ed25519:" ++ p.edSign privateKey input)
      listed
  refine parsesWire ?_ ?_ rfl
  · intro f listed
    rcases List.mem_append.mp listed with inside | last
    · exact passesAlike (getHeader _ (List.mem_map_of_mem inside)) (headerRefuses f inside)
        (header.fits f inside)
    · simp only [sealedFields,List.mem_cons,List.not_mem_nil,or_false] at last
      rcases last with rfl | rfl | rfl
      · have digest := header.wireGet ("sha256:" ++ p.sha256Hex text)
          ("ed25519:" ++ p.edSign privateKey input) "payloadDigest" (by decide)
        rw [header.digestGet] at digest
        exact requiredText digest (hashes text)
      · have payload := header.wireGet ("sha256:" ++ p.sha256Hex text)
          ("ed25519:" ++ p.edSign privateKey input) "payload" (by decide)
        rw [headerGet _ (by decide)] at payload
        have given : (Json.object (imageMembers
            (withDigest unsigned ("sha256:" ++ p.sha256Hex text) ++
              [("signature",.string ("ed25519:" ++ p.edSign privateKey input))]))).get "payload" ≠
            .undefined := by
          rw [payload]
          exact imageDefined defined
        exact requiredGiven given rfl
      · have signature : (Json.object (imageMembers
            (withDigest unsigned ("sha256:" ++ p.sha256Hex text) ++
              [("signature",.string ("ed25519:" ++ p.edSign privateKey input))]))).get "signature" =
            .string ("ed25519:" ++ p.edSign privateKey input) := by
          rw [imageGet (header.sealedUnique _ _),getObject,lookupAppend,withDigest,
            lookupAppend,header.absent (by decide)]
          rfl
        exact requiredText signature (keys.written input)
  · have type := getHeader "type" (by decide)
    have key := getHeader "idempotencyKey" (by decide)
    unfold textAt
    rw [type,key]
    exact header.keyed

theorem presentNames (key : String) (text : Option String) :
    (present key text).map Prod.fst = if text.isSome then [key] else [] := by
  cases text <;> rfl

theorem unsignedUnique (e : Envelope) : ∃ members, e.unsigned = .object members ∧
    (members.map Prod.fst).Nodup := by
  refine ⟨_,rfl,?_⟩
  simp only [List.map_append,List.map_cons,List.map_nil,presentNames]
  cases e.idempotencyKey.isSome <;> cases e.correlationId.isSome <;>
    cases e.causationId.isSome <;> cases e.expiresAt.isSome <;> decide

theorem finiteMember {members : List (String × Json)}
    (isFinite : CanonicalForm.finiteMembers (memberValues members) = true) (k : String) :
    CanonicalForm.finite (value ((Json.object members).get k)) = true := by
  rw [getObject]
  cases held : lookup k members with
  | none => rfl
  | some v =>
    rw [CanonicalForm.finiteMembersAll,memberValuesMap,List.all_map] at isFinite
    exact List.all_eq_true.mp isFinite _ (memberLooked held)

theorem HeaderOnly.sameInput (header : HeaderOnly unsigned) {digest signature text : String}
    (signing : canonicalJson p (.object (withDigest unsigned digest)) = .ok text) {e : Envelope}
    (whole : canonical e.payload = true)
    (parsed : parseEnvelope (.object (imageMembers
      (withDigest unsigned digest ++ [("signature",.string signature)]))) = some e) :
    canonicalJson p e.unsigned = .ok text := by
  have reads := parsedReads parsed
  obtain ⟨isFinite,_⟩ := canonicalFinite signing
  have returns : (canonicalJson p e.unsigned).isOk = true := by
    rw [canonicalText]
    exact canonicalUnsigned whole
  obtain ⟨written,own⟩ := okSome returns
  obtain ⟨finiteOwn,definedOwn⟩ := canonicalFinite own
  obtain ⟨members,same,unique⟩ := unsignedUnique e
  have alike : normal 0 (value e.unsigned) =
      normal 0 (value (.object (withDigest unsigned digest))) := by
    rw [same,objectNormal unique (header.digestUnique digest)]
    intro k
    rw [← same,unsignedGet reads k]
    by_cases listed : k ∈ signedNames
    · have other : k ≠ "signature" := by
        rintro rfl
        exact absurd listed (by decide)
      rw [if_pos listed,header.wireGet digest signature k other]
      exact imageNormal _ (finiteMember isFinite k)
    · rw [if_neg listed,getObject,withDigest,lookupAppend,
        header.absent fun inside => listed ?_,lookupCons,if_neg]
      · rfl
      · rintro rfl
        exact listed (by decide)
      · rcases List.mem_append.mp inside with inside | last
        · exact List.mem_append_left _ inside
        · rw [List.mem_singleton.mp last]
          decide
  rw [← signing]
  exact sameNormalText finiteOwn isFinite definedOwn alike

theorem signatureBody (signature : String) :
    String.ofList (("ed25519:" ++ signature).toList.drop 8) = signature := by
  rw [String.toList_append]
  exact String.ofList_toList

structure Arrives (p : Platform) (unsigned members : List (String × Json)) (privateKey : String)
    (e : Envelope) : Prop where
  sealed : members = withDigest unsigned e.payloadDigest ++ [("signature",.string e.signature)]
  opened : Opened unsigned e
  parsed : parseEnvelope (.object (imageMembers members)) = some e
  type : e.type = textAt "type" (.object unsigned)
  sentAt : e.sentAt = textAt "sentAt" (.object unsigned)
  expiresAt : e.expiresAt = ((Json.object unsigned).get "expiresAt").text
  digested : computePayloadDigest p e.payload = .ok e.payloadDigest
  signed : ∃ input, canonicalJson p e.unsigned = .ok input ∧
    canonicalJson p (.object (withDigest unsigned e.payloadDigest)) = .ok input ∧
    e.signature = "ed25519:" ++ p.edSign privateKey input

theorem textOption (text : Option String) :
    ((text.map Json.string).getD .undefined).text = text := by
  cases text <;> rfl

theorem canonicalEach {members : List (String × Json)}
    (each : ∀ m ∈ members, m.2 = .undefined ∨ canonical m.2 = true) :
    canonicalMember members = true := by
  induction members with
  | nil => rfl
  | cons member rest ih =>
    obtain ⟨k,v⟩ := member
    have tail := ih fun m listed => each m (List.mem_cons_of_mem _ listed)
    rcases each (k,v) List.mem_cons_self with missing | whole
    · cases missing
      exact tail
    · have own : canonical v = true := whole
      cases v with
      | undefined => cases own
      | null | boolean | number | string | array | object =>
        rw [canonicalMember]
        · exact Bool.and_eq_true_iff.mpr ⟨own,tail⟩
        · exact Json.noConfusion

theorem HeaderOnly.signs (header : HeaderOnly unsigned)
    (whole : canonical (payloadOf unsigned) = true) (digest : String) :
    canonical (.object (withDigest unsigned digest)) = true := by
  have each : ∀ m ∈ unsigned, m.2 = .undefined ∨ canonical m.2 = true := by
    rintro ⟨k,v⟩ inside
    have own : (Json.object unsigned).get k = v := by
      rw [getObject,lookupMember header.unique inside]
      rfl
    rcases List.mem_append.mp (header.names _ inside) with listed | last
    · obtain ⟨f,named,same⟩ := List.mem_map.mp listed
      have value := (headerScalar named (header.fits f named)).written
      rw [same,own] at value
      exact value
    · have named : k = "payload" := List.mem_singleton.mp last
      rw [payloadOf,← named,own] at whole
      exact .inr whole
  show canonicalMember (unsigned ++ _) = true
  rw [canonicalAppend,canonicalEach each]
  rfl

theorem HeaderOnly.sealed (header : HeaderOnly unsigned) (hashes : Hashes p)
    (keys : IdealKeys p privateKey publicKey) (whole : canonical (payloadOf unsigned) = true) :
    ∃ members e, sealEnvelope p unsigned privateKey = .ok members ∧
      Arrives p unsigned members privateKey e := by
  obtain ⟨payloadText,written⟩ := okSome ((canonicalText p (payloadOf unsigned)).trans whole)
  have digest : computePayloadDigest p (payloadOf unsigned) =
      .ok ("sha256:" ++ p.sha256Hex payloadText) := by
    rw [computePayloadDigest,written]
    rfl
  obtain ⟨input,signing⟩ := okSome ((canonicalText p _).trans
    (header.signs whole ("sha256:" ++ p.sha256Hex payloadText)))
  obtain ⟨e,parsed⟩ := header.arrives hashes keys
    (fun absent => by rw [absent] at whole; cases whole) payloadText input
  have reads := parsedReads parsed
  have getHeader (name : String) (listed : name ∈ headerNames) :=
    header.wireHeader ("sha256:" ++ p.sha256Hex payloadText)
      ("ed25519:" ++ p.edSign privateKey input) listed
  have payload : e.payload = (payloadOf unsigned).image := by
    rw [← reads.payload,header.wireGet _ _ _ (by decide),headerGet _ (by decide)]
    rfl
  have imaged : canonicalJson p e.payload = .ok payloadText := by
    rw [payload]
    exact canonicalImage written
  have wholeImage : canonical e.payload = true := by
    rw [← canonicalText p,imaged]
    rfl
  have declared : "sha256:" ++ p.sha256Hex payloadText = e.payloadDigest := by
    have own := reads.payloadDigest
    rw [header.wireGet _ _ _ (by decide),header.digestGet] at own
    exact Json.string.inj own
  have sealing : sealEnvelope p unsigned privateKey =
      .ok (withDigest unsigned ("sha256:" ++ p.sha256Hex payloadText) ++
        [("signature",.string ("ed25519:" ++ p.edSign privateKey input))]) := by
    unfold sealEnvelope
    rw [digest]
    simp only [bind,Except.bind,signing]
  have signature : e.signature = "ed25519:" ++ p.edSign privateKey input := by
    have own := reads.signature
    rw [imageGet (header.sealedUnique _ _),getObject,lookupAppend,withDigest,
      lookupAppend,header.absent (by decide)] at own
    exact (Json.string.inj own).symm
  refine ⟨_,e,sealing,?_⟩
  constructor
  · rw [declared,signature]
  · refine ⟨fun name listed => ?_,payload⟩
    have signedName : name ∈ signedNames := List.mem_append_left _ listed
    rw [unsignedGet reads,if_pos signedName,getHeader name listed]
  · exact parsed
  · have own := reads.type.symm.trans (getHeader "type" (by decide))
    rw [textAt,← own]
    rfl
  · have own := reads.sentAt.symm.trans (getHeader "sentAt" (by decide))
    rw [textAt,← own]
    rfl
  · rw [← getHeader "expiresAt" (by decide),reads.expiresAt,textOption]
  · rw [computePayloadDigest,imaged,← declared]
    rfl
  · exact ⟨input,header.sameInput signing wholeImage parsed,by rw [← declared]; exact signing,
      signature⟩

theorem distinctEach {members : List (String × Json)} (each : ∀ m ∈ members, Distinct m.2) :
    DistinctMembers members := by
  induction members with
  | nil => trivial
  | cons member rest ih =>
    exact ⟨each member List.mem_cons_self,
      ih fun m listed => each m (List.mem_cons_of_mem _ listed)⟩

theorem distinctMember {members : List (String × Json)} (distinct : DistinctMembers members)
    {m : String × Json} (listed : m ∈ members) : Distinct m.2 := by
  induction members with
  | nil => cases listed
  | cons member rest ih =>
    rcases List.mem_cons.mp listed with rfl | listed
    · exact distinct.1
    · exact ih distinct.2 listed

theorem distinctGet {v : Json} (distinct : Distinct v) (k : String) : Distinct (v.get k) := by
  cases v with
  | object members =>
    rw [getObject]
    cases held : lookup k members with
    | none => trivial
    | some w => exact distinctMember distinct.2 (memberLooked held)
  | _ => trivial

theorem HeaderOnly.distinct (header : HeaderOnly unsigned) (digest : String)
    (own : Distinct (payloadOf unsigned)) : Distinct (.object (withDigest unsigned digest)) := by
  refine ⟨header.digestUnique digest,distinctEach fun m listed => ?_⟩
  obtain ⟨k,v⟩ := m
  rcases List.mem_append.mp listed with inside | last
  · have held : (Json.object unsigned).get k = v := by
      rw [getObject,lookupMember header.unique inside]
      rfl
    rcases List.mem_append.mp (header.names _ inside) with listed | last
    · obtain ⟨f,named,same⟩ := List.mem_map.mp listed
      have scalar := headerScalar named (header.fits f named)
      rw [same,held] at scalar
      exact scalar.distinct
    · have named : k = "payload" := List.mem_singleton.mp last
      rw [payloadOf,← named,held] at own
      exact own
  · cases List.mem_singleton.mp last
    trivial

theorem Reads.scalar {raw : Json} {e : Envelope} (reads : Reads raw e) {name : String}
    (listed : name ∈ headerNames ++ ["payloadDigest"]) : Scalar (raw.get name) := by
  have option (text : Option String) : Scalar ((text.map Json.string).getD .undefined) := by
    cases text <;> constructor
  have names : headerNames ++ ["payloadDigest"] = ["protocol","schemaDigest","type","messageId",
    "sessionId","workspaceId","senderId","idempotencyKey","correlationId","causationId",
    "sequence","sentAt","expiresAt","payloadDigest"] := rfl
  rw [names] at listed
  simp only [List.mem_cons,List.not_mem_nil,or_false] at listed
  rcases listed with rfl | rfl | rfl | rfl | rfl | rfl | rfl | rfl | rfl | rfl | rfl | rfl | rfl |
    rfl
  · rw [reads.protocol]; constructor
  · rw [reads.schemaDigest]; constructor
  · rw [reads.type]; constructor
  · rw [reads.messageId]; constructor
  · rw [reads.sessionId]; constructor
  · rw [reads.workspaceId]; constructor
  · rw [reads.senderId]; constructor
  · rw [reads.idempotencyKey]; exact option _
  · rw [reads.correlationId]; exact option _
  · rw [reads.causationId]; exact option _
  · rw [reads.sequence]; constructor
  · rw [reads.sentAt]; constructor
  · rw [reads.expiresAt]; exact option _
  · rw [reads.payloadDigest]; constructor

theorem Reads.distinct {raw : Json} {e : Envelope} (reads : Reads raw e) (own : Distinct raw) :
    Distinct e.unsigned := by
  obtain ⟨members,same,unique⟩ := unsignedUnique e
  rw [same]
  refine ⟨unique,distinctEach fun m listed => ?_⟩
  have held : e.unsigned.get m.1 = m.2 := by
    rw [same,getObject,lookupMember unique listed]
    rfl
  rw [← held,unsignedGet reads]
  split
  · exact distinctGet own m.1
  · trivial

def Alike (v w : Json) : Prop := normal 0 (value v) = normal 0 (value w)

def Short (q : Rat) : Prop := q.den = 1 ∧ safeInteger q.num = true

structure Fractions (p : Platform) : Prop where
  number : ∀ q, ¬Short q → JsonText.isNumber (units (p.fractionText q)) = true
  injective : ∀ q r, ¬Short q → ¬Short r → p.fractionText q = p.fractionText r → q = r
  apart : ∀ q r, ¬Short q → Short r → p.fractionText q ≠ toString r.num

structure WritesNumbers (p : Platform) : Prop where
  number : ∀ q, JsonText.isNumber (units (finiteText p q)) = true
  injective : ∀ q r, finiteText p q = finiteText p r → q = r

theorem finiteShort {q : Rat} (short : Short q) : finiteText p q = toString q.num := if_pos short
theorem finiteOther {q : Rat} (other : ¬Short q) : finiteText p q = p.fractionText q := if_neg other

theorem Fractions.writes (fractions : Fractions p) : WritesNumbers p where
  number q := by
    by_cases short : Short q
    · rw [finiteShort short]
      exact integerNumber q.num
    · rw [finiteOther short]
      exact fractions.number q short
  injective q r same := by
    by_cases shortQ : Short q
    · by_cases shortR : Short r
      · rw [finiteShort shortQ,finiteShort shortR] at same
        exact Rat.ext (integerInjective same) (shortQ.1.trans shortR.1.symm)
      · rw [finiteShort shortQ,finiteOther shortR] at same
        exact absurd same.symm (fractions.apart r q shortR shortQ)
    · by_cases shortR : Short r
      · rw [finiteOther shortQ,finiteShort shortR] at same
        exact absurd same (fractions.apart q r shortQ shortR)
      · rw [finiteOther shortQ,finiteOther shortR] at same
        exact fractions.injective q r shortQ shortR same

theorem WritesNumbers.lawful (numbers : WritesNumbers p) : ∃ read, (numberFormat p read).Lawful := by
  classical
  refine ⟨fun text => if h : ∃ q, units (finiteText p q) = text then .number h.choose else .null,
    numbers.number,fun q => ?_⟩
  have own : ∃ r, units (finiteText p r) = (numberFormat p fun _ => Value.null).text q := ⟨q,rfl⟩
  refine (dif_pos own).trans (congrArg Value.number ?_)
  exact numbers.injective _ _ (unitsInjective own.choose_spec)

theorem Arrives.bound {members : List (String × Json)} {e : Envelope}
    (arrives : Arrives p unsigned members privateKey e) (fractions : Fractions p)
    (keys : IdealKeys p privateKey publicKey) (header : HeaderOnly unsigned)
    (own : Distinct (payloadOf unsigned)) {raw : Json} (distinct : Distinct raw) {now : Int}
    {e' : Envelope} {payload' : Json}
    (verified : verifySealedEnvelope p raw publicKey now = .ok (.ok e' payload'))
    (signature : e'.signature = e.signature) :
    Reads raw e' ∧ ∀ name ∈ signedNames,
      Alike (raw.get name) ((Json.object (withDigest unsigned e.payloadDigest)).get name) := by
  obtain ⟨read,lawful⟩ := fractions.writes.lawful
  have verified := verifiedSource verified
  have reads := parsedReads verified.parsed
  refine ⟨reads,?_⟩
  obtain ⟨input,_,signing,signedAs⟩ := arrives.signed
  obtain ⟨input',signing',valid⟩ := verified.signed
  rw [signature,signedAs,signatureBody] at valid
  rw [keys.binds _ _ valid] at signing'
  have same := sameText lawful (reads.distinct distinct) (header.distinct _ own) signing' signing
  obtain ⟨others,listed,unique⟩ := unsignedUnique e'
  rw [listed,objectNormal unique (header.digestUnique _)] at same
  intro name signedName
  have each := same name
  rw [← listed,unsignedGet reads,if_pos signedName] at each
  exact each

theorem Arrives.verifies {members : List (String × Json)} {e : Envelope}
    (arrives : Arrives p unsigned members privateKey e) (keys : IdealKeys p privateKey publicKey)
    {payload : Json} (valid : parsePayload p e.type e.payload = .ok payload) {now : Int}
    (timely : isWithinClockSkew e.sentAt now = true)
    (unexpired : isExpired e.expiresAt now = false) :
    verifySealedEnvelope p (.object (imageMembers members)) publicKey now = .ok (.ok e payload) := by
  obtain ⟨input,signing,_,signature⟩ := arrives.signed
  have known : isAccpMessageType p e.type = true := by
    unfold parsePayload at valid
    unfold isAccpMessageType
    cases held : schemaOf p e.type with
    | none => rw [held] at valid; cases valid
    | some schema => rfl
  have signing : buildSigningInput p e = .ok input := signing
  unfold verifySealedEnvelope
  rw [arrives.parsed]
  dsimp only
  rw [known,signing,signature,signatureBody]
  simp [bind,Except.bind,keys.verifies,arrives.digested,timely,unexpired,verifyPayload,valid]

def headerMembers (u : UnsignedEnvelope) : List (String × Json) :=
  [("protocol",.string u.protocol),("schemaDigest",.string u.schemaDigest),
    ("type",.string u.type),("messageId",.string u.messageId),("sessionId",.string u.sessionId),
    ("workspaceId",.string u.workspaceId),("senderId",.string u.senderId)] ++
  present "idempotencyKey" u.idempotencyKey ++ present "correlationId" u.correlationId ++
  present "causationId" u.causationId ++
  [("sequence",.nat u.sequence),("sentAt",.string u.sentAt)] ++ present "expiresAt" u.expiresAt

def unsignedMembers (u : UnsignedEnvelope) : List (String × Json) :=
  headerMembers u ++ [("payload",u.payload)]

theorem unsignedSame (u : UnsignedEnvelope) (digest k : String) :
    (Json.object (withDigest (unsignedMembers u) digest)).get k =
      (u.withDigest digest "").unsigned.get k := by
  have own : (u.withDigest digest "").unsigned = .object
    (headerMembers u ++ [("payloadDigest",.string digest),("payload",u.payload)]) := rfl
  rw [own,withDigest,unsignedMembers,List.append_assoc,getObject,getObject,
    lookupAppend k (headerMembers u),lookupAppend k (headerMembers u)]
  refine congrArg (fun last => ((lookup k (headerMembers u)).or last).getD .undefined) ?_
  simp only [List.singleton_append,lookupCons,lookupNil]
  by_cases payload : "payload" = k
  · subst payload
    rfl
  · rw [if_neg payload,if_neg payload]

theorem unsignedMembersUnique (u : UnsignedEnvelope) (digest : String) :
    ((withDigest (unsignedMembers u) digest).map Prod.fst).Nodup := by
  simp only [withDigest,unsignedMembers,headerMembers,List.map_append,List.map_cons,List.map_nil,
    presentNames]
  cases u.idempotencyKey.isSome <;> cases u.correlationId.isSome <;>
    cases u.causationId.isSome <;> cases u.expiresAt.isSome <;> decide

theorem sealsAlike (u : UnsignedEnvelope) {e : Envelope}
    (sealing : AccpSeal.sealEnvelope p u privateKey = .ok e) :
    sealEnvelope p (unsignedMembers u) privateKey =
      .ok (withDigest (unsignedMembers u) e.payloadDigest ++
        [("signature",.string e.signature)]) := by
  obtain ⟨digest,digested,sealing⟩ := exceptBind sealing
  obtain ⟨input,signing,sealing⟩ := exceptBind sealing
  cases Except.ok.inj sealing
  have payload : payloadOf (unsignedMembers u) = u.payload := by
    have same := unsignedSame u digest "payload"
    rw [headerGet digest (by decide)] at same
    exact same.trans (by simp [Envelope.unsigned,UnsignedEnvelope.withDigest,lookupAppend,
      lookupPresent])
  obtain ⟨finiteOwn,definedOwn⟩ := canonicalFinite signing
  have alike : normal 0 (value (u.withDigest digest "").unsigned) =
      normal 0 (value (.object (withDigest (unsignedMembers u) digest))) := by
    obtain ⟨members,same,unique⟩ := unsignedUnique (u.withDigest digest "")
    rw [same,objectNormal unique (unsignedMembersUnique u digest)]
    intro k
    rw [← same,unsignedSame]
  have finiteOther : CanonicalForm.finite
      (value (.object (withDigest (unsignedMembers u) digest))) = true := by
    have own : CanonicalForm.finiteMembers (memberValues
      (headerMembers u ++ [("payloadDigest",.string digest),("payload",u.payload)])) = true :=
      finiteOwn
    show CanonicalForm.finiteMembers (memberValues (withDigest (unsignedMembers u) digest)) = true
    rw [CanonicalForm.finiteMembersAll,memberValuesMap] at own ⊢
    simp only [withDigest,unsignedMembers,List.map_append,List.all_append,List.map_cons,
      List.map_nil,List.all_cons,List.all_nil,Bool.and_true,Bool.and_eq_true] at own ⊢
    exact ⟨⟨own.1,own.2.2⟩,own.2.1⟩
  have written := (sameNormalText finiteOwn finiteOther definedOwn alike).symm.trans signing
  unfold sealEnvelope
  rw [payload,digested]
  simp only [bind,Except.bind,written]
  rfl

structure Data (v : Json) : Prop where
  written : canonical v = true
  distinct : Distinct v

structure Trip (p : Platform) (unsigned members : List (String × Json)) (publicKey : String)
    (e : Envelope) (payload : Json) : Prop where
  opened : Opened unsigned e
  verified : ∀ wire : List (String × Json),
    (wire.filter fun m => envelopeNames.contains m.1) = imageMembers members →
    ∀ now, isWithinClockSkew (textAt "sentAt" (.object unsigned)) now = true →
    isExpired ((Json.object unsigned).get "expiresAt").text now = false →
    verifySealedEnvelope p (.object wire) publicKey now = .ok (.ok e payload)
  changed : ∀ raw now, Distinct raw →
    raw.get "signature" = (Json.object members).get "signature" →
    ((∃ name ∈ headerNames ++ ["payloadDigest"], raw.get name ≠ (Json.object members).get name) ∨
      ¬Alike (raw.get "payload") (payloadOf unsigned)) →
    ∀ e' payload', verifySealedEnvelope p raw publicKey now ≠ .ok (.ok e' payload')

theorem HeaderOnly.scalar (header : HeaderOnly unsigned) (digest : String) {name : String}
    (listed : name ∈ headerNames ++ ["payloadDigest"]) :
    Scalar ((Json.object (withDigest unsigned digest)).get name) := by
  rcases List.mem_append.mp listed with inside | last
  · obtain ⟨f,named,rfl⟩ := List.mem_map.mp inside
    rw [headerGet digest (List.mem_append_left _ inside)]
    exact headerScalar named (header.fits f named)
  · rw [List.mem_singleton.mp last,header.digestGet]
    constructor

/-- What is sealed and sent verifies as what it was, with any unknown members added, and
with any other header or payload it does not. -/
theorem sealRoundTrip (fractions : Fractions p) (hashes : Hashes p)
    (keys : IdealKeys p privateKey publicKey) (header : HeaderOnly unsigned)
    (data : Data (payloadOf unsigned)) {payload : Json}
    (valid : parsePayload p (textAt "type" (.object unsigned)) (payloadOf unsigned).image =
      .ok payload) :
    ∃ members e, sealEnvelope p unsigned privateKey = .ok members ∧
      Trip p unsigned members publicKey e payload := by
  obtain ⟨members,e,sealing,arrives⟩ := header.sealed hashes keys data.written
  have sealedGet (name : String) (other : name ≠ "signature") : (Json.object members).get name =
      (Json.object (withDigest unsigned e.payloadDigest)).get name := by
    rw [arrives.sealed]
    refine getAppended _ _ ?_
    rw [lookupCons,if_neg other.symm]
    rfl
  have signatureGet : (Json.object members).get "signature" = .string e.signature := by
    rw [arrives.sealed,getObject,withDigest,lookupAppend,lookupAppend,header.absent (by decide)]
    rfl
  refine ⟨members,e,sealing,arrives.opened,?_,?_⟩
  · intro wire known now timely unexpired
    have alike : parseEnvelope (.object wire) = parseEnvelope (.object (imageMembers members)) := by
      refine parsesAlike fun name listed => ?_
      rw [← known,filterLookup _ (List.contains_iff_mem.mpr listed)]
    rw [verifiesAlike p publicKey now alike]
    refine arrives.verifies keys ?_ (arrives.sentAt ▸ timely) (arrives.expiresAt ▸ unexpired)
    rw [arrives.type,arrives.opened.payload]
    exact valid
  · intro raw now distinct signature changed e' payload' verified
    have reads' := parsedReads (verifiedSource verified).parsed
    have signature : e'.signature = e.signature := by
      rw [signatureGet,reads'.signature] at signature
      exact Json.string.inj signature
    obtain ⟨reads,each⟩ := arrives.bound fractions keys header data.distinct distinct verified
      signature
    rcases changed with ⟨name,listed,other⟩ | other
    · have signedName : name ∈ signedNames := by
        rcases List.mem_append.mp listed with inside | last
        · exact List.mem_append_left _ inside
        · rw [List.mem_singleton.mp last]
          decide
      have unsignedName : name ≠ "signature" := by
        rintro rfl
        exact absurd signedName (by decide)
      rw [sealedGet name unsignedName] at other
      exact other ((reads.scalar listed).same (header.scalar _ listed) (each name signedName))
    · have own := each "payload" (by decide)
      rw [headerGet _ (by decide)] at own
      exact other own

end

def exponentText (q : Rat) : String := toString q.num ++ "e" ++ toString q.den

def encodedText (input : String) : String :=
  String.ofList ('A'::Nat.toDigits 10 (Encodable.encode (input.toList.map Char.toNat)))

def encodingPlatform : Platform :=
  { SessionRuns.idlePlatform with
    fractionText := exponentText
    edSign := fun _ input => encodedText input
    edVerify := fun _ input signature => .ok (signature == encodedText input) }

theorem encodingFractions : Fractions encodingPlatform where
  number q _ := exponentNumber q.num q.den
  injective q r _ _ same := by
    obtain ⟨num,den⟩ := exponentInjective same
    exact Rat.ext num den
  apart q r _ _ := exponentApart q.num r.num q.den

theorem encodedInjective {input other : String} (same : encodedText input = encodedText other) :
    input = other := by
  have chars := List.cons.inj (String.ofList_injective same)
  have digits := congrArg (Nat.ofDigitChars 10 · 0) chars.2
  simp only [Nat.ofDigitChars_ten_toDigits] at digits
  have codes : input.toList.map Char.toNat = other.toList.map Char.toNat :=
    Encodable.encode_injective digits
  exact String.toList_injective
    (List.map_injective_iff.mpr (fun _ _ equal => Char.toNat_inj.mp equal) codes)

theorem digitText {c : Char} (isDigit : c.isDigit = true) : base64Url c = true := by
  simp only [Char.isDigit,Bool.and_eq_true,decide_eq_true_eq] at isDigit
  have own : digit c = true := by
    simp only [digit,Bool.and_eq_true,decide_eq_true_eq]
    exact isDigit
  simp [base64Url,alphanumeric,own]

theorem encodingKeys : IdealKeys encodingPlatform "key" "pem" where
  verifies input := congrArg Except.ok (beq_self_eq_true _)
  binds input other verified := by
    have same : encodedText input = encodedText other := by
      simpa [encodingPlatform] using verified
    exact (encodedInjective same).symm
  written input := by
    have text : ("ed25519:" ++ encodedText input).toList =
        "ed25519:".toList ++ 'A'::Nat.toDigits 10 (Encodable.encode (input.toList.map Char.toNat)) := by
      rw [String.toList_append]
      exact congrArg _ String.toList_ofList
    have plain : ('A'::Nat.toDigits 10 (Encodable.encode (input.toList.map Char.toNat))).dropWhile
        base64Url = [] := by
      refine List.dropWhile_eq_nil_iff.mpr fun c listed => ?_
      rcases List.mem_cons.mp listed with rfl | listed
      · decide
      · exact digitText (decimalDigits _ c listed)
    show signatureText ("ed25519:" ++ encodedText input) = true
    unfold signatureText
    rw [text]
    have body : ("ed25519:".toList ++
        'A'::Nat.toDigits 10 (Encodable.encode (input.toList.map Char.toNat))).drop 8 =
        'A'::Nat.toDigits 10 (Encodable.encode (input.toList.map Char.toNat)) := rfl
    simp only [body,plain]
    rfl

theorem encodingHashes : Hashes encodingPlatform := fun _ => by
  show fits _ ("sha256:" ++ String.ofList (List.replicate 64 '0')).toList = true
  decide +kernel

def acknowledgement : List (String × Json) :=
  [("protocol",.string "accp/1.0"),
   ("schemaDigest",.string ("sha256:" ++ String.ofList (List.replicate 64 '0'))),
   ("type",.string "message.ack"),("messageId",.string "019b76da-a800-7000-8000-000000000000"),
   ("sessionId",.string "019b76da-a800-7000-8000-000000000001"),
   ("workspaceId",.string "00000000-0000-7000-8000-000000000000"),("senderId",.string "cloud"),
   ("sequence",.nat 1),("sentAt",.string "2026-01-01T00:00:00.000Z"),("expiresAt",.undefined),
   ("payload",.object [("ackFor",.string "019b76da-a800-7000-8000-000000000000"),
     ("cursorAck",.undefined)])]

theorem acknowledgementData : Data (payloadOf acknowledgement) := by
  have whole : payloadOf acknowledgement = .object
      [("ackFor",.string "019b76da-a800-7000-8000-000000000000"),("cursorAck",.undefined)] := rfl
  rw [whole]
  exact ⟨rfl,by decide,trivial,trivial,trivial⟩

theorem sealRoundTripAcknowledgement : ∃ members e,
    sealEnvelope encodingPlatform acknowledgement "key" = .ok members ∧
      Trip encodingPlatform acknowledgement members "pem" e
        (.object [("ackFor",.string "019b76da-a800-7000-8000-000000000000")]) :=
  sealRoundTrip encodingFractions encodingHashes encodingKeys
    ⟨by decide +kernel,by decide +kernel,by decide +kernel,by decide +kernel⟩
    acknowledgementData (by rfl)

end ControlCenter.SealRoundTrip
