import ControlCenter.OverAcknowledgement
import ControlCenter.RunLogic
import ControlCenter.SealedEnvelopes

/-! The prologue of receive. A raw value is rejected, foreign, a duplicate or delivered,
and what is neither verified nor of this session spends a sequence number at most. -/
namespace ControlCenter.Admission
open JsonValue AccpEnvelope AccpIds AccpMessages AccpSeal StateStore Session ActionLogic
open RunLogic SessionFrames SessionRuns SealedEnvelopes
open OverAcknowledgement (after afterAppend)

variable {σ κ : Type} (n : Node κ)

inductive Outcome where
  | thrown (message : String)
  | rejected (code : VerifyFailureCode) (detail : Option String)
  | foreign (envelope : Envelope)
  | duplicate (envelope : Envelope)
  | delivered (envelope : Envelope)

def admission (s : NodeSession σ κ) (raw : Json) (now : Int) : Outcome :=
  match verifySealedEnvelope n.platform raw n.credentials.cloudPublicKeyPem now with
  | .error message => .thrown message
  | .ok (.failed code detail) => .rejected code detail
  | .ok (.ok envelope _) =>
    if !isExpectedCloudEnvelope n s envelope then .foreign envelope
    else if s.dedup.seen.contains envelope.messageId then .duplicate envelope
    else .delivered envelope

theorem toOptionSome {ε α : Type} {r : Except ε α} {a : α} (h : r.toOption = some a) :
    r = .ok a := by
  cases r with
  | error e => contradiction
  | ok b => exact congrArg Except.ok (Option.some.inj h)

theorem checkFresh {index : MessageDedupIndex} {id : String}
    (fresh : index.seen.contains id = false) : (index.check id).1 = false := by
  unfold MessageDedupIndex.check
  rw [if_neg (by rw [fresh]; decide)]

theorem checkSeen {index : MessageDedupIndex} {id : String}
    (seen : index.seen.contains id = true) : index.check id = (true,index) := if_pos seen

def recorded (s : NodeSession σ κ) (envelope : Envelope) : NodeSession σ κ :=
  {s with dedup := (s.dedup.check envelope.messageId).2}

def foreignNack (envelope : Envelope) (now : Int) : SessionM σ κ (List Envelope) :=
  nack n envelope.messageId "SCHEMA_VIOLATION" false
    (some "unexpected protocol, sender, workspace, or node session") now

def Outcome.presented : Outcome → Option Envelope
  | .duplicate envelope | .delivered envelope => some envelope
  | _ => none

def Outcome.dispatched : Outcome → Option Envelope
  | .delivered envelope => some envelope
  | _ => none

theorem dispatchedSource {outcome : Outcome} {envelope : Envelope}
    (h : outcome.dispatched = some envelope) : outcome = .delivered envelope := by
  cases outcome with
  | delivered other => exact congrArg Outcome.delivered (Option.some.inj h)
  | _ => contradiction

def presentedBy (s : NodeSession σ κ) : Operation κ → Option Envelope
  | .receive raw now => (admission n s raw now).presented
  | _ => none

def deliveredBy (s : NodeSession σ κ) : Operation κ → Option Envelope
  | .receive raw now => (admission n s raw now).dispatched
  | _ => none

def offeredWelcome (s : NodeSession σ κ) (op : Operation κ) : Option Welcome :=
  (deliveredBy n s op).bind fun envelope =>
    if envelope.type = "node.welcome" then parseAs nodeWelcomeSchema envelope.payload else none

structure Presented (s : NodeSession σ κ) (raw : Json) (now : Int) (envelope : Envelope)
    (seen : Bool) : Prop where
  verified : ∃ payload, verifySealedEnvelope n.platform raw n.credentials.cloudPublicKeyPem now =
    .ok (.ok envelope payload)
  expected : isExpectedCloudEnvelope n s envelope = true
  seen : s.dedup.seen.contains envelope.messageId = seen

theorem presentedSource {s : NodeSession σ κ} {raw : Json} {now : Int} {envelope : Envelope} :
    (admission n s raw now = .duplicate envelope → Presented n s raw now envelope true) ∧
    (admission n s raw now = .delivered envelope → Presented n s raw now envelope false) := by
  unfold admission
  split
  · simp
  · simp
  · rename_i e payload verified
    cases expected : isExpectedCloudEnvelope n s e with
    | false => simp
    | true =>
      cases seen : s.dedup.seen.contains e.messageId with
      | false =>
        refine ⟨by simp,fun same => ?_⟩
        cases Outcome.delivered.inj same
        exact ⟨⟨payload,verified⟩,expected,seen⟩
      | true =>
        refine ⟨fun same => ?_,by simp⟩
        cases Outcome.duplicate.inj same
        exact ⟨⟨payload,verified⟩,expected,seen⟩

section
variable [NodeStateStore σ]

def collected {β : Type} (f : NodeSession σ κ → Operation κ → List β) :
    NodeSession σ κ → List (Operation κ) → List β
  | _,[] => []
  | s,op::rest => f s op ++ collected f (op.perform n s).2 rest

def gathered {β : Type} (f : NodeSession σ κ → Operation κ → Option β) (s : NodeSession σ κ)
    (ops : List (Operation κ)) : List β := collected n (fun s op => (f s op).toList) s ops

theorem collectedAppend {β : Type} (f : NodeSession σ κ → Operation κ → List β)
    (s : NodeSession σ κ) (front back : List (Operation κ)) :
    collected n f s (front ++ back) =
      collected n f s front ++ collected n f (after n s front) back := by
  induction front generalizing s with
  | nil => rfl
  | cons first rest ih =>
    rw [List.cons_append,collected,ih,collected,after,List.append_assoc]

theorem gatheredLast {β : Type} (f : NodeSession σ κ → Operation κ → Option β)
    (s : NodeSession σ κ) (front : List (Operation κ)) (op : Operation κ) :
    gathered n f s (front ++ [op]) = gathered n f s front ++ (f (after n s front) op).toList := by
  rw [gathered,collectedAppend,collected,collected,List.append_nil]
  rfl

theorem afterLast (s : NodeSession σ κ) (front : List (Operation κ)) (op : Operation κ) :
    after n s (front ++ [op]) = (op.perform n (after n s front)).2 := afterAppend n s front [op]

theorem afterReach (s : NodeSession σ κ) (ops : List (Operation κ)) :
    reach (fun s op => (Operation.perform n op s).2) s ops = after n s ops := by
  induction ops generalizing s with
  | nil => rfl
  | cons op rest ih => exact ih _

theorem everyAfter {I : NodeSession σ κ → Prop} {D : NodeSession σ κ → Operation κ → Prop}
    (step : ∀ s op, I s → (I (op.perform n s).2 ↔ D s op)) {s : NodeSession σ κ} (start : I s)
    (ops : List (Operation κ)) : (∀ front back, ops = front ++ back → I (after n s front)) ↔
      ∀ front op back, ops = front ++ op::back → D (after n s front) op := by
  have every := everyPrefix (fun s op => (Operation.perform n op s).2) (J := fun _ => True)
    (fun _ _ => id) (fun s op _ => step s op) trivial start ops
  simpa only [afterReach] using every

def carried {β : Type} (next : NodeSession σ κ → Operation κ → β → β) :
    NodeSession σ κ → List (Operation κ) → β → β
  | _,[],b => b
  | s,op::rest,b => carried next (op.perform n s).2 rest (next s op b)

def carrying {β : Type} (next : NodeSession σ κ → Operation κ → β → β)
    (sb : NodeSession σ κ × β) (op : Operation κ) : NodeSession σ κ × β :=
  ((op.perform n sb.1).2,next sb.1 op sb.2)

def everyCall {β : Type} (next : NodeSession σ κ → Operation κ → β → β)
    (check : NodeSession σ κ → Operation κ → β → Bool) (s : NodeSession σ κ)
    (ops : List (Operation κ)) (b : β) : Bool :=
  everyStep (carrying n next) (fun sb op => check sb.1 op sb.2) (s,b) ops

section
variable {β : Type} (next : NodeSession σ κ → Operation κ → β → β)

theorem carriedReach (s : NodeSession σ κ) (ops : List (Operation κ)) (b : β) :
    reach (carrying n next) (s,b) ops = (after n s ops,carried n next s ops b) := by
  induction ops generalizing s b with
  | nil => rfl
  | cons op rest ih => exact ih _ _

theorem carriedLast (s : NodeSession σ κ) (front : List (Operation κ)) (op : Operation κ) (b : β) :
    carried n next s (front ++ [op]) b = next (after n s front) op (carried n next s front b) := by
  have last := reachLast (carrying n next) (s,b) front op
  rw [carriedReach,carriedReach] at last
  exact congrArg Prod.snd last

theorem carriedKept {I : NodeSession σ κ → β → Prop}
    (step : ∀ s op b, I s b → I (op.perform n s).2 (next s op b)) {s : NodeSession σ κ} {b : β}
    (start : I s b) (ops : List (Operation κ)) : I (after n s ops) (carried n next s ops b) := by
  have last := reachKept (carrying n next) (I := fun sb => I sb.1 sb.2)
    (fun sb op => step sb.1 op sb.2) (s := (s,b)) start ops
  rwa [carriedReach] at last

theorem everyMet {I : NodeSession σ κ → β → Prop} {D : NodeSession σ κ → Operation κ → β → Prop}
    (step : ∀ s op b, I s b → D s op b → I (op.perform n s).2 (next s op b))
    {s : NodeSession σ κ} {b : β} (start : I s b) {ops : List (Operation κ)}
    (meets : ∀ front op back, ops = front ++ op::back →
      D (after n s front) op (carried n next s front b))
    (front back : List (Operation κ)) (split : ops = front ++ back) :
    I (after n s front) (carried n next s front b) := by
  have met := reachMet (carrying n next) (I := fun sb => I sb.1 sb.2)
    (D := fun sb op => D sb.1 op sb.2) (fun sb op => step sb.1 op sb.2) (s := (s,b)) start
    (fun front op back split => by rw [carriedReach]; exact meets front op back split)
    front back split
  rwa [carriedReach] at met

theorem everyCallSource {check : NodeSession σ κ → Operation κ → β → Bool} {s : NodeSession σ κ}
    {ops front back : List (Operation κ)} {op : Operation κ} {b : β}
    (checked : everyCall n next check s ops b = true) (split : ops = front ++ op::back) :
    check (after n s front) op (carried n next s front b) = true := by
  have here := everyStepSource (carrying n next) checked split
  rwa [carriedReach] at here

end

theorem receiveAdmitted (s : NodeSession σ κ) (raw : Json) (now : Int) :
    receive n raw now s = match admission n s raw now with
      | .thrown message => (.error (.thrown message),s)
      | .rejected code detail => receiveRejected n raw code detail now s
      | .foreign envelope => foreignNack n envelope now s
      | .duplicate _ => (.ok [],s)
      | .delivered envelope => dispatch n envelope now (recorded s envelope) := by
  unfold receive admission
  cases verifySealedEnvelope n.platform raw n.credentials.cloudPublicKeyPem now with
  | error message => exact runError rfl
  | ok verified =>
    refine (runOk rfl).trans ?_
    cases verified with
    | failed code detail => rfl
    | ok envelope payload =>
      refine (runOk rfl).trans ?_
      dsimp only
      cases isExpectedCloudEnvelope n s envelope with
      | false => rfl
      | true =>
        simp only [Bool.not_true,Bool.false_eq_true,if_false]
        refine (runOk rfl).trans ?_
        cases seen : s.dedup.seen.contains envelope.messageId with
        | false =>
          rw [checkFresh seen]
          rfl
        | true =>
          rw [checkSeen seen]
          rfl

def welcomeReplay (now : Int) (fromCursor : Nat) : SessionM σ κ (List Envelope) := do
  let replays ← flush n now (some fromCursor)
  let truncations ← onStore NodeStateStore.loadTruncations
  if truncations.isEmpty then pure replays
  else do
    let summary ← reconcileSummary n now
    pure (summary::replays)

theorem welcomeReceived (envelope : Envelope) (now : Int) (s : NodeSession σ κ) :
    receiveWelcome n envelope now s = match parseAs nodeWelcomeSchema envelope.payload with
      | none => (.error (.thrown (n.platform.zodIssues "node.welcome" envelope.payload)),s)
      | some welcome =>
        if s.epoch.any fun epoch => decide (Welcome.connectionEpoch welcome < epoch) then
          (.ok [],{s with connected := false,welcome := none,epoch := none})
        else welcomeReplay n now (Welcome.nodeCursorAck welcome)
          {s with
            welcome := some welcome,epoch := some (Welcome.connectionEpoch welcome),
            connected := true} := by
  unfold receiveWelcome
  cases parsed : parseAs nodeWelcomeSchema envelope.payload with
  | none =>
    have refused : parseWelcome n envelope.payload s =
        (.error (.thrown (n.platform.zodIssues "node.welcome" envelope.payload)),s) := by
      rw [parseWelcome,parsed]
      rfl
    exact runError refused
  | some welcome =>
    have read : parseWelcome n envelope.payload s = (.ok welcome,s) := by
      rw [parseWelcome,parsed]
      rfl
    rw [runOk read,runOk (show (get : SessionM σ κ _) s = (.ok s,s) from rfl)]
    dsimp only
    split
    · rfl
    · rfl

def Admissible (s : NodeSession σ κ) (raw : Json) (now : Int) : Prop :=
  ∃ envelope payload, verifySealedEnvelope n.platform raw n.credentials.cloudPublicKeyPem now =
    .ok (.ok envelope payload) ∧ isExpectedCloudEnvelope n s envelope = true

def Authentic (envelope : Envelope) : Prop :=
  (∃ input, buildSigningInput n.platform envelope = .ok input ∧
    n.platform.edVerify n.credentials.cloudPublicKeyPem input
      (String.ofList (envelope.signature.toList.drop 8)) = .ok true) ∧
  computePayloadDigest n.platform envelope.payload = .ok envelope.payloadDigest

def Spent (s t : NodeSession σ κ) : Prop := t = {s with outSeq := t.outSeq,draws := t.draws}

omit [NodeStateStore σ] in
theorem spentSealing : Sealing (Spent : NodeSession σ κ → NodeSession σ κ → Prop) where
  refl _ := rfl
  trans s t u front back := by rw [Spent,back,front]
  outSeq _ _ := rfl
  draws _ _ := rfl

omit [NodeStateStore σ] in
theorem Presented.admissible {s : NodeSession σ κ} {raw : Json} {now : Int} {envelope : Envelope}
    {seen : Bool} (presented : Presented n s raw now envelope seen) : Admissible n s raw now := by
  obtain ⟨payload,verified⟩ := presented.verified
  exact ⟨envelope,payload,verified,presented.expected⟩

omit [NodeStateStore σ] in
theorem verifiedAuthentic {raw : Json} {now : Int} {envelope : Envelope}
    (parsed : parseEnvelope raw = some envelope)
    (known : isAccpMessageType n.platform envelope.type = true) {result : VerifyResult}
    (verified : verifySealedEnvelope n.platform raw n.credentials.cloudPublicKeyPem now =
      .ok result) : Authentic n envelope ∨ ∃ detail, result = .failed .signatureInvalid detail := by
  simp only [verifySealedEnvelope,parsed,known,Bool.not_true,Bool.false_eq_true,if_false] at verified
  obtain ⟨input,signing,rest⟩ := exceptBind verified
  obtain ⟨valid,checked,rest⟩ := exceptBind rest
  cases valid with
  | false =>
    cases Except.ok.inj rest
    exact .inr ⟨none,rfl⟩
  | true =>
    obtain ⟨digest,digested,rest⟩ := exceptBind rest
    by_cases same : digest = envelope.payloadDigest
    · subst same
      exact .inl ⟨⟨input,signing,checked⟩,digested⟩
    · rw [if_pos same] at rest
      cases Except.ok.inj rest
      exact .inr ⟨_,rfl⟩

theorem undispatchedSpends {s : NodeSession σ κ} {raw : Json} {now : Int}
    (idle : (admission n s raw now).dispatched = none) : Spent s (receive n raw now s).2 := by
  rw [receiveAdmitted]
  cases outcome : admission n s raw now with
  | thrown message => exact spentSealing.refl s
  | rejected code detail => exact (frameRejected spentSealing n raw code detail now).always s
  | foreign envelope => exact (frameNack spentSealing n _ _ _ _ now).always s
  | duplicate envelope => exact spentSealing.refl s
  | delivered envelope => rw [outcome] at idle; contradiction

theorem undispatchedUnconsulted {s : NodeSession σ κ} {raw : Json} {now : Int}
    (idle : (admission n s raw now).dispatched = none) (kernel : KernelBridge κ) :
    receive {n with kernel} raw now s = receive n raw now s := by
  have same : admission {n with kernel} s raw now = admission n s raw now := rfl
  rw [receiveAdmitted,receiveAdmitted,same]
  cases outcome : admission n s raw now with
  | delivered envelope => rw [outcome] at idle; contradiction
  | _ => rfl

omit [NodeStateStore σ] in
theorem refusedUndispatched {s : NodeSession σ κ} {raw : Json} {now : Int}
    (refused : ¬Admissible n s raw now) : (admission n s raw now).dispatched = none := by
  cases outcome : admission n s raw now with
  | delivered envelope => exact absurd ((presentedSource n).2 outcome).admissible refused
  | _ => rfl

omit [NodeStateStore σ] in
theorem unsignedRejected (raw : Json) (detail : Option String) (now : Int)
    (s : NodeSession σ κ) : wp (receiveRejected n raw .signatureInvalid detail now)
      (fun out _ => out = []) (fun _ _ => True) s := by
  unfold receiveRejected
  rw [wpBind]
  cases attributedId n.platform raw with
  | error message => trivial
  | ok messageId => cases messageId <;> rfl

theorem unsignedSilent {s : NodeSession σ κ} {raw : Json} {now : Int} {envelope : Envelope}
    (parsed : parseEnvelope raw = some envelope)
    (known : isAccpMessageType n.platform envelope.type = true)
    (forged : ¬Authentic n envelope) {out : List Envelope}
    (returned : (receive n raw now s).1 = .ok out) : out = [] := by
  rw [receiveAdmitted,admission] at returned
  cases verified : verifySealedEnvelope n.platform raw n.credentials.cloudPublicKeyPem now with
  | error message => rw [verified] at returned; contradiction
  | ok result =>
    rcases verifiedAuthentic n parsed known verified with authentic | ⟨detail,rfl⟩
    · exact absurd authentic forged
    · rw [verified] at returned
      exact wpOk (Q := fun out _ => out = []) (unsignedRejected n raw detail now s)
        (Prod.ext returned rfl)

def unknownNack (envelope reply : Envelope) : Prop :=
  reply.type = "message.nack" ∧
    reply.payload = nackPayload envelope.messageId "UNKNOWN_TYPE" false (some envelope.type)

theorem unknownRejected {s : NodeSession σ κ} {raw : Json} {now : Int} {envelope : Envelope}
    (parsed : parseEnvelope raw = some envelope)
    (unknown : isAccpMessageType n.platform envelope.type = false) :
    receive n raw now s =
      nack n envelope.messageId "UNKNOWN_TYPE" false (some envelope.type) now s := by
  have rejected : admission n s raw now = .rejected .unknownType (some envelope.type) := by
    unfold admission verifySealedEnvelope
    rw [parsed]
    dsimp only
    rw [unknown]
    rfl
  obtain ⟨members,rfl,messageId,_⟩ := envelopeMembers parsed
  have attributed : attributedId n.platform (.object members) = .ok (some envelope.messageId) := by
    unfold attributedId
    dsimp only
    rw [messageId]
    rfl
  rw [receiveAdmitted,rejected]
  dsimp only
  unfold receiveRejected
  rw [attributed]
  rfl

theorem unknownAnswered {s : NodeSession σ κ} {raw : Json} {now : Int} {envelope : Envelope}
    (parsed : parseEnvelope raw = some envelope)
    (unknown : isAccpMessageType n.platform envelope.type = false) (clock : InClock now) :
    ∃ reply, (receive n raw now s).1 = .ok [reply] ∧ unknownNack envelope reply := by
  rw [unknownRejected n parsed unknown]
  have sealing := sealSpec n "message.nack"
    (nackPayload envelope.messageId "UNKNOWN_TYPE" false (some envelope.type)) now noExtra s
  unfold nack
  cases ran : sealMessage n "message.nack"
    (nackPayload envelope.messageId "UNKNOWN_TYPE" false (some envelope.type)) now noExtra s with
  | mk result after =>
    cases result with
    | ok reply =>
      obtain ⟨own,_⟩ := wpOk sealing ran
      rw [runOk ran]
      exact ⟨reply,rfl,own.type,own.payload⟩
    | error fault => exact absurd ⟨clock,rfl⟩ (wpError sealing ran).2

/-- What is not verified or not of this session changes nothing but the numbers it spends and
consults no kernel. A known type that is badly signed is not answered; an unknown type is, by a
nack that says so, whatever its signature. -/
theorem unadmittedIgnored {s : NodeSession σ κ} {raw : Json} {now : Int}
    (refused : ¬Admissible n s raw now) :
    Spent s (receive n raw now s).2 ∧
    (∀ kernel, receive {n with kernel} raw now s = receive n raw now s) ∧
    (∀ envelope, parseEnvelope raw = some envelope →
      isAccpMessageType n.platform envelope.type = true → ¬Authentic n envelope →
      ∀ out, (receive n raw now s).1 = .ok out → out = []) ∧
    ∀ envelope, parseEnvelope raw = some envelope →
      isAccpMessageType n.platform envelope.type = false → InClock now →
      ∃ reply, (receive n raw now s).1 = .ok [reply] ∧ unknownNack envelope reply :=
  ⟨undispatchedSpends n (refusedUndispatched n refused),
    undispatchedUnconsulted n (refusedUndispatched n refused),
    fun _ parsed known forged _ => unsignedSilent n parsed known forged,
    fun _ parsed unknown clock => unknownAnswered n parsed unknown clock⟩

end

def cloudEnvelope (sessionId messageId type : String) (idempotencyKey : Option String)
    (payload : Json) : Json := .object
  ([("protocol",.string "accp/1.0"),
    ("schemaDigest",.string ("sha256:" ++ String.ofList (List.replicate 64 '0'))),
    ("type",.string type),("messageId",.string messageId),("sessionId",.string sessionId),
    ("workspaceId",.string "00000000-0000-7000-8000-000000000000"),
    ("senderId",.string "cloud")] ++ present "idempotencyKey" idempotencyKey ++
   [("sequence",.nat 1),("sentAt",.string "2026-01-01T00:00:00.000Z"),
    ("payloadDigest",.string ("sha256:" ++ String.ofList (List.replicate 64 '0'))),
    ("payload",payload),("signature",.string "ed25519:c2ln")])

def welcomePayload (connectionEpoch nodeCursorAck maxUnackedBatches maxEventsPerBatch : Nat) :
    Json := .object
  [("protocol",.string "accp/1.0"),("connectionEpoch",.nat connectionEpoch),
   ("schemaBundleDigest",.string ("sha256:" ++ String.ofList (List.replicate 64 '0'))),
   ("cloudCursor",.nat 0),("nodeCursorAck",.nat nodeCursorAck),
   ("policyBundleDigest",.string ("sha256:" ++ String.ofList (List.replicate 64 '0'))),
   ("limits",.object
     [("maxUnackedBatches",.nat maxUnackedBatches),("maxEventsPerBatch",.nat maxEventsPerBatch),
      ("maxEnvelopeBytes",.nat 1048576),("heartbeatIntervalMs",.nat 15000),
      ("deadAfterMs",.nat 45000)]),
   ("serverTime",.string "2026-01-01T00:00:00.000Z")]

def doubtingNode : Node Unit :=
  {idleNode 10 with platform := {idlePlatform with edVerify := fun _ _ _ => .ok false}}

def hailed : NodeSession InMemoryNodeStateStore Unit :=
  (Operation.perform doubtingNode (.startHandshake 1767225600000) (opened ())).2

def unheardOf : Json := cloudEnvelope "019b76da-a800-7000-8000-000000000000"
  "019b76da-a800-7000-8000-000000000001" "run.resumed" none (.object [])

theorem forgedAnswered : ∃ (s : NodeSession InMemoryNodeStateStore Unit) (raw : Json) (now : Int)
    (envelope : Envelope) (out : List Envelope), Run doubtingNode (opened ()) s ∧
    parseEnvelope raw = some envelope ∧ ¬Authentic doubtingNode envelope ∧
    (receive doubtingNode raw now s).1 = .ok out ∧ out ≠ [] := by
  have hails : ((Operation.startHandshake 1767225600000).perform doubtingNode
      (opened () : NodeSession InMemoryNodeStateStore Unit)).1.isOk = true := by decide +kernel
  have answers : (parseEnvelope unheardOf).isSome = true ∧
      (receive doubtingNode unheardOf 1767225600000 hailed).1.toOption.map List.length = some 1 := by
    decide +kernel
  obtain ⟨envelope,parsed⟩ := Option.isSome_iff_exists.mp answers.1
  obtain ⟨out,returned,one⟩ := Option.map_eq_some_iff.mp answers.2
  refine ⟨hailed,unheardOf,1767225600000,envelope,out,.single (stepReturned _ hails),parsed,
    ?_,toOptionSome returned,?_⟩
  · rintro ⟨⟨input,_,checked⟩,_⟩
    cases Except.ok.inj checked
  · rintro rfl
    contradiction

theorem strangerIgnored : Spent hailed (receive doubtingNode unheardOf 1767225600000 hailed).2 ∧
    ∃ envelope reply, parseEnvelope unheardOf = some envelope ∧
      (receive doubtingNode unheardOf 1767225600000 hailed).1 = .ok [reply] ∧
      unknownNack envelope reply := by
  have foreign : (parseEnvelope unheardOf).map (fun e =>
      isAccpMessageType doubtingNode.platform e.type) = some false := by decide +kernel
  obtain ⟨envelope,parsed,unknown⟩ := Option.map_eq_some_iff.mp foreign
  have refused : ¬Admissible doubtingNode hailed unheardOf 1767225600000 := by
    rintro ⟨e,payload,verified,_⟩
    rw [verifySealedEnvelope,parsed] at verified
    dsimp only at verified
    rw [unknown] at verified
    cases verified
  obtain ⟨spent,_,_,answers⟩ := unadmittedIgnored doubtingNode refused
  obtain ⟨reply,returned,nacked⟩ := answers envelope parsed unknown (by unfold InClock; decide)
  exact ⟨spent,envelope,reply,parsed,returned,nacked⟩

end ControlCenter.Admission
