import ControlCenter.SessionFrames

/-! What sealing produces, and when it returns: the clock has a version 7 identifier and
the payload a canonical text. -/
namespace ControlCenter.SealedEnvelopes
open JsonValue ZodSchema AccpEnvelope AccpIds AccpMessages AccpSeal StateStore Session
open ActionLogic SessionFrames

mutual
def canonical : Json → Bool
  | .undefined | .number (.infinity _) | .number .nan => false
  | .array items => canonicalItem items
  | .object members => canonicalMember members
  | _ => true

def canonicalItem : List Json → Bool
  | [] => true
  | .undefined::rest => canonicalItem rest
  | v::rest => canonical v && canonicalItem rest

def canonicalMember : List (String × Json) → Bool
  | [] => true
  | (_,.undefined)::rest => canonicalMember rest
  | (_,v)::rest => canonical v && canonicalMember rest
end

section
variable {α β γ : Type}

theorem isOkMap (m : Except String α) (f : α → β) :
    (m >>= fun a => .ok (f a) : Except String β).isOk = m.isOk := by cases m <;> rfl

theorem isOkBoth (m : Except String α) (next : Except String β) (f : α → β → γ) :
    (m >>= fun a => next >>= fun b => .ok (f a b) : Except String γ).isOk =
      (m.isOk && next.isOk) := by
  cases m with
  | error e => rfl
  | ok a => exact isOkMap next (f a)

end

section
variable (p : Platform)

mutual
theorem canonicalText (v : Json) : (canonicalJson p v).isOk = canonical v := by
  cases v with
  | undefined => rfl
  | null => rfl
  | boolean b => rfl
  | number n => cases n <;> rfl
  | string s => rfl
  | array items => rw [canonicalJson,isOkMap,canonical,canonicalTexts items]
  | object members => rw [canonicalJson,isOkMap,canonical,canonicalPairs members]

theorem canonicalTexts (items : List Json) :
    (canonicalItems p items).isOk = canonicalItem items := by
  match items with
  | [] => rfl
  | .undefined::rest => rw [canonicalItems,isOkMap,canonicalItem,canonicalTexts rest]
  | .null::rest | .boolean _::rest | .number _::rest | .string _::rest | .array _::rest
  | .object _::rest =>
    rw [canonicalItems,isOkBoth,canonicalItem,canonicalText,canonicalTexts rest]
    all_goals simp

theorem canonicalPairs (members : List (String × Json)) :
    (canonicalMembers p members).isOk = canonicalMember members := by
  match members with
  | [] => rfl
  | (_,.undefined)::rest => rw [canonicalMembers,canonicalMember,canonicalPairs rest]
  | (_,.null)::rest | (_,.boolean _)::rest | (_,.number _)::rest | (_,.string _)::rest
  | (_,.array _)::rest | (_,.object _)::rest =>
    rw [canonicalMembers,isOkBoth,canonicalMember,canonicalText,canonicalPairs rest]
    all_goals simp
end

end

theorem canonicalAppend (front back : List (String × Json)) :
    canonicalMember (front ++ back) = (canonicalMember front && canonicalMember back) := by
  induction front with
  | nil => rfl
  | cons member rest ih =>
    obtain ⟨key,v⟩ := member
    cases v <;> simp [canonicalMember,ih,Bool.and_assoc]

theorem canonicalPresent (key : String) (value : Option String) :
    canonicalMember (present key value) = true := by
  cases value <;> rfl

theorem canonicalUnsigned {e : Envelope} (h : canonical e.payload = true) :
    canonical e.unsigned = true := by
  have last : canonicalMember [("payload",e.payload)] = true := by
    cases held : e.payload with
    | undefined => rfl
    | _ => rw [held] at h; simp [canonicalMember,h]
  have cons (key : String) (v : Json) (rest : List (String × Json))
      (tail : canonicalMember rest = true) (value : canonical v = true) :
      canonicalMember ((key,v)::rest) = true := by
    cases v <;> simp_all [canonicalMember]
  have tail := cons "payloadDigest" (.string e.payloadDigest) _ last rfl
  simp only [Envelope.unsigned,canonical,canonicalAppend,canonicalPresent,Bool.and_true]
  simp only [Bool.and_eq_true]
  exact ⟨⟨rfl,rfl⟩,tail⟩

def InClock (now : Int) : Prop := 0 ≤ now ∧ now ≤ 0xffffffffffff

variable {σ κ : Type} (n : Node κ)

structure Sealed (s : NodeSession σ κ) (type : String) (payload : Json) (now : Int)
    (extra : Extra) (e : Envelope) : Prop where
  protocol : e.protocol = protocol
  schemaDigest : e.schemaDigest = n.schemaBundleDigest
  type : e.type = type
  messageId : uuidSchema (.string e.messageId) = some (.string e.messageId)
  sessionId : e.sessionId = s.sessionId
  workspaceId : e.workspaceId = n.credentials.workspaceId
  senderId : e.senderId = s!"node:{n.credentials.nodeId}"
  idempotencyKey : e.idempotencyKey = extra.idempotencyKey
  correlationId : e.correlationId = none
  causationId : e.causationId = extra.causationId
  sequence : e.sequence = s.outSeq + 1
  sentAt : e.sentAt = toISOString now
  expiresAt : e.expiresAt = none
  payloadDigest : computePayloadDigest n.platform payload = .ok e.payloadDigest
  payload : e.payload = payload
  signature : ∃ text, e.signature = "ed25519:" ++ n.platform.edSign n.privateKey text

theorem uuidReturns (now : Int) (tail : Fin 16 → Fin 256) :
    (uuidV7 now tail).isOk = true ↔ InClock now := by
  unfold uuidV7 InClock
  split
  · exact iff_of_true rfl ‹_›
  · exact iff_of_false (by simp [Except.isOk,Except.toBool]) ‹_›

theorem okSome {ε α : Type} {r : Except ε α} (h : r.isOk = true) : ∃ a, r = .ok a := by
  cases r with
  | error e => contradiction
  | ok a => exact ⟨a,rfl⟩

theorem sealSpec (type : String) (payload : Json) (now : Int) (extra : Extra)
    (s : NodeSession σ κ) : wp (sealMessage n type payload now extra)
      (fun e _ => Sealed n s type payload now extra e ∧ InClock now ∧ canonical payload = true)
      (fun fault _ => (∃ message, fault = .thrown message) ∧
        ¬(InClock now ∧ canonical payload = true)) s := by
  have clock := uuidReturns now (n.platform.randomBytes s.draws)
  unfold sealMessage drawUuid
  simp only [wpBind,wpGet,wpChanging,wpOrThrow]
  cases drawn : uuidV7 now (n.platform.randomBytes s.draws) with
  | error message =>
    rw [drawn] at clock
    exact ⟨⟨_,rfl⟩,fun both => by simpa [Except.isOk,Except.toBool] using clock.mpr both.1⟩
  | ok id =>
    rw [drawn] at clock
    have text := canonicalText n.platform payload
    dsimp only
    unfold sealEnvelope computePayloadDigest
    cases held : canonical payload with
    | false =>
      rw [held] at text
      dsimp only
      cases failed : canonicalJson n.platform payload with
      | ok _ => rw [failed] at text; contradiction
      | error message => exact ⟨⟨_,rfl⟩,fun both => by simp at both⟩
    | true =>
      rw [held] at text
      obtain ⟨written,same⟩ := okSome text
      dsimp only
      rw [same]
      simp only [bind,Except.bind]
      have signing (e : Envelope) (own : e.payload = payload) :
          (buildSigningInput n.platform e).isOk = true := by
        rw [buildSigningInput,canonicalText]
        exact canonicalUnsigned (by rw [own,held])
      cases signed : buildSigningInput n.platform _ with
      | error message =>
        have returns := congrArg Except.isOk signed
        rw [signing _ ?_] at returns
        · contradiction
        · rfl
      | ok input =>
        refine ⟨?_,clock.mp rfl,trivial⟩
        constructor
        case messageId => exact uuidMatches drawn
        case payloadDigest => rw [computePayloadDigest,same]; rfl
        case signature => exact ⟨input,rfl⟩
        all_goals rfl

def Returns (T : Envelope → Prop) (m : SessionM σ κ (List Envelope)) : Prop :=
  ∀ s, wp m (fun out _ => ∀ e ∈ out, T e) (fun _ _ => True) s

section
variable {T : Envelope → Prop}

theorem returnsNone : Returns T (pure [] : SessionM σ κ (List Envelope)) := fun _ => by simp

theorem returnsAfter {α : Type} {m : SessionM σ κ α} {f : α → SessionM σ κ (List Envelope)}
    (each : ∀ a, Returns T (f a)) : Returns T (m >>= f) := fun s => by
  rw [wpBind]
  exact wpIntro (fun a t _ => each a t) fun _ _ _ => trivial

theorem returnsSealed {type : String} {payload : Json} {now : Int} {extra : Extra}
    (each : ∀ (s : NodeSession σ κ) (e : Envelope), Sealed n s type payload now extra e → T e) :
    Returns T (sealMessage n type payload now extra >>= fun e => pure [e] :
      SessionM σ κ (List Envelope)) := fun s => by
  rw [wpBind]
  refine wpMono (sealSpec n type payload now extra s) (fun e t sealed => ?_) fun _ _ _ => trivial
  simpa using each s e sealed.1

variable [NodeStateStore σ] {now : Int}

theorem returnsBatches (each : ∀ (s : NodeSession σ κ) id events truncated e,
      Sealed n s "run.event_batch" (batchPayload id events truncated) now noExtra e → T e)
    {limit : Nat} {batches : List (List NodeEvent)} {out : List Envelope}
    (before : ∀ e ∈ out, T e) :
    Returns T (sealBatches n now limit batches out : SessionM σ κ (List Envelope)) := by
  induction batches generalizing out with
  | nil => exact fun s => before
  | cons events rest ih =>
    intro s
    unfold sealBatches sealBatch
    rw [wpBind,wpBind]
    refine wpIntro (fun id t _ => ?_) fun _ _ _ => trivial
    rw [wpBind]
    refine wpIntro (fun truncations u _ => ?_) fun _ _ _ => trivial
    refine wpMono (sealSpec n _ _ now noExtra u) (fun e v sealed => ?_) fun _ _ _ => trivial
    have more : ∀ e' ∈ out ++ [e], T e' := by
      intro e' listed
      rcases List.mem_append.mp listed with old | new
      · exact before e' old
      · rw [List.mem_singleton.mp new]
        exact each u id events _ e sealed.1
    dsimp only
    split
    · exact more
    · exact ih more v

theorem returnsFlush (each : ∀ (s : NodeSession σ κ) id events truncated e,
      Sealed n s "run.event_batch" (batchPayload id events truncated) now noExtra e → T e)
    (fromCursor : Option Nat) :
    Returns T (flush n now fromCursor : SessionM σ κ (List Envelope)) := by
  refine returnsAfter fun s => ?_
  split
  · exact returnsAfter fun pending => returnsBatches n each (by simp)
  · exact returnsNone

theorem returnsWelcome (each : ∀ (s : NodeSession σ κ) id events truncated e,
      Sealed n s "run.event_batch" (batchPayload id events truncated) now noExtra e → T e)
    (summary : ∀ (s : NodeSession σ κ) payload e, Sealed n s "reconcile.summary" payload now noExtra e → T e)
    (envelope : Envelope) :
    Returns T (receiveWelcome n envelope now : SessionM σ κ (List Envelope)) := by
  refine returnsAfter fun welcome => returnsAfter fun s => ?_
  split
  · exact returnsAfter fun _ => returnsNone
  · refine returnsAfter fun _ t => ?_
    rw [wpBind]
    refine wpMono (returnsFlush n each _ t) (fun replays u batched => ?_) fun _ _ _ => trivial
    rw [wpBind]
    refine wpIntro (fun truncations v _ => ?_) fun _ _ _ => trivial
    split
    · exact batched
    · unfold reconcileSummary
      rw [wpBind,wpBind,wpGet,wpBind]
      refine wpIntro (fun truncations w _ => ?_) fun _ _ _ => trivial
      refine wpMono (sealSpec n _ _ now noExtra w) (fun e x sealed => ?_) fun _ _ _ => trivial
      exact List.forall_mem_cons.mpr ⟨summary w _ e sealed.1,batched⟩

end

end ControlCenter.SealedEnvelopes
