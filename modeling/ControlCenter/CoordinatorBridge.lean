import ControlCenter.ActionLogic
import ControlCenter.LeaseQueue
import ControlCenter.Session

/-! The bridge that binds the coordinator behind the session's kernel seam, with what its
connection keeps for it in memory: the fetched plans and the queue of accepted leases. -/
namespace ControlCenter.CoordinatorBridge
open JsonValue ZodSchema AccpEnvelope AccpMessages StateStore Session ActionLogic LeaseQueue

def planDocumentSchema : Schema := object
  [field "goal" nonemptyString,field "repo" nonemptyString,
   field "agent" (oneOf ["codex","claude","openclaw","auto"]),optional "context" string,
   optional "successCriteria" (array string),optional "verificationCommand" string]

structure AcceptedOffer where
  offer : Json
  plan : Json

structure Connection where
  accepted : AList fun _ : String => AcceptedOffer
  reviewDecisions : List Json
  planCache : AList fun _ : String => String
  queue : Queue
  commitChecks : Nat

def Connection.fresh : Connection := ⟨∅,[],∅,.fresh,0⟩

structure Bridge where
  capabilities : List String
  availableSecrets : List String
  -- JSON.parse of a plan's bytes; none is a SyntaxError.
  jsonParse : String → Option Json
  -- Whether git finds the commit in the repository, by the number of the question.
  catFile : Nat → String → String → Bool

def Bridge.standard (jsonParse : String → Option Json) (catFile : Nat → String → String → Bool) :
    Bridge := ⟨["worktree"],[],jsonParse,catFile⟩

section
variable (p : Platform) (b : Bridge)

def planDigest (planBytes : String) : String := p.sha256Hex planBytes

def missing (key : String) (offer : Json) (held : List String) : Option Json :=
  (itemsOf (offer.get key)).find? fun v => !held.contains (v.text.getD "")

def leaseIdOf (offer : Json) : String := textAt "leaseId" (offer.get "lease")

def baseCommitOf (offer : Json) : String := textAt "baseCommit" (offer.get "planRevision")

def Connection.accept (c : Connection) (offer plan : Json) : Connection :=
  {c with
    accepted := c.accepted.insert (leaseIdOf offer) ⟨offer,plan⟩
    queue := c.queue.enqueue (leaseIdOf offer)}

def decidePlan (offer plan : Json) : ExceptT String (StateM Connection) OfferDecision := do
  let c ← get
  modify fun c => {c with commitChecks := c.commitChecks + 1}
  if b.catFile c.commitChecks (textAt "repo" plan) (baseCommitOf offer) then
    modify fun c => c.accept offer plan
    pure .accept
  else pure (.decline "REPO_BASE_UNAVAILABLE"
    (some (baseCommitOf offer ++ " not present in " ++ textAt "repo" plan)))

def decideOffer (offer : Json) : ExceptT String (StateM Connection) OfferDecision := do
  match missing "requiredCapabilities" offer b.capabilities with
  | some capability => pure (.decline "CAPABILITY_MISSING" capability.text)
  | none =>
  match missing "requiredSecrets" offer b.availableSecrets with
  | some secretRef => pure (.decline "SECRET_MISSING" secretRef.text)
  | none => do
    let c ← get
    let digest := textAt "digest" (offer.get "planRevision")
    match c.planCache.lookup digest with
    | none => pure (.decline "CAPABILITY_MISSING" (some "plan bytes unavailable for digest"))
    | some bytes =>
      if planDigest p bytes ≠ digest then throw "plan bytes do not match the offered plan digest"
      else match b.jsonParse bytes with
      | none => pure (.decline "POLICY_BUNDLE_UNSUPPORTED" (some "plan document is not valid JSON"))
      | some rawPlan => match planDocumentSchema rawPlan with
        | none => pure (.decline "POLICY_BUNDLE_UNSUPPORTED"
            (some "plan document schema unsupported by this node version"))
        | some plan => decidePlan b offer plan

def onReviewDecision (decision : Json) : ExceptT String (StateM Connection) Unit :=
  modify fun c => {c with reviewDecisions := c.reviewDecisions ++ [decision]}

def kernelBridge : KernelBridge Connection := ⟨decideOffer p b,some onReviewDecision⟩

end

def Connection.prefetched (c : Connection) (digest planBytes : String) : Connection :=
  match c.planCache.lookup digest with
  | some _ => c
  | none => {c with planCache := c.planCache.insert digest planBytes}

def queueDecided (offer : Json) (q : Queue) : OfferDecision → Queue
  | .accept => q.enqueue (leaseIdOf offer)
  | .decline _ _ => q

theorem planDecided (b : Bridge) (offer plan : Json) (c : Connection) :
    wp (decidePlan b offer plan) (fun decision next =>
      next.queue = queueDecided offer c.queue decision) (fun _ _ => False) c := by
  unfold decidePlan
  rw [wpBind,wpGet,wpBind,wpModify]
  split
  · rw [wpBind,wpModify]
    rfl
  · rfl

theorem offerDecided (p : Platform) (b : Bridge) (offer : Json) (c : Connection) :
    wp (decideOffer p b offer) (fun decision next =>
      next.queue = queueDecided offer c.queue decision) (fun _ next => next = c) c := by
  unfold decideOffer
  cases missing "requiredCapabilities" offer b.capabilities with
  | some capability => rfl
  | none =>
  dsimp only
  cases missing "requiredSecrets" offer b.availableSecrets with
  | some secretRef => rfl
  | none =>
    dsimp only
    rw [wpBind,wpGet]
    cases c.planCache.lookup (textAt "digest" (offer.get "planRevision")) with
    | none => rfl
    | some bytes =>
      dsimp only
      split
      · rfl
      cases b.jsonParse bytes with
      | none => rfl
      | some rawPlan =>
        dsimp only
        cases planDocumentSchema rawPlan with
        | none => rfl
        | some plan =>
          exact wpMono (planDecided b offer plan c) (fun _ _ decided => decided) fun _ _ => False.elim

end ControlCenter.CoordinatorBridge
