import ControlCenter.ApiRoutes
import ControlCenter.Histories
import ControlCenter.JsonBytes

/-! A request at the daemon: who may ask, how its body is read, the one change it may make
under its key, and the one answer it gets. -/
namespace ControlCenter.DaemonRequests
open JsonText (CodeUnit Text Value NumberFormat ascii isDigit)
open ApiErrors (isLetter Headers)
open VerificationCommand (trim)
open ApiRoutes Dialogue Reliance Histories ScriptRuns

inductive RunControlErrorCode where
  | runNotFound | runNotOwned | runStarting | runFinalizing | runTerminal
  deriving DecidableEq

inductive Thrown where
  | http (error : HttpError)
  | zod (issues : List Issue)
  | runControl (code : RunControlErrorCode) (message : Text)
  | capability (message : Text)
  | other (message : Text)

def foldUnit (c : CodeUnit) : CodeUnit :=
  if c.val = 0x17f then 115 else if c.val = 0x212a then 107 else UrlPaths.lowerUnit c

def mentions (phrases : List String) (message : Text) : Bool :=
  phrases.any fun phrase => ascii phrase <:+: message.map foldUnit

def normalizeError : Thrown → HttpError
  | .http error => error
  | .zod issues => requestInvalid issues
  | .runControl .runNotFound message => ⟨404,.notFound,message,false,none⟩
  | .runControl code message =>
      ⟨409,.stateConflict,message,decide (code = .runStarting),none⟩
  | .capability message => ⟨409,.capabilityUnsupported,message,false,none⟩
  | .other message =>
      if mentions ["not found","task disappeared","run disappeared"] message then
        ⟨404,.notFound,message,false,none⟩
      else if mentions ["must be","requires","status","transition","concurrent","claimed",
          "does not own","not running","not pending","belongs to"] message then
        ⟨409,.stateConflict,message,false,none⟩
      else internalError

structure RequestContext where
  token : Text
  allowedOrigins : List Text
  allowedHosts : List Text
  maxJsonBytes : Nat

structure BodyStream where
  chunks : List (List UInt8)
  -- Where the stream breaks off after them.
  failed : Option Text

structure Request where
  method : Text
  url : Text
  headers : Headers

def Request.header (r : Request) (name : String) : Option Text :=
  (r.headers name).bind fun s => if s.isEmpty then none else some s

def tokenUnit (c : CodeUnit) : Bool := isLetter c || isDigit c || c = 95 || c = 45

def bearer (authorization : Text) : Option Text :=
  let token := authorization.drop 7
  if (authorization.take 7).map UrlPaths.lowerUnit = ascii "bearer " && !token.isEmpty &&
    token.all tokenUnit then some token else none

def bearerTokenMatches (digest : Text → Text) (expected : Text) (authorization : Option Text) :
    Bool := match authorization.bind bearer with
  | some candidate => digest expected = digest candidate
  | none => false

def forbidden (message : String) : HttpError := ⟨403,.forbidden,ascii message,false,none⟩

def unauthorized : HttpError :=
  ⟨401,.unauthorized,ascii "A valid bearer token is required",false,none⟩

inductive Admitted where
  | preflight
  | route
  deriving DecidableEq

def passGate (digest : Text → Text) (context : RequestContext) (r : Request) :
    Except HttpError Admitted :=
  let origin := r.header "origin"
  match (r.header "host").map fun host => host.map ApiErrors.lowerUnit with
  | none => .error (forbidden "Host header is not allowed")
  | some host =>
    if !context.allowedHosts.contains host then .error (forbidden "Host header is not allowed")
    else if origin.any fun origin => !context.allowedOrigins.contains origin then
      .error (forbidden "Origin is not allowed")
    else if r.method = ascii "OPTIONS" then
      if origin.isNone then .error (forbidden "CORS preflight requires Origin")
      else .ok .preflight
    else if bearerTokenMatches digest context.token (r.headers "authorization") then .ok .route
    else .error unauthorized

def tooLarge (maximumBytes : Nat) : HttpError :=
  ⟨413,.payloadTooLarge,ascii ("Request exceeds " ++ toString maximumBytes ++ " bytes"),false,
    none⟩

def gather (maximumBytes : Nat) : List UInt8 → List (List UInt8) → Option (List UInt8)
  | bytes,[] => some bytes
  | bytes,chunk::rest =>
      if maximumBytes < bytes.length + chunk.length then none
      else gather maximumBytes (bytes ++ chunk) rest

section
variable {N : Type} (f : NumberFormat N)

def readBody (maximumBytes : Nat) (declared : Option Nat) (stream : BodyStream) :
    Except Thrown (Text × Value N) :=
  if declared.any fun length => maximumBytes < length then .error (.http (tooLarge maximumBytes))
  else match gather maximumBytes [] stream.chunks with
    | none => .error (.http (tooLarge maximumBytes))
    | some bytes => match stream.failed with
      | some message => .error (.other message)
      | none =>
        if (trim (JsonBytes.text bytes)).isEmpty then .ok ([],.object [])
        else match JsonText.parse f (JsonBytes.text bytes) with
          | some value => .ok (JsonBytes.text bytes,value)
          | none => .error (.http ⟨400,.validationFailed,ascii "Request body must be valid JSON",
              false,none⟩)

end

inductive Stored (N : Type) where
  | data (value : Value N)
  | error (error : HttpError)

inductive ReplyBody (N : Type) where
  -- The answer to a preflight, and a page of bytes.
  | empty
  | artifact (bytes : List UInt8)
  | stored (body : Stored N)

structure Reply (N : Type) where
  status : Nat
  body : ReplyBody N
  replayed : Bool

inductive ClaimAnswer (N : Type) where
  | claimed
  | conflict
  | pending
  | replay (status : Nat) (body : Stored N)

inductive Question (N : Type) where
  | chunks
  | claimIdempotencyKey (key hash : Text)
  | handler (endpoint : Endpoint) (body : Value N)
  | completeIdempotencyKey (key hash : Text) (status : Nat) (body : Stored N)
  -- What an endpoint without a change reads.
  | read (endpoint : Endpoint)
  | sendArtifact (artifactId : Text)
  | openEventStream (params : List (Text × Text))
  | drain
  | send (reply : Reply N)

def Answer {N : Type} : Question N → Type
  | .chunks => BodyStream
  | .claimIdempotencyKey .. => ClaimAnswer N
  | .handler .. => Except Thrown (Nat × Value N)
  | .read _ => Except Thrown (Value N)
  | .sendArtifact _ => Except Thrown (List UInt8)
  | .openEventStream _ => Except Thrown Unit
  | .completeIdempotencyKey .. | .drain | .send _ => Unit

abbrev Handling (N : Type) (α : Type) := Script (Question N) Answer α

def messageText (message : String) : Text :=
  message.toList.flatMap fun c => Utf8.pointUnits c.toNat

section
variable {N : Type}

def asked (q : Question N) : Handling N (Except Thrown (Answer q)) := do
  let r ← (Script.call q).attempt
  pure (r.mapError fun message => .other (messageText message))

def ofStored (status : Nat) (body : Stored N) (replayed : Bool) : Reply N :=
  ⟨status,.stored body,replayed⟩

def errorReply (thrown : Thrown) : Reply N :=
  ofStored (normalizeError thrown).status (.error (normalizeError thrown)) false

-- Sending does not fail: a response that was destroyed takes no more.
def send (reply : Reply N) : Handling N (Except Thrown Unit) := do
  let _ ← (Script.call (.send reply)).attempt
  pure (.ok ())

def idempotencyKeyText (s : Text) : Bool :=
  decide (s.length ≤ 200) && match s with
    | [] => false
    | c::rest => idHead c && rest.all fun c => idTail c || c = 58

def requestFingerprint (sha256 : Text → Text) (r : Request) (rawBody : Text) : Text :=
  sha256 (r.method ++ 0::r.url ++ 0::rawBody)

def idempotencyRequired : HttpError :=
  ⟨428,.idempotencyRequired,ascii "Idempotency-Key is required for mutations",false,none⟩

def idempotencyConflict : HttpError :=
  ⟨409,.idempotencyConflict,
    ascii "Idempotency-Key was already used for a different request",false,none⟩

def idempotencyPending : HttpError :=
  ⟨409,.idempotencyPending,
    ascii "The original request is still pending or requires reconciliation",true,none⟩

def settled : Except Thrown (Nat × Value N) → Nat × Stored N
  | .ok (status,data) => (status,.data data)
  | .error thrown => ((normalizeError thrown).status,.error (normalizeError thrown))

def runIdempotentMutation (sha256 : Text → Text) (platform : Platform) (r : Request)
    (rawBody : Text) (endpoint : Endpoint) (body : Value N) : Handling N (Except Thrown Unit) :=
  match r.header "idempotency-key" with
  | none => pure (.error (.http idempotencyRequired))
  | some key =>
    if !idempotencyKeyText key then pure (.error (.zod (platform.issues (.idempotencyKey key))))
    else do
      let hash := requestFingerprint sha256 r rawBody
      match ← asked (.claimIdempotencyKey key hash) with
      | .error thrown => pure (.error thrown)
      | .ok .conflict => pure (.error (.http idempotencyConflict))
      | .ok .pending => pure (.error (.http idempotencyPending))
      | .ok (.replay status body) => send (ofStored status body true)
      | .ok .claimed => do
        let outcome ← asked (.handler endpoint body)
        let (status,stored) := settled (outcome.bind id)
        match ← asked (.completeIdempotencyKey key hash status stored) with
        | .error thrown => pure (.error thrown)
        | .ok () => send (ofStored status stored false)

def screenshotMaxJsonBytes : Nat := 24 * 1024 * 1024

def bodyLimit (context : RequestContext) : Endpoint → Option Nat
  | .createTask | .retryTask _ | .cancelTask _ | .postMessage _ | .cancelRun _
  | .decideReview _ => some context.maxJsonBytes
  | .attachScreenshot .. => some screenshotMaxJsonBytes
  | _ => none

def digitsValue (s : Text) : Option Nat :=
  if !s.isEmpty && s.all isDigit then some (s.foldl (fun n c => n * 10 + (c.val - 48)) 0) else none

def Request.declaredLength (r : Request) : Option Nat := (r.headers "content-length").bind digitsValue

def serve (f : NumberFormat N) (sha256 : Text → Text) (platform : Platform)
    (context : RequestContext) (r : Request) (endpoint : Endpoint) :
    Handling N (Except Thrown Unit) :=
  match bodyLimit context endpoint with
  | some maximumBytes => do
    match ← asked .chunks with
    | .error thrown => pure (.error thrown)
    | .ok stream => match readBody f maximumBytes r.declaredLength stream with
      | .error thrown => pure (.error thrown)
      | .ok (rawBody,body) => runIdempotentMutation sha256 platform r rawBody endpoint body
  | none => match endpoint with
    | .artifactContent artifactId => do
      match (← asked (.sendArtifact artifactId)).bind id with
      | .error thrown => pure (.error thrown)
      | .ok bytes => send ⟨200,.artifact bytes,false⟩
    | .events params => do
      match (← asked (.openEventStream params)).bind id with
      | .error thrown => pure (.error thrown)
      | .ok () => do
        -- The head is out: what fails from here on is only logged.
        let _ ← asked .drain
        pure (.ok ())
    | _ => do
      match (← asked (.read endpoint)).bind id with
      | .error thrown => pure (.error thrown)
      | .ok data => send (ofStored 200 (.data data) false)

def route (f : NumberFormat N) (sha256 : Text → Text) (platform : Platform)
    (context : RequestContext) (r : Request) : Handling N (Except Thrown Unit) :=
  match routeRequest platform r.method r.url with
  | .error error => pure (.error (.http error))
  | .ok endpoint => serve f sha256 platform context r endpoint

def finish : Except Thrown Unit → Handling N Unit
  | .ok () => pure ()
  | .error thrown => do
    let _ ← send (errorReply thrown)
    pure ()

def handleRequest (f : NumberFormat N) (digest sha256 : Text → Text) (platform : Platform)
    (context : RequestContext) (r : Request) : Handling N Unit :=
  (match passGate digest context r with
    | .error error => pure (.error (.http error))
    | .ok .preflight => send ⟨204,.empty,false⟩
    | .ok .route => route f sha256 platform context r) >>= finish

end

abbrev Past (N : Type) := List (Exchange (Question N) Answer)

section
variable {N : Type}

def isHead : Exchange (Question N) Answer → Bool
  | ⟨.send _,_⟩ => true
  | ⟨.openEventStream _,.ok (.ok ())⟩ => true
  | _ => false

def heads (past : Past N) : Nat := past.countP isHead

def calledFor : Exchange (Question N) Answer → Option (Reply N)
  | ⟨.completeIdempotencyKey _ _ status stored,.ok ()⟩ => some (ofStored status stored false)
  | ⟨.claimIdempotencyKey .. ,.ok (.replay status body)⟩ => some (ofStored status body true)
  | ⟨.claimIdempotencyKey .. ,.ok .conflict⟩ => some (errorReply (.http idempotencyConflict))
  | ⟨.claimIdempotencyKey .. ,.ok .pending⟩ => some (errorReply (.http idempotencyPending))
  | ⟨.read _,.ok (.ok data)⟩ => some (ofStored 200 (.data data) false)
  | ⟨.read _,.ok (.error thrown)⟩ => some (errorReply thrown)
  | ⟨.sendArtifact _,.ok (.ok bytes)⟩ => some ⟨200,.artifact bytes,false⟩
  | ⟨.sendArtifact _,.ok (.error thrown)⟩ => some (errorReply thrown)
  | ⟨.openEventStream _,.ok (.error thrown)⟩ => some (errorReply thrown)
  | _ => none

def due (past : Past N) : Option (Reply N) := past.getLast?.bind calledFor

variable (f : NumberFormat N) (digest sha256 : Text → Text) (platform : Platform)
  (context : RequestContext) (r : Request)

structure Routed (endpoint : Endpoint) : Prop where
  admitted : passGate digest context r = .ok .route
  routed : routeRequest platform r.method r.url = .ok endpoint

-- The one reply to a request that is turned away, or that is a preflight.
inductive TurnedAway : Reply N → Prop
  | refused {error : HttpError} (held : passGate digest context r = .error error) :
      TurnedAway (errorReply (.http error))
  | preflight (held : passGate digest context r = .ok .preflight) :
      TurnedAway ⟨204,.empty,false⟩
  | unrouted {error : HttpError} (admitted : passGate digest context r = .ok .route)
      (failed : routeRequest platform r.method r.url = .error error) :
      TurnedAway (errorReply (.http error))

structure ReadOf (stream : BodyStream) (endpoint : Endpoint) (rawBody : Text) (body : Value N) :
    Prop where
  routed : Routed digest platform context r endpoint
  read : ∃ maximumBytes, bodyLimit context endpoint = some maximumBytes ∧
    readBody f maximumBytes r.declaredLength stream = .ok (rawBody,body)

-- What may be asked after what was: a change only under a key that was claimed for this
-- request, its completion with what came of it, and one answer.
def May (past : Past N) : Question N → Prop
  | .chunks => past = [] ∧ ∃ endpoint, Routed digest platform context r endpoint ∧
      (bodyLimit context endpoint).isSome
  | .claimIdempotencyKey key hash => ∃ stream endpoint rawBody body,
      past = [⟨.chunks,.ok stream⟩] ∧
      ReadOf f digest platform context r stream endpoint rawBody body ∧
      r.header "idempotency-key" = some key ∧ idempotencyKeyText key = true ∧
      hash = requestFingerprint sha256 r rawBody
  | .handler endpoint body => ∃ stream rawBody key, past = [⟨.chunks,.ok stream⟩,
      ⟨.claimIdempotencyKey key (requestFingerprint sha256 r rawBody),.ok .claimed⟩] ∧
      ReadOf f digest platform context r stream endpoint rawBody body
  | .completeIdempotencyKey key hash status stored => ∃ stream endpoint body outcome,
      past = [⟨.chunks,.ok stream⟩,⟨.claimIdempotencyKey key hash,.ok .claimed⟩,
        ⟨.handler endpoint body,outcome⟩] ∧
      (status,stored) = settled ((outcome.mapError fun message =>
        Thrown.other (messageText message)).bind id)
  | .read endpoint => past = [] ∧ Routed digest platform context r endpoint ∧
      bodyLimit context endpoint = none
  | .sendArtifact artifactId => past = [] ∧
      Routed digest platform context r (.artifactContent artifactId)
  | .openEventStream params => past = [] ∧ Routed digest platform context r (.events params)
  | .drain => ∃ params, past = [⟨.openEventStream params,.ok (.ok ())⟩]
  | .send reply => heads past = 0 ∧ (∀ own, due past = some own → reply = own) ∧
      (due past = none → (∃ thrown, reply = errorReply thrown) ∨
        past = [] ∧ passGate digest context r = .ok .preflight ∧ reply = ⟨204,.empty,false⟩) ∧
      ∀ error, passGate digest context r = .error error → reply = errorReply (.http error)

def Ends (r : Except String (Except Thrown Unit)) (past : Past N) : Prop := match r with
  | .ok (.ok ()) => heads past = 1
  | .ok (.error thrown) => heads past = 0 ∧ ∀ own, due past = some own → errorReply thrown = own
  | .error _ => False

variable {f digest sha256 platform context r}
variable {α : Type} {past : Past N}

theorem heedsAsked {q : Question N} {may : Past N → Question N → Prop}
    {post : Except String (Except Thrown (Answer q)) → Past N → Prop} (now : may past q)
    (rest : ∀ r, post (.ok (r.mapError fun message => .other (messageText message)))
      (past ++ [⟨q,r⟩])) : Heeds may post past (asked q) :=
  heedsBind (heedsAttempt (heedsCall now rest))

theorem heedsSent {reply : Reply N} {may : Past N → Question N → Prop}
    {post : Except String (Except Thrown Unit) → Past N → Prop} (now : may past (.send reply))
    (none : heads past = 0) (rest : ∀ later, heads later = 1 → post (.ok (.ok ())) later) :
    Heeds may post past (send reply) := by
  refine heedsBind (heedsAttempt (heedsCall now fun r => ?_))
  refine rest (past ++ [⟨.send reply,r⟩]) ?_
  rw [heads,List.countP_append,show past.countP isHead = 0 from none]
  rfl

theorem heedsSend {reply : Reply N} {may : Past N → Question N → Prop}
    (now : may past (.send reply)) (none : heads past = 0) :
    Heeds may Ends past (send reply) := heedsSent now none fun _ one => one

theorem mutationHeeds {stream : BodyStream} {endpoint : Endpoint} {rawBody : Text} {body : Value N}
    (read : ReadOf f digest platform context r stream endpoint rawBody body) :
    Heeds (May f digest sha256 platform context r) Ends [⟨.chunks,.ok stream⟩]
      (runIdempotentMutation sha256 platform r rawBody endpoint body) := by
  have admitted := read.routed.admitted
  unfold runIdempotentMutation
  split
  · exact ⟨rfl,fun own same => by cases same⟩
  next key given =>
    split
    · exact ⟨rfl,fun own same => by cases same⟩
    next plain =>
      refine heedsBind (heedsAsked ⟨stream,endpoint,rawBody,body,rfl,read,given,
        by simpa using plain,rfl⟩ fun answer => ?_)
      cases answer with
      | error message => exact ⟨rfl,fun own same => by cases same⟩
      | ok claim =>
        cases claim with
        | conflict => exact ⟨rfl,fun own same => Option.some.inj same⟩
        | pending => exact ⟨rfl,fun own same => Option.some.inj same⟩
        | replay status stored =>
          refine heedsSend ⟨rfl,fun own same => Option.some.inj same,fun same => ?_,?_⟩ rfl
          · cases same
          · exact fun error held => by rw [admitted] at held; cases held
        | claimed =>
          refine heedsBind (heedsAsked ⟨stream,rawBody,key,rfl,read⟩ fun outcome => ?_)
          refine heedsBind (heedsAsked ⟨stream,endpoint,body,outcome,rfl,rfl⟩ fun done => ?_)
          cases done with
          | error message => exact ⟨rfl,fun own same => by cases same⟩
          | ok done =>
            refine heedsSend ⟨rfl,fun own same => Option.some.inj same,fun same => ?_,?_⟩ rfl
            · cases same
            · exact fun error held => by rw [admitted] at held; cases held

theorem serveHeeds {endpoint : Endpoint}
    (routed : Routed digest platform context r endpoint) :
    Heeds (May f digest sha256 platform context r) Ends []
      (serve f sha256 platform context r endpoint) := by
  have admitted (error : HttpError) : passGate digest context r ≠ .error error := fun held => by
    rw [routed.admitted] at held
    cases held
  unfold serve
  split
  next maximumBytes limited =>
    refine heedsBind (heedsAsked ⟨rfl,endpoint,routed,by rw [limited]; rfl⟩ fun answer => ?_)
    cases answer with
    | error message => exact ⟨rfl,fun own same => by cases same⟩
    | ok stream =>
      show Heeds _ _ [⟨.chunks,.ok stream⟩] (match readBody f maximumBytes r.declaredLength stream with
        | .error thrown => pure (.error thrown)
        | .ok (rawBody,body) => runIdempotentMutation sha256 platform r rawBody endpoint body)
      split
      · exact ⟨rfl,fun own same => by cases same⟩
      next rawBody body read => exact mutationHeeds ⟨routed,maximumBytes,limited,read⟩
  next unlimited =>
    split
    next artifactId =>
      refine heedsBind (heedsAsked ⟨rfl,routed⟩ fun answer => ?_)
      match answer with
      | .error message => exact ⟨rfl,fun own same => by cases same⟩
      | .ok (.error thrown) => exact ⟨rfl,fun own same => Option.some.inj same⟩
      | .ok (.ok bytes) =>
        exact heedsSend ⟨rfl,fun own same => Option.some.inj same,(fun same => by cases same),
          fun error held => absurd held (admitted error)⟩ rfl
    next params =>
      refine heedsBind (heedsAsked ⟨rfl,routed⟩ fun answer => ?_)
      match answer with
      | .error message => exact ⟨rfl,fun own same => by cases same⟩
      | .ok (.error thrown) => exact ⟨rfl,fun own same => Option.some.inj same⟩
      | .ok (.ok ()) =>
        refine heedsBind (heedsAsked ⟨params,rfl⟩ fun drained => ?_)
        cases drained with
        | error message => rfl
        | ok done => rfl
    next =>
      refine heedsBind (heedsAsked ⟨rfl,routed,unlimited⟩ fun answer => ?_)
      match answer with
      | .error message => exact ⟨rfl,fun own same => by cases same⟩
      | .ok (.error thrown) => exact ⟨rfl,fun own same => Option.some.inj same⟩
      | .ok (.ok data) =>
        exact heedsSend ⟨rfl,fun own same => Option.some.inj same,(fun same => by cases same),
          fun error held => absurd held (admitted error)⟩ rfl

def Answered (outcome : Except String Unit) (past : Past N) : Prop :=
  outcome = .ok () ∧ heads past = 1

theorem finishHeeds {thrown : Thrown} (ends : heads past = 0 ∧
      ∀ own, due past = some own → errorReply thrown = own)
    (refused : ∀ error, passGate digest context r = .error error → thrown = .http error) :
    Heeds (May f digest sha256 platform context r) Answered past (finish (.error thrown)) := by
  refine heedsBind (heedsSent ⟨ends.1,ends.2,fun _ => .inl ⟨thrown,rfl⟩,fun error held => ?_⟩
    ends.1 fun later one => ⟨rfl,one⟩)
  rw [refused error held]

theorem finishesHeeds {p : Handling N (Except Thrown Unit)}
    (passed : ∀ error, passGate digest context r ≠ .error error)
    (first : Heeds (May f digest sha256 platform context r) Ends past p) :
    Heeds (May f digest sha256 platform context r) Answered past (p >>= finish) := by
  refine heedsBind (heedsMono (fun outcome later ends => ?_) first)
  match outcome,ends with
  | .ok (.ok ()),ends => exact ⟨rfl,ends⟩
  | .ok (.error thrown),ends =>
    exact finishHeeds ends fun error failed => absurd failed (passed error)

theorem requestHeeds : Heeds (May f digest sha256 platform context r) Answered []
    (handleRequest f digest sha256 platform context r) := by
  unfold handleRequest
  cases held : passGate digest context r with
  | error error =>
    refine finishHeeds ⟨rfl,fun own same => by cases same⟩ fun error' same => ?_
    rw [held] at same
    rw [Except.error.inj same]
  | ok admitted =>
    have passed (error : HttpError) : passGate digest context r ≠ .error error := fun failed => by
      rw [held] at failed
      cases failed
    cases admitted with
    | preflight =>
      exact finishesHeeds passed (heedsSend ⟨rfl,fun own same => (by cases same),
        fun _ => .inr ⟨rfl,held,rfl⟩,fun error failed => absurd failed (passed error)⟩ rfl)
    | route =>
      refine finishesHeeds passed (p := route f sha256 platform context r) ?_
      unfold route
      split
      · exact ⟨rfl,fun own same => by cases same⟩
      next endpoint routed => exact serveHeeds ⟨held,routed⟩

theorem countOnce {X : Type} {p : X → Bool} {l : List X}
    (first : ∀ front x back, l = front ++ x::back → p x = true → front.countP p = 0) :
    l.countP p ≤ 1 := by
  induction l using List.reverseRecOn with
  | nil => exact Nat.zero_le 1
  | append_singleton l x ih =>
    have before : l.countP p ≤ 1 := ih fun front y back same own =>
      first front y (back ++ [x]) (by rw [same]; simp) own
    rw [List.countP_append,List.countP_singleton]
    split
    next own =>
      rw [first l x [] rfl own]
    next => exact before

def isHandler (x : Exchange (Question N) Answer) : Bool := match x.1 with
  | .handler .. => true
  | _ => false

section
variable {W : Type} {E : Environment (Question N) Answer W} {w last : W}
  {log : List (Entry (Question N) Answer W)} {outcome : Option (Except String Unit)}

theorem requestProper
    (run : Run E (handleRequest f digest sha256 platform context r) w log outcome last) :
    Proper (May f digest sha256 platform context r) [] (talk log) ∧
    (talk log).countP isHandler ≤ 1 ∧ heads (talk log) ≤ 1 ∧
    ∀ ended, outcome = some ended → ended = .ok () ∧ heads (talk log) = 1 := by
  obtain ⟨proper,ends⟩ := runHeeds run requestHeeds
  refine ⟨proper,countOnce fun front x back same own => ?_,countOnce fun front x back same own => ?_,
    fun ended left => ends ended left⟩
  · obtain ⟨q,answer⟩ := x
    have may := proper front ⟨q,answer⟩ back same
    cases q with
    | handler endpoint body =>
      obtain ⟨stream,rawBody,key,past,_⟩ := may
      rw [List.nil_append] at past
      rw [past]
      rfl
    | _ => cases own
  · obtain ⟨q,answer⟩ := x
    have may := proper front ⟨q,answer⟩ back same
    cases q with
    | send reply => exact may.1
    | openEventStream params =>
      rw [List.nil_append] at may
      rw [may.1]
      rfl
    | _ => cases own

theorem turnedAwayAsks (unrouted : ∀ endpoint, ¬Routed digest platform context r endpoint) :
    Asks (fun q : Question N => ∃ reply, q = .send reply ∧ TurnedAway digest platform context r reply)
      (handleRequest f digest sha256 platform context r) := by
  have sends {reply : Reply N} {p : Except String (Answer (.send reply)) → Handling N Unit}
      (own : TurnedAway digest platform context r reply) (ends : ∀ answer, p answer = .done ()) :
      Asks (fun q : Question N => ∃ reply, q = .send reply ∧
        TurnedAway digest platform context r reply) (Script.ask (.send reply) p) :=
    ⟨⟨reply,rfl,own⟩,fun answer => by rw [ends]; trivial⟩
  unfold handleRequest
  cases held : passGate digest context r with
  | error error => exact sends (.refused held) fun answer => by cases answer <;> rfl
  | ok admitted =>
    cases admitted with
    | preflight => exact sends (.preflight held) fun answer => by cases answer <;> rfl
    | route =>
      dsimp only
      unfold route
      cases routed : routeRequest platform r.method r.url with
      | ok endpoint => exact absurd ⟨held,routed⟩ (unrouted endpoint)
      | error error => exact sends (.unrouted held routed) fun answer => by cases answer <;> rfl

end

end

def localToken : ApiErrors.Token := ⟨ascii "0123456789abcdef",by decide⟩

def localContext : RequestContext := ⟨localToken.val,[],[ascii "127.0.0.1:4317"],1024 * 1024⟩

def cancelRequest : Request := ⟨ascii "POST",ascii "/v1/tasks/fix-1/cancel",fun name =>
  if name = "host" then some (ascii "127.0.0.1:4317")
  else if name = "authorization" then some (ascii "Bearer " ++ localToken.val)
  else if name = "idempotency-key" then some (ascii "key-1")
  else if name = "content-length" then some (ascii "0")
  else none⟩

def smooth : Respond (Question Unit) Answer Unit := fun q _ => match q with
  | .chunks => (.ok ⟨[],none⟩,())
  | .claimIdempotencyKey .. => (.ok .claimed,())
  | .handler .. => (.ok (.ok (202,.null)),())
  | .completeIdempotencyKey .. | .drain | .send _ => (.ok (),())
  | .read _ => (.ok (.ok .null),())
  | .sendArtifact _ => (.ok (.ok []),())
  | .openEventStream _ => (.ok (.ok ()),())

def quiet : Environment (Question Unit) Answer Unit :=
  ⟨fun _ _ => True,fun q _ r _ => r = (smooth q ()).1⟩

def cancelRun : List (Entry (Question Unit) Answer Unit) × Option (Except String Unit) × Unit :=
  play smooth 10 (handleRequest ApiErrors.units id id pathsOnly localContext cancelRequest) ()

theorem cancelTalk : talk cancelRun.1 = [⟨.chunks,.ok ⟨[],none⟩⟩,
    ⟨.claimIdempotencyKey (ascii "key-1") (requestFingerprint id cancelRequest []),.ok .claimed⟩,
    ⟨.handler (.cancelTask (ascii "fix-1")) (.object []),.ok (.ok (202,.null))⟩,
    ⟨.completeIdempotencyKey (ascii "key-1") (requestFingerprint id cancelRequest []) 202
      (.data .null),.ok ()⟩,
    ⟨.send (ofStored 202 (.data .null) false),.ok ()⟩] := by
  rfl

theorem cancelRuns : Run quiet
    (handleRequest ApiErrors.units id id pathsOnly localContext cancelRequest) ()
    cancelRun.1 cancelRun.2.1 cancelRun.2.2 :=
  playRuns (fun _ => trivial) (fun _ _ => rfl) 10 _ ()

end ControlCenter.DaemonRequests
