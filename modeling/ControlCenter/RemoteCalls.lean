import ControlCenter.DaemonRequests

/-! A call of the API client from end to end: what it sends, what the daemon makes of it, and
what the answer is to the caller. -/
namespace ControlCenter.RemoteCalls
open JsonText (CodeUnit Text Value NumberFormat Plain ascii write isDigit numberUnit)
open ApiErrors (Token Headers Response ApiResponse isOk received redactString
  sanitizeErrorValue encoded)
open VerificationCommand (isSpace trim)
open ApiRoutes Dialogue Histories ScriptRuns DaemonRequests

structure ApiClient where
  origin : Text
  host : Text
  -- The path of the base URL, less its last segment.
  base : List Text
  token : Token

def normalizeIdempotencyKey (value : Text) : Except Text Text :=
  if trim value = [] then .error (ascii "Idempotency key must be nonempty")
  else if value ≠ trim value then
    .error (ascii "Idempotency key must not have surrounding whitespace")
  else .ok value

def headerText (s : Text) : Bool := s.all fun c => c.val < 256 && !([0,10,13].contains c.val)

def keyHeader : Option Text → Except Text (Option Text)
  | none => .ok none
  | some value => do
      let key ← normalizeIdempotencyKey value
      if headerText key then .ok (some key) else .error (ascii "Invalid header value")

section
variable {N : Type} (f : NumberFormat N)

abbrev Body (N : Type) := {v : Value N // Plain v}

def bodyBytes : Option (Body N) → List UInt8
  | none => []
  | some v => JsonBytes.bytes (write f v.val)

def requestHeaders (client : ApiClient) (key : Option Text) (length : Nat) : Headers := fun name =>
  if name = "host" then some client.host
  else if name = "authorization" then some (ascii "Bearer " ++ client.token.val)
  else if name = "idempotency-key" then key
  else if name = "content-length" then some (ascii (toString length))
  else none

def ApiClient.request (client : ApiClient) (call : ClientCall) (key : Option Text)
    (body : Option (Body N)) : Except Text (Request × List UInt8) := do
  let target ← call.target client.base
  if client.token.val <:+: client.origin ++ target ∨
      encoded client.token.val <:+: client.origin ++ target then
    .error (ascii "Request URL must not contain bearer credentials")
  else
    let key ← keyHeader key
    .ok (⟨methodText call.method,target,
      requestHeaders client key (bodyBytes f body).length⟩,bodyBytes f body)

def issueValue (issue : Issue) : Value N := .object
  [(ascii "path",.string issue.path),(ascii "message",.string issue.message)]

def detailsValue (details : Details) : Value N := .object
  [(ascii "issues",.array (details.issues.map issueValue))]

def errorValue (error : HttpError) : Value N := .object
  ([(ascii "code",.string (ascii error.code.text)),(ascii "message",.string error.message),
    (ascii "retryable",.boolean error.retryable)] ++
    (error.details.map fun details => (ascii "details",detailsValue details)).toList)

def replyValue (requestId : Text) : Stored N → Value N
  | .data value => .object [(ascii "data",value),(ascii "requestId",.string requestId)]
  | .error error => .object [(ascii "error",errorValue error),(ascii "requestId",.string requestId)]

def replyText (requestId : Text) (reply : Reply N) : Text := match reply.body with
  | .empty => []
  | .artifact bytes => JsonBytes.text bytes
  | .stored body => JsonBytes.text (JsonBytes.bytes (write f (replyValue requestId body) ++ [10]))

def response (requestId : Text) (reply : Reply N) : Response :=
  ⟨reply.status,fun name =>
    if name = "x-request-id" then some requestId
    else if name = "idempotency-replayed" then if reply.replayed then some (ascii "true") else none
    else if name = "content-type" then some (ascii "application/json; charset=utf-8")
    else none,some (replyText f requestId reply)⟩

end

section
variable {N : Type} {f : NumberFormat N}

theorem numberVisible : ∀ n : Fin 128, numberUnit (Fin.ofNat 65536 n.val) = true →
    isSpace (Fin.ofNat 65536 n.val) = false := by decide +kernel

theorem visibleUnit {c : CodeUnit} (unit : numberUnit c = true) : isSpace c = false := by
  have small : c.val < 128 := by
    simp only [numberUnit,isDigit,Bool.or_eq_true,Bool.and_eq_true,decide_eq_true_eq] at unit
    rcases unit with ((((digit | plus) | minus) | point) | upper) | lower
    · omega
    · exact plus ▸ by decide
    · exact minus ▸ by decide
    · exact point ▸ by decide
    · exact upper ▸ by decide
    · exact lower ▸ by decide
  have same : Fin.ofNat 65536 c.val = c := Fin.ext (Nat.mod_eq_of_lt c.isLt)
  have held := numberVisible ⟨c.val,small⟩
  simp only [same] at held
  exact held unit

theorem writeVisible (lawful : f.Lawful) {v : Value N} (plain : Plain v) :
    ∃ c rest, write f v = c::rest ∧ isSpace c = false := by
  cases v with
  | undefined | nonFinite | negativeZero => exact plain.elim
  | null => exact ⟨110,ascii "ull",rfl,by decide⟩
  | boolean b =>
    cases b with
    | false => exact ⟨102,ascii "alse",rfl,by decide⟩
    | true => exact ⟨116,ascii "rue",rfl,by decide⟩
  | number n =>
    obtain ⟨c,rest,same,own⟩ := JsonText.numberHead (lawful.number n)
    exact ⟨c,rest,same,visibleUnit own⟩
  | string s => exact ⟨34,_,rfl,by decide⟩
  | array items => exact ⟨91,_,rfl,by decide⟩
  | object members => exact ⟨123,_,rfl,by decide⟩

theorem trimVisible {c : CodeUnit} {rest : Text} (visible : isSpace c = false) :
    (trim (c::rest)).isEmpty = false := by
  rw [List.isEmpty_eq_false_iff,trim,List.dropWhile_cons_of_neg (by simp [visible])]
  intro none
  rw [List.rdropWhile_eq_nil_iff] at none
  rw [none c List.mem_cons_self] at visible
  cases visible

theorem gathered {maximumBytes : Nat} {before bytes : List UInt8} {chunks : List (List UInt8)}
    (fits : gather maximumBytes before chunks = some bytes) : bytes = before ++ chunks.flatten := by
  induction chunks generalizing before with
  | nil =>
    cases Option.some.inj fits
    rw [List.flatten_nil,List.append_nil]
  | cons chunk rest ih =>
    rw [gather] at fits
    split at fits
    · cases fits
    · rw [ih fits,List.flatten_cons,List.append_assoc]

theorem bodyRead (lawful : f.Lawful) {body : Option (Body N)} {stream : BodyStream}
    (carried : stream.chunks.flatten = bodyBytes f body) {maximumBytes : Nat}
    {declared : Option Nat} {rawBody : Text} {v : Value N}
    (read : readBody f maximumBytes declared stream = .ok (rawBody,v)) :
    v = (body.map Subtype.val).getD (.object []) := by
  unfold readBody at read
  split at read
  · cases read
  split at read
  · cases read
  next bytes fits =>
    have same : bytes = bodyBytes f body := (gathered fits).trans carried
    subst same
    split at read
    · cases read
    cases body with
    | none =>
      rw [show JsonBytes.text (bodyBytes f (none : Option (Body N))) = [] from rfl] at read
      cases Except.ok.inj read
      rfl
    | some b =>
      obtain ⟨c,rest,shown,visible⟩ := writeVisible lawful b.property
      have text : JsonBytes.text (bodyBytes f (some b)) = write f b.val :=
        JsonBytes.textBytes (JsonBytes.writeFormed lawful b.val)
      rw [text,JsonText.parseWrite lawful b.val b.property,if_neg (by
        rw [shown,trimVisible visible]
        simp)] at read
      cases Except.ok.inj read
      rfl

theorem meantRead {call : ClientCall} {target : Text} (sent : call.target [] = .ok target)
    {platform : Platform} {context : RequestContext} {endpoint : Endpoint}
    (routed : routeRequest platform (methodText call.method) target = .ok endpoint)
    (changes : (bodyLimit context endpoint).isSome) : call.meant platform = .ok endpoint := by
  cases dots : call.ids.any dotted with
  | true =>
    have read := dottedMisread sent platform dots
    rw [routed] at read
    cases read with
    | listed id own dot => cases changes
  | false => exact (wholeMeant sent platform dots).symm.trans routed

variable {digest sha256 : Text → Text} {platform : Platform} {context : RequestContext}
  {r : Request} {log : Past N}

theorem completedSends (proper : Proper (May f digest sha256 platform context r) [] log)
    (answered : heads log = 1) {front back : Past N} {key hash : Text} {status : Nat}
    {stored : Stored N}
    (parts : log = front ++ ⟨.completeIdempotencyKey key hash status stored,.ok ()⟩::back) :
    (∃ stream endpoint body outcome, front = [⟨.chunks,.ok stream⟩,
      ⟨.claimIdempotencyKey key hash,.ok .claimed⟩,⟨.handler endpoint body,outcome⟩] ∧
      (status,stored) = settled ((outcome.mapError fun message =>
        Thrown.other (messageText message)).bind id)) ∧
    ∃ answer rest, back = ⟨.send (ofStored status stored false),answer⟩::rest := by
  obtain ⟨stream,endpoint,body,outcome,past,settles⟩ := proper front _ back parts
  rw [List.nil_append] at past
  refine ⟨⟨stream,endpoint,body,outcome,past,settles⟩,?_⟩
  subst past parts
  cases back with
  | nil => cases answered
  | cons x rest =>
    obtain ⟨q,answer⟩ := x
    have may := proper ([⟨.chunks,.ok stream⟩,⟨.claimIdempotencyKey key hash,.ok .claimed⟩,
      ⟨.handler endpoint body,outcome⟩] ++
        [⟨.completeIdempotencyKey key hash status stored,.ok ()⟩]) ⟨q,answer⟩ rest (by simp)
    rw [List.nil_append] at may
    cases q with
    | send reply =>
      obtain ⟨_,own,_⟩ := may
      rw [own _ rfl]
      exact ⟨answer,rest,rfl⟩
    | chunks => cases may.1
    | read endpoint => cases may.1
    | sendArtifact artifactId => cases may.1
    | openEventStream params => cases may.1
    | claimIdempotencyKey key hash =>
      obtain ⟨stream,endpoint,rawBody,body,past,_⟩ := may
      cases past
    | handler endpoint body =>
      obtain ⟨stream,rawBody,key,past,_⟩ := may
      cases past
    | completeIdempotencyKey key hash status stored =>
      obtain ⟨stream,endpoint,body,outcome,past,_⟩ := may
      cases past
    | drain =>
      obtain ⟨params,past⟩ := may
      cases past

theorem settledReply (proper : Proper (May f digest sha256 platform context r) [] log)
    (answered : heads log = 1) {endpoint : Endpoint} {v : Value N}
    {outcome : Except Thrown (Nat × Value N)}
    (made : (⟨.handler endpoint v,.ok outcome⟩ : Exchange (Question N) Answer) ∈ log)
    {key hash : Text} {status : Nat} {stored : Stored N}
    (recorded : (⟨.completeIdempotencyKey key hash status stored,.ok ()⟩ :
      Exchange (Question N) Answer) ∈ log) :
    ∃ answer, (⟨.send (ofStored (settled outcome).1 (settled outcome).2 false),answer⟩ :
      Exchange (Question N) Answer) ∈ log := by
  obtain ⟨front,back,parts⟩ := List.append_of_mem recorded
  obtain ⟨⟨stream,own,body,outcome',past,settles⟩,answer,rest,sent⟩ :=
    completedSends proper answered parts
  obtain ⟨before,after,cut⟩ := List.append_of_mem made
  obtain ⟨stream',rawBody,key',first,_⟩ := proper before _ after cut
  rw [List.nil_append] at first
  subst past first sent parts
  have same : (⟨.handler own body,outcome'⟩ : Exchange (Question N) Answer) =
      ⟨.handler endpoint v,.ok outcome⟩ := by
    simp only [List.cons_append,List.nil_append,List.cons.injEq] at cut
    exact cut.2.2.1
  cases same
  have ends : (status,stored) = settled outcome := settles
  rw [← ends]
  exact ⟨answer,by simp⟩

end

section
variable {N : Type} {f : NumberFormat N}

theorem storedText (lawful : f.Lawful) {requestId : Text} {body : Stored N}
    (plain : Plain (replyValue requestId body)) :
    ∃ text, replyText f requestId (ofStored 200 body false) = text ∧ text ≠ [] ∧
      JsonText.parse f text = some (replyValue requestId body) := by
  have formed := JsonBytes.formedAppend (JsonBytes.writeFormed lawful (replyValue requestId body))
    (show Utf8.wellFormed [10] = true from rfl)
  refine ⟨write f (replyValue requestId body) ++ [10],JsonBytes.textBytes formed,by simp,?_⟩
  exact JsonText.parseWriteBlank lawful _ plain rfl

theorem dataPlain (requestId : Text) {data : Value N} (plain : Plain data) :
    Plain (replyValue requestId (.data data)) := by
  exact ⟨(by decide : [ascii "data",ascii "requestId"].Nodup),plain,True.intro,True.intro⟩

theorem issuesPlain (issues : List Issue) :
    JsonText.PlainItems (issues.map issueValue : List (Value N)) := by
  induction issues with
  | nil => trivial
  | cons issue rest ih =>
    exact ⟨⟨(by decide : [ascii "path",ascii "message"].Nodup),True.intro,True.intro,True.intro⟩,ih⟩

theorem errorPlain (requestId : Text) (error : HttpError) :
    Plain (replyValue requestId (.error error) : Value N) := by
  have own : Plain (errorValue error : Value N) := by
    unfold errorValue
    cases error.details with
    | none =>
      exact ⟨(by decide : [ascii "code",ascii "message",ascii "retryable"].Nodup),
        True.intro,True.intro,True.intro,True.intro⟩
    | some details =>
      have shown : Plain (detailsValue details : Value N) :=
        ⟨List.nodup_singleton _,issuesPlain details.issues,True.intro⟩
      exact ⟨(by decide :
        [ascii "code",ascii "message",ascii "retryable",ascii "details"].Nodup),
        True.intro,True.intro,True.intro,shown,True.intro⟩
  exact ⟨(by decide : [ascii "error",ascii "requestId"].Nodup),own,True.intro,True.intro⟩

theorem dataReceived (lawful : f.Lawful) {data : Value N} (plain : Plain data) {status : Nat}
    (good : isOk status = true) {c : CodeUnit} {rest : Text} (replayed : Bool) (token : Token)
    (q : ApiErrors.Request) :
    received f token q (response f (c::rest) (ofStored status (.data data) replayed)) =
      .ok ⟨data,status,replayed,some (redactString (c::rest) token.val)⟩ := by
  obtain ⟨text,same,present,parsed⟩ := storedText lawful (dataPlain (c::rest) plain)
  have shown : (response f (c::rest) (ofStored status (.data data) replayed)).text = some text :=
    congrArg some same
  have body : ApiErrors.parseBody f text = ⟨replyValue (c::rest) (.data data),true,false⟩ := by
    rw [ApiErrors.parseBody,if_neg (by simpa using present),parsed]
  unfold received
  rw [shown]
  dsimp only
  rw [body]
  have whole : (response f (c::rest) (ofStored status (.data data) replayed)).ok = true := good
  rw [if_pos whole]
  cases replayed with
  | false => rfl
  | true => rfl

theorem codeShown (code : ApiErrorCode) :
    ApiErrors.shown (.string (ascii code.text) : Value N) = some (ascii code.text) := by
  cases code <;> rfl

def saidMessage (error : HttpError) : Text :=
  ((ApiErrors.shown (.string error.message : Value Unit)).map fun s => s.take 1000).getD
    (ApiErrors.httpMessage error.status)

-- An error without details is answered for by the whole body.
def saidDetails (requestId : Text) (error : HttpError) : Value N :=
  (error.details.map detailsValue).getD (replyValue requestId (.error error))

structure Reports (token requestId : Text) (error : HttpError) (failed : ApiErrors.ApiError N) :
    Prop where
  status : failed.status = error.status
  code : failed.code = redactString (ascii error.code.text) token
  message : failed.message = redactString (saidMessage error) token
  details : failed.details = sanitizeErrorValue token 0 (saidDetails requestId error)

theorem errorReceived (lawful : f.Lawful) {error : HttpError} (bad : isOk error.status = false)
    (c : CodeUnit) (rest : Text) (replayed : Bool) (token : Token) (q : ApiErrors.Request) :
    ∃ failed, received f token q
        (response f (c::rest) (ofStored error.status (.error error) replayed)) = .error failed ∧
      Reports token.val (c::rest) error failed := by
  obtain ⟨text,same,present,parsed⟩ := storedText lawful (errorPlain (c::rest) error)
  have shown : (response f (c::rest) (ofStored error.status (.error error) replayed)).text =
      some text := congrArg some same
  have body : ApiErrors.parseBody f text =
      ⟨replyValue (c::rest) (.error error),true,false⟩ := by
    rw [ApiErrors.parseBody,if_neg (by simpa using present),parsed]
  unfold received
  rw [shown]
  dsimp only
  rw [body]
  have whole : (response f (c::rest) (ofStored error.status (.error error) replayed)).ok = false :=
    bad
  rw [if_neg (by simp [whole])]
  refine ⟨_,rfl,rfl,?_,rfl,?_⟩
  · show redactString ((ApiErrors.shown (.string (ascii error.code.text) : Value N)).getD _) _ = _
    rw [codeShown]
    rfl
  · obtain ⟨status,code,message,retryable,details⟩ := error
    cases details with
    | none => rfl
    | some details => rfl

def Received (f : NumberFormat N) (token : Token) (q : ApiErrors.Request) (requestId : Text)
    (log : Past N) (post : Except (ApiErrors.ApiError N) (ApiResponse N) → Prop) : Prop :=
  ∃ reply answer, (⟨.send reply,answer⟩ : Exchange (Question N) Answer) ∈ log ∧
    post (received f token q (response f requestId reply))

end

theorem unitsLawful : ApiErrors.units.Lawful := ⟨fun _ => (by decide : JsonText.isNumber [48] = true),fun _ => rfl⟩

def localClient : ApiClient :=
  ⟨ascii "http://127.0.0.1:4317",ascii "127.0.0.1:4317",[],localToken⟩

def note : Body Unit := ⟨.object [(ascii "note",.string (ascii "Try again."))],
  ⟨(by decide : [ascii "note"].Nodup),True.intro,True.intro⟩⟩

def noteBytes : List UInt8 := bodyBytes ApiErrors.units (some note)

def retryRequest : Request := ⟨ascii "POST",ascii "/v1/tasks/fix-1/retry",
  requestHeaders localClient (some (ascii "key-1")) noteBytes.length⟩

def serving (outcome : Except Thrown (Nat × Value Unit)) : Respond (Question Unit) Answer Unit
  | .chunks,_ => (.ok ⟨[noteBytes.take 9,noteBytes.drop 9],none⟩,())
  | .handler ..,_ => (.ok outcome,())
  | q,w => smooth q w

def servingQuietly (outcome : Except Thrown (Nat × Value Unit)) :
    Environment (Question Unit) Answer Unit :=
  ⟨fun _ _ => True,fun q _ r _ => r = (serving outcome q ()).1⟩

def retryRun (outcome : Except Thrown (Nat × Value Unit)) :
    List (Entry (Question Unit) Answer Unit) × Option (Except String Unit) × Unit :=
  play (serving outcome) 10
    (handleRequest ApiErrors.units id id pathsOnly localContext retryRequest) ()

def isCompletion (x : Exchange (Question Unit) Answer) : Bool := match x.1 with
  | .completeIdempotencyKey .. => true
  | _ => false

section
variable (outcome : Except Thrown (Nat × Value Unit))

theorem retryRuns : Run (servingQuietly outcome)
    (handleRequest ApiErrors.units id id pathsOnly localContext retryRequest) ()
    (retryRun outcome).1 (retryRun outcome).2.1 (retryRun outcome).2.2 :=
  playRuns (fun _ => trivial) (fun _ _ => rfl) 10 _ ()

theorem retryAnswered {x : Exchange (Question Unit) Answer}
    (listed : x ∈ talk (retryRun outcome).1) : x.2 = (serving outcome x.1 ()).1 := by
  obtain ⟨e,logged,rfl⟩ := List.mem_map.mp listed
  obtain ⟨after,same⟩ := (retryRuns outcome).answered e logged
  exact same

theorem retryMade (made : (talk (retryRun outcome).1).any isHandler = true) :
    ∃ endpoint v, (⟨.handler endpoint v,.ok outcome⟩ : Exchange (Question Unit) Answer) ∈
      talk (retryRun outcome).1 := by
  obtain ⟨⟨q,answer⟩,listed,own⟩ := List.any_eq_true.mp made
  have same := retryAnswered outcome listed
  cases q with
  | handler endpoint v =>
    have same : answer = .ok outcome := same
    subst same
    exact ⟨endpoint,v,listed⟩
  | _ => cases own

theorem retryRecorded (recorded : (talk (retryRun outcome).1).any isCompletion = true) :
    ∃ key hash status stored, (⟨.completeIdempotencyKey key hash status stored,.ok ()⟩ :
      Exchange (Question Unit) Answer) ∈ talk (retryRun outcome).1 := by
  obtain ⟨⟨q,answer⟩,listed,own⟩ := List.any_eq_true.mp recorded
  have same := retryAnswered outcome listed
  cases q with
  | completeIdempotencyKey key hash status stored =>
    have same : answer = .ok () := same
    subst same
    exact ⟨key,hash,status,stored,listed⟩
  | _ => cases own

theorem retryCarried (stream : BodyStream)
    (brought : (⟨.chunks,.ok stream⟩ : Exchange (Question Unit) Answer) ∈
      talk (retryRun outcome).1) : stream.chunks.flatten = noteBytes := by
  cases Except.ok.inj (retryAnswered outcome brought)
  simp

end

theorem retrySent : localClient.request ApiErrors.units (.retryTask (ascii "fix-1"))
    (some (ascii "key-1")) (some note) = .ok (retryRequest,noteBytes) := by
  rfl

def retried : Value Unit := .object [(ascii "id",.string (ascii "fix-1"))]

def absent : Thrown := .other (ascii "Task not found: fix-1")

end ControlCenter.RemoteCalls
