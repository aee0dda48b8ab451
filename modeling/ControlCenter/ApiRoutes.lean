import Mathlib.Data.List.Find
import ControlCenter.UrlPaths
import ControlCenter.ApiProjections
import ControlCenter.Protocol

/-! The routes of the daemon and the calls of its client: what a call writes into a URL, and
what the daemon reads of it. -/
namespace ControlCenter.ApiRoutes
open JsonText (CodeUnit Text ascii isDigit high low)
open ApiErrors (isLetter Method)
open ApiProjections (encodeURIComponent encodePoint unreserved)
open VerificationCommand (trim)
open UrlPaths (slash anySlash splitOn pathname readPath percentByte percentEncode querySet parseForm
  serializeForm searchParam upperHex)
open Protocol (TaskStatus RunStatus AgentKind)

inductive ApiErrorCode where
  | validationFailed | notFound | stateConflict | adapterUnavailable | capabilityUnsupported
  | idempotencyRequired | idempotencyConflict | idempotencyPending | unauthorized | forbidden
  | payloadTooLarge | internalError
  deriving DecidableEq

def ApiErrorCode.text : ApiErrorCode → String
  | .validationFailed => "validation_failed"
  | .notFound => "not_found"
  | .stateConflict => "state_conflict"
  | .adapterUnavailable => "adapter_unavailable"
  | .capabilityUnsupported => "capability_unsupported"
  | .idempotencyRequired => "idempotency_required"
  | .idempotencyConflict => "idempotency_conflict"
  | .idempotencyPending => "idempotency_pending"
  | .unauthorized => "unauthorized"
  | .forbidden => "forbidden"
  | .payloadTooLarge => "payload_too_large"
  | .internalError => "internal_error"

structure Issue where
  path : Text
  message : Text
  deriving DecidableEq

structure Details where
  issues : List Issue
  deriving DecidableEq

structure HttpError where
  status : Nat
  code : ApiErrorCode
  message : Text
  retryable : Bool
  details : Option Details
  deriving DecidableEq

def routeNotFound : HttpError := ⟨404,.notFound,ascii "API route not found",false,none⟩

def invalidEncoding : HttpError :=
  ⟨400,.validationFailed,ascii "URL contains invalid percent encoding",false,none⟩

def requestInvalid (issues : List Issue) : HttpError :=
  ⟨400,.validationFailed,ascii "Request validation failed",false,some ⟨issues⟩⟩

def internalError : HttpError :=
  ⟨500,.internalError,ascii "Internal control-plane error",true,none⟩

inductive Endpoint where
  | health
  | agents
  | controlCenter
  | listTasks (status : Option TaskStatus)
  | createTask
  | getTask (taskId : Text)
  | retryTask (taskId : Text)
  | cancelTask (taskId : Text)
  | attachScreenshot (taskId runId : Text)
  | postMessage (runId : Text)
  | cancelRun (runId : Text)
  | decideReview (reviewId : Text)
  | listReviews (status : Option Text)
  | listRuns (status : Option RunStatus) (agent : Option AgentKind)
  | artifactContent (artifactId : Text)
  | events (params : List (Text × Text))
  deriving DecidableEq

def idHead (c : CodeUnit) : Bool := isLetter c || isDigit c
def idTail (c : CodeUnit) : Bool := idHead c || [46,95,45].contains c.val

def idText (limit : Nat) (s : Text) : Bool :=
  decide (s.length ≤ limit) && match s with
    | [] => false
    | c::rest => idHead c && rest.all idTail

structure Target where
  path : List Text
  query : Text

inductive Checked where
  | taskId (s : Text)
  | entityId (s : Text)
  | option (options : List String)
  | idempotencyKey (s : Text)

structure Platform where
  -- The URL class on a target that is no path.
  url : Text → Option Target
  -- The issues zod has with a text that its schema does not accept.
  issues : Checked → List Issue

section
variable (platform : Platform)

def parseTaskId (s : Text) : Except HttpError Text :=
  if idText 160 (trim s) && trim s ≠ ascii "." && trim s ≠ ascii ".." then .ok (trim s)
  else .error (requestInvalid (platform.issues (.taskId (trim s))))

def parseEntityId (s : Text) : Except HttpError Text :=
  if idText 200 s then .ok s else .error (requestInvalid (platform.issues (.entityId s)))

def parseEnum {α : Type} (options : List α) (text : α → String) (s : Text) : Except HttpError α :=
  match options.find? fun a => ascii (text a) = s with
  | some a => .ok a
  | none => .error (requestInvalid (platform.issues (.option (options.map text))))

def parseTaskStatus : Text → Except HttpError TaskStatus :=
  parseEnum platform [.queued,.running,.needsReview,.blocked,.done] TaskStatus.text

def parseRunStatus : Text → Except HttpError RunStatus :=
  parseEnum platform [.queued,.starting,.running,.succeeded,.failed,.stopped,.stale] RunStatus.text

def parseAgentKind : Text → Except HttpError AgentKind :=
  parseEnum platform [.codex,.claude,.openclaw] AgentKind.text

end

def given (params : List (Text × Text)) (key : String) : Option Text :=
  (searchParam (ascii key) params).bind fun s => if s.isEmpty then none else some s

def optionally {α : Type} (parse : Text → Except HttpError α) :
    Option Text → Except HttpError (Option α)
  | none => .ok none
  | some s => (parse s).map some

def segmentIs (segments : List Text) (n : Nat) (name : String) : Bool :=
  segments[n]? = some (ascii name)

def segmentAt (segments : List Text) (n : Nat) : Text := segments[n]?.getD []

-- The tests of the routes in their order; what no test under an identifier accepts is no
-- route of a later test either.
def dispatch (platform : Platform) (method : Text) (segments : List Text)
    (params : List (Text × Text)) : Except HttpError Endpoint :=
  let get := decide (method = ascii "GET")
  let post := decide (method = ascii "POST")
  let count := segments.length
  if !segmentIs segments 0 "v1" then .error routeNotFound
  else if get && count = 2 && segmentIs segments 1 "health" then .ok .health
  else if get && count = 2 && segmentIs segments 1 "agents" then .ok .agents
  else if get && count = 2 && segmentIs segments 1 "control-center" then .ok .controlCenter
  else if get && count = 2 && segmentIs segments 1 "tasks" then
    (optionally (parseTaskStatus platform) (given params "status")).map .listTasks
  else if post && count = 2 && segmentIs segments 1 "tasks" then .ok .createTask
  else if 3 ≤ count && segmentIs segments 1 "tasks" then do
    let taskId ← parseTaskId platform (segmentAt segments 2)
    if get && count = 3 then .ok (.getTask taskId)
    else if post && count = 4 && segmentIs segments 3 "retry" then .ok (.retryTask taskId)
    else if post && count = 4 && segmentIs segments 3 "cancel" then .ok (.cancelTask taskId)
    else if post && count = 6 && segmentIs segments 3 "runs" && segmentIs segments 5 "screenshots" then
      (parseEntityId platform (segmentAt segments 4)).map (.attachScreenshot taskId)
    else .error routeNotFound
  else if 3 ≤ count && segmentIs segments 1 "runs" then do
    let runId ← parseEntityId platform (segmentAt segments 2)
    if post && count = 4 && segmentIs segments 3 "messages" then .ok (.postMessage runId)
    else if post && count = 4 && segmentIs segments 3 "cancel" then .ok (.cancelRun runId)
    else .error routeNotFound
  else if post && count = 4 && segmentIs segments 1 "reviews" && segmentIs segments 3 "decision" then
    (parseEntityId platform (segmentAt segments 2)).map .decideReview
  else if get && count = 2 && segmentIs segments 1 "reviews" then
    .ok (.listReviews (given params "status"))
  else if get && count = 2 && segmentIs segments 1 "runs" then do
    let status ← optionally (parseRunStatus platform) (given params "status")
    let agent ← optionally (parseAgentKind platform) (given params "agent")
    .ok (.listRuns status agent)
  else if get && count = 4 && segmentIs segments 1 "artifacts" && segmentIs segments 3 "content" then
    (parseEntityId platform (segmentAt segments 2)).map .artifactContent
  else if get && count = 2 && segmentIs segments 1 "events" then .ok (.events params)
  else .error routeNotFound

def readTarget (s : Text) : Target :=
  let whole := s.takeWhile (· ≠ 35)
  ⟨readPath [] ((whole.takeWhile (· ≠ 63)).drop 1),
    percentEncode querySet ((whole.dropWhile (· ≠ 63)).drop 1)⟩

def newUrl (platform : Platform) (s : Text) : Option Target :=
  match s with
  | [] => some ⟨[[]],[]⟩
  | c::rest => if slash c && !rest.head?.any anySlash then some (readTarget s) else platform.url s

def decodeSegment (segment : Text) : Except HttpError Text :=
  match Utf8.decodeComponent .plain segment with
  | some s => .ok s
  | none => .error invalidEncoding

def decodeSegments : List Text → Except HttpError (List Text)
  | [] => .ok []
  | segment::rest => do
      let s ← decodeSegment segment
      let segments ← decodeSegments rest
      .ok (s::segments)

def Target.segments (t : Target) : Except HttpError (List Text) :=
  decodeSegments ((splitOn slash (pathname t.path)).filter fun s => !s.isEmpty)

def routeRequest (platform : Platform) (method url : Text) : Except HttpError Endpoint :=
  match newUrl platform url with
  | none => .error internalError
  | some t => do
      let segments ← t.segments
      dispatch platform method segments (parseForm t.query)

inductive QueryItem where
  | text (s : Text)
  -- A number has a text where it is finite.
  | number (shown : Option Text)
  | boolean (b : Bool)

abbrev TaskListQuery := List (Text × List QueryItem)

def queryItem (key : Text) : QueryItem → Except Text (Text × Text)
  | .text s => .ok (key,s)
  | .number (some s) => .ok (key,s)
  | .number none => .error (ascii "Query parameter " ++ key ++ ascii " must be finite")
  | .boolean b => .ok (key,ascii (if b then "true" else "false"))

def appendQuery : TaskListQuery → Except Text (List (Text × Text))
  | [] => .ok []
  | (key,items)::rest => do
      if trim key = [] then .error (ascii "Query parameter name must be nonempty")
      else
        let own ← items.mapM (queryItem key)
        let pairs ← appendQuery rest
        .ok (own ++ pairs)

inductive ClientCall where
  | health
  | agents
  | listTasks (query : TaskListQuery)
  | getTask (taskId : Text)
  | createTask
  | retryTask (taskId : Text)
  | cancelTask (taskId : Text)
  | postRunMessage (runId : Text)
  | cancelRun (runId : Text)
  | decideReview (reviewId : Text)
  | attachScreenshot (taskId runId : Text)
  | getArtifactContent (artifactId : Text)

def routeSegment (value : Text) (label : String) : Except Text Text :=
  if trim value = [] then .error (ascii (label ++ " must be nonempty"))
  else (encodeURIComponent (trim value)).mapError ascii

def ClientCall.method : ClientCall → Method
  | .health | .agents | .listTasks _ | .getTask _ | .getArtifactContent _ => .get
  | _ => .post

def ClientCall.route : ClientCall → Except Text Text
  | .health => .ok (ascii "v1/health")
  | .agents => .ok (ascii "v1/agents")
  | .listTasks _ => .ok (ascii "v1/tasks")
  | .getTask taskId => (routeSegment taskId "Task ID").map fun id => ascii "v1/tasks/" ++ id
  | .createTask => .ok (ascii "v1/tasks")
  | .retryTask taskId => (routeSegment taskId "Task ID").map fun id =>
      ascii "v1/tasks/" ++ id ++ ascii "/retry"
  | .cancelTask taskId => (routeSegment taskId "Task ID").map fun id =>
      ascii "v1/tasks/" ++ id ++ ascii "/cancel"
  | .postRunMessage runId => (routeSegment runId "Run ID").map fun id =>
      ascii "v1/runs/" ++ id ++ ascii "/messages"
  | .cancelRun runId => (routeSegment runId "Run ID").map fun id =>
      ascii "v1/runs/" ++ id ++ ascii "/cancel"
  | .decideReview reviewId => (routeSegment reviewId "Review ID").map fun id =>
      ascii "v1/reviews/" ++ id ++ ascii "/decision"
  | .attachScreenshot taskId runId => do
      let task ← routeSegment taskId "Task ID"
      let run ← routeSegment runId "Run ID"
      .ok (ascii "v1/tasks/" ++ task ++ ascii "/runs/" ++ run ++ ascii "/screenshots")
  | .getArtifactContent artifactId => (routeSegment artifactId "Artifact ID").map fun id =>
      ascii "v1/artifacts/" ++ id ++ ascii "/content"

def ClientCall.query : ClientCall → TaskListQuery
  | .listTasks query => query
  | _ => []

def ClientCall.target (base : List Text) (call : ClientCall) : Except Text Text := do
  let route ← call.route
  let pairs ← appendQuery call.query
  .ok (pathname (readPath base route) ++
    if pairs.isEmpty then [] else 63::serializeForm pairs)

def methodText : Method → Text
  | .get => ascii "GET"
  | .post => ascii "POST"

theorem upperHexSegment : ∀ n : Fin 16, UrlPaths.segmentUnit (upperHex n.val) = true := by decide

theorem percentByteUnits {b : Nat} (bound : b < 256) :
    (percentByte b).all UrlPaths.segmentUnit = true := by
  have first := upperHexSegment ⟨b / 16,by omega⟩
  have second := upperHexSegment ⟨b % 16,by omega⟩
  simp only [percentByte,List.all_cons,first,second,List.all_nil,Bool.and_true]
  rfl

theorem encodePointBytes (p : Nat) : encodePoint p = (Utf8.pointBytes p).flatMap percentByte := by
  unfold encodePoint Utf8.pointBytes
  split
  · simp
  split
  · simp
  split
  · simp
  · simp

theorem encodePointUnits {p : Nat} (scalar : Utf8.Scalar p) :
    (encodePoint p).all UrlPaths.segmentUnit = true := by
  rw [encodePointBytes,List.all_flatMap]
  exact List.all_eq_true.mpr fun b inside =>
    percentByteUnits (Utf8.pointBytesSmall scalar.bound b inside)

theorem decodeEncodedPoint {p : Nat} (scalar : Utf8.Scalar p) (rest : Text) :
    Utf8.decodeComponent .plain (encodePoint p ++ rest) =
      (Utf8.decodeComponent .plain rest).map (Utf8.pointUnits p ++ ·) := by
  rw [encodePointBytes]
  exact Utf8.decodeTriplets scalar (fun b bound => UrlPaths.percentTriplet bound) rest

theorem unreservedUnit : ∀ n : Fin 128, unreserved (Fin.ofNat 65536 n.val) = true →
    Fin.ofNat 65536 n.val ≠ (37 : CodeUnit) ∧
    UrlPaths.segmentUnit (Fin.ofNat 65536 n.val) = true := by decide +kernel

theorem unreservedSmall {c : CodeUnit} (plain : unreserved c = true) : c.val < 128 := by
  simp only [unreserved,isLetter,isDigit,Bool.or_eq_true,Bool.and_eq_true,decide_eq_true_eq,
    List.contains_eq_mem,List.mem_cons,List.not_mem_nil,or_false] at plain
  omega

theorem unreservedPlain {c : CodeUnit} (plain : unreserved c = true) :
    c ≠ 37 ∧ UrlPaths.segmentUnit c = true := by
  have same : Fin.ofNat 65536 c.val = c := Fin.ext (Nat.mod_eq_of_lt c.isLt)
  have units := unreservedUnit ⟨c.val,unreservedSmall plain⟩
  simp only [same] at units
  exact units plain

theorem mapReturned {α β ε : Type} {f : α → β} {x : Except ε α} {b : β}
    (returned : x.map f = .ok b) : ∃ a, x = .ok a ∧ f a = b := by
  cases x with
  | error => cases returned
  | ok a => exact ⟨a,rfl,Except.ok.inj returned⟩

theorem exceptBind {α β ε : Type} {x : Except ε α} {f : α → Except ε β} {b : β}
    (returned : (x >>= f) = .ok b) : ∃ a, x = .ok a ∧ f a = .ok b := by
  cases x with
  | error => cases returned
  | ok a => exact ⟨a,rfl,returned⟩

theorem encodedReads {s e : Text} (encoded : encodeURIComponent s = .ok e) :
    e.all UrlPaths.segmentUnit = true ∧
    ∀ rest, Utf8.decodeComponent .plain (e ++ rest) =
      (Utf8.decodeComponent .plain rest).map (s ++ ·) := by
  fun_induction encodeURIComponent s generalizing e with
  | case1 =>
    cases encoded
    exact ⟨rfl,fun rest => by simp⟩
  | case2 c rest plain ih =>
    obtain ⟨later,written,rfl⟩ := mapReturned encoded
    obtain ⟨units,reads⟩ := ih written
    obtain ⟨whole,unit⟩ := unreservedPlain plain
    refine ⟨by simp [unit,units],fun others => ?_⟩
    rw [List.cons_append,Utf8.decodePlain whole,reads,Option.map_map]
    rfl
  | case3 => cases encoded
  | case4 => cases encoded
  | case5 c _ lone first d rest second ih =>
    obtain ⟨later,written,rfl⟩ := mapReturned encoded
    obtain ⟨units,reads⟩ := ih written
    have pair : (high c && low d) = true := by simp [first,second]
    have scalar := Utf8.pairScalar pair
    refine ⟨?_,fun others => ?_⟩
    · show (encodePoint (Utf8.pairPoint c d) ++ later).all _ = true
      rw [List.all_append,encodePointUnits scalar,units]
      rfl
    · show Utf8.decodeComponent .plain (encodePoint (Utf8.pairPoint c d) ++ later ++ others) = _
      rw [List.append_assoc,decodeEncodedPoint scalar,reads,Utf8.pairUnits pair,Option.map_map]
      rfl
  | case6 => cases encoded
  | case7 c rest _ first second ih =>
    obtain ⟨later,written,rfl⟩ := mapReturned encoded
    obtain ⟨units,reads⟩ := ih written
    have whole : Utf8.surrogate c.val = false := by
      simp only [low,high,Bool.and_eq_true,decide_eq_true_eq] at first second
      simp only [Utf8.surrogate,Bool.and_eq_false_iff,decide_eq_false_iff_not]
      omega
    have point : Utf8.unitPoint c = c.val := by rw [Utf8.unitPoint,if_neg (by simp [whole])]
    have scalar : Utf8.Scalar c.val := point ▸ Utf8.unitScalar c
    have unit : Utf8.pointUnits c.val = [c] := point ▸ Utf8.unitUnits whole
    refine ⟨by rw [List.all_append,encodePointUnits scalar,units]; rfl,fun others => ?_⟩
    rw [List.append_assoc,decodeEncodedPoint scalar,reads,unit,Option.map_map]
    rfl

structure Encoded (s e : Text) : Prop where
  units : e.all UrlPaths.segmentUnit = true
  decoded : Utf8.decodeComponent .plain e = some s
  dot : s = ascii "." → e = ascii "."
  dots : s = ascii ".." → e = ascii ".."
  empty : s = [] → e = []

theorem lowerLetter {c d : CodeUnit} (lowered : UrlPaths.lowerUnit c = d)
    (small : d.val < 97 ∨ 122 < d.val) : c = d := by
  unfold UrlPaths.lowerUnit at lowered
  split at lowered
  next upper =>
    subst lowered
    simp only [Fin.ofNat] at small
    omega
  next => exact lowered

theorem lowerTriplet {s t : Text}
    (lowered : s.map UrlPaths.lowerUnit = 37::50::101::t) :
    ∃ c rest, s = 37::50::c::rest ∧ (c = 101 ∨ c = 69) ∧ rest.map UrlPaths.lowerUnit = t := by
  obtain ⟨a,others,rfl,first,next⟩ := List.map_eq_cons_iff.mp lowered
  obtain ⟨b,others,rfl,second,next⟩ := List.map_eq_cons_iff.mp next
  obtain ⟨c,rest,rfl,third,same⟩ := List.map_eq_cons_iff.mp next
  refine ⟨c,rest,?_,?_,same⟩
  · rw [lowerLetter first (by decide),lowerLetter second (by decide)]
  · unfold UrlPaths.lowerUnit at third
    split at third
    next upper =>
      have read : (c.val + 32) % 65536 = 101 := congrArg Fin.val third
      refine .inr (Fin.ext ?_)
      have bound := c.isLt
      show c.val = 69
      omega
    next => exact .inl third

theorem decodedTriplet {c : CodeUnit} (letter : c = 101 ∨ c = 69) (rest : Text) :
    Utf8.decodeComponent .plain (37::50::c::rest) =
      (Utf8.decodeComponent .plain rest).map (46 :: ·) := by
  rcases letter with rfl | rfl <;> rfl

theorem lowerDot {s t : Text} (lowered : s.map UrlPaths.lowerUnit = 46::t) :
    ∃ rest, s = 46::rest ∧ rest.map UrlPaths.lowerUnit = t := by
  obtain ⟨a,rest,rfl,first,same⟩ := List.map_eq_cons_iff.mp lowered
  exact ⟨rest,by rw [lowerLetter first (by decide)],same⟩

theorem decodedDot (rest : Text) : Utf8.decodeComponent .plain (46::rest) =
    (Utf8.decodeComponent .plain rest).map (46 :: ·) := Utf8.decodePlain (by decide) rest

theorem singleDotRead {e : Text} (single : UrlPaths.singleDot e = true) :
    Utf8.decodeComponent .plain e = some (ascii ".") := by
  simp only [UrlPaths.singleDot,List.contains_eq_mem,List.mem_cons,List.not_mem_nil,or_false,
    decide_eq_true_eq] at single
  rcases single with lowered | lowered
  · obtain ⟨rest,rfl,ends⟩ := lowerDot lowered
    rw [List.map_eq_nil_iff.mp ends]
    rfl
  · obtain ⟨c,rest,rfl,letter,ends⟩ := lowerTriplet lowered
    rw [decodedTriplet letter,List.map_eq_nil_iff.mp ends]
    rfl

theorem doubleDotRead {e : Text} (double : UrlPaths.doubleDot e = true) :
    Utf8.decodeComponent .plain e = some (ascii "..") := by
  simp only [UrlPaths.doubleDot,List.contains_eq_mem,List.mem_cons,List.not_mem_nil,or_false,
    decide_eq_true_eq] at double
  rcases double with lowered | lowered | lowered | lowered
  · obtain ⟨rest,rfl,next⟩ := lowerDot lowered
    obtain ⟨others,rfl,ends⟩ := lowerDot next
    rw [List.map_eq_nil_iff.mp ends]
    rfl
  · obtain ⟨rest,rfl,next⟩ := lowerDot lowered
    obtain ⟨c,others,rfl,letter,ends⟩ := lowerTriplet next
    rw [decodedDot,decodedTriplet letter,List.map_eq_nil_iff.mp ends]
    rfl
  · obtain ⟨c,rest,rfl,letter,next⟩ := lowerTriplet lowered
    obtain ⟨others,rfl,ends⟩ := lowerDot next
    rw [decodedTriplet letter,decodedDot,List.map_eq_nil_iff.mp ends]
    rfl
  · obtain ⟨c,rest,rfl,letter,next⟩ := lowerTriplet lowered
    obtain ⟨d,others,rfl,letter',ends⟩ := lowerTriplet next
    rw [decodedTriplet letter,decodedTriplet letter',List.map_eq_nil_iff.mp ends]
    rfl

theorem encodedSegment {s e : Text} (encoded : encodeURIComponent s = .ok e) : Encoded s e := by
  obtain ⟨units,reads⟩ := encodedReads encoded
  have read := reads []
  simp only [List.append_nil,Utf8.decodeComponent,Option.map_some] at read
  refine ⟨units,read,?_,?_,?_⟩
  · rintro rfl
    exact (Except.ok.inj encoded).symm
  · rintro rfl
    exact (Except.ok.inj encoded).symm
  · rintro rfl
    exact (Except.ok.inj encoded).symm

section
variable {s e : Text} (encoded : Encoded s e)
include encoded

theorem Encoded.single : UrlPaths.singleDot e = decide (s = ascii ".") := by
  cases single : UrlPaths.singleDot e with
  | true =>
    have read := encoded.decoded.symm.trans (singleDotRead single)
    exact (decide_eq_true (Option.some.inj read)).symm
  | false =>
    refine (decide_eq_false fun same => ?_).symm
    rw [encoded.dot same] at single
    exact absurd single (by decide)

theorem Encoded.double : UrlPaths.doubleDot e = decide (s = ascii "..") := by
  cases double : UrlPaths.doubleDot e with
  | true =>
    have read := encoded.decoded.symm.trans (doubleDotRead double)
    exact (decide_eq_true (Option.some.inj read)).symm
  | false =>
    refine (decide_eq_false fun same => ?_).symm
    rw [encoded.dots same] at double
    exact absurd double (by decide)

theorem Encoded.blank : e.isEmpty = s.isEmpty := by
  cases s with
  | nil =>
    rw [encoded.empty rfl]
  | cons c rest =>
    cases e with
    | nil => cases encoded.decoded
    | cons => rfl

end

def put (final : Bool) (path : List Text) (name : Text) : List Text :=
  if name = ascii ".." then if final then path.dropLast ++ [[]] else path.dropLast
  else if name = ascii "." then if final then path ++ [[]] else path
  else path ++ [name]

def climb : List Text → List Text → List Text
  | path,[] => path
  | path,[name] => put true path name
  | path,name::rest => climb (put false path name) rest

theorem encodedEmpty : Encoded [] [] :=
  ⟨rfl,rfl,fun same => same,fun same => same,fun same => same⟩

theorem forallDropLast {α β : Type} {R : α → β → Prop} {l : List α} {m : List β}
    (all : List.Forall₂ R l m) : List.Forall₂ R l.dropLast m.dropLast := by
  rw [List.dropLast_eq_take,List.dropLast_eq_take,all.length_eq]
  exact List.forall₂_take _ all

theorem placeEncoded {final : Bool} {names path : List Text} {s e : Text}
    (all : List.Forall₂ Encoded names path) (encoded : Encoded s e) :
    List.Forall₂ Encoded (put final names s) (UrlPaths.place final path e) := by
  have longer {s e : Text} {names path : List Text} (all : List.Forall₂ Encoded names path)
      (encoded : Encoded s e) : List.Forall₂ Encoded (names ++ [s]) (path ++ [e]) :=
    List.rel_append all (.cons encoded .nil)
  unfold put UrlPaths.place
  rw [encoded.double,encoded.single]
  simp only [decide_eq_true_eq]
  split
  · split
    · exact longer (forallDropLast all) encodedEmpty
    · exact forallDropLast all
  split
  · split
    · exact longer all encodedEmpty
    · exact all
  · exact longer all encoded

theorem resolveEncoded {names path segments others : List Text}
    (all : List.Forall₂ Encoded names path) (rest : List.Forall₂ Encoded others segments) :
    List.Forall₂ Encoded (climb names others) (UrlPaths.resolve path segments) := by
  induction rest generalizing names path with
  | nil => exact all
  | @cons s e others segments encoded later ih =>
    cases later with
    | nil => exact placeEncoded all encoded
    | cons next later => exact ih (placeEncoded all encoded)

theorem decodeNames {names path : List Text} (all : List.Forall₂ Encoded names path) :
    decodeSegments (path.filter fun s => !s.isEmpty) = .ok (names.filter fun s => !s.isEmpty) := by
  induction all with
  | nil => rfl
  | @cons s e names path encoded rest ih =>
    rw [List.filter_cons,List.filter_cons,encoded.blank]
    split
    · rw [decodeSegments,decodeSegment,encoded.decoded,ih]
      rfl
    · exact ih

theorem encodedUnits {names path : List Text} (all : List.Forall₂ Encoded names path) :
    ∀ e ∈ path, e.all UrlPaths.segmentUnit = true := by
  induction all with
  | nil => exact fun e inside => absurd inside (List.not_mem_nil)
  | cons encoded rest ih =>
    intro e inside
    rcases List.mem_cons.mp inside with same | inside
    · exact same ▸ encoded.units
    · exact ih e inside

def notDot (s : Text) : Prop := s ≠ ascii "." ∧ s ≠ ascii ".."

theorem encodedPlain {names path : List Text} (all : List.Forall₂ Encoded names path)
    (plain : ∀ s ∈ names, notDot s) :
    ∀ e ∈ path, UrlPaths.singleDot e = false ∧ UrlPaths.doubleDot e = false := by
  induction all with
  | nil => exact fun e inside => absurd inside (List.not_mem_nil)
  | cons encoded rest ih =>
    intro e inside
    obtain ⟨dot,dots⟩ := plain _ List.mem_cons_self
    rcases List.mem_cons.mp inside with same | inside
    · rw [same,encoded.single,encoded.double]
      exact ⟨decide_eq_false dot,decide_eq_false dots⟩
    · exact ih (fun s there => plain s (List.mem_cons_of_mem _ there)) e inside

theorem targetSegments {t : Target} {names : List Text} (all : List.Forall₂ Encoded names t.path) :
    t.segments = .ok (names.filter fun s => !s.isEmpty) := by
  rw [Target.segments,UrlPaths.splitPathname _ (encodedUnits all),List.filter_cons]
  exact decodeNames all

theorem putPlain {final : Bool} {path : List Text} {name : Text} (plain : ∀ s ∈ path, notDot s) :
    ∀ s ∈ put final path name, notDot s := by
  have nil : notDot [] := ⟨by decide,by decide⟩
  have longer {name : Text} (own : notDot name) {path : List Text} (plain : ∀ s ∈ path, notDot s) :
      ∀ s ∈ path ++ [name], notDot s := by
    intro s inside
    rcases List.mem_append.mp inside with inside | inside
    · exact plain s inside
    · exact List.mem_singleton.mp inside ▸ own
  have shorter : ∀ s ∈ path.dropLast, notDot s := fun s inside =>
    plain s (List.mem_of_mem_dropLast inside)
  unfold put
  split
  · split
    · exact longer nil shorter
    · exact shorter
  split
  · split
    · exact longer nil plain
    · exact plain
  next dots dot => exact longer ⟨dot,dots⟩ plain

theorem climbPlain {path names : List Text} (plain : ∀ s ∈ path, notDot s) :
    ∀ s ∈ climb path names, notDot s := by
  fun_induction climb path names with
  | case1 => exact plain
  | case2 => exact putPlain plain
  | case3 path name rest _ ih => exact ih (putPlain plain)

def queryText (pairs : List (Text × Text)) : Text :=
  if pairs.isEmpty then [] else 63::serializeForm pairs

def replaced (pair : Text × Text) : Text × Text :=
  (Utf8.decode (Utf8.encode pair.1),Utf8.decode (Utf8.encode pair.2))

theorem parseQuery (pairs : List (Text × Text)) :
    parseForm (serializeForm pairs) = pairs.map replaced := UrlPaths.parseSerialized pairs

theorem pathnameUnits {path : List Text} (units : ∀ e ∈ path, e.all UrlPaths.segmentUnit = true) :
    ∀ c ∈ pathname path, c ≠ 35 ∧ c ≠ 63 := by
  intro c inside
  obtain ⟨e,there,mine⟩ := List.mem_flatMap.mp inside
  rcases List.mem_cons.mp mine with rfl | mine
  · decide
  · have unit := List.all_eq_true.mp (units e there) c mine
    refine ⟨fun same => ?_,fun same => ?_⟩
    · rw [same] at unit
      exact absurd unit (by decide)
    · rw [same] at unit
      exact absurd unit (by decide)

theorem targetRead {names path : List Text} (all : List.Forall₂ Encoded names path)
    (plain : ∀ s ∈ names, notDot s) (first : names.head? = some (ascii "v1"))
    (pairs : List (Text × Text)) (platform : Platform) :
    ∃ t, newUrl platform (pathname path ++ queryText pairs) = some t ∧ t.path = path ∧
      parseForm t.query = pairs.map replaced := by
  have units := encodedUnits all
  obtain ⟨part,parts,rfl⟩ : ∃ part parts, path = part::parts := by
    cases all with
    | nil => cases first
    | cons => exact ⟨_,_,rfl⟩
  obtain ⟨c,rest,rfl⟩ : ∃ c rest, part = c::rest := by
    cases part with
    | cons c rest => exact ⟨c,rest,rfl⟩
    | nil =>
      cases all with
      | cons encoded =>
        cases Option.some.inj first
        cases encoded.decoded
  have own := pathnameUnits units
  have before : ∀ d ∈ pathname ((c::rest)::parts), decide (d ≠ 63) = true := fun d inside =>
    decide_eq_true (own d inside).2
  -- Nothing of it begins a fragment.
  have whole : (pathname ((c::rest)::parts) ++ queryText pairs).takeWhile (· ≠ 35) =
      pathname ((c::rest)::parts) ++ queryText pairs := by
    refine List.takeWhile_eq_self_iff.mpr fun d inside => decide_eq_true fun same => ?_
    rcases List.mem_append.mp inside with inside | inside
    · exact (own d inside).1 same
    · unfold queryText at inside
      split at inside
      · cases inside
      · rcases List.mem_cons.mp inside with mark | inside
        · exact absurd (mark.symm.trans same) (by decide)
        · have outside := (UrlPaths.serializedUnits pairs d inside).2
          rw [same] at outside
          exact absurd outside (by decide)
  have route : readPath [] ((pathname ((c::rest)::parts)).drop 1) = (c::rest)::parts := by
    rw [UrlPaths.pathnameJoin,List.drop_one,List.tail_cons,UrlPaths.readJoined _ _ _ units,
      UrlPaths.resolvePlain _ _ (encodedPlain all plain),List.nil_append]
  have single : (slash 47 && !(c::(rest ++ pathname parts ++ queryText pairs)).head?.any anySlash) =
      true := by
    have unit := List.all_eq_true.mp (units (c::rest) List.mem_cons_self) c List.mem_cons_self
    simp [slash,(UrlPaths.segmentSmall unit).2.2.1]
  refine ⟨readTarget (pathname ((c::rest)::parts) ++ queryText pairs),if_pos single,?_,?_⟩
  · rw [readTarget,whole]
    dsimp only
    rw [List.takeWhile_append_of_pos before]
    unfold queryText
    split
    · simpa using route
    · simpa using route
  · rw [readTarget,whole]
    dsimp only
    rw [List.dropWhile_append_of_pos before]
    unfold queryText
    split
    next none =>
      cases pairs with
      | nil => rfl
      | cons => cases none
    next =>
      rw [List.dropWhile_cons_of_neg (by decide),List.drop_one,List.tail_cons,
        UrlPaths.percentEncodePlain (fun d inside => (UrlPaths.serializedUnits pairs d inside).1)
          fun d inside => (UrlPaths.serializedUnits pairs d inside).2,parseQuery]

theorem routeRead {names segments : List Text} (all : List.Forall₂ Encoded names segments)
    (first : (climb [] names).head? = some (ascii "v1")) {route : Text}
    (written : route = UrlPaths.join 47 segments) (pairs : List (Text × Text))
    (platform : Platform) (method : Text) :
    routeRequest platform method (pathname (readPath [] route) ++ queryText pairs) =
      dispatch platform method ((climb [] names).filter fun s => !s.isEmpty) (pairs.map replaced) := by
  have path : List.Forall₂ Encoded (climb [] names) (readPath [] route) := by
    rw [written]
    cases all with
    | nil => cases first
    | cons encoded rest =>
      rw [UrlPaths.readJoined _ _ _ (encodedUnits (.cons encoded rest))]
      exact resolveEncoded .nil (.cons encoded rest)
  obtain ⟨t,read,same,query⟩ := targetRead path
    (climbPlain fun s inside => absurd inside List.not_mem_nil) first pairs platform
  rw [routeRequest,read]
  dsimp only
  rw [targetSegments (same ▸ path),query]
  rfl

theorem trimTwice (s : Text) : trim (trim s) = trim s := by
  unfold trim
  cases left : s.dropWhile VerificationCommand.isSpace with
  | nil => rfl
  | cons c rest =>
    have head : VerificationCommand.isSpace c = false := by
      have found := List.head?_dropWhile_not VerificationCommand.isSpace s
      rw [left] at found
      simpa using found
    have kept : ((c::rest).rdropWhile VerificationCommand.isSpace).dropWhile
        VerificationCommand.isSpace = (c::rest).rdropWhile VerificationCommand.isSpace := by
      cases held : (c::rest).rdropWhile VerificationCommand.isSpace with
      | nil => rfl
      | cons d others =>
        obtain ⟨cut,same⟩ := List.rdropWhile_prefix VerificationCommand.isSpace (l := c::rest)
        rw [held,List.cons_append] at same
        rw [(List.cons.inj same).1,List.dropWhile_cons_of_neg (by simp [head])]
    rw [kept,List.rdropWhile_idempotent]

def ClientCall.ids : ClientCall → List Text
  | .health | .agents | .listTasks _ | .createTask => []
  | .getTask id | .retryTask id | .cancelTask id | .postRunMessage id | .cancelRun id
  | .decideReview id | .getArtifactContent id => [id]
  | .attachScreenshot taskId runId => [taskId,runId]

def dotted (id : Text) : Bool := trim id = ascii "." || trim id = ascii ".."

def ClientCall.meant (platform : Platform) : ClientCall → Except HttpError Endpoint
  | .health => .ok .health
  | .agents => .ok .agents
  | .listTasks query =>
      (optionally (parseTaskStatus platform)
        (given ((appendQuery query).toOption.getD []) "status")).map .listTasks
  | .getTask id => (parseTaskId platform id).map .getTask
  | .createTask => .ok .createTask
  | .retryTask id => (parseTaskId platform id).map .retryTask
  | .cancelTask id => (parseTaskId platform id).map .cancelTask
  | .postRunMessage id => (parseEntityId platform (trim id)).map .postMessage
  | .cancelRun id => (parseEntityId platform (trim id)).map .cancelRun
  | .decideReview id => (parseEntityId platform (trim id)).map .decideReview
  | .attachScreenshot taskId runId => do
      let taskId ← parseTaskId platform taskId
      (parseEntityId platform (trim runId)).map (.attachScreenshot taskId)
  | .getArtifactContent id => (parseEntityId platform (trim id)).map .artifactContent

def ClientCall.names : ClientCall → List Text
  | .health => [ascii "v1",ascii "health"]
  | .agents => [ascii "v1",ascii "agents"]
  | .listTasks _ | .createTask => [ascii "v1",ascii "tasks"]
  | .getTask id => [ascii "v1",ascii "tasks",trim id]
  | .retryTask id => [ascii "v1",ascii "tasks",trim id,ascii "retry"]
  | .cancelTask id => [ascii "v1",ascii "tasks",trim id,ascii "cancel"]
  | .postRunMessage id => [ascii "v1",ascii "runs",trim id,ascii "messages"]
  | .cancelRun id => [ascii "v1",ascii "runs",trim id,ascii "cancel"]
  | .decideReview id => [ascii "v1",ascii "reviews",trim id,ascii "decision"]
  | .attachScreenshot taskId runId =>
      [ascii "v1",ascii "tasks",trim taskId,ascii "runs",trim runId,ascii "screenshots"]
  | .getArtifactContent id => [ascii "v1",ascii "artifacts",trim id,ascii "content"]

theorem segmentWritten {value e : Text} {label : String}
    (written : routeSegment value label = .ok e) : Encoded (trim value) e ∧ trim value ≠ [] := by
  unfold routeSegment at written
  split at written
  · cases written
  next present =>
    cases encoded : encodeURIComponent (trim value) with
    | error error =>
      rw [encoded] at written
      cases written
    | ok done =>
      rw [encoded] at written
      cases Except.ok.inj written
      exact ⟨encodedSegment encoded,present⟩

theorem plainEncoded {s : Text} (plain : (s.all UrlPaths.segmentUnit &&
    decide (Utf8.decodeComponent .plain s = some s)) = true) : Encoded s s := by
  simp only [Bool.and_eq_true,decide_eq_true_eq] at plain
  exact ⟨plain.1,plain.2,id,id,id⟩

theorem identified (before after : List Text) {front back value route : Text} {label : String}
    (written : (routeSegment value label).map (fun id => front ++ id ++ back) =
      .ok route)
    (words : List.Forall₂ Encoded before before) (tail : List.Forall₂ Encoded after after)
    (joined : ∀ id, front ++ id ++ back = UrlPaths.join 47 (before ++ id::after)) :
    (∃ segments, List.Forall₂ Encoded (before ++ trim value::after) segments ∧
      route = UrlPaths.join 47 segments) ∧ trim value ≠ [] := by
  obtain ⟨e,segment,rfl⟩ := mapReturned written
  obtain ⟨encoded,present⟩ := segmentWritten segment
  exact ⟨⟨_,List.rel_append words (.cons encoded tail),joined e⟩,present⟩

theorem encodedPair {s t : Text} (first : Encoded s s) (second : Encoded t t) :
    List.Forall₂ Encoded [s,t] [s,t] := .cons first (.cons second .nil)

theorem routeSegments {call : ClientCall} {route : Text} (written : call.route = .ok route) :
    (∃ segments, List.Forall₂ Encoded call.names segments ∧ route = UrlPaths.join 47 segments) ∧
      ∀ id ∈ call.ids, trim id ≠ [] := by
  have alone {id : Text} (present : trim id ≠ []) : ∀ i ∈ [id], trim i ≠ [] := fun i inside =>
    List.mem_singleton.mp inside ▸ present
  cases call with
  | health =>
    cases Except.ok.inj written
    exact ⟨⟨_,encodedPair (plainEncoded rfl) (plainEncoded rfl),rfl⟩,fun i inside => absurd inside List.not_mem_nil⟩
  | agents =>
    cases Except.ok.inj written
    exact ⟨⟨_,encodedPair (plainEncoded rfl) (plainEncoded rfl),rfl⟩,fun i inside => absurd inside List.not_mem_nil⟩
  | listTasks query =>
    cases Except.ok.inj written
    exact ⟨⟨_,encodedPair (plainEncoded rfl) (plainEncoded rfl),rfl⟩,fun i inside => absurd inside List.not_mem_nil⟩
  | createTask =>
    cases Except.ok.inj written
    exact ⟨⟨_,encodedPair (plainEncoded rfl) (plainEncoded rfl),rfl⟩,fun i inside => absurd inside List.not_mem_nil⟩
  | getTask id =>
    obtain ⟨e,segment,rfl⟩ := mapReturned written
    obtain ⟨encoded,present⟩ := segmentWritten segment
    exact ⟨⟨_,.cons (plainEncoded rfl) (.cons (plainEncoded rfl) (.cons encoded .nil)),rfl⟩,alone present⟩
  | retryTask id =>
    obtain ⟨segments,present⟩ := identified [ascii "v1",ascii "tasks"] [ascii "retry"] written
      (encodedPair (plainEncoded rfl) (plainEncoded rfl)) (.cons (plainEncoded rfl) .nil) fun id => rfl
    exact ⟨segments,alone present⟩
  | cancelTask id =>
    obtain ⟨segments,present⟩ := identified [ascii "v1",ascii "tasks"] [ascii "cancel"] written
      (encodedPair (plainEncoded rfl) (plainEncoded rfl)) (.cons (plainEncoded rfl) .nil) fun id => rfl
    exact ⟨segments,alone present⟩
  | postRunMessage id =>
    obtain ⟨segments,present⟩ := identified [ascii "v1",ascii "runs"] [ascii "messages"] written
      (encodedPair (plainEncoded rfl) (plainEncoded rfl)) (.cons (plainEncoded rfl) .nil) fun id => rfl
    exact ⟨segments,alone present⟩
  | cancelRun id =>
    obtain ⟨segments,present⟩ := identified [ascii "v1",ascii "runs"] [ascii "cancel"] written
      (encodedPair (plainEncoded rfl) (plainEncoded rfl)) (.cons (plainEncoded rfl) .nil) fun id => rfl
    exact ⟨segments,alone present⟩
  | decideReview id =>
    obtain ⟨segments,present⟩ := identified [ascii "v1",ascii "reviews"] [ascii "decision"] written
      (encodedPair (plainEncoded rfl) (plainEncoded rfl)) (.cons (plainEncoded rfl) .nil) fun id => rfl
    exact ⟨segments,alone present⟩
  | attachScreenshot taskId runId =>
    obtain ⟨task,first,written⟩ := exceptBind written
    obtain ⟨run,second,written⟩ := exceptBind written
    cases Except.ok.inj written
    obtain ⟨encoded,present⟩ := segmentWritten first
    obtain ⟨encoded',present'⟩ := segmentWritten second
    refine ⟨⟨_,.cons (plainEncoded rfl) (.cons (plainEncoded rfl) (.cons encoded (.cons (plainEncoded rfl)
      (.cons encoded' (.cons (plainEncoded rfl) .nil))))),?_⟩,fun i inside => ?_⟩
    · simp only [UrlPaths.join,List.append_assoc]
      rfl
    · simp only [ClientCall.ids,List.mem_cons,List.not_mem_nil,or_false] at inside
      rcases inside with rfl | rfl
      · exact present
      · exact present'
  | getArtifactContent id =>
    obtain ⟨segments,present⟩ := identified [ascii "v1",ascii "artifacts"] [ascii "content"] written
      (encodedPair (plainEncoded rfl) (plainEncoded rfl)) (.cons (plainEncoded rfl) .nil) fun id => rfl
    exact ⟨segments,alone present⟩

theorem climbNames {path names : List Text} (plain : ∀ s ∈ names, notDot s) :
    climb path names = path ++ names := by
  have own {final : Bool} {path : List Text} {s : Text} (plain : notDot s) :
      put final path s = path ++ [s] := by
    rw [put,if_neg plain.2,if_neg plain.1]
  fun_induction climb path names with
  | case1 => rw [List.append_nil]
  | case2 path name => exact own (plain name List.mem_cons_self)
  | case3 path name rest _ ih =>
    rw [ih fun s inside => plain s (List.mem_cons_of_mem _ inside),
      own (plain name List.mem_cons_self),List.append_assoc,List.singleton_append]

theorem parseTaskTrimmed (platform : Platform) (id : Text) :
    parseTaskId platform (trim id) = parseTaskId platform id := by
  unfold parseTaskId
  rw [trimTwice]

inductive Misread (call : ClientCall) : Except HttpError Endpoint → Prop
  | refused (error : HttpError) (known : error = routeNotFound ∨ ∃ issues,
      error = requestInvalid issues) : Misread call (.error error)
  | listed (id : Text) (own : call = .getTask id) (dot : trim id = ascii ".") :
      Misread call (.ok (.listTasks none))

theorem readAs {call : ClientCall} {target : Text} (sent : call.target [] = .ok target)
    (first : (climb [] call.names).head? = some (ascii "v1")) (platform : Platform) :
    ∃ pairs, appendQuery call.query = .ok pairs ∧ (∀ id ∈ call.ids, trim id ≠ []) ∧
      routeRequest platform (methodText call.method) target =
        dispatch platform (methodText call.method)
          ((climb [] call.names).filter fun s => !s.isEmpty) (pairs.map replaced) := by
  obtain ⟨route,written,sent⟩ := exceptBind sent
  obtain ⟨pairs,appended,sent⟩ := exceptBind sent
  cases Except.ok.inj sent
  obtain ⟨⟨segments,all,joined⟩,present⟩ := routeSegments written
  exact ⟨pairs,appended,present,routeRead all first joined pairs platform _⟩

theorem plainId {id : Text} (whole : dotted id = false) : notDot (trim id) := by
  simp only [dotted,Bool.or_eq_false_iff,decide_eq_false_iff_not] at whole
  exact whole

theorem dottedId {id : Text} (dots : dotted id = true) :
    trim id = ascii "." ∨ trim id = ascii ".." := by
  simpa only [dotted,Bool.or_eq_true,decide_eq_true_eq] using dots

theorem presentKept {s : Text} (present : s ≠ []) : (!s.isEmpty) = true := by
  simp [List.isEmpty_eq_false_iff.mpr present]

def words : List Text := ["v1","health","agents","tasks","runs","reviews","artifacts","retry",
  "cancel","messages","decision","screenshots","content"].map ascii

theorem wordsPlain : ∀ s ∈ words, notDot s ∧ s ≠ [] := by
  unfold notDot
  decide

theorem namesFrom (call : ClientCall) :
    ∀ s ∈ call.names, s ∈ words ∨ ∃ id ∈ call.ids, s = trim id := by
  cases call <;> simp [ClientCall.names,ClientCall.ids,words]

theorem namesPlain {call : ClientCall} (plain : ∀ id ∈ call.ids, notDot (trim id)) :
    ∀ s ∈ call.names, notDot s := by
  intro s inside
  rcases namesFrom call s inside with own | ⟨id,listed,rfl⟩
  · exact (wordsPlain s own).1
  · exact plain id listed

theorem filled {names : List Text} (present : ∀ s ∈ names, s ≠ []) :
    names.filter (fun s => !s.isEmpty) = names :=
  List.filter_eq_self.mpr fun s inside => presentKept (present s inside)

theorem namesPresent {call : ClientCall} (present : ∀ id ∈ call.ids, trim id ≠ []) :
    call.names.filter (fun s => !s.isEmpty) = call.names := by
  refine filled fun s inside => ?_
  rcases namesFrom call s inside with own | ⟨id,listed,rfl⟩
  · exact (wordsPlain s own).2
  · exact present id listed

theorem asciiSmall (name : String) (plain : name.toList.all fun c => c.toNat < 0x80) :
    ∀ c ∈ ascii name, c.val < 0x80 := by
  intro c inside
  obtain ⟨d,there,rfl⟩ := List.mem_map.mp inside
  have small : d.toNat < 0x80 := of_decide_eq_true (List.all_eq_true.mp plain d there)
  exact Nat.lt_of_le_of_lt (Nat.mod_le _ _) small

theorem givenReplaced (pairs : List (Text × Text)) {key : String}
    (plain : key.toList.all fun c => c.toNat < 0x80) : given (pairs.map replaced) key =
      (given pairs key).map fun s => Utf8.decode (Utf8.encode s) := by
  have found : searchParam (ascii key) (pairs.map replaced) =
      (searchParam (ascii key) pairs).map fun s => Utf8.decode (Utf8.encode s) := by
    induction pairs with
    | nil => rfl
    | cons pair rest ih =>
      have same : ((replaced pair).1 = ascii key) = (pair.1 = ascii key) :=
        propext (UrlPaths.decodedAscii (asciiSmall key plain))
      unfold searchParam at ih ⊢
      rw [List.map_cons,List.find?_cons,List.find?_cons]
      simp only [same]
      split
      · rfl
      · exact ih
  have blank (s : Text) : (Utf8.decode (Utf8.encode s)).isEmpty = s.isEmpty := by
    rw [Bool.eq_iff_iff,List.isEmpty_iff,List.isEmpty_iff]
    exact UrlPaths.decodedAscii fun c inside => absurd inside List.not_mem_nil
  unfold given
  rw [found]
  cases searchParam (ascii key) pairs with
  | none => rfl
  | some s =>
    simp only [Option.map_some,Option.bind_some,blank]
    split <;> rfl

theorem parseReplaced (platform : Platform) {α : Type} {options : List α} {text : α → String}
    (plain : options.all fun a => (text a).toList.all fun c => c.toNat < 0x80) (s : Text) :
    parseEnum platform options text (Utf8.decode (Utf8.encode s)) =
      parseEnum platform options text s := by
  have same : options.find? (fun a => ascii (text a) = Utf8.decode (Utf8.encode s)) =
      options.find? (fun a => ascii (text a) = s) := by
    refine List.find?_congr fun a listed => ?_
    have own := UrlPaths.decodedAscii (s := s)
      (asciiSmall (text a) (List.all_eq_true.mp plain a listed))
    rw [decide_eq_decide]
    exact ⟨fun h => (own.mp h.symm).symm,fun h => (own.mpr h.symm).symm⟩
  unfold parseEnum
  rw [same]

theorem wholeRead (platform : Platform) {call : ClientCall} {pairs : List (Text × Text)}
    (appended : appendQuery call.query = .ok pairs) :
    dispatch platform (methodText call.method) call.names (pairs.map replaced) =
      call.meant platform := by
  cases call with
  | health => rfl
  | agents => rfl
  | createTask => rfl
  | listTasks query =>
    have meant : (ClientCall.listTasks query).meant platform =
        (optionally (parseTaskStatus platform) (given pairs "status")).map .listTasks := by
      have appended : appendQuery query = .ok pairs := appended
      rw [ClientCall.meant,appended]
      rfl
    show (optionally (parseTaskStatus platform) (given (pairs.map replaced) "status")).map
      Endpoint.listTasks = _
    rw [meant,givenReplaced pairs (by decide)]
    cases given pairs "status" with
    | none => rfl
    | some s =>
      have same : parseTaskStatus platform (Utf8.decode (Utf8.encode s)) =
          parseTaskStatus platform s := parseReplaced platform (by decide) s
      rw [Option.map_some,optionally,optionally,same]
  | getTask id =>
    show (parseTaskId platform (trim id) >>= fun taskId => .ok (Endpoint.getTask taskId)) = _
    rw [parseTaskTrimmed]
    rfl
  | retryTask id =>
    show (parseTaskId platform (trim id) >>= fun taskId => .ok (Endpoint.retryTask taskId)) = _
    rw [parseTaskTrimmed]
    rfl
  | cancelTask id =>
    show (parseTaskId platform (trim id) >>= fun taskId => .ok (Endpoint.cancelTask taskId)) = _
    rw [parseTaskTrimmed]
    rfl
  | attachScreenshot taskId runId =>
    show (parseTaskId platform (trim taskId) >>= fun taskId =>
      (parseEntityId platform (trim runId)).map (Endpoint.attachScreenshot taskId)) = _
    rw [parseTaskTrimmed]
    rfl
  | postRunMessage id => rfl
  | cancelRun id => rfl
  | decideReview id => rfl
  | getArtifactContent id => rfl

section
variable {platform : Platform} {call : ClientCall} {outcome : Except HttpError Endpoint}

theorem Misread.none (same : outcome = .error routeNotFound) : Misread call outcome :=
  same ▸ .refused _ (.inl rfl)

theorem Misread.after {α : Type} {checked : Except HttpError α}
    (known : ∀ error, checked = .error error → ∃ issues, error = requestInvalid issues)
    (same : outcome = (checked >>= fun _ => .error routeNotFound)) : Misread call outcome := by
  subst same
  cases held : checked with
  | error error => exact .refused error (.inr (known error held))
  | ok _ => exact .refused _ (.inl rfl)

theorem taskIdRefused {s : Text} {error : HttpError}
    (failed : parseTaskId platform s = .error error) : ∃ issues, error = requestInvalid issues := by
  unfold parseTaskId at failed
  split at failed
  · cases failed
  · exact ⟨_,(Except.error.inj failed).symm⟩

theorem entityIdRefused {s : Text} {error : HttpError}
    (failed : parseEntityId platform s = .error error) : ∃ issues, error = requestInvalid issues := by
  unfold parseEntityId at failed
  split at failed
  · cases failed
  · exact ⟨_,(Except.error.inj failed).symm⟩

end

def strayed (call : ClientCall) : List Text :=
  (climb [] call.names).filter fun s => !s.isEmpty

theorem putFirst (kind : Text) (name : Text) : ∃ others,
    put false [ascii "v1",kind] name = ascii "v1"::others := by
  unfold put
  split
  · exact ⟨[],rfl⟩
  split
  · exact ⟨[kind],rfl⟩
  · exact ⟨[kind,name],rfl⟩

theorem putWord {final : Bool} (path : List Text) {s : Text} (own : s ∈ words) :
    put final path s = path ++ [s] := by
  have plain := (wordsPlain s own).1
  rw [put,if_neg plain.2,if_neg plain.1]

theorem runsWord : ascii "runs" ∈ words := by simp [words]

theorem screenshotsWord : ascii "screenshots" ∈ words := by simp [words]

theorem strayedFirst (call : ClientCall) :
    (climb [] call.names).head? = some (ascii "v1") := by
  cases call with
  | health | agents | listTasks | createTask => rfl
  | getTask id =>
    show (put true [ascii "v1",ascii "tasks"] (trim id)).head? = _
    unfold put
    split
    · rfl
    split <;> rfl
  | attachScreenshot taskId runId =>
    obtain ⟨others,same⟩ := putFirst (ascii "tasks") (trim taskId)
    show (put true (put false (put false (put false [ascii "v1",ascii "tasks"] (trim taskId))
      (ascii "runs")) (trim runId)) (ascii "screenshots")).head? = _
    rw [same,putWord _ runsWord,putWord _ screenshotsWord]
    unfold put
    split
    · rw [if_neg (by simp),List.dropLast_concat]
      rfl
    split <;> rfl
  | retryTask id =>
    obtain ⟨others,same⟩ := putFirst (ascii "tasks") (trim id)
    show (put true (put false [ascii "v1",ascii "tasks"] (trim id)) (ascii "retry")).head? = _
    rw [same]
    rfl
  | cancelTask id =>
    obtain ⟨others,same⟩ := putFirst (ascii "tasks") (trim id)
    show (put true (put false [ascii "v1",ascii "tasks"] (trim id)) (ascii "cancel")).head? = _
    rw [same]
    rfl
  | postRunMessage id =>
    obtain ⟨others,same⟩ := putFirst (ascii "runs") (trim id)
    show (put true (put false [ascii "v1",ascii "runs"] (trim id)) (ascii "messages")).head? = _
    rw [same]
    rfl
  | cancelRun id =>
    obtain ⟨others,same⟩ := putFirst (ascii "runs") (trim id)
    show (put true (put false [ascii "v1",ascii "runs"] (trim id)) (ascii "cancel")).head? = _
    rw [same]
    rfl
  | decideReview id =>
    obtain ⟨others,same⟩ := putFirst (ascii "reviews") (trim id)
    show (put true (put false [ascii "v1",ascii "reviews"] (trim id)) (ascii "decision")).head? = _
    rw [same]
    rfl
  | getArtifactContent id =>
    obtain ⟨others,same⟩ := putFirst (ascii "artifacts") (trim id)
    show (put true (put false [ascii "v1",ascii "artifacts"] (trim id)) (ascii "content")).head? = _
    rw [same]
    rfl

theorem anyAlone {id : Text} (dots : [id].any dotted = true) :
    trim id = ascii "." ∨ trim id = ascii ".." := by
  rw [List.any_cons,List.any_nil,Bool.or_false] at dots
  exact dottedId dots

theorem strayedScreenshot (platform : Platform) {taskId runId : Text} (present : trim taskId ≠ [] ∧ trim runId ≠ [])
    (dots : dotted taskId = true ∨ dotted runId = true) (params : List (Text × Text)) :
    Misread (.attachScreenshot taskId runId)
      (dispatch platform (ascii "POST") (strayed (.attachScreenshot taskId runId)) params) := by
  have plainPut {path : List Text} {s : Text} (plain : notDot s) : put false path s = path ++ [s] := by
    rw [put,if_neg plain.2,if_neg plain.1]
  have shape : strayed (.attachScreenshot taskId runId) =
      (put true (put false (put false (put false [ascii "v1",ascii "tasks"] (trim taskId))
        (ascii "runs")) (trim runId)) (ascii "screenshots")).filter fun s => !s.isEmpty := rfl
  rw [shape,putWord _ screenshotsWord,putWord _ runsWord]
  cases first : dotted taskId with
  | true =>
    rcases dottedId first with dot | dot
    · rw [dot]
      cases second : dotted runId with
      | true =>
        rcases dottedId second with dot' | dot'
        · rw [dot']
          exact .none rfl
        · rw [dot']
          exact .none rfl
      | false =>
        rw [plainPut (plainId second)]
        show Misread _ (dispatch _ _ (List.filter _ [ascii "v1",ascii "tasks",ascii "runs",
          trim runId,ascii "screenshots"]) _)
        rw [filled (by simp +decide [present.2])]
        exact .none rfl
    · rw [dot]
      cases second : dotted runId with
      | true =>
        rcases dottedId second with dot' | dot'
        · rw [dot']
          exact .none rfl
        · rw [dot']
          exact .none rfl
      | false =>
        rw [plainPut (plainId second)]
        show Misread _ (dispatch _ _ (List.filter _ [ascii "v1",ascii "runs",trim runId,
          ascii "screenshots"]) _)
        rw [filled (by simp +decide [present.2])]
        exact .after (fun error failed => entityIdRefused failed) rfl
  | false =>
    rw [plainPut (plainId first)]
    rcases dottedId (dots.resolve_left (by simp [first])) with dot' | dot'
    · rw [dot']
      show Misread _ (dispatch _ _ (List.filter _ [ascii "v1",ascii "tasks",trim taskId,
        ascii "runs",ascii "screenshots"]) _)
      rw [filled (by simp +decide [present.1])]
      exact .after (fun error failed => taskIdRefused failed) rfl
    · rw [dot']
      show Misread _ (dispatch _ _ (List.filter _ [ascii "v1",ascii "tasks",trim taskId,
        ascii "screenshots"]) _)
      rw [filled (by simp +decide [present.1])]
      exact .after (fun error failed => taskIdRefused failed) rfl

theorem strayedRead (platform : Platform) {call : ClientCall} (present : ∀ id ∈ call.ids, trim id ≠ [])
    (dots : call.ids.any dotted = true) (params : List (Text × Text))
    (alone : call.query = [] → params = []) :
    Misread call (dispatch platform (methodText call.method) (strayed call) params) := by
  cases call with
  | health | agents | listTasks | createTask => cases dots
  | getTask id =>
    cases alone rfl
    rcases anyAlone dots with dot | dot
    · rw [strayed,ClientCall.names,dot]
      exact .listed id rfl dot
    · rw [strayed,ClientCall.names,dot]
      exact .none rfl
  | attachScreenshot taskId runId =>
    refine strayedScreenshot platform ⟨present _ List.mem_cons_self,
      present _ (List.mem_cons_of_mem _ List.mem_cons_self)⟩ ?_ params
    simpa only [ClientCall.ids,List.any_cons,List.any_nil,Bool.or_false,Bool.or_eq_true] using dots
  | retryTask id | cancelTask id | postRunMessage id | cancelRun id | decideReview id
  | getArtifactContent id =>
    rcases anyAlone dots with dot | dot
    · rw [strayed,ClientCall.names,dot]
      exact .none rfl
    · rw [strayed,ClientCall.names,dot]
      exact .none rfl

theorem dottedMisread {call : ClientCall} {target : Text} (sent : call.target [] = .ok target)
    (platform : Platform) (dots : call.ids.any dotted = true) :
    Misread call (routeRequest platform (methodText call.method) target) := by
  obtain ⟨pairs,appended,present,read⟩ := readAs sent (strayedFirst call) platform
  rw [read]
  refine strayedRead platform present dots _ fun same => ?_
  rw [same] at appended
  cases Except.ok.inj appended
  rfl

theorem wholeMeant {call : ClientCall} {target : Text} (sent : call.target [] = .ok target)
    (platform : Platform) (whole : call.ids.any dotted = false) :
    routeRequest platform (methodText call.method) target = call.meant platform := by
  obtain ⟨pairs,appended,present,read⟩ := readAs sent (strayedFirst call) platform
  have plain : ∀ id ∈ call.ids, notDot (trim id) := fun id listed =>
    plainId (Bool.eq_false_iff.mpr fun own =>
      Bool.eq_false_iff.mp whole (List.any_eq_true.mpr ⟨id,listed,own⟩))
  rw [read,climbNames (namesPlain plain),List.nil_append,namesPresent present]
  exact wholeRead platform appended

-- A call reaches its own endpoint with its identifiers trimmed, or is refused; a dot as the
-- identifier of a task is the one that reads as another call.
theorem callDelivered {call : ClientCall} {target : Text} (sent : call.target [] = .ok target)
    (platform : Platform) :
    if call.ids.any dotted then
      Misread call (routeRequest platform (methodText call.method) target)
    else routeRequest platform (methodText call.method) target = call.meant platform := by
  split
  next dots => exact dottedMisread sent platform dots
  next whole => exact wholeMeant sent platform (Bool.not_eq_true _ ▸ whole)

def pathsOnly : Platform := ⟨fun _ => none,fun _ => []⟩

theorem retryDelivered :
    routeRequest pathsOnly (ascii "POST") (ascii "/v1/tasks/fix..1/retry") =
      .ok (.retryTask (ascii "fix..1")) := by
  have read := @callDelivered (.retryTask (ascii " fix..1 ")) (ascii "/v1/tasks/fix..1/retry")
    (by decide +kernel) pathsOnly
  rw [if_neg (by decide)] at read
  exact read.trans (by decide)

example : (ClientCall.getTask (ascii ".")).target [] = .ok (ascii "/v1/tasks/") ∧
    routeRequest pathsOnly (ascii "GET") (ascii "/v1/tasks/") = .ok (.listTasks none) := by
  decide +kernel

end ControlCenter.ApiRoutes
