import ControlCenter.ZodSchema

/-! Tasks, routes, runs and artifacts as the control database and the coordinator see
them: the enumerations, the task payload schema and the two status machines. -/
namespace ControlCenter.Protocol
open JsonValue ZodSchema

inductive TaskStatus where
  | queued | running | needsReview | blocked | done
  deriving DecidableEq, Repr

inductive Priority where
  | low | normal | high | urgent
  deriving DecidableEq, Repr

inductive AgentSelection where
  | auto | codex | claude | openclaw | parallel
  deriving DecidableEq, Repr

inductive AgentKind where
  | codex | claude | openclaw
  deriving DecidableEq, Repr

inductive RouteRole where
  | execute | review | approval
  deriving DecidableEq, Repr

inductive RouteMode where
  | single | sequential | parallel
  deriving DecidableEq, Repr

inductive Risk where
  | normal | high
  deriving DecidableEq, Repr

inductive RunStatus where
  | queued | starting | running | succeeded | failed | stopped | stale
  deriving DecidableEq, Repr

inductive ArtifactKind where
  | prompt | stdout | stderr | result | diff | gitStatus | commit | screenshot | testLog
  | handoff | metadata
  deriving DecidableEq, Repr

def TaskStatus.text : TaskStatus → String
  | .queued => "queued"
  | .running => "running"
  | .needsReview => "needs-review"
  | .blocked => "blocked"
  | .done => "done"

def Priority.text : Priority → String
  | .low => "low"
  | .normal => "normal"
  | .high => "high"
  | .urgent => "urgent"

def AgentSelection.text : AgentSelection → String
  | .auto => "auto"
  | .codex => "codex"
  | .claude => "claude"
  | .openclaw => "openclaw"
  | .parallel => "parallel"

def AgentKind.text : AgentKind → String
  | .codex => "codex"
  | .claude => "claude"
  | .openclaw => "openclaw"

def RouteRole.text : RouteRole → String
  | .execute => "execute"
  | .review => "review"
  | .approval => "approval"

def RouteMode.text : RouteMode → String
  | .single => "single"
  | .sequential => "sequential"
  | .parallel => "parallel"

def Risk.text : Risk → String
  | .normal => "normal"
  | .high => "high"

def RunStatus.text : RunStatus → String
  | .queued => "queued"
  | .starting => "starting"
  | .running => "running"
  | .succeeded => "succeeded"
  | .failed => "failed"
  | .stopped => "stopped"
  | .stale => "stale"

def ArtifactKind.text : ArtifactKind → String
  | .prompt => "prompt"
  | .stdout => "stdout"
  | .stderr => "stderr"
  | .result => "result"
  | .diff => "diff"
  | .gitStatus => "git-status"
  | .commit => "commit"
  | .screenshot => "screenshot"
  | .testLog => "test-log"
  | .handoff => "handoff"
  | .metadata => "metadata"

-- The characters String.prototype.trim removes.
def trimmable (c : Char) : Bool :=
  [0x9,0xa,0xb,0xc,0xd,0x20,0xa0,0x1680,0x2028,0x2029,0x202f,0x205f,0x3000,0xfeff].contains
      c.toNat || (decide (0x2000 ≤ c.toNat) && decide (c.toNat ≤ 0x200a))

def trim (s : String) : String :=
  String.ofList ((s.toList.dropWhile trimmable).reverse.dropWhile trimmable).reverse

theorem visiblePlain {c : Char} (low : 0x21 ≤ c.toNat) (high : c.toNat ≤ 0x7e) :
    trimmable c = false := by
  simp only [trimmable,Bool.or_eq_false_iff,Bool.and_eq_false_iff,decide_eq_false_iff_not]
  constructor
  · rw [← Bool.not_eq_true,List.contains_iff_mem]
    simp only [List.mem_cons,List.not_mem_nil,or_false,not_or]
    omega
  · omega

theorem plainKept {text : List Char} (plain : ∀ c ∈ text, trimmable c = false) :
    text.dropWhile trimmable = text := by
  cases text with
  | nil => rfl
  | cons c rest => rw [List.dropWhile_cons,plain c List.mem_cons_self]; rfl

theorem trimPlain {s : String} (plain : ∀ c ∈ s.toList, trimmable c = false) : trim s = s := by
  unfold trim
  rw [plainKept plain,plainKept fun c listed => plain c (List.mem_reverse.mp listed),
    List.reverse_reverse,String.ofList_toList]

def trimmedThat (check : String → Bool) : Schema
  | .string s => if check (trim s) then some (.string (trim s)) else none
  | _ => none

def sized (low high : Nat) (s : String) : Bool :=
  decide (low ≤ (utf16 s).length) && decide ((utf16 s).length ≤ high)

def idHead (c : Char) : Bool := alphanumeric c
def idTail (c : Char) : Bool := alphanumeric c || ['.','_','-'].contains c

def taskIdText (s : String) : Bool := sized 1 160 s && match s.toList with
  | [] => false
  | c::rest => idHead c && rest.all idTail

def taskIdSchema : Schema := trimmedThat fun s => taskIdText s && s != "." && s != ".."

def strict (shape : List Field) : Schema
  | .object members =>
    if members.all fun m => (shape.map Field.name).contains m.1 then object shape (.object members)
    else none
  | _ => none

def nonempty (s : String) : Bool := s != ""

def criteriaSchema : Schema := arraySized (trimmedThat nonempty) fun n => decide (n ≤ 50)

def taskPayloadShape : List Field :=
  [optional "id" taskIdSchema,field "goal" (trimmedThat (sized 1 10000)),
   field "repo" (trimmedThat nonempty),
   withDefault "baseRef" (trimmedThat nonempty) (.string "HEAD"),
   withDefault "agent" (oneOf ["auto","codex","claude","openclaw","parallel"]) (.string "auto"),
   withDefault "priority" (oneOf ["low","normal","high","urgent"]) (.string "normal"),
   optional "context" (trimmedThat (sized 0 100000)),
   withDefault "successCriteria" criteriaSchema (.array []),
   optional "verificationCommand" (trimmedThat (sized 0 2000)),
   withDefault "handoffRequired" boolean (.boolean true)]

def taskPayloadSchema : Schema := strict taskPayloadShape

structure TaskPayload where
  id : Option String
  goal : String
  repo : String
  baseRef : String
  agent : AgentSelection
  priority : Priority
  context : Option String
  successCriteria : List String
  verificationCommand : Option String
  handoffRequired : Bool
  deriving DecidableEq, Repr

def AgentSelection.ofText (s : String) : AgentSelection :=
  ([.codex,.claude,.openclaw,.parallel].find? fun a => a.text == s).getD .auto

def Priority.ofText (s : String) : Priority :=
  ([.low,.high,.urgent].find? fun p => p.text == s).getD .normal

def textOf (v : Json) : String := v.text.getD ""

def payloadOf (v : Json) : TaskPayload where
  id := (v.get "id").text
  goal := textOf (v.get "goal")
  repo := textOf (v.get "repo")
  baseRef := textOf (v.get "baseRef")
  agent := .ofText (textOf (v.get "agent"))
  priority := .ofText (textOf (v.get "priority"))
  context := (v.get "context").text
  successCriteria := match v.get "successCriteria" with
    | .array items => items.map textOf
    | _ => []
  verificationCommand := (v.get "verificationCommand").text
  handoffRequired := match v.get "handoffRequired" with
    | .boolean b => b
    | _ => false

-- TaskPayloadSchema.parse; the issues zod would list are left to its own message.
def parseTaskPayload (v : Json) : Except String TaskPayload :=
  match taskPayloadSchema v with
  | some parsed => .ok (payloadOf parsed)
  | none => .error "ZodError"

def TaskPayload.toJson (t : TaskPayload) : Json := .object
  (present "id" t.id ++
   [("goal",.string t.goal),("repo",.string t.repo),("baseRef",.string t.baseRef),
    ("agent",.string t.agent.text),("priority",.string t.priority.text)] ++
   present "context" t.context ++
   [("successCriteria",.array (t.successCriteria.map .string))] ++
   present "verificationCommand" t.verificationCommand ++
   [("handoffRequired",.boolean t.handoffRequired)])

theorem handoffKept {input task : TaskPayload} (parsed : parseTaskPayload input.toJson = .ok task) :
    task.handoffRequired = input.handoffRequired := by
  have given : input.toJson.get "handoffRequired" = .boolean input.handoffRequired := by
    unfold TaskPayload.toJson present
    cases input.id <;> cases input.context <;> cases input.verificationCommand <;> simp
  unfold parseTaskPayload at parsed
  split at parsed
  next v accepted =>
    cases Except.ok.inj parsed
    have shaped : object taskPayloadShape input.toJson = some v := by
      unfold taskPayloadSchema strict TaskPayload.toJson at accepted
      dsimp only at accepted
      split at accepted
      · exact accepted
      · cases accepted
    have own := givenField shaped (by decide)
      (f := withDefault "handoffRequired" boolean (.boolean true)) (by simp [taskPayloadShape])
      (by show input.toJson.get "handoffRequired" ≠ .undefined; rw [given]; exact nofun)
    have read : some (Json.boolean input.handoffRequired) = some (v.get "handoffRequired") := by
      have same : boolean (input.toJson.get "handoffRequired") =
        some (v.get "handoffRequired") := own
      rwa [given] at same
    unfold payloadOf
    rw [← Option.some.inj read]
  next => cases parsed

structure RouteStep where
  id : String
  sequence : Nat
  agent : AgentKind
  role : RouteRole
  required : Bool
  reason : String
  deriving DecidableEq, Repr

structure RoutePlan where
  mode : RouteMode
  risk : Risk
  reasons : List String
  steps : List RouteStep
  deriving DecidableEq, Repr

def taskTransitions : TaskStatus → List TaskStatus
  | .queued => [.running,.blocked]
  | .running => [.needsReview,.blocked,.done,.queued]
  | .needsReview => [.done,.queued,.blocked]
  | .blocked => [.queued,.done]
  | .done => [.queued]

def assertTaskTransition (start next : TaskStatus) : Except String Unit :=
  if start = next ∨ next ∈ taskTransitions start then .ok ()
  else .error s!"Invalid task transition: {start.text} -> {next.text}"

def runTransitions : RunStatus → List RunStatus
  | .queued => [.starting,.stopped]
  | .starting => [.running,.failed,.stopped]
  | .running => [.succeeded,.failed,.stopped,.stale]
  | .succeeded => []
  | .failed => [.queued]
  | .stopped => [.queued]
  | .stale => [.queued,.failed]

def assertRunTransition (start next : RunStatus) : Except String Unit :=
  if start = next ∨ next ∈ runTransitions start then .ok ()
  else .error s!"Invalid run transition: {start.text} -> {next.text}"

example : parseTaskPayload (.object [("goal",.string " Fix it "),("repo",.string "/r")]) =
    .ok ⟨none,"Fix it","/r","HEAD",.auto,.normal,none,[],none,true⟩ := by decide +kernel

end ControlCenter.Protocol
