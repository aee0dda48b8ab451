import ControlCenter.Protocol

/-! Routing: word patterns over a task's text decide risk, agents and order. Each
pattern is a finite list of words matched between word boundaries, whatever the case. -/
namespace ControlCenter.Router
open Protocol

def lower (c : Char) : Char :=
  if 'A' ≤ c && c ≤ 'Z' then Char.ofNat (c.toNat + 32) else c

def wordChar (c : Char) : Bool := ZodSchema.alphanumeric c || c == '_'

-- A word that starts here and ends at a boundary; every word ends in a word character.
def wordHere (word text : List Char) : Bool :=
  word.isPrefixOf text && !(((text.drop word.length).head?.map wordChar).getD false)

def wordsFrom (words : List (List Char)) : Bool → List Char → Bool
  | _,[] => false
  | inside,c::rest => (!inside && words.any fun w => wordHere w (c::rest)) ||
      wordsFrom words (wordChar c) rest

def mentions (words : List String) (text : String) : Bool :=
  wordsFrom (words.map String.toList) false (text.toList.map lower)

def risky : List String :=
  ["prod","production","deploy","migration","database","schema","auth","security","permission",
   "payment","billing","delete","destructive","secret","credential","infrastructure"]

def architecture : List String :=
  ["architect","architecture","design","review","audit","analyse","analyze","plan","trade-off",
   "tradeoff","spec","proposal"]

def external : List String :=
  ["discord","telegram","slack","email","calendar","cron","macos","desktop",
   "browser automation","external system","openclaw"]

def coding : List String :=
  ["code","implement","fix","bug","refactor","test","build","typescript","javascript","python",
   "api","cli","repo","commit","pull request","pr","schema","migration","migrate","deploy"]

def changeIntent : List String :=
  ["implement","fix","refactor","write","add","build","change","modify","migrate","deploy",
   "remove","delete"]

def plannerFirst : List String :=
  ["planner first","planner-first","plannerfirst","claude planner","claude brain",
   "claude assigner","claude as planner","claude as brain","claude as assigner","assign work",
   "assign task","assign tasks","delegate work","delegate task","delegate tasks",
   "delegates work","delegates task","delegates tasks","delegated work","delegated task",
   "delegated tasks","codex and openclaw execute"]

def taskText (task : TaskPayload) : String :=
  task.goal ++ "\n" ++ task.context.getD "" ++ "\n" ++ String.intercalate "\n" task.successCriteria

def isRisky (task : TaskPayload) : Bool :=
  mentions risky (taskText task) || task.priority == .urgent

def riskOf (task : TaskPayload) : Risk := if isRisky task then .high else .normal

section
variable (uuid : Nat → String)

def step (sequence : Nat) (agent : AgentKind) (role : RouteRole) (reason : String)
    (required : Bool) (draw : Nat) : RouteStep :=
  ⟨"step_" ++ uuid draw,sequence,agent,role,required,reason⟩

def selectedKind : AgentSelection → Option AgentKind
  | .codex => some .codex
  | .claude => some .claude
  | .openclaw => some .openclaw
  | .auto | .parallel => none

def parallelPlan (risk : Risk) : RoutePlan := ⟨.parallel,risk,
  ["The requester explicitly selected a parallel Codex + Claude run."],
  [step uuid 0 .codex .execute "Codex produces an implementation candidate." true 0,
   step uuid 0 .claude .execute "Claude produces an independent candidate." true 1]⟩

def plannerPlan (risk : Risk) : RoutePlan := ⟨.sequential,risk,
  ["The requester asked for a planner-first delegation flow: Claude plans first, then Codex and OpenClaw execute from that plan."],
  [step uuid 0 .claude .review "Claude acts as the planner: decompose the goal, assign responsibilities, and define success checks." true 0,
   step uuid 1 .codex .execute "Codex implements the repository-scoped work from Claude's plan in an isolated worktree." true 1,
   step uuid 2 .openclaw .execute "OpenClaw executes the external coordination, workflow explanation, and handoff work from Claude's plan." true 2]⟩

def reviewedPlan (agent : AgentSelection) : RoutePlan := ⟨.sequential,.high,
  "Risk-sensitive coding work requires implementation, independent review, and a human-facing approval handoff." ::
    (if agent = .codex then
      ["The explicit Codex assignment is preserved as the implementation step."] else []),
  [step uuid 0 .codex .execute "Codex implements the change in an isolated worktree." true 0,
   step uuid 1 .claude .review "Claude independently reviews the implementation and evidence." true 1,
   step uuid 2 .openclaw .approval "OpenClaw summarizes the evidence and requests approve/rework." false 2]⟩

def singlePlan (risk : Risk) (reason : String) (agent : AgentKind) (role : RouteRole)
    (stepReason : String) : RoutePlan :=
  ⟨.single,risk,[reason],[step uuid 0 agent role stepReason true 0]⟩

def routeTask (task : TaskPayload) : RoutePlan :=
  let text := taskText task
  let risk := riskOf task
  if task.agent = .parallel then parallelPlan uuid risk
  else if task.agent = .auto && mentions plannerFirst text then plannerPlan uuid risk
  else if isRisky task && mentions coding text && mentions changeIntent text &&
      (task.agent = .auto || task.agent = .codex) then reviewedPlan uuid task.agent
  else match selectedKind task.agent with
    | some agent => singlePlan uuid risk s!"The requester explicitly selected {task.agent.text}."
        agent .execute "Explicit agent assignment."
    | none =>
      if mentions external text then
        singlePlan uuid risk "The task targets chat, automation, desktop, or another external system."
          .openclaw .execute "OpenClaw owns external-system work."
      else if mentions architecture text && !mentions changeIntent text then
        singlePlan uuid risk "The task is primarily architecture, analysis, or review."
          .claude .review "Claude owns non-destructive analysis and review work."
      else singlePlan uuid risk "The task is repository-scoped implementation work."
          .codex .execute "Codex owns coding implementation."

theorem routeRisk (task : TaskPayload) : (routeTask uuid task).risk = riskOf task := by
  unfold routeTask
  dsimp only
  split
  · rfl
  split
  · rfl
  split
  · rename_i reviewed
    simp only [Bool.and_eq_true] at reviewed
    simp [reviewedPlan,riskOf,reviewed.1.1.1]
  split
  · rfl
  split
  · rfl
  split <;> rfl

theorem routeSteps (task : TaskPayload) : (routeTask uuid task).steps ≠ [] := by
  unfold routeTask
  dsimp only
  repeat' split
  all_goals exact List.cons_ne_nil _ _

end

example : mentions risky "Rotate the Prod keys" = true := by decide +kernel
example : mentions risky "Describe a product" = false := by decide +kernel

end ControlCenter.Router
