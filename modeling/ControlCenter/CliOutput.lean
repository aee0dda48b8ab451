import ControlCenter.ApiErrors

/-! What the output of an agent's command line interface says at its end: the summary of a
Claude run, and the usage that Claude and Codex report. An exception is its message. -/
namespace ControlCenter.CliOutput
open JsonText
open VerificationCommand (trim)
open ApiErrors (field orElse entries arrayIndex)

-- Splitting at `\r?\n`: the carriage return before a line feed goes with it.
def lines : Text → List Text
  | [] => [[]]
  | c::rest =>
      if c = 10 then []::lines rest
      else if c = 13 ∧ rest.head? = some 10 then lines rest
      else match lines rest with
        | [] => [[c]]
        | line::others => (c::line)::others

section
variable {N : Type}

def property (name : String) : Value N → Except String (Value N)
  | .null => .error ("Cannot read properties of null (reading '" ++ name ++ "')")
  | .undefined => .error ("Cannot read properties of undefined (reading '" ++ name ++ "')")
  | v => .ok (field name v)

-- The operator `?.` on a record or null.
def chained (name : String) : Option (Value N) → Except String (Value N)
  | none => .ok .undefined
  | some v => property name v

def isText (text : String) : Value N → Bool
  | .string s => s == ascii text
  | _ => false

def asString : Value N → Option Text
  | .string s => some s
  | _ => none

def asObject : Value N → Option (Value N)
  | .array items => some (.array items)
  | .object members => some (.object members)
  | _ => none

def asRecord : Value N → Option (Value N)
  | .object members => some (.object members)
  | _ => none

def isNumeric : Value N → Bool
  | .number _ | .negativeZero | .nonFinite => true
  | _ => false

def partText (part : Value N) : Text :=
  match asObject part with
  | none => []
  | some object => (asString (field "text" object)).getD []

def textFromContent : Value N → Text
  | .array items =>
      List.intercalate [10] ((items.map partText).filter fun text => !text.isEmpty)
  | _ => []

def lineValue (f : NumberFormat N) (line : Text) : Option (Value N) :=
  if (trim line).isEmpty then none else parse f line

structure SummaryTexts where
  assistantText : Text
  resultText : Text

def readEvent (texts : SummaryTexts) (event : Value N) : Except String SummaryTexts := do
  let type ← property "type" event
  match isText "result" type,asString (← property "result" event) with
  | true,some result => return {texts with resultText := result}
  | _,_ =>
      match isText "assistant" type,asObject (← property "message" event) with
      | true,some message => do
          let extracted := textFromContent (← property "content" message)
          return if extracted.isEmpty then texts else {texts with assistantText := extracted}
      | _,_ => return texts

def readLines (f : NumberFormat N) (texts : SummaryTexts) : List Text → Except String SummaryTexts
  | [] => .ok texts
  | line::rest =>
      match lineValue f line with
      | none => readLines f texts rest
      | some event => do readLines f (← readEvent texts event) rest

def extractClaudeSummary (f : NumberFormat N) (jsonl : Text) : Except String Text := do
  let texts ← readLines f ⟨[],[]⟩ (lines jsonl)
  return if texts.resultText.isEmpty then texts.assistantText else texts.resultText

structure UsageRecord (N : Type) where
  provider : String
  model : Option Text
  inputTokens : Option (Value N)
  outputTokens : Option (Value N)
  cacheReadTokens : Option (Value N)
  costUsdEstimate : Option (Value N)
  source : String
  raw : Value N

-- `nonNegative` compares a finite number with zero.
def asNonNegativeNumber (nonNegative : N → Bool) : Value N → Option (Value N)
  | .number n => if nonNegative n then some (.number n) else none
  | .negativeZero => some .negativeZero
  | _ => none

def parseJsonObjects (f : NumberFormat N) (stdout : Text) : List (Value N) :=
  let objects := (lines stdout).filterMap fun line => (lineValue f line).bind asRecord
  if objects.isEmpty then ((lineValue f stdout).bind asRecord).toList else objects

def bearsUsage (candidate : Value N) : Except String Bool := do
  return (asRecord (← property "usage" candidate)).isSome ||
    (asRecord (← property "modelUsage" candidate)).isSome ||
    isNumeric (← property "total_cost_usd" candidate)

def lastBearing (event : Option (Value N)) : List (Value N) → Except String (Option (Value N))
  | [] => .ok event
  | candidate::rest => do
      lastBearing (if ← bearsUsage candidate then some candidate else event) rest

-- The first of `Object.entries`.
def firstEntry : Value N → Option (Text × Value N)
  | .object members => (entries (members.map fun m => (arrayIndex m.1,m))).head?
  | _ => none

def claudeUsage (nonNegative : N → Bool) (event : Value N) :
    Except String (Option (UsageRecord N)) := do
  let usage := asRecord (← property "usage" event)
  let modelUsage := asRecord (← property "modelUsage" event)
  let entry := modelUsage.bind firstEntry
  let perModel := entry.bind fun e => asRecord e.2
  let number := asNonNegativeNumber nonNegative
  let inputTokens := (number (← chained "input_tokens" usage)).or
    (number (← chained "inputTokens" perModel))
  let outputTokens := (number (← chained "output_tokens" usage)).or
    (number (← chained "outputTokens" perModel))
  let cacheReadTokens := (number (← chained "cache_read_input_tokens" usage)).or
    (number (← chained "cacheReadInputTokens" perModel))
  let costUsdEstimate := (number (← property "total_cost_usd" event)).or
    (number (← chained "costUSD" perModel))
  return if inputTokens.isNone && outputTokens.isNone && cacheReadTokens.isNone &&
      costUsdEstimate.isNone then none
    else some ⟨"claude",entry.map Prod.fst,inputTokens,outputTokens,cacheReadTokens,
      costUsdEstimate,"provider_reported",event⟩

def parseClaudeCliUsage (f : NumberFormat N) (nonNegative : N → Bool) (stdout : Text) :
    Except String (Option (UsageRecord N)) := do
  match ← lastBearing none (parseJsonObjects f stdout) with
  | none => return none
  | some event => claudeUsage nonNegative event

def codexTokenSource (event : Value N) : Except String (Option (Value N)) := do
  let msg := asRecord (← property "msg" event)
  if isText "token_count" (← chained "type" msg) then
    let info := asRecord (← chained "info" msg)
    return (asRecord (← chained "total_token_usage" info)).or msg
  else if isText "turn.completed" (← property "type" event) then
    return asRecord (← property "usage" event)
  else return none

def modelName (event : Value N) : Except String (Option Text) := do
  let msg := asRecord (← property "msg" event)
  let modelValue := orElse (← chained "model" msg) (← property "model" event)
  return (asString modelValue).filter fun name => !name.isEmpty

structure CodexState (N : Type) where
  model : Option Text
  tokens : Option (Value N × Value N)

def readCodexEvents (state : CodexState N) : List (Value N) → Except String (CodexState N)
  | [] => .ok state
  | event::rest => do
      let model := (← modelName event).or state.model
      let tokens := ((← codexTokenSource event).map fun source => (source,event)).or state.tokens
      readCodexEvents ⟨model,tokens⟩ rest

def codexUsage (nonNegative : N → Bool) (model : Option Text) (tokens raw : Value N) :
    Except String (Option (UsageRecord N)) := do
  let number := asNonNegativeNumber nonNegative
  let inputTokens := number (← property "input_tokens" tokens)
  let outputTokens := number (← property "output_tokens" tokens)
  let cacheReadTokens := number (← property "cached_input_tokens" tokens)
  return if inputTokens.isNone && outputTokens.isNone && cacheReadTokens.isNone then none
    else some ⟨"codex",model,inputTokens,outputTokens,cacheReadTokens,none,"provider_reported",raw⟩

def parseCodexCliUsage (f : NumberFormat N) (nonNegative : N → Bool) (stdout : Text) :
    Except String (Option (UsageRecord N)) := do
  let state ← readCodexEvents ⟨none,none⟩ (parseJsonObjects f stdout)
  match state.tokens with
  | none => return none
  | some (tokens,raw) => codexUsage nonNegative state.model tokens raw

end

section
variable {A B : Type}

def lastOf (g : A → Option B) (xs : List A) : Option B := (xs.filterMap g).getLast?

theorem lastOfCons (g : A → Option B) (x : A) (xs : List A) :
    lastOf g (x::xs) = (lastOf g xs).or (g x) := by
  unfold lastOf
  rw [List.filterMap_cons]
  cases g x with
  | none => simp
  | some b =>
    simp only [List.getLast?_cons]
    cases (xs.filterMap g).getLast? <;> rfl

theorem lastOfGetD (g : A → Option B) (x : A) (xs : List A) (b : B) :
    (lastOf g (x::xs)).getD b = (lastOf g xs).getD ((g x).getD b) := by
  rw [lastOfCons]
  cases lastOf g xs <;> rfl

theorem lastOfOr (g : A → Option B) (x : A) (xs : List A) (o : Option B) :
    (lastOf g (x::xs)).or o = (lastOf g xs).or ((g x).or o) := by
  rw [lastOfCons,Option.or_assoc]

end

section
variable {N : Type} {f : NumberFormat N} {nonNegative : N → Bool}

def values (f : NumberFormat N) (stdout : Text) : List (Value N) :=
  (lines stdout).filterMap (lineValue f)

def isResult (event : Value N) : Bool := isText "result" (field "type" event)

def resultOf (event : Value N) : Option Text :=
  if isResult event then asString (field "result" event) else none

def assistantTextOf (event : Value N) : Option Text :=
  if isText "assistant" (field "type" event) then
    ((asObject (field "message" event)).map fun message =>
      textFromContent (field "content" message)).filter fun text => !text.isEmpty
  else none

def lastAssistantText (events : List (Value N)) : Text := (lastOf assistantTextOf events).getD []

def lastResult (events : List (Value N)) : Option (Value N) := (events.filter isResult).getLast?

def orAssistant (result : Text) (events : List (Value N)) : Text :=
  if result.isEmpty then lastAssistantText events else result

def lastSummary (events : List (Value N)) : Text :=
  orAssistant (((lastResult events).bind fun event => asString (field "result" event)).getD []) events

def ResultsSettled (events : List (Value N)) : Prop :=
  ∀ event, lastResult events = some event → asString (field "result" event) = none →
    let earlier := (lastOf resultOf events).getD []
    earlier = [] ∨ earlier = lastAssistantText events

def bearing (event : Value N) : Option (Value N) :=
  if (bearsUsage event).toOption = some true then some event else none

def tokensOf (event : Value N) : Option (Value N × Value N) :=
  ((codexTokenSource event).toOption.join).map fun source => (source,event)

def modelOf (event : Value N) : Option Text := (modelName event).toOption.join

structure LastWins (f : NumberFormat N) (nonNegative : N → Bool) (stdout : Text) : Prop where
  summary : extractClaudeSummary f stdout = .ok (lastSummary (values f stdout))
  claude : ∃ usage, parseClaudeCliUsage f nonNegative stdout = .ok usage ∧
    match lastOf bearing (parseJsonObjects f stdout) with
    | none => usage = none
    | some event => claudeUsage nonNegative event = .ok usage
  codex : ∃ usage, parseCodexCliUsage f nonNegative stdout = .ok usage ∧
    match lastOf tokensOf (parseJsonObjects f stdout) with
    | none => usage = none
    | some (tokens,raw) =>
        codexUsage nonNegative (lastOf modelOf (parseJsonObjects f stdout)) tokens raw = .ok usage

def Defined (v : Value N) : Prop := v ≠ .null ∧ v ≠ .undefined

theorem okBind {A B : Type} (a : A) (k : A → Except String B) :
    ((Except.ok a : Except String A) >>= k) = k a := rfl

theorem propertyDefined {v : Value N} (defined : Defined v) (name : String) :
    property name v = .ok (field name v) := by
  unfold property
  split
  · exact absurd rfl defined.1
  · exact absurd rfl defined.2
  · rfl

theorem objectDefined {v message : Value N} (object : asObject v = some message) :
    Defined message := by
  cases v <;> cases object <;> exact ⟨nofun,nofun⟩

theorem resultApart {v : Value N} (result : isText "result" v = true) :
    isText "assistant" v = false := by
  cases v <;> simp only [isText,Bool.false_eq_true,beq_iff_eq] at result ⊢
  rw [result]
  decide

theorem readEventDefined {event : Value N} (defined : Defined event) (texts : SummaryTexts) :
    readEvent texts event = .ok ⟨(assistantTextOf event).getD texts.assistantText,
      (resultOf event).getD texts.resultText⟩ := by
  simp only [readEvent,propertyDefined defined,okBind,assistantTextOf,resultOf]
  have typed : isText "result" (field "type" event) = isResult event := rfl
  simp only [typed]
  cases result : isResult event with
  | true =>
    rw [resultApart (typed.trans result)]
    cases asString (field "result" event) <;> rfl
  | false =>
    cases isText "assistant" (field "type" event) with
    | false => rfl
    | true =>
      cases object : asObject (field "message" event) with
      | none => rfl
      | some message =>
        simp only [propertyDefined (objectDefined object),okBind]
        by_cases empty : (textFromContent (field "content" message)).isEmpty = true <;>
          simp [empty,Option.filter] <;> rfl

theorem readLinesDefined (texts : SummaryTexts) (ls : List Text)
    (defined : ∀ line ∈ ls, ∀ v, lineValue f line = some v → Defined v) :
    readLines f texts ls = .ok
      ⟨(lastOf assistantTextOf (ls.filterMap (lineValue f))).getD texts.assistantText,
        (lastOf resultOf (ls.filterMap (lineValue f))).getD texts.resultText⟩ := by
  induction ls generalizing texts with
  | nil => rfl
  | cons line rest ih =>
    obtain ⟨own,later⟩ := List.forall_mem_cons.mp defined
    rw [readLines,List.filterMap_cons]
    cases value : lineValue f line with
    | none => exact ih texts later
    | some event =>
      simp only [readEventDefined (own event value),okBind,ih _ later,lastOfGetD]

theorem readLinesNull (texts : SummaryTexts) (ls : List Text) {line : Text} (listed : line ∈ ls)
    (null : lineValue f line = some .null) : ∃ e, readLines f texts ls = .error e := by
  induction ls generalizing texts with
  | nil => cases listed
  | cons first rest ih =>
    rw [readLines]
    rcases List.mem_cons.mp listed with rfl | later
    · rw [null]
      exact ⟨_,rfl⟩
    · split
      · exact ih texts later
      · next event _ =>
        cases readEvent texts event with
        | error e => exact ⟨e,rfl⟩
        | ok texts => exact ih texts later

theorem summaryDefined {stdout : Text}
    (defined : ∀ line ∈ lines stdout, ∀ v, lineValue f line = some v → Defined v) :
    extractClaudeSummary f stdout = .ok
      (orAssistant ((lastOf resultOf (values f stdout)).getD []) (values f stdout)) := by
  rw [extractClaudeSummary,readLinesDefined _ _ defined]
  rfl

theorem resultOfFiltered (events : List (Value N)) : lastOf resultOf events =
    ((events.filter isResult).filterMap fun event => asString (field "result" event)).getLast? := by
  rw [lastOf,List.filterMap_filter]
  rfl

theorem lastResultText {events : List (Value N)} {event : Value N}
    (last : lastResult events = some event) {text : Text}
    (carried : asString (field "result" event) = some text) : lastOf resultOf events = some text := by
  obtain ⟨front,parts⟩ := List.getLast?_eq_some_iff.mp last
  rw [resultOfFiltered,parts,List.filterMap_append]
  simp [carried]

theorem noResultText {events : List (Value N)} (none_ : lastResult events = none) :
    lastOf resultOf events = none := by
  rw [resultOfFiltered,List.getLast?_eq_none_iff.mp none_]
  rfl

theorem orAssistantEmpty (events : List (Value N)) (earlier : Text) :
    orAssistant earlier events = orAssistant [] events ↔
      earlier = [] ∨ earlier = lastAssistantText events := by
  cases earlier with
  | nil => simp
  | cons c rest => simp [orAssistant]

theorem summarySettled (events : List (Value N)) :
    orAssistant ((lastOf resultOf events).getD []) events = lastSummary events ↔
      ResultsSettled events := by
  unfold lastSummary ResultsSettled
  cases last : lastResult events with
  | none => simp [noResultText last]
  | some event =>
    cases carried : asString (field "result" event) with
    | some text => simp [lastResultText last carried,carried]
    | none => simpa [carried] using orAssistantEmpty events ((lastOf resultOf events).getD [])

def IsRecord (v : Value N) : Prop := ∃ members, v = .object members

theorem recordDefined {v : Value N} (isRecord : IsRecord v) : Defined v := by
  obtain ⟨members,rfl⟩ := isRecord
  exact ⟨nofun,nofun⟩

theorem asRecordIs {v record : Value N} (found : asRecord v = some record) : IsRecord record := by
  cases v <;> cases found
  exact ⟨_,rfl⟩

theorem objectsRecords (stdout : Text) : ∀ v ∈ parseJsonObjects f stdout, IsRecord v := by
  intro v listed
  unfold parseJsonObjects at listed
  dsimp only at listed
  split at listed
  · obtain ⟨whole,_,found⟩ := Option.bind_eq_some_iff.mp (Option.mem_toList.mp listed)
    exact asRecordIs found
  · obtain ⟨line,_,found⟩ := List.mem_filterMap.mp listed
    obtain ⟨value,_,found⟩ := Option.bind_eq_some_iff.mp found
    exact asRecordIs found

theorem chainedRecord {o : Option (Value N)} (isRecord : ∀ v, o = some v → IsRecord v)
    (name : String) : ∃ v, chained name o = .ok v := by
  cases o with
  | none => exact ⟨.undefined,rfl⟩
  | some v => exact ⟨field name v,propertyDefined (recordDefined (isRecord v rfl)) name⟩

theorem bearsRecord {v : Value N} (isRecord : IsRecord v) : ∃ b, bearsUsage v = .ok b := by
  simp only [bearsUsage,propertyDefined (recordDefined isRecord),okBind]
  exact ⟨_,rfl⟩

theorem bearingOf {v : Value N} {b : Bool} (bears : bearsUsage v = .ok b) :
    bearing v = if b then some v else none := by
  unfold bearing
  rw [bears]
  cases b <;> simp [Except.toOption]

theorem lastBearingRecords {events : List (Value N)} (isRecord : ∀ v ∈ events, IsRecord v)
    (event : Option (Value N)) :
    lastBearing event events = .ok ((lastOf bearing events).or event) := by
  induction events generalizing event with
  | nil => rfl
  | cons candidate rest ih =>
    obtain ⟨own,later⟩ := List.forall_mem_cons.mp isRecord
    obtain ⟨b,bears⟩ := bearsRecord own
    rw [lastBearing,bears,okBind,ih later,lastOfOr,bearingOf bears]
    cases b <;> rfl

theorem claudeUsageRecord {event : Value N} (isRecord : IsRecord event) :
    ∃ usage, claudeUsage nonNegative event = .ok usage := by
  have read := propertyDefined (recordDefined isRecord)
  have own : ∀ v, asRecord (field "usage" event) = some v → IsRecord v := fun v => asRecordIs
  have perModel : ∀ v, (((asRecord (field "modelUsage" event)).bind firstEntry).bind
      fun e => asRecord e.2) = some v → IsRecord v := fun v found => by
    obtain ⟨entry,_,found⟩ := Option.bind_eq_some_iff.mp found
    exact asRecordIs found
  obtain ⟨input,hInput⟩ := chainedRecord own "input_tokens"
  obtain ⟨output,hOutput⟩ := chainedRecord own "output_tokens"
  obtain ⟨cache,hCache⟩ := chainedRecord own "cache_read_input_tokens"
  obtain ⟨modelInput,hModelInput⟩ := chainedRecord perModel "inputTokens"
  obtain ⟨modelOutput,hModelOutput⟩ := chainedRecord perModel "outputTokens"
  obtain ⟨modelCache,hModelCache⟩ := chainedRecord perModel "cacheReadInputTokens"
  obtain ⟨cost,hCost⟩ := chainedRecord perModel "costUSD"
  simp only [claudeUsage,read,okBind,hInput,hOutput,hCache,hModelInput,hModelOutput,hModelCache,
    hCost]
  exact ⟨_,rfl⟩

theorem claudeLast (stdout : Text) : ∃ usage, parseClaudeCliUsage f nonNegative stdout = .ok usage ∧
    match lastOf bearing (parseJsonObjects f stdout) with
    | none => usage = none
    | some event => claudeUsage nonNegative event = .ok usage := by
  rw [parseClaudeCliUsage,lastBearingRecords (objectsRecords stdout),Option.or_none,okBind]
  cases last : lastOf bearing (parseJsonObjects f stdout) with
  | none => exact ⟨none,rfl,rfl⟩
  | some event =>
    have isRecord : IsRecord event := by
      obtain ⟨v,listed,found⟩ := List.mem_filterMap.mp (List.mem_of_getLast? last)
      unfold bearing at found
      split at found <;> cases found
      exact objectsRecords stdout _ listed
    have returns : ∃ usage, claudeUsage nonNegative event = .ok usage := claudeUsageRecord isRecord
    obtain ⟨usage,returns⟩ := returns
    exact ⟨usage,returns,returns⟩

theorem tokenSourceRecord {event : Value N} (isRecord : IsRecord event) :
    ∃ source, codexTokenSource event = .ok source ∧ ∀ v, source = some v → IsRecord v := by
  have read := propertyDefined (recordDefined isRecord)
  have message : ∀ v, asRecord (field "msg" event) = some v → IsRecord v := fun v => asRecordIs
  obtain ⟨type,hType⟩ := chainedRecord message "type"
  obtain ⟨info,hInfo⟩ := chainedRecord message "info"
  have inner : ∀ v, asRecord info = some v → IsRecord v := fun v => asRecordIs
  obtain ⟨total,hTotal⟩ := chainedRecord inner "total_token_usage"
  simp only [codexTokenSource,read,okBind,hType,hInfo,hTotal]
  split
  · refine ⟨_,rfl,fun v found => ?_⟩
    rcases Option.or_eq_some_iff.mp found with found | ⟨_,found⟩
    · exact asRecordIs found
    · exact message v found
  · split
    · exact ⟨_,rfl,fun _ found => asRecordIs found⟩
    · exact ⟨none,rfl,nofun⟩

theorem modelNameRecord {event : Value N} (isRecord : IsRecord event) :
    ∃ name, modelName event = .ok name := by
  have message : ∀ v, asRecord (field "msg" event) = some v → IsRecord v := fun v => asRecordIs
  obtain ⟨model,hModel⟩ := chainedRecord message "model"
  simp only [modelName,propertyDefined (recordDefined isRecord),okBind,hModel]
  exact ⟨_,rfl⟩

theorem codexEventsRecords {events : List (Value N)} (isRecord : ∀ v ∈ events, IsRecord v)
    (state : CodexState N) :
    readCodexEvents state events = .ok ⟨(lastOf modelOf events).or state.model,
      (lastOf tokensOf events).or state.tokens⟩ := by
  induction events generalizing state with
  | nil => rfl
  | cons event rest ih =>
    obtain ⟨own,later⟩ := List.forall_mem_cons.mp isRecord
    obtain ⟨name,hName⟩ := modelNameRecord own
    obtain ⟨source,hSource,_⟩ := tokenSourceRecord own
    have model : modelOf event = name := by rw [modelOf,hName]; rfl
    have tokens : tokensOf event = source.map fun source => (source,event) := by
      rw [tokensOf,hSource]; rfl
    simp only [readCodexEvents,hName,hSource,okBind,ih later,lastOfOr,model,tokens]

theorem codexLast (stdout : Text) : ∃ usage, parseCodexCliUsage f nonNegative stdout = .ok usage ∧
    match lastOf tokensOf (parseJsonObjects f stdout) with
    | none => usage = none
    | some (tokens,raw) =>
        codexUsage nonNegative (lastOf modelOf (parseJsonObjects f stdout)) tokens raw = .ok usage := by
  rw [parseCodexCliUsage,codexEventsRecords (objectsRecords stdout)]
  simp only [okBind,Option.or_none]
  cases last : lastOf tokensOf (parseJsonObjects f stdout) with
  | none => exact ⟨none,rfl,rfl⟩
  | some pair =>
    obtain ⟨tokens,raw⟩ := pair
    have isRecord : IsRecord tokens := by
      obtain ⟨v,listed,found⟩ := List.mem_filterMap.mp (List.mem_of_getLast? last)
      obtain ⟨source,hSource,records⟩ := tokenSourceRecord (objectsRecords stdout v listed)
      rw [tokensOf,hSource] at found
      obtain ⟨_,own,same⟩ := Option.map_eq_some_iff.mp found
      cases same
      exact records tokens own
    simp only [codexUsage,propertyDefined (recordDefined isRecord),okBind]
    exact ⟨_,rfl,rfl⟩

def ReadsNumbers (f : NumberFormat N) : Prop := ∀ s, isNumeric (f.read s) = true

theorem expectIs {word : String} {v : Value N} {s rest : Text} {u : Value N}
    (read : expect word v s = some (u,rest)) : u = v := by
  unfold expect at read
  split at read <;> cases read
  rfl

theorem builtDefined {A : Type} {build : A → Value N} {read : Option (A × Text)} {v : Value N}
    {rest : Text} (built : (read.map fun (a,rest) => (build a,rest)) = some (v,rest))
    (own : ∀ a, build a ≠ .undefined) : v ≠ .undefined := by
  obtain ⟨⟨a,_⟩,_,same⟩ := Option.map_eq_some_iff.mp built
  cases same
  exact own a

theorem valueDefined (numbers : ReadsNumbers f) (fuel : Nat) {s rest : Text} {v : Value N}
    (read : parseValue f fuel s = some (v,rest)) : v ≠ .undefined := by
  cases fuel with
  | zero => cases read
  | succ fuel =>
    unfold parseValue at read
    split at read
    · cases read
    split at read
    · exact builtDefined read fun _ same => by cases same
    split at read
    · split at read
      · cases read
      split at read
      · cases read
        exact fun same => by cases same
      · exact builtDefined read fun _ same => by cases same
    split at read
    · split at read
      · cases read
      split at read
      · cases read
        exact fun same => by cases same
      · obtain ⟨⟨members,_⟩,_,same⟩ := Option.map_eq_some_iff.mp read
        cases same
        exact fun same => by cases same
    split at read
    · exact expectIs read ▸ fun same => by cases same
    split at read
    · exact expectIs read ▸ fun same => by cases same
    split at read
    · exact expectIs read ▸ fun same => by cases same
    unfold readNumber at read
    split at read <;> cases read
    intro undefined_
    have number := numbers (s.dropWhile blank |>.takeWhile numberUnit)
    simp_all [isNumeric]

theorem parseDefined (numbers : ReadsNumbers f) (s : Text) : parse f s ≠ some .undefined := by
  unfold parse
  split
  · next v rest read =>
    split
    · exact fun same => valueDefined numbers s.length read (Option.some.inj same)
    · exact nofun
  · exact nofun

theorem outputsRead (numbers : ReadsNumbers f) (stdout : Text) :
    LastWins f nonNegative stdout ↔
      (∀ line ∈ lines stdout, lineValue f line ≠ some .null) ∧
        ResultsSettled (values f stdout) := by
  have definedOf (plain : ∀ line ∈ lines stdout, lineValue f line ≠ some .null) :
      ∀ line ∈ lines stdout, ∀ v, lineValue f line = some v → Defined v := by
    rintro line listed v value
    refine ⟨fun null => plain line listed (null ▸ value),fun undefined_ => ?_⟩
    unfold lineValue at value
    split at value <;> try contradiction
    exact parseDefined numbers line (undefined_ ▸ value)
  constructor
  · intro wins
    have plain : ∀ line ∈ lines stdout, lineValue f line ≠ some .null := by
      intro line listed null
      obtain ⟨e,raised⟩ := readLinesNull ⟨[],[]⟩ (lines stdout) listed null
      have returned := wins.summary
      rw [extractClaudeSummary,raised] at returned
      cases returned
    have same := (summaryDefined (definedOf plain)).symm.trans wins.summary
    exact ⟨plain,(summarySettled _).mp (Except.ok.inj same)⟩
  · rintro ⟨plain,settled⟩
    refine ⟨?_,claudeLast stdout,codexLast stdout⟩
    rw [summaryDefined (definedOf plain),(summarySettled _).mpr settled]

end

def finished : Text := ascii
  "\x7b\"type\":\"result\",\"result\":\"Done\",\"total_cost_usd\":0\x7d\r\nBye\n[1]\n"

example : extractClaudeSummary ApiErrors.units finished = .ok (ascii "Done") := by decide +kernel

theorem outputsReadFinished :
    LastWins ApiErrors.units (fun _ => true) finished ↔
      (∀ line ∈ lines finished, lineValue ApiErrors.units line ≠ some .null) ∧
        ResultsSettled (values ApiErrors.units finished) :=
  outputsRead (fun _ => rfl) finished

def cutShort : Text := ascii
  ("\x7b\"type\":\"assistant\",\"message\":\x7b\"content\":[\x7b\"text\":\"B\"\x7d]\x7d\x7d\n" ++
    "\x7b\"type\":\"result\",\"result\":\"A\"\x7d\n\x7b\"type\":\"result\"\x7d\n")

theorem summaryFails : ¬LastWins ApiErrors.units (fun _ => true) (finished ++ ascii "null") ∧
    ¬LastWins ApiErrors.units (fun _ => true) cutShort := by
  constructor
  · intro wins
    have raised : extractClaudeSummary ApiErrors.units (finished ++ ascii "null") =
        .error "Cannot read properties of null (reading 'type')" := by decide +kernel
    have returned := wins.summary
    rw [raised] at returned
    cases returned
  · intro wins
    have older : extractClaudeSummary ApiErrors.units cutShort = .ok (ascii "A") := by decide +kernel
    have said : lastSummary (values ApiErrors.units cutShort) = ascii "B" := by decide +kernel
    have returned := wins.summary
    rw [older,said] at returned
    exact absurd (Except.ok.inj returned) (by decide)

end ControlCenter.CliOutput
