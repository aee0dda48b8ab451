import ControlCenter.AcceptedProgress
import ControlCenter.EventBatches
import ControlCenter.SealRoundTrip

/-! A report made to a node's session. A session whose store refuses none of its calls takes
it to the completion, which the report asks for last and returns as it is sealed. -/
namespace ControlCenter.SessionReports
open JsonValue ZodSchema AccpEnvelope AccpIds AccpMessages StateStore Dialogue Reliance Execution
open Operations ScriptRuns Session ActionLogic SessionFrames JournalRefinement SealedEnvelopes
open EventBatches ExecutionProgress CoordinatorBridge AcceptedExecution AcceptedProgress SealRoundTrip

def Fault.text : Fault → String
  | .store message | .thrown message => message

section
variable {σ κ : Type} [NodeStateStore σ] (n : Node κ)

def perform : (r : Report) → SessionM σ κ (ReportAnswer r)
  | .emitEvent kind data ids now => do
      let _ ← emitEvent n kind data ids now
      pure ()
  | .nodeCursor => do
      let s ← get
      pure s.nodeCursor
  | .proposeCompletion payload now => proposeCompletion n payload now

def advance {α : Type} : Reported α → NodeSession σ κ → Reported α × NodeSession σ κ
  | .ask (.inr r) next,s =>
    advance (next ((perform n r s).1.mapError Fault.text)) (perform n r s).2
  | p,s => (p,s)

def Unrefused {α : Type} : Reported α → NodeSession σ κ → Prop
  | .ask (.inr r) next,s => (∀ fault, (perform n r s).1 = .error fault → ¬storeFault fault) ∧
      s.nodeCursor ≤ 9007199254740991 ∧
      Unrefused (next ((perform n r s).1.mapError Fault.text)) (perform n r s).2
  | _,_ => True

end

section
variable {σ κ α β : Type}

def FailsWith (E : Fault → Prop) (m : SessionM σ κ α) : Prop :=
  ∀ s, wp m (fun _ _ => True) (fun fault _ => E fault) s

variable {E : Fault → Prop} {m : SessionM σ κ α} {f : α → SessionM σ κ β}

theorem failsBind (first : FailsWith E m) (rest : ∀ a, FailsWith E (f a)) : FailsWith E (m >>= f) :=
  fun s => (wpBind m f _ _ s).mpr (wpMono (first s) (fun a t _ => rest a t) fun _ _ => id)

theorem failsPure (a : α) : FailsWith E (pure a : SessionM σ κ α) := fun _ => trivial

theorem failsGet : FailsWith E (get : SessionM σ κ (NodeSession σ κ)) := fun _ => trivial

theorem failsChanging (f : NodeSession σ κ → NodeSession σ κ) : FailsWith E (changing f) := fun _ => trivial

theorem failsThrow {r : Except String α} (each : ∀ message, r = .error message → E (.thrown message)) :
    FailsWith E (orThrow r : SessionM σ κ α) := by
  cases r with
  | ok a => exact fun _ => trivial
  | error message => exact fun _ => each message rfl

variable (refused : ∀ message, E (.store message))
include refused

theorem failsStore (m : StoreM σ α) : FailsWith E (onStore m : SessionM σ κ α) := fun s => by
  unfold wp onStore
  rcases m s.store with ⟨a | message,store⟩
  · exact refused a
  · trivial

variable [NodeStateStore σ] (n : Node κ)

theorem failsDrops (fuel unacked : List NodeEvent) (dropped : List Nat) :
    FailsWith E (dropVictims n fuel unacked dropped : SessionM σ κ (List Nat)) := by
  induction fuel generalizing unacked dropped with
  | nil => exact failsPure _
  | cons _ fuel ih =>
    unfold dropVictims
    split
    · exact failsPure _
    split
    · exact failsPure _
    · exact failsBind (failsStore refused _) fun _ => failsBind failsGet fun _ =>
        failsBind (failsStore refused _) fun _ => ih _ _

theorem failsRecords (ranges : List (Nat × Nat)) :
    FailsWith E (recordTruncations ranges : SessionM σ κ Unit) := by
  induction ranges with
  | nil => exact failsPure _
  | cons range rest ih => exact failsBind (failsStore refused _) fun _ => ih

theorem failsBounds : FailsWith E (enforceBufferBounds n : SessionM σ κ Unit) := by
  refine failsBind failsGet fun s => failsBind (failsStore refused _) fun unacked => ?_
  split
  · exact failsPure _
  · exact failsBind (failsDrops refused n _ _ _) fun _ => failsRecords refused _

omit [NodeStateStore σ] refused in
theorem failsDraw {now : Int} (clock : InClock now) :
    FailsWith E (drawUuid n now : SessionM σ κ String) := by
  refine failsBind failsGet fun s => failsBind (failsChanging _) fun _ => failsThrow fun message failed => ?_
  have drawn := (uuidReturns now (n.platform.randomBytes s.draws)).mpr clock
  rw [failed] at drawn
  contradiction

theorem failsEmit (kind : String) (data : List (String × Json)) (ids : EventIds) {now : Int}
    (clock : InClock now) : FailsWith E (emitEvent n kind data ids now : SessionM σ κ NodeEvent) :=
  failsBind failsGet fun _ => failsBind (failsDraw n clock) fun _ =>
    failsBind (failsStore refused _) fun _ => failsBind (failsChanging _) fun _ =>
      failsBind (failsBounds refused n) fun _ => failsPure _

omit [NodeStateStore σ] refused in
theorem failsSeal (type : String) {payload : Json} {now : Int} (extra : Extra) (clock : InClock now)
    (written : canonical payload = true) :
    FailsWith E (sealMessage n type payload now extra : SessionM σ κ Envelope) := fun s =>
  wpMono (sealSpec n type payload now extra s) (fun _ _ _ => trivial)
    fun _ _ failed => absurd ⟨clock,written⟩ failed.2

theorem failsBatches {now : Int} (clock : InClock now) (limit : Nat) {batches : List (List NodeEvent)}
    (written : ∀ events ∈ batches, ∀ e ∈ events, canonical e.toJson = true) (out : List Envelope) :
    FailsWith E (sealBatches n now limit batches out : SessionM σ κ (List Envelope)) := by
  induction batches generalizing out with
  | nil => exact failsPure _
  | cons events rest ih =>
    have items : canonicalItem (events.map NodeEvent.toJson) = true := by
      have each := written events List.mem_cons_self
      clear written ih
      induction events with
      | nil => rfl
      | cons e later ih =>
        obtain ⟨first,others⟩ := List.forall_mem_cons.mp each
        show (canonical e.toJson && canonicalItem (later.map NodeEvent.toJson)) = true
        rw [first,ih others]
        rfl
    have payload (id : String) (truncated : Bool) :
        canonical (batchPayload id events truncated) = true := by
      simp [batchPayload,canonical,canonicalMember,items,Json.nat]
    refine failsBind (failsBind (failsDraw n clock) fun id => failsBind (failsStore refused _)
      fun truncations => failsSeal n _ _ clock (payload id _)) fun envelope => ?_
    dsimp only
    split
    · exact failsPure _
    · exact ih (fun events listed => written events (List.mem_cons_of_mem _ listed)) _

theorem failsFlush {now : Int} (clock : InClock now) {fromCursor : Option Nat} {s : NodeSession σ κ}
    (written : s.connected = true → ∀ pending store,
      NodeStateStore.eventsAfter (fromCursor.getD s.ackedCursor) s.store = (.ok pending,store) →
        ∀ e ∈ pending, canonical e.toJson = true) :
    wp (flush n now fromCursor : SessionM σ κ (List Envelope)) (fun _ _ => True)
      (fun fault _ => E fault) s := by
  unfold flush
  rw [wpBind,wpGet]
  split
  · rename_i welcome connected _
    rw [wpBind]
    refine wpIntro (fun pending t read => ?_) fun fault t read =>
      wpError (E := fun fault _ => E fault) (failsStore (κ := κ) refused _ s) read
    refine failsBatches refused n clock _ (fun events batched e listed => ?_) _ t
    have found : ∃ store, NodeStateStore.eventsAfter (fromCursor.getD s.ackedCursor) s.store =
        (.ok pending,store) := by
      unfold onStore at read
      rcases ran : NodeStateStore.eventsAfter (fromCursor.getD s.ackedCursor) s.store with
        ⟨message | found,store⟩
      · rw [ran] at read
        cases read
      · rw [ran] at read
        cases read
        exact ⟨store,rfl⟩
    obtain ⟨store,ran⟩ := found
    refine written connected pending store ran e ?_
    rw [← allFlatten welcome pending]
    exact List.mem_flatten.mpr ⟨events,batched,listed⟩
  · trivial

end

structure Offered (offer : Json) : Prop where
  runId : accepts uuidSchema (offer.get "runId") = true
  taskId : accepts uuidSchema (offer.get "taskId") = true
  taskRevision : accepts positive (offer.get "taskRevision") = true
  planRevision : accepts sha256HexSchema (planRevisionDigest offer) = true

def Writes (schema : Schema) : Prop := ∀ v parsed, schema v = some parsed → canonical parsed = true

theorem writesText (check : String → Bool) : Writes (stringThat check) := fun v parsed h => by
  obtain ⟨s,rfl,_⟩ := stringThatText h
  rfl

theorem writesInteger (low : Int) : Writes (integerFrom low) := fun v parsed h => by
  obtain rfl := integerFromSame h
  cases parsed with
  | number m => cases m <;> first | rfl | cases h
  | _ => cases h

theorem writesFields {v : Json} {shape : List Field} {parsed : List (String × Json)}
    (each : ∀ f ∈ shape, Writes f.schema ∧ ∀ value, f.presence ≠ .byDefault value)
    (h : fields v shape = some parsed) : canonicalMember parsed = true := by
  induction shape generalizing parsed with
  | nil =>
    cases Option.some.inj h
    rfl
  | cons f rest ih =>
    obtain ⟨first,others⟩ := List.forall_mem_cons.mp each
    obtain ⟨tail,found,⟨_,_,rfl⟩ | ⟨value,rfl,own | ⟨_,default⟩⟩⟩ := fieldsSource h
    · exact ih others found
    · have written := first.1 _ _ own
      cases value with
      | undefined => cases written
      | _ => exact Bool.and_eq_true_iff.mpr ⟨written,ih others found⟩
    · exact absurd default (first.2 value)

theorem writesObject {shape : List Field}
    (each : ∀ f ∈ shape, Writes f.schema ∧ ∀ value, f.presence ≠ .byDefault value) :
    Writes (object shape) := fun v parsed h => by
  cases v with
  | object members =>
    obtain ⟨out,found,last⟩ := Option.bind_eq_some_iff.mp h
    cases Option.some.inj last
    exact writesFields each found
  | _ => cases h

theorem completionWrites : Writes runCompletionProposedSchema := by
  refine writesObject fun f listed => ?_
  simp only [List.mem_cons,List.not_mem_nil,or_false] at listed
  have text (check : String → Bool) {presence : Presence} (given : ∀ value, presence ≠ .byDefault value) :
      Writes (stringThat check) ∧ ∀ value, presence ≠ .byDefault value := ⟨writesText check,given⟩
  rcases listed with rfl | rfl | rfl | rfl | rfl | rfl | rfl | rfl | rfl
  · exact text _ (fun _ => Presence.noConfusion)
  · exact text _ (fun _ => Presence.noConfusion)
  · exact ⟨writesInteger _,fun _ => Presence.noConfusion⟩
  · exact text _ (fun _ => Presence.noConfusion)
  · exact text _ (fun _ => Presence.noConfusion)
  · exact text _ (fun _ => Presence.noConfusion)
  · exact text _ (fun _ => Presence.noConfusion)
  · exact ⟨writesInteger _,fun _ => Presence.noConfusion⟩
  · refine ⟨writesObject fun f listed => ?_,fun _ => Presence.noConfusion⟩
    simp only [List.mem_cons,List.not_mem_nil,or_false] at listed
    rcases listed with rfl | rfl
    · exact text _ (fun _ => Presence.noConfusion)
    · exact text _ (fun _ => Presence.noConfusion)

theorem completionSchema (p : Platform) :
    schemaOf p "run.completion_proposed" = some runCompletionProposedSchema := by
  simp [schemaOf,messageSchemas]

theorem fitsExactly (text : String) (rest : ZodSchema.Pattern) (l : List Char) :
    fits (exactly text ++ rest) (text.toList ++ l) = fits rest l := by
  unfold exactly
  induction text.toList with
  | nil => rfl
  | cons c cs ih => simpa [fits] using ih

theorem hexAccepted {p : Platform} (hashes : Hashes p) (text : String) :
    accepts sha256HexSchema (.string (p.sha256Hex text)) = true := by
  have digest := hashes text
  rw [String.toList_append,fitsExactly] at digest
  exact (stringAccepted _ _).trans digest

theorem digestHex {p : Platform} (hashes : Hashes p) {value : Json} {digest : String}
    (h : sha256Hex p value = .ok digest) : accepts sha256HexSchema (.string digest) = true := by
  unfold sha256Hex at h
  cases written : canonicalJson p value with
  | error message =>
    rw [written] at h
    cases h
  | ok text =>
    rw [written] at h
    cases h
    exact hexAccepted hashes text

theorem offerOffered {p : Platform} {offer : Json}
    (h : accepts (workOfferSchema p) offer = true) : Offered offer := by
  obtain ⟨parsed,h⟩ := Option.isSome_iff_exists.mp h
  have task := objectField h (by simp [field]) (f := field "taskId" uuidSchema) (by simp) rfl
  have run := objectField h (by simp [field]) (f := field "runId" uuidSchema) (by simp) rfl
  have revision := objectField h (by simp [field]) (f := field "taskRevision" positive) (by simp) rfl
  have plan := objectField h (by simp [field]) (f := field "planRevision" (object
     [field "digest" sha256HexSchema,field "baseCommit" gitShaSchema])) (by simp) rfl
  have digest := objectField plan (by decide) (f := field "digest" sha256HexSchema) (by simp) rfl
  exact ⟨Option.isSome_iff_exists.mpr ⟨_,run⟩,Option.isSome_iff_exists.mpr ⟨_,task⟩,
    Option.isSome_iff_exists.mpr ⟨_,revision⟩,Option.isSome_iff_exists.mpr ⟨_,digest⟩⟩

theorem acceptedWrites {schema : Schema} {v : Json} (writes : Writes schema)
    (same : ∀ parsed, schema v = some parsed → parsed = v) (h : accepts schema v = true) :
    canonical v = true := by
  obtain ⟨parsed,found⟩ := Option.isSome_iff_exists.mp h
  obtain rfl := same parsed found
  exact writes _ _ found

section
variable {offer : Json} (offered : Offered offer)
include offered

theorem Offered.digestible : Digestible offer := by
  have run := acceptedWrites (writesText _) (fun _ => stringThatSame) offered.runId
  have revision := acceptedWrites (writesInteger _) (fun _ => integerFromSame) offered.taskRevision
  have plan := acceptedWrites (writesText _) (fun _ => stringThatSame) offered.planRevision
  have cons {key : String} {v : Json} {rest : List (String × Json)} (value : canonical v = true)
      (tail : canonicalMember rest = true) : canonicalMember ((key,v)::rest) = true := by
    cases v with
    | undefined => cases value
    | _ => exact Bool.and_eq_true_iff.mpr ⟨value,tail⟩
  exact cons run (cons revision (cons plan rfl))

theorem Offered.completes {completion evidence : String}
    (completed : accepts sha256HexSchema (.string completion) = true)
    (evident : accepts sha256HexSchema (.string evidence) = true) (result : RunTaskResult)
    {cursor : Nat} (safe : cursor ≤ 9007199254740991) :
    accepts runCompletionProposedSchema
      (completionPayload offer (completionOutcome result) completion evidence cursor) = true := by
  have outcome : accepts (oneOf ["succeeded","failed","stopped","stale","unknown"])
      (.string (completionOutcome result)) = true := by
    unfold completionOutcome
    split <;> rfl
  have final : accepts cursorSchema (.nat cursor) = true :=
    (naturalAccepted 0 cursor).mpr ⟨Int.natCast_nonneg cursor,safe⟩
  unfold completionPayload runCompletionProposedSchema
  rw [objectPass]
  simp only [List.all_cons,List.all_nil,requiredPass,Bool.and_true,Bool.and_eq_true]
  exact ⟨⟨rfl,offered.runId⟩,⟨rfl,offered.taskId⟩,⟨rfl,offered.taskRevision⟩,
    ⟨rfl,offered.planRevision⟩,⟨rfl,outcome⟩,⟨rfl,completed⟩,⟨rfl,evident⟩,⟨rfl,final⟩,rfl⟩

end

def Proposable (p : Platform) (payload : Json) : Prop := ∃ completion,
  parsePayload p "run.completion_proposed" payload = .ok completion ∧ canonical completion = true

theorem completionProposable {p : Platform} {payload : Json}
    (h : accepts runCompletionProposedSchema payload = true) : Proposable p payload := by
  obtain ⟨completion,found⟩ := Option.isSome_iff_exists.mp h
  refine ⟨completion,?_,completionWrites _ _ found⟩
  simp only [parsePayload,completionSchema,Option.bind_some,found]

def Sendable (p : Platform) : KernelQuestion ⊕ Report → Prop
  | .inr (.emitEvent _ _ _ now) => InClock now
  | .inr (.proposeCompletion payload now) => InClock now ∧ Proposable p payload
  | _ => True

def Shown (taskId : String) : Met
  | .inl q,a => ReadsJointly (Stored taskId) q a
  | .inr .nodeCursor,(cursor : Nat) => cursor ≤ 9007199254740991
  | .inr _,_ => True

theorem offerReportable {p : Platform} {offer : Json} {now : Int} {taskId : String}
    (hashes : Hashes p) (clock : InClock now) (offered : Offered offer) :
    Reportable (Stored taskId) p offer now (Sendable p) (Shown taskId) where
  kernel _ := trivial
  reads _ _ known := known
  emits _ _ := clock
  cursor := trivial
  proposes _ _ _ _ result _ basis manifest safe := ⟨clock,completionProposable
    (offered.completes (digestHex hashes basis) (digestHex hashes manifest) result safe)⟩

def Proposal : KernelQuestion ⊕ Report → Prop
  | .inr (.proposeCompletion _ _) => True
  | _ => False

def Returned : (q : KernelQuestion ⊕ Report) → Sum.elim KernelAnswer ReportAnswer q →
    ExecutionOutcome → Prop
  | .inr (.proposeCompletion _ _),(envelope : Envelope),outcome => outcome.completionEnvelope = envelope
  | _,_,_ => True

section
variable {p : Platform} {offer : Json} {now : Int} {taskId : String}

theorem kernelProposes {α : Type} (q : TaskCrew α) : Asks (fun q => ¬Proposal q) (kernel q) :=
  asksWithin (fun _ _ => id) (asksAny q)

theorem reportProposes {r : Report} (other : ¬Proposal (.inr r)) :
    Asks (fun q => ¬Proposal q) (report r) := ⟨other,fun r => by cases r <;> trivial⟩

theorem exceptProposes {α : Type} (r : Except String α) :
    Asks (fun q => ¬Proposal q) (Script.ofExcept r : Reported α) := by
  cases r <;> trivial

theorem mirrorProposes (events : List Db.EventRow) :
    Asks (fun q => ¬Proposal q) (mirrorEvents offer now taskId events) := by
  induction events with
  | nil => trivial
  | cons event rest ih => exact asksBind (reportProposes id) fun _ => ih

theorem reportCloses (runResult : RunTaskResult) :
    Closes Proposal Returned (reportExecution p offer now taskId runResult) := by
  refine closesBind (kernelProposes _) fun found => ?_
  cases found with
  | none => trivial
  | some aggregate =>
    exact closesBind (kernelProposes _) fun _ => closesBind (mirrorProposes _) fun _ =>
      closesBind (reportProposes id) fun _ => closesBind (exceptProposes _) fun _ =>
      closesBind (exceptProposes _) fun _ => closesBind (reportProposes id) fun _ =>
      ⟨fun _ envelope => ⟨_,rfl,rfl⟩,fun other => absurd trivial other⟩

structure Underway (p : Platform) (taskId : String) (script : Reported ExecutionOutcome) : Prop where
  succeeds : Succeeds (Sendable p) (Shown taskId) (fun _ => True) script
  closes : Closes Proposal Returned script

theorem reportUnderway (hashes : Hashes p) (clock : InClock now) (offered : Offered offer)
    (runResult : RunTaskResult) : Underway p taskId (reportExecution p offer now taskId runResult) :=
  ⟨succeedsAny (reportingEnds (offerReportable hashes clock offered) (fun _ => id)
    offered.digestible runResult),reportCloses runResult⟩

end

structure SameConnection {σ κ : Type} (s t : NodeSession σ κ) : Prop where
  connected : t.connected = s.connected
  sessionId : t.sessionId = s.sessionId

theorem connectionServing {σ κ : Type} :
    Serving (SameConnection : NodeSession σ κ → NodeSession σ κ → Prop) where
  refl _ := ⟨rfl,rfl⟩
  trans _ _ _ front back :=
    ⟨back.connected.trans front.connected,back.sessionId.trans front.sessionId⟩
  outSeq _ _ := ⟨rfl,rfl⟩
  draws _ _ := ⟨rfl,rfl⟩
  store _ _ := ⟨rfl,rfl⟩
  kernelState _ _ := ⟨rfl,rfl⟩
  nodeCursor _ _ := ⟨rfl,rfl⟩
  ackedCursor _ _ := ⟨rfl,rfl⟩
  offerAnswers _ _ := ⟨rfl,rfl⟩

section
variable {σ κ : Type} [NodeStateStore σ] (n : Node κ)

theorem framePerform (r : Report) (s : NodeSession σ κ) : SameConnection s (perform n r s).2 := by
  cases r with
  | emitEvent kind data ids now =>
    exact (frameSeq connectionServing.trans
      (frameEmit connectionServing.journaling n kind data ids now) fun _ =>
        framePure () connectionServing.refl).always s
  | nodeCursor => exact connectionServing.refl s
  | proposeCompletion payload now =>
    exact (framePropose connectionServing.toSealing n payload now).always s

theorem performTaken {r : Report} {taskId : String} {s : NodeSession σ κ}
    (sendable : Sendable n.platform (.inr r))
    (unrefused : ∀ fault, (perform n r s).1 = .error fault → ¬storeFault fault)
    (safe : s.nodeCursor ≤ 9007199254740991) :
    ∃ a, (perform n r s).1 = .ok a ∧ Shown taskId (.inr r) a := by
  have taken {α : Type} {m : SessionM σ κ α} (fails : FailsWith storeFault m)
      (unrefused : ∀ fault, (m s).1 = .error fault → ¬storeFault fault) : ∃ a, (m s).1 = .ok a := by
    have failed := fails s
    cases ran : m s with
    | mk result t =>
    cases result with
    | ok a => exact ⟨a,rfl⟩
    | error fault => exact absurd (wpError failed ran) (unrefused fault (by rw [ran]))
  cases r with
  | emitEvent kind data ids now =>
    obtain ⟨a,returned⟩ := taken (failsBind
      (failsEmit (fun _ => trivial) n kind data ids sendable) fun _ => failsPure ()) unrefused
    exact ⟨a,returned,trivial⟩
  | nodeCursor => exact ⟨s.nodeCursor,rfl,safe⟩
  | proposeCompletion payload now =>
    obtain ⟨clock,completion,parsed,written⟩ := sendable
    have fails : FailsWith storeFault (proposeCompletion n payload now : SessionM σ κ Envelope) := by
      unfold proposeCompletion
      rw [parsed]
      exact failsSeal n _ _ clock written
    obtain ⟨envelope,returned⟩ := taken fails unrefused
    exact ⟨envelope,returned,trivial⟩

omit [NodeStateStore σ] in
theorem proposedSession {payload : Json} {now : Int} {s t : NodeSession σ κ} {envelope : Envelope}
    (proposed : proposeCompletion n payload now s = (.ok envelope,t)) :
    envelope.sessionId = s.sessionId := by
  have spec : wp (proposeCompletion n payload now : SessionM σ κ Envelope)
      (fun e _ => e.sessionId = s.sessionId) (fun _ _ => True) s := by
    unfold proposeCompletion
    rw [wpBind,wpOrThrow]
    split
    · exact wpMono (sealSpec n _ _ now _ s) (fun _ _ sealed => sealed.1.sessionId) fun _ _ _ => trivial
    · trivial
  exact wpOk (Q := fun e _ => e.sessionId = s.sessionId) spec proposed

theorem advanceSame {α : Type} (script : Reported α) (s : NodeSession σ κ) :
    SameConnection s (advance n script s).2 := by
  induction script generalizing s with
  | done | fail => exact connectionServing.refl s
  | ask q next ih =>
    cases q with
    | inl q => exact connectionServing.refl s
    | inr r =>
      rw [advance]
      exact connectionServing.trans _ _ _ (framePerform n r s) (ih _ _)

theorem advanceUnderway {taskId : String} {script : Reported ExecutionOutcome} {s : NodeSession σ κ}
    (underway : Underway n.platform taskId script) (unrefused : Unrefused n script s) :
    (∃ outcome t, advance n script s = (.done outcome,t) ∧ SameConnection s t ∧
      outcome.completionEnvelope.sessionId = s.sessionId) ∨
    ∃ q next t, advance n script s = (.ask (.inl q) next,t) ∧ SameConnection s t ∧
      Underway n.platform taskId (.ask (.inl q) next) := by
  induction script generalizing s with
  | done outcome => exact underway.closes.elim
  | fail error => exact underway.succeeds.elim
  | ask q next ih =>
    cases q with
    | inl q => exact .inr ⟨q,next,s,rfl,connectionServing.refl s,underway⟩
    | inr r =>
      obtain ⟨taken,safe,later⟩ := unrefused
      obtain ⟨sendable,goesOn⟩ := underway.succeeds
      obtain ⟨a,returned,shown⟩ := performTaken n sendable taken safe
      have same : advance n (.ask (.inr r) next) s = advance n (next (.ok a)) (perform n r s).2 := by
        rw [advance,returned]
        rfl
      have later : Unrefused n (next (.ok a)) (perform n r s).2 := by
        rw [returned] at later
        exact later
      have linked := framePerform n r s
      rw [same]
      by_cases proposal : Proposal (.inr r)
      · obtain ⟨outcome,ended,own⟩ := underway.closes.1 proposal a
        refine .inl ⟨outcome,(perform n r s).2,by rw [ended]; rfl,linked,?_⟩
        cases r with
        | proposeCompletion payload now =>
          rw [show outcome.completionEnvelope = a from own]
          exact proposedSession n (Prod.ext returned rfl)
        | _ => exact proposal.elim
      · rcases ih _ ⟨goesOn a shown,underway.closes.2 proposal _⟩ later with
          ⟨outcome,t,ran,further,own⟩ | ⟨q,next,t,ran,further,underway⟩
        · exact .inl ⟨outcome,t,ran,connectionServing.trans _ _ _ linked further,
            own.trans linked.sessionId⟩
        · exact .inr ⟨q,next,t,ran,connectionServing.trans _ _ _ linked further,underway⟩

end

end ControlCenter.SessionReports
