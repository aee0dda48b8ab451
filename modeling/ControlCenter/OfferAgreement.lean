import ControlCenter.OfferLedger

/-! One idempotency key has one answer, as long as the store reads the keys back as they are.
An answer is in the store before it is returned, and a key whose answer is there never reaches
the kernel again. -/
namespace ControlCenter.OfferAgreement
open JsonValue AccpEnvelope AccpMessages StateStore Session ActionLogic JournalRefinement
open SessionRuns Admission DurableRecords OfferLedger SealedEnvelopes
open OverAcknowledgement (after afterAppend unexcused)

variable {σ κ : Type} (n : Node κ) [NodeStateStore σ]

def CrashesRestart : NodeSession σ κ → List (Operation κ) → Prop
  | _,[] => True
  | s,op::rest => (unexcused n s op ∨ ∀ next, rest.head? = some next →
        ∃ kernelState, next = .restart kernelState ∧ (next.perform n (op.perform n s).2).1 = .ok ()) ∧
      CrashesRestart (op.perform n s).2 rest

variable [RecordStore σ]

def KeysKept : NodeSession σ κ → List (Operation κ) → Prop
  | _,[] => True
  | s,op::rest => (∀ envelope offer, deliveredOffer n s op = some (envelope,offer) →
      KeyKept σ (idemOf envelope)) ∧ KeysKept (op.perform n s).2 rest

def recordedAnswer (s : NodeSession σ κ) (key : String) : Option OfferAnswer :=
  (stored s).rows.lookup (RecordStore.bound σ key)

def Durable (s : NodeSession σ κ) (sealed : Envelope) : Prop :=
  ∃ key, sealed.idempotencyKey = some key ∧
    recordedAnswer s key = some ⟨sealed.type,sealed.payload⟩

def Loaded (s : NodeSession σ κ) (sealed : Envelope) : Prop :=
  ∃ key, sealed.idempotencyKey = some key ∧
    (stored s).answers.lookup key = some ⟨sealed.type,sealed.payload⟩

def Faithful (s : NodeSession σ κ) : Prop := ∀ key, KeyKept σ key →
  recordedAnswer s key = (stored s).answers.lookup key

def Answerable (s : NodeSession σ κ) : Prop :=
  ∀ key answer, (stored s).answers.lookup key = some answer → answer.type ∈ answerTypes

def Settled (s : NodeSession σ κ) : Prop := s.offerAnswers = (stored s).answers

def Ready (s : NodeSession σ κ) (op : Operation κ) : Prop :=
  Settled s ∨ ∃ kernelState, op = .restart kernelState ∧ (op.perform n s).1 = .ok ()

def Extends (s t : NodeSession σ κ) : Prop := ∀ key answer,
  (stored s).answers.lookup key = some answer → (stored t).answers.lookup key = some answer

omit [NodeStateStore σ] [RecordStore σ] in
theorem answerKnown {p : Platform} {type : String} (h : type ∈ answerTypes) :
    isAccpMessageType p type = true := by
  simp only [answerTypes,List.mem_cons,List.not_mem_nil,or_false] at h
  rcases h with rfl | rfl <;> simp [isAccpMessageType,schemaOf,messageSchemas]

theorem settledHeld {s : NodeSession σ κ} (settled : Settled s) (answerable : Answerable s)
    {key : String} : heldAnswer n s key = (stored s).answers.lookup key := by
  rw [heldAnswer,settled]
  cases found : (stored s).answers.lookup key with
  | none => rfl
  | some answer =>
    rw [Option.filter_some,answerKnown (answerable key answer found)]
    rfl

structure AgreementStep (s t : NodeSession σ κ) (op : Operation κ) : Prop where
  grown : Extends s t
  answerable : Answerable t
  loaded : ∀ sealed ∈ answersBy n s op, Loaded t sealed
  faithful : Faithful t
  settled : unexcused n s op → Settled t

theorem sameStep {s t : NodeSession σ κ} {op : Operation κ} (answerable : Answerable s)
    (faithful : Faithful s) (same : (stored t).held = (stored s).held)
    (loaded : ∀ sealed ∈ answersBy n s op, Loaded t sealed)
    (settled : unexcused n s op → Settled t) : AgreementStep n s t op := by
  have answers : (stored t).answers = (stored s).answers := congrArg Prod.fst same
  have rows : (stored t).rows = (stored s).rows := congrArg Prod.snd same
  refine ⟨fun key answer found => by rw [answers]; exact found,
    fun key answer found => answerable key answer (by rw [← answers]; exact found),loaded,
    fun key own => ?_,settled⟩
  rw [recordedAnswer,rows,answers]
  exact faithful key own

omit [NodeStateStore σ] [RecordStore σ] in
theorem keptApart {σ : Type} [NodeStateStore σ] [RecordStore σ] {key other : String}
    (own : KeyKept σ key) (own' : KeyKept σ other) (apart : key ≠ other) :
    RecordStore.bound σ key ≠ RecordStore.bound σ other := fun same => apart (by
  have reads : loadedKey σ key = loadedKey σ other := congrArg (RecordStore.read σ) same
  exact own.symm.trans (reads.trans own'))

theorem savedFaithful {s t : NodeSession σ κ} (faithful : Faithful s) {idem : String}
    (own : KeyKept σ idem) (absent : (stored s).answers.lookup idem = none)
    {answer : OfferAnswer} (saved : stored t = savedContents s.store idem answer) :
    Faithful t := by
  intro key kept
  have rows : (stored t).rows = (stored s).rows.insert (RecordStore.bound σ idem) answer :=
    congrArg Contents.rows saved
  have answers : (stored t).answers = (stored s).answers.insert idem answer :=
    congrArg Records.answers
      ((congrArg Contents.toRecords saved).trans (savedBack (.fresh own absent) answer))
  rw [recordedAnswer,rows,answers]
  by_cases same : key = idem
  · rw [same,Finmap.lookup_insert,Finmap.lookup_insert]
  · rw [Finmap.lookup_insert_of_ne _ (keptApart kept own same),Finmap.lookup_insert_of_ne _ same]
    exact faithful key kept

theorem answerReplayed {s : NodeSession σ κ} {op : Operation κ} (settled : Settled s)
    (answerable : Answerable s) (undecided : decidedBy n s op = none) {sealed : Envelope}
    (listed : sealed ∈ answersBy n s op) : Loaded s sealed := by
  cases offered : deliveredOffer n s op with
  | none =>
    rw [unoffered n offered] at listed
    contradiction
  | some delivered =>
    obtain ⟨envelope,offer⟩ := delivered
    obtain ⟨raw,now,rfl,source⟩ := offerSource n offered
    obtain ⟨_,answer,returned⟩ := offerAnswered n source listed
    rcases returned.source with held | decided
    · rw [settledHeld n settled answerable] at held
      exact ⟨_,returned.key,by rw [held,returned.type,returned.payload]⟩
    · rw [undecided] at decided
      contradiction

theorem agreementStep {s : NodeSession σ κ} {op : Operation κ} (answerable : Answerable s)
    (faithful : Faithful s) (ready : Ready n s op)
    (kept : ∀ envelope offer, deliveredOffer n s op = some (envelope,offer) →
      KeyKept σ (idemOf envelope)) : AgreementStep n s (op.perform n s).2 op := by
  rcases ready with settled | ⟨kernelState,rfl,returned⟩
  · rcases answersStep n s op with ⟨undecided,same | ⟨_,_,cache,store⟩⟩ | ⟨d,chosen,answered⟩
    · refine sameStep n answerable faithful same.2 (fun sealed listed => ?_) fun _ => ?_
      · obtain ⟨key,named,found⟩ := answerReplayed n settled answerable undecided listed
        exact ⟨key,named,by rw [same.loaded]; exact found⟩
      · exact same.1.trans (settled.trans same.loaded.symm)
    · have loaded : (stored (op.perform n s).2).answers = (stored s).answers :=
        congrArg Prod.fst store
      refine sameStep n answerable faithful store (fun sealed listed => ?_)
        fun _ => cache.trans loaded.symm
      obtain ⟨key,named,found⟩ := answerReplayed n settled answerable undecided listed
      exact ⟨key,named,by rw [loaded]; exact found⟩
    · obtain ⟨raw,now,envelope,rfl,source⟩ := decidedSource n chosen
      obtain ⟨decision,_,_,answer⟩ := source.decided
      obtain ⟨plain,type⟩ := answerPlain (offerTexts source.offer.parsed) decision now
      rw [← answer] at plain type
      obtain ⟨cache,store⟩ := answeredReceive n source
      rw [Operation.perform,discardingState]
      cases saving : (NodeStateStore.saveOfferAnswer d.idem d.answer.type d.answer.payload
        s.store).1 with
      | error message =>
        rw [saving] at store
        obtain ⟨same,failed⟩ := store
        refine sameStep n answerable faithful (congrArg Contents.held same)
          (fun sealed listed => ?_) fun clean => ?_
        · rw [answersBy,failed] at listed
          contradiction
        · exact absurd trivial (clean _ (discardingError failed))
      | ok _ =>
        rw [saving] at store
        rw [RecordStore.keptPlain plain] at store
        have unheld : (stored s).answers.lookup d.idem = none := by
          rw [← settledHeld n settled answerable,source.idem,source.unheld]
        have own : KeyKept σ d.idem := by
          rw [source.idem]
          exact kept _ _ (OfferDelivered.listed n source.offer)
        have answers : (stored (receive n raw now s).2).answers =
            (stored s).answers.insert d.idem d.answer := congrArg Records.answers
          ((congrArg Contents.toRecords store).trans (savedBack (.fresh own unheld) _))
        have agree : Settled (receive n raw now s).2 := by
          refine (congrArg Records.answers cache).trans (Eq.trans ?_ answers.symm)
          exact congrArg (Finmap.insert d.idem d.answer) settled
        refine ⟨fun key a found => ?_,fun key a found => ?_,fun sealed listed => ?_,
          savedFaithful faithful own unheld store,fun _ => ?_⟩
        · rw [answers]
          have other : key ≠ d.idem := fun same => by rw [same,unheld] at found; contradiction
          exact (Finmap.lookup_insert_of_ne _ other).trans found
        · rw [answers] at found
          by_cases same : key = d.idem
          · subst same
            rw [Finmap.lookup_insert] at found
            rw [← Option.some.inj found]
            exact type
          · exact answerable key a ((Finmap.lookup_insert_of_ne _ same).symm.trans found)
        · obtain ⟨_,a,returned⟩ := offerAnswered n source.offer listed
          refine ⟨_,returned.key,?_⟩
          rw [← agree,returned.cached,returned.type,returned.payload]
        · exact agree
  · obtain ⟨store,⟨fault,failed,_⟩ | ⟨_,cache⟩⟩ := restartRecords kernelState s
    · rw [Operation.perform] at returned
      rw [failed] at returned
      contradiction
    · refine sameStep n answerable faithful (congrArg Contents.held store)
        (fun sealed listed => ?_) fun _ => ?_
      · contradiction
      · exact (congrArg Records.answers cache).trans
          (congrArg (fun c : Contents => c.answers) store).symm

def Prepared (s : NodeSession σ κ) (ops : List (Operation κ)) : Prop :=
  ∀ op, ops.head? = some op → Ready n s op

theorem preparedNext {s : NodeSession σ κ} {op : Operation κ} {rest : List (Operation κ)}
    (step : AgreementStep n s (op.perform n s).2 op) (clean : CrashesRestart n s (op::rest)) :
    Prepared n (op.perform n s).2 rest := by
  rcases clean.1 with unexcused | crashed
  · exact fun _ _ => .inl (step.settled unexcused)
  · exact fun next first => .inr (crashed next first)

structure AgreementRun (s t : NodeSession σ κ) (front back : List (Operation κ)) : Prop where
  answerable : Answerable t
  faithful : Faithful t
  prepared : Prepared n t back
  kept : KeysKept n t back
  grown : Extends s t
  loaded : ∀ sealed ∈ collected n (answersBy n) s front, Loaded t sealed

theorem agreementRun {s : NodeSession σ κ} {front back : List (Operation κ)}
    (answerable : Answerable s) (faithful : Faithful s) (prepared : Prepared n s (front ++ back))
    (clean : CrashesRestart n s (front ++ back)) (kept : KeysKept n s (front ++ back)) :
    AgreementRun n s (after n s front) front back := by
  induction front generalizing s with
  | nil => exact ⟨answerable,faithful,prepared,kept,fun _ _ found => found,by simp [collected]⟩
  | cons op rest ih =>
    have step := agreementStep n answerable faithful (prepared op rfl) kept.1
    have last := ih step.answerable step.faithful (preparedNext n step clean) clean.2 kept.2
    refine ⟨last.answerable,last.faithful,last.prepared,last.kept,
      fun key answer found => last.grown _ _ (step.grown _ _ found),?_⟩
    intro sealed listed
    rcases List.mem_append.mp listed with here | later
    · obtain ⟨key,named,found⟩ := step.loaded sealed here
      exact ⟨key,named,last.grown _ _ found⟩
    · exact last.loaded sealed later

theorem answeredKept {s : NodeSession σ κ} {op : Operation κ} {sealed : Envelope}
    (kept : ∀ envelope offer, deliveredOffer n s op = some (envelope,offer) →
      KeyKept σ (idemOf envelope)) (listed : sealed ∈ answersBy n s op) :
    ∃ key, sealed.idempotencyKey = some key ∧ KeyKept σ key := by
  cases offered : deliveredOffer n s op with
  | none =>
    rw [unoffered n offered] at listed
    contradiction
  | some delivered =>
    obtain ⟨envelope,offer⟩ := delivered
    obtain ⟨raw,now,rfl,source⟩ := offerSource n offered
    obtain ⟨_,_,returned⟩ := offerAnswered n source listed
    exact ⟨_,returned.key,kept _ _ offered⟩

theorem storedUnconsulted {s : NodeSession σ κ} {raw : Json} {now : Int} {envelope : Envelope}
    {offer : Json} (settled : Settled s) (answerable : Answerable s)
    (delivered : deliveredOffer n s (.receive raw now) = some (envelope,offer))
    {answer : OfferAnswer} (found : (stored s).answers.lookup (idemOf envelope) = some answer)
    (decideOffer : Json → ExceptT String (StateM κ) OfferDecision) :
    receive {n with kernel := {n.kernel with decideOffer}} raw now s = receive n raw now s := by
  obtain ⟨_,_,same,source⟩ := offerSource n delivered
  cases same
  have other : OfferDelivered {n with kernel := {n.kernel with decideOffer}} s raw now envelope
    offer := ⟨source.delivered,source.type,source.parsed⟩
  have held : heldAnswer n s (idemOf envelope) = some answer := by
    rw [settledHeld n settled answerable,found]
  rw [offerDispatched _ source,offerDispatched _ other,offerReceived _ _ source.parsed,
    offerReceived _ _ other.parsed]
  have here : heldAnswer n (recorded s envelope) (idemOf envelope) = some answer := held
  have there : heldAnswer {n with kernel := {n.kernel with decideOffer}} (recorded s envelope)
    (idemOf envelope) = some answer := held
  rw [here,there]
  rfl

structure OneAnswer (s : NodeSession σ κ) (ops : List (Operation κ)) : Prop where
  agree : ∀ a ∈ collected n (answersBy n) s ops, ∀ b ∈ collected n (answersBy n) s ops,
    a.idempotencyKey = b.idempotencyKey → a.type = b.type ∧ a.payload = b.payload
  durable : ∀ front op back, ops = front ++ op::back →
    ∀ sealed ∈ answersBy n (after n s front) op, Durable (after n s (front ++ [op])) sealed
  unconsulted : ∀ front raw now back envelope offer, ops = front ++ .receive raw now :: back →
    deliveredOffer n (after n s front) (.receive raw now) = some (envelope,offer) →
    (recordedAnswer (after n s front) (idemOf envelope)).isSome = true →
    ∀ decideOffer, receive {n with kernel := {n.kernel with decideOffer}} raw now
      (after n s front) = receive n raw now (after n s front)

/-- Over every run from an empty store, with restarts and crashes in any call, the answers
of one key agree, each is stored before it is returned, and no stored key is decided again,
when the store reads every offer's key back as it is. -/
theorem offerAgreement {start : NodeSession σ κ} {ops : List (Operation κ)}
    (empty : start.offerAnswers = ∅ ∧ (stored start).held = (∅,∅))
    (clean : CrashesRestart n start ops) (kept : KeysKept n start ops) :
    OneAnswer n start ops := by
  have answers : (stored start).answers = ∅ := congrArg Prod.fst empty.2
  have rows : (stored start).rows = ∅ := congrArg Prod.snd empty.2
  have answerable : Answerable start := fun key answer found => by
    rw [answers,Finmap.lookup_empty] at found
    contradiction
  have faithful : Faithful start := fun key _ => by
    rw [recordedAnswer,answers,rows,Finmap.lookup_empty,Finmap.lookup_empty]
  have prepared (back : List (Operation κ)) : Prepared n start back :=
    fun _ _ => .inl (empty.1.trans answers.symm)
  constructor
  case agree =>
    have loaded := (agreementRun n answerable faithful (prepared (ops ++ []))
      (by rwa [List.append_nil]) (by rwa [List.append_nil])).loaded
    intro a here b there same
    obtain ⟨key,named,found⟩ := loaded a here
    obtain ⟨key',named',found'⟩ := loaded b there
    rw [named,named'] at same
    cases Option.some.inj same
    rw [found] at found'
    obtain ⟨type,payload⟩ := OfferAnswer.mk.inj (Option.some.inj found')
    exact ⟨type,payload⟩
  case durable =>
    intro front op back split sealed listed
    rw [split] at clean kept
    have before := agreementRun n answerable faithful (prepared _) clean kept
    have step := agreementStep n before.answerable before.faithful (before.prepared op rfl)
      before.kept.1
    obtain ⟨key,named,found⟩ := step.loaded sealed listed
    obtain ⟨key',named',own⟩ := answeredKept n before.kept.1 listed
    rw [named] at named'
    cases Option.some.inj named'
    rw [afterLast]
    exact ⟨key,named,(step.faithful key own).trans found⟩
  case unconsulted =>
    intro front raw now back envelope offer split delivered known decideOffer
    rw [split] at clean kept
    have before := agreementRun n answerable faithful (prepared _) clean kept
    rw [before.faithful _ (before.kept.1 _ _ delivered)] at known
    obtain ⟨answer,found⟩ := Option.isSome_iff_exists.mp known
    rcases before.prepared _ rfl with settled | ⟨_,other,_⟩
    · exact storedUnconsulted n settled before.answerable delivered found decideOffer
    · contradiction

def recovers : NodeSession σ κ → List (Operation κ) → Bool
  | _,[] => true
  | s,op::rest => ((op.perform n s).1.isOk || match rest.head? with
        | some (.restart kernelState) =>
          ((Operation.restart kernelState).perform n (op.perform n s).2).1.isOk
        | some _ => false
        | none => true) && recovers (op.perform n s).2 rest

omit [RecordStore σ] in
theorem recoversClean {s : NodeSession σ κ} {ops : List (Operation κ)}
    (h : recovers n s ops = true) : CrashesRestart n s ops := by
  induction ops generalizing s with
  | nil => trivial
  | cons op rest ih =>
    rw [recovers,Bool.and_eq_true,Bool.or_eq_true] at h
    refine ⟨h.1.imp returnedNoFault fun followed next first => ?_,ih h.2⟩
    rw [first] at followed
    cases next with
    | restart kernelState =>
      obtain ⟨_,returned⟩ := okSome followed
      exact ⟨kernelState,rfl,returned⟩
    | _ => contradiction

def redelivered : List (Operation Unit) :=
  [.startHandshake 1767225600000,
   offering "019b76da-a800-7000-8000-000000000001" "019b76da-a800-7000-8000-0000000000a1",
   .restart (),.startHandshake 1767225600000,
   offering "019b76da-a800-7000-8000-000000000001" "019b76da-a800-7000-8000-0000000000a1",
   .restart (),.startHandshake 1767225600000,
   offering "019b76da-a800-7000-8000-000000000002" "019b76da-a800-7000-8000-0000000000a1"]

def interruptedNode : NodeSession (Flaky InMemoryNodeStateStore) Unit :=
  ⟨⟨.empty,[some "disk full"]⟩,(),0,0,∅,"",none,0,none,.empty,false,0⟩

theorem everyKept (each : ∀ key, KeyKept σ key) (s : NodeSession σ κ) (ops : List (Operation κ)) :
    KeysKept n s ops := by
  induction ops generalizing s with
  | nil => trivial
  | cons op rest ih => exact ⟨fun envelope _ _ => each (idemOf envelope),ih _⟩

theorem redeliveredAgrees : OneAnswer (idleNode 10) interruptedNode redelivered ∧
    (collected (idleNode 10) (answersBy (idleNode 10)) interruptedNode redelivered).length = 2 := by
  have checked : recovers (idleNode 10) interruptedNode redelivered = true ∧
      (collected (idleNode 10) (answersBy (idleNode 10)) interruptedNode
        redelivered).length = 2 := by decide +kernel
  have each (key : String) : KeyKept (Flaky InMemoryNodeStateStore) key := rfl
  exact ⟨offerAgreement (idleNode 10) ⟨rfl,rfl⟩ (recoversClean _ checked.1)
    (everyKept (idleNode 10) each interruptedNode redelivered),checked.2⟩

def fileNode : NodeSession (SqliteNodeStateStore nodeSqlite) Unit :=
  ⟨.empty,(),0,0,∅,"",none,0,none,.empty,false,0⟩

def cutFront : List (Operation Unit) :=
  [.startHandshake 1767225600000,
   offeringUnder cutKey "019b76da-a800-7000-8000-000000000001"
     "019b76da-a800-7000-8000-0000000000a1",
   .restart (),.startHandshake 1767225600000]

def cutAgain : Json := cloudEnvelope "019b76da-a800-7000-8000-000000000000"
  "019b76da-a800-7000-8000-000000000002" "work.offer" (some cutKey)
  (offerPayload "019b76da-a800-7000-8000-0000000000a1" (String.ofList (List.replicate 64 'a')))

theorem decidedTwice : ∃ (start : NodeSession (SqliteNodeStateStore nodeSqlite) Unit)
    (ops : List (Operation Unit)),
    (start.offerAnswers = ∅ ∧ (stored start).held = (∅,∅)) ∧
    CrashesRestart (idleNode 10) start ops ∧ ¬OneAnswer (idleNode 10) start ops := by
  have checked : recovers (idleNode 10) fileNode
        (cutFront ++ [.receive cutAgain 1767225600000]) = true ∧
      ((deliveredOffer (idleNode 10) (after (idleNode 10) fileNode cutFront)
        (.receive cutAgain 1767225600000)).any fun delivered =>
          (recordedAnswer (after (idleNode 10) fileNode cutFront) (idemOf delivered.1)).isSome) =
            true ∧
      (receive (idleNode 10) cutAgain 1767225600000
        (after (idleNode 10) fileNode cutFront)).1.isOk = true ∧
      (receive {idleNode 10 with kernel := {(idleNode 10).kernel with
        decideOffer := fun _ => throw "offline"}} cutAgain 1767225600000
        (after (idleNode 10) fileNode cutFront)).1.isOk = false := by decide +kernel
  obtain ⟨clean,known,answers,fails⟩ := checked
  obtain ⟨⟨envelope,offer⟩,delivered,stored⟩ := (Option.any_eq_true ..).mp known
  refine ⟨fileNode,_,⟨rfl,rfl⟩,recoversClean _ clean,fun holds => ?_⟩
  have same := holds.unconsulted cutFront cutAgain 1767225600000 [] envelope offer rfl delivered
    stored fun _ => throw "offline"
  exact Bool.noConfusion (answers.symm.trans ((congrArg (fun run => run.1.isOk) same).symm.trans fails))

end ControlCenter.OfferAgreement
