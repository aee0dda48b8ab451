import ControlCenter.Admission

/-! The epochs of the welcomes accepted on one session id. A lower epoch is refused, and
refusing it disconnects, which forgets the epoch it was compared with. -/
namespace ControlCenter.EpochFencing
open JsonValue AccpEnvelope AccpMessages AccpSeal StateStore Session ActionLogic
open SessionFrames SessionRuns Admission
open OverAcknowledgement (after)

variable {σ κ α : Type} (n : Node κ)

def SameEpoch (s t : NodeSession σ κ) : Prop := t.epoch = s.epoch

theorem sameServing : Serving (SameEpoch : NodeSession σ κ → NodeSession σ κ → Prop) where
  refl _ := rfl
  trans _ _ _ front back := back.trans front
  outSeq _ _ := rfl
  draws _ _ := rfl
  store _ _ := rfl
  kernelState _ _ := rfl
  nodeCursor _ _ := rfl
  ackedCursor _ _ := rfl
  offerAnswers _ _ := rfl

def fencedEpoch (s : NodeSession σ κ) (welcome : Welcome) : Option Nat :=
  if s.epoch.any fun epoch => decide (welcome.connectionEpoch < epoch) then none
  else some welcome.connectionEpoch

variable [NodeStateStore σ]

theorem welcomeEpoch (envelope : Envelope) (now : Int) (s : NodeSession σ κ) :
    (receiveWelcome n envelope now s).2.epoch =
      match parseAs nodeWelcomeSchema envelope.payload with
      | some welcome => fencedEpoch s welcome
      | none => s.epoch := by
  rw [welcomeReceived]
  cases parseAs nodeWelcomeSchema envelope.payload with
  | none => rfl
  | some welcome =>
    dsimp only [fencedEpoch]
    split
    · rfl
    · exact (frameReplay sameServing.reading n now _).always
        {s with
          welcome := some welcome,epoch := some (Welcome.connectionEpoch welcome),
          connected := true}

theorem dispatchEpoch (envelope : Envelope) (now : Int) (s : NodeSession σ κ)
    (other : envelope.type ≠ "node.welcome") :
    (dispatch n envelope now s).2.epoch = s.epoch :=
  (frameServed sameServing n envelope now fun welcome => absurd welcome other).always s

theorem receiveEpoch (raw : Json) (now : Int) (s : NodeSession σ κ) :
    (receive n raw now s).2.epoch = match offeredWelcome n s (.receive raw now) with
      | some welcome => fencedEpoch s welcome
      | none => s.epoch := by
  rw [receiveAdmitted,offeredWelcome,deliveredBy]
  cases admission n s raw now with
  | thrown message => rfl
  | rejected code detail =>
    exact (frameRejected sameServing.toSealing n raw code detail now).always s
  | foreign envelope => exact (frameNack sameServing.toSealing n _ _ _ _ now).always s
  | duplicate envelope => rfl
  | delivered envelope =>
    dsimp only [Outcome.dispatched,Option.bind_some]
    by_cases welcome : envelope.type = "node.welcome"
    · rw [if_pos welcome,dispatch,if_pos welcome,welcomeEpoch]
      rfl
    · rw [if_neg welcome]
      exact dispatchEpoch n envelope now _ welcome

def keepsSession : Operation κ → Bool
  | .startHandshake _ | .restart _ => false
  | _ => true

theorem stepEpoch {s : NodeSession σ κ} {op : Operation κ} (within : keepsSession op = true) :
    (∀ welcome, offeredWelcome n s op = some welcome →
      (op.perform n s).2.epoch = fencedEpoch s welcome) ∧
    (offeredWelcome n s op = none →
      (op.perform n s).2.epoch = s.epoch ∨ (op.perform n s).2.epoch = none) := by
  cases op with
  | startHandshake now => contradiction
  | restart kernelState => contradiction
  | disconnect => exact ⟨fun _ offered => by contradiction,fun _ => .inr rfl⟩
  | receive raw now =>
    have epoch := receiveEpoch n raw now s
    rw [Operation.perform,discardingState,epoch]
    constructor
    · intro welcome offered
      rw [offered]
    · intro offered
      rw [offered]
      exact .inl rfl
  | emitEvent kind data ids now =>
    refine ⟨fun _ offered => by contradiction,fun _ => .inl ?_⟩
    rw [Operation.perform,discardingState]
    exact (frameEmit sameServing.journaling n kind data ids now).always s
  | flush now fromCursor =>
    refine ⟨fun _ offered => by contradiction,fun _ => .inl ?_⟩
    rw [Operation.perform,discardingState]
    exact (frameFlush sameServing.reading n now fromCursor).always s
  | proposeCompletion payload now =>
    refine ⟨fun _ offered => by contradiction,fun _ => .inl ?_⟩
    rw [Operation.perform,discardingState]
    exact (framePropose sameServing.toSealing n payload now).always s

def acceptedEpoch (s : NodeSession σ κ) (op : Operation κ) : Option Nat :=
  (offeredWelcome n s op).bind fun _ => (op.perform n s).2.epoch

abbrev acceptedEpochs : NodeSession σ κ → List (Operation κ) → List Nat :=
  gathered n (acceptedEpoch n)

def NoStaleReturn (s : NodeSession σ κ) (ops : List (Operation κ)) : Prop :=
  ∀ front op back, ops = front ++ op::back → (after n s front).epoch = none →
    ∀ welcome, offeredWelcome n (after n s front) op = some welcome →
      ∀ epoch ∈ acceptedEpochs n s front, epoch ≤ welcome.connectionEpoch

theorem staleAppend {s : NodeSession σ κ} {front : List (Operation κ)} {op : Operation κ} :
    NoStaleReturn n s (front ++ [op]) ↔ NoStaleReturn n s front ∧
      ((after n s front).epoch = none →
        ∀ welcome, offeredWelcome n (after n s front) op = some welcome →
          ∀ epoch ∈ acceptedEpochs n s front, epoch ≤ welcome.connectionEpoch) := by
  constructor
  · intro fresh
    refine ⟨fun first op' back split => ?_,fresh front op [] rfl⟩
    exact fresh first op' (back ++ [op]) (by rw [split,List.append_assoc,List.cons_append])
  · rintro ⟨fresh,here⟩ first op' back split
    rcases List.eq_nil_or_concat back with rfl | ⟨back,last,rfl⟩
    · obtain ⟨rfl,same⟩ := List.append_inj' split rfl
      cases same
      exact here
    · rw [List.concat_eq_append,← List.cons_append,← List.append_assoc] at split
      exact fresh first op' back (List.append_inj' split rfl).1

theorem currentLast {s : NodeSession σ κ} {ops : List (Operation κ)}
    (within : ∀ op ∈ ops, keepsSession op = true) (start : s.epoch = none) {epoch : Nat}
    (current : (after n s ops).epoch = some epoch) :
    (acceptedEpochs n s ops).getLast? = some epoch := by
  induction ops using List.reverseRecOn generalizing epoch with
  | nil => rw [after,start] at current; contradiction
  | append_singleton front op ih =>
    obtain ⟨offers,other⟩ := stepEpoch n (s := after n s front) (within op (by simp))
    rw [afterLast] at current
    rw [acceptedEpochs,gatheredLast,acceptedEpoch]
    cases offered : offeredWelcome n (after n s front) op with
    | none =>
      rcases other offered with same | none
      · rw [same] at current
        simpa using ih (fun op' listed => within op' (by simp [listed])) current
      · rw [none] at current
        contradiction
    | some welcome =>
      simp [current]

theorem fencingStep {s : NodeSession σ κ} {front : List (Operation κ)} {op : Operation κ}
    (within : ∀ op' ∈ front ++ [op], keepsSession op' = true) (start : s.epoch = none)
    (ordered : (acceptedEpochs n s front).Pairwise (· ≤ ·)) :
    (∀ earlier ∈ acceptedEpochs n s front,
      ∀ epoch ∈ (acceptedEpoch n (after n s front) op).toList, earlier ≤ epoch) ↔
    ((after n s front).epoch = none →
      ∀ welcome, offeredWelcome n (after n s front) op = some welcome →
        ∀ epoch ∈ acceptedEpochs n s front, epoch ≤ welcome.connectionEpoch) := by
  obtain ⟨offers,_⟩ := stepEpoch n (s := after n s front) (within op (by simp))
  rw [acceptedEpoch]
  cases offered : offeredWelcome n (after n s front) op with
  | none => simp
  | some welcome =>
    rw [Option.bind_some,offers welcome offered,fencedEpoch]
    cases current : (after n s front).epoch with
    | none => simp
    | some epoch =>
      have last := currentLast n (fun op' listed => within op' (by simp [listed])) start current
      have most : ∀ earlier ∈ acceptedEpochs n s front, earlier ≤ epoch := by
        obtain ⟨others,same⟩ := List.getLast?_eq_some_iff.mp last
        rw [same] at ordered ⊢
        intro earlier listed
        rcases List.mem_append.mp listed with before | here
        · exact (List.pairwise_append.mp ordered).2.2 earlier before epoch (by simp)
        · rw [List.mem_singleton.mp here]
      by_cases lower : welcome.connectionEpoch < epoch
      · simp [lower]
      · simp only [Option.any_some,lower,decide_false,Bool.false_eq_true,if_false,
          Option.toList_some,List.mem_singleton,forall_eq,reduceCtorEq,false_implies,iff_true]
        intro earlier listed
        have := most earlier listed
        omega

theorem fencedRun {s : NodeSession σ κ} {ops : List (Operation κ)}
    (within : ∀ op ∈ ops, keepsSession op = true) (start : s.epoch = none) :
    (acceptedEpochs n s ops).Pairwise (· ≤ ·) ↔ NoStaleReturn n s ops := by
  induction ops using List.reverseRecOn with
  | nil => exact iff_of_true .nil fun front op back split => by simp at split
  | append_singleton front op ih =>
    have shorter := ih fun op' listed => within op' (by simp [listed])
    rw [staleAppend,← shorter,acceptedEpochs,gatheredLast,List.pairwise_append]
    constructor
    · rintro ⟨ordered,_,above⟩
      exact ⟨ordered,(fencingStep n within start ordered).mp above⟩
    · rintro ⟨ordered,fresh⟩
      refine ⟨ordered,?_,(fencingStep n within start ordered).mpr fresh⟩
      cases acceptedEpoch n (after n s front) op <;> simp

omit [NodeStateStore σ] in
theorem handshakeEpoch (now : Int) (s : NodeSession σ κ) :
    wp (startHandshake n now) (fun _ t => t.epoch = none) (fun _ _ => True) s := by
  unfold startHandshake
  rw [wpBind]
  refine wpIntro (fun sessionId drawn _ => ?_) fun _ _ _ => trivial
  rw [wpBind,changing,wpModify,wpBind,wpGet]
  have seals {type payload} : Frame (fun _ => False) SameEpoch
      (sealMessage n type payload now noExtra : SessionM σ κ Envelope) :=
    frameSeal sameServing.toSealing n _ _ now _
  exact wpMono (seals _) (fun _ _ same => same) fun _ _ _ => trivial

/-- On one session id the epochs accepted never decrease exactly when no welcome that
arrives while no epoch is held is older than one accepted before. -/
theorem epochFencing {start : NodeSession σ κ} {now : Int} {ops : List (Operation κ)}
    (started : ((Operation.startHandshake now).perform n start).1.isOk = true)
    (within : ∀ op ∈ ops, keepsSession op = true) :
    (acceptedEpochs n ((Operation.startHandshake now).perform n start).2 ops).Pairwise (· ≤ ·) ↔
      NoStaleReturn n ((Operation.startHandshake now).perform n start).2 ops := by
  obtain ⟨hello,run⟩ := discardingOk started
  exact fencedRun n within (wpOk (Q := fun _ t => t.epoch = none) (handshakeEpoch n now start) run)

def welcoming (messageId : String) (connectionEpoch : Nat) : Operation Unit :=
  .receive (cloudEnvelope "019b76da-a800-7000-8000-000000000000" messageId "node.welcome" none
    (welcomePayload connectionEpoch 0 4 256)) 1767225600000

def greetedNode : NodeSession InMemoryNodeStateStore Unit :=
  ((Operation.startHandshake 1767225600000).perform (idleNode 10) (opened ())).2

def splitBrain : List (Operation Unit) :=
  [welcoming "019b76da-a800-7000-8000-000000000001" 5,
   welcoming "019b76da-a800-7000-8000-000000000002" 3,
   welcoming "019b76da-a800-7000-8000-000000000003" 4]

theorem splitBrainAccepted : ((Operation.startHandshake 1767225600000).perform (idleNode 10)
      (opened () : NodeSession InMemoryNodeStateStore Unit)).1.isOk = true ∧
    (∀ op ∈ splitBrain, keepsSession op = true) ∧
    acceptedEpochs (idleNode 10) greetedNode splitBrain = [5,4] ∧
    ¬(acceptedEpochs (idleNode 10) greetedNode splitBrain).Pairwise (· ≤ ·) := by
  have accepted : acceptedEpochs (idleNode 10) greetedNode splitBrain = [5,4] := by decide +kernel
  refine ⟨by decide +kernel,by simp [splitBrain,welcoming,keepsSession],accepted,?_⟩
  rw [accepted]
  decide

def reconnected : List (Operation Unit) :=
  [welcoming "019b76da-a800-7000-8000-000000000001" 5,.disconnect,
   welcoming "019b76da-a800-7000-8000-000000000002" 6]

theorem reconnectedFresh : NoStaleReturn (idleNode 10) greetedNode reconnected ∧
    acceptedEpochs (idleNode 10) greetedNode reconnected = [5,6] := by
  have accepted : acceptedEpochs (idleNode 10) greetedNode reconnected = [5,6] := by decide +kernel
  refine ⟨(epochFencing (idleNode 10) (by decide +kernel)
    (by simp [reconnected,welcoming,keepsSession])).mp ?_,accepted⟩
  show (acceptedEpochs (idleNode 10) greetedNode reconnected).Pairwise (· ≤ ·)
  rw [accepted]
  decide

end ControlCenter.EpochFencing
