import ControlCenter.CoordinatorBridge
import ControlCenter.OfferIdentity

/-! A node process over its store: the session, the bridge's memory and the queue of
accepted leases. The acceptance is stored; the accepted offer and its place in the queue
are not, and a stored acceptance is replayed without the bridge. -/
namespace ControlCenter.LeaseRecovery
open JsonValue AccpEnvelope AccpMessages StateStore Session ActionLogic SessionFrames
open SessionRuns Admission DurableRecords OfferLedger OfferIdentity LeaseQueue CoordinatorBridge
open RunLogic

def withBridge (n : Node Connection) (b : Bridge) : Node Connection :=
  {n with kernel := kernelBridge n.platform b}

structure Process (σ : Type) where
  session : NodeSession σ Connection
  running : Bool
  executed : List String

inductive Event where
  | called (op : Operation Connection)
  | turned (t : Turn)
  | prefetched (digest planBytes : String)
  | stopped
  | started

def restarts : Operation Connection → Bool
  | .restart _ => true
  | _ => false

def ended (q : Queue) : Turn → List String
  | .executed | .failed => match q.chain with
    | .executing leaseId => [leaseId]
    | _ => []
  | _ => []

def Process.queue {σ : Type} (p : Process σ) : Queue := p.session.kernelState.queue

def Process.remembers {σ : Type} (p : Process σ) (kernelState : Connection) : Process σ :=
  {p with session := {p.session with kernelState}}

section
variable {σ : Type} [NodeStateStore σ] (n : Node Connection)

def Process.step (p : Process σ) : Event → Process σ
  | .called op =>
    if p.running && !restarts op then {p with session := (op.perform n p.session).2} else p
  | .turned t => match p.running,t.accepts,p.queue.turn t with
    | true,none,some queue =>
      {p.remembers {p.session.kernelState with queue} with
        executed := p.executed ++ ended p.queue t}
    | _,_,_ => p
  | .prefetched digest planBytes =>
    if p.running then p.remembers (p.session.kernelState.prefetched digest planBytes) else p
  | .stopped => {p.remembers .fresh with running := false}
  | .started =>
    if p.running then p
    else {p with
      session := (restart .fresh p.session).2
      running := (restart .fresh p.session).1.isOk}

variable [RecordStore σ]

def leaseIn (answer : OfferAnswer) : String := textAt "leaseId" answer.payload

def EachAccepted (p : Process σ) (P : String → Prop) : Prop := ∀ key answer,
  (stored p.session).rows.lookup key = some answer → answer.type = "work.accepted" →
    P (leaseIn answer)

omit [NodeStateStore σ] [RecordStore σ] in
def Safe (p : Process σ) (leaseId : String) : Prop :=
  leaseId ∈ p.executed ∨ p.queue.chain = .executing leaseId ∨ p.queue.WillExecute leaseId

def LeasesSafe (p : Process σ) : Prop := EachAccepted p (Safe p)

def Spares (p : Process σ) : Event → Prop
  | .stopped => EachAccepted p (· ∈ p.executed)
  | .turned .failed => ∀ failing, p.running = true → p.queue.chain = .executing failing →
      EachAccepted p fun leaseId => leaseId ∈ p.executed ∨ leaseId = failing
  | .called op => ∀ d, p.running = true → decidedBy n p.session op = some d →
      d.answer.type = "work.accepted" → (NodeStateStore.saveOfferAnswer d.idem d.answer.type
        d.answer.payload p.session.store).1.isOk = true →
      p.queue.chain = .rejected → leaseIn d.answer ∈ p.executed
  | _ => True

end

section
variable {σ : Type}

def QueueSame (s t : NodeSession σ Connection) : Prop :=
  t.kernelState.queue = s.kernelState.queue

theorem queueJournaling [NodeStateStore σ] {excused : Fault → Prop} :
    Journaling excused (QueueSame : NodeSession σ Connection → NodeSession σ Connection → Prop) where
  refl _ := rfl
  trans _ _ _ front back := back.trans front
  outSeq _ _ := rfl
  draws _ _ := rfl
  events _ := frameStore (fun _ _ => rfl) _
  truncations := frameStore (fun _ _ => rfl) _
  deleted _ := frameStore (fun _ _ => rfl) _
  truncated _ _ _ := frameStore (fun _ _ => rfl) _
  appended _ := frameStore (fun _ _ => rfl) _
  acked _ := frameStore (fun _ _ => rfl) _
  pruned _ := frameStore (fun _ _ => rfl) _
  nodeCursor _ _ := rfl
  ackedCursor _ _ := rfl

variable (n : Node Connection) (b : Bridge)

theorem queueReviewed {excused : Fault → Prop} : Reviewed excused
    (QueueSame : NodeSession σ Connection → NodeSession σ Connection → Prop) (withBridge n b) := by
  intro handler installed decision s
  cases installed
  rfl

variable [NodeStateStore σ]

theorem undecidedQueue {s : NodeSession σ Connection} {op : Operation Connection}
    (none : decidedBy (withBridge n b) s op = none) (same : restarts op = false) :
    QueueSame s (op.perform (withBridge n b) s).2 := by
  have journals : Journaling (fun _ => False)
    (QueueSame : NodeSession σ Connection → NodeSession σ Connection → Prop) := queueJournaling
  have calm {β : Type} {m : SessionM σ Connection β} (frame : Frame (fun _ => False) QueueSame m) :
      QueueSame s (discarding m s).2 := by
    rw [discardingState]
    exact frame.always s
  cases op with
  | emitEvent kind data ids now => exact calm (frameEmit journals _ kind data ids now)
  | flush now fromCursor => exact calm (frameFlush journals.toReading _ now fromCursor)
  | proposeCompletion payload now => exact calm (framePropose journals.toSealing _ payload now)
  | startHandshake now => exact calm (frameHandshake journals.toSealing _ (fun _ _ => rfl) now)
  | disconnect => rfl
  | restart kernelState => contradiction
  | receive raw now =>
    rw [Operation.perform,discardingState]
    refine undecidedReceive _ journals.toReading (queueReviewed n b) ?_ (fun _ _ => rfl)
      (fun _ _ _ _ => rfl) none fun envelope _ _ => (frameAck journals _ envelope).always _
    intro u offer message next refused
    have kept := wpError (offerDecided n.platform b offer u.kernelState) refused
    exact congrArg Connection.queue kept

theorem decidedQueue {s : NodeSession σ Connection} {op : Operation Connection} {d : Decided}
    (chosen : decidedBy (withBridge n b) s op = some d) :
    (op.perform (withBridge n b) s).2.kernelState.queue =
      if d.answer.type = "work.accepted" then s.kernelState.queue.enqueue (leaseIn d.answer)
      else s.kernelState.queue := by
  obtain ⟨raw,now,envelope,rfl,inside⟩ := decidedSource _ chosen
  obtain ⟨decision,next,decided,answer⟩ := inside.decided
  have journals : Journaling (fun _ => False)
    (QueueSame : NodeSession σ Connection → NodeSession σ Connection → Prop) := queueJournaling
  have replies : Frame (fun _ => False) QueueSame
      (onStore (NodeStateStore.saveOfferAnswer d.idem d.answer.type d.answer.payload) >>= fun _ =>
        sealAnswer (withBridge n b) envelope d.idem d.answer now :
          SessionM σ Connection (List Envelope)) :=
    frameSeq journals.trans (frameStore (fun _ _ => rfl) _) fun _ =>
      frameAnswer journals.toSealing _ envelope _ _ now
  have run : receiveOffer (withBridge n b) envelope now (recorded s envelope) = _ :=
    offerReceived (withBridge n b) _ inside.offer.parsed
  rw [show heldAnswer (withBridge n b) (recorded s envelope) (idemOf envelope) = none from
    inside.unheld,show (recorded s envelope).kernelState = s.kernelState from rfl,decided] at run
  simp only [← answer,← inside.idem] at run
  rw [Operation.perform,discardingState,offerDispatched _ inside.offer,run]
  have queue := wpOk (offerDecided n.platform b d.offer s.kernelState) decided
  refine (replies.always _).trans (queue.trans ?_)
  cases decision with
  | accept => rw [answer]; rfl
  | decline reason detail => rw [answer]; rfl

omit [NodeStateStore σ] in
theorem storeKernel {α : Type} (m : StoreM σ α) (s : NodeSession σ Connection) :
    (onStore m s).2.kernelState = s.kernelState := by
  unfold onStore
  rcases m s.store with ⟨message | a,store⟩ <;> rfl

theorem restartQueue (s : NodeSession σ Connection) :
    (restart .fresh s).2.kernelState = if (restart .fresh s).1.isOk then .fresh
      else s.kernelState := by
  have firstKept := storeKernel NodeStateStore.loadCursors s
  unfold restart
  rcases first : (onStore NodeStateStore.loadCursors : SessionM σ Connection Cursors) s with
    ⟨fault | cursors,t⟩
  · rw [first] at firstKept
    rw [runError first]
    exact firstKept
  · rw [first] at firstKept
    rw [runOk first]
    have secondKept := storeKernel NodeStateStore.loadOfferAnswers t
    rcases second : (onStore NodeStateStore.loadOfferAnswers : SessionM σ Connection OfferAnswers) t
      with ⟨fault | answers,u⟩
    · rw [second] at secondKept
      rw [runError second]
      exact secondKept.trans firstKept
    · rw [runOk second]
      rfl

variable [RecordStore σ]

structure Known (p : Process σ) : Prop where
  traced : ∃ o, Traced p.session o
  live : p.queue.Live
  idle : p.running = false → p.session.kernelState = .fresh

theorem knownCall {p : Process σ} (known : Known p) {op : Operation Connection}
    (running : p.running = true) (same : restarts op = false) :
    Known {p with session := (op.perform (withBridge n b) p.session).2} := by
  obtain ⟨o,traced⟩ := known.traced
  refine ⟨⟨_,tracedStep _ traced op⟩,?_,fun idle => by rw [running] at idle; contradiction⟩
  cases chosen : decidedBy (withBridge n b) p.session op with
  | none =>
    rw [Process.queue,undecidedQueue n b chosen same]
    exact known.live
  | some d =>
    rw [Process.queue,decidedQueue n b chosen]
    split
    · exact fun _ none => by simp [Queue.enqueue] at none
    · exact known.live

theorem knownStep (p : Process σ) (e : Event) (known : Known p) :
    Known (p.step (withBridge n b) e) := by
  obtain ⟨o,traced⟩ := known.traced
  cases e with
  | called op =>
    rw [Process.step]
    split
    · rename_i allowed
      rw [Bool.and_eq_true,Bool.not_eq_true'] at allowed
      exact knownCall n b known allowed.1 allowed.2
    · exact known
  | turned t =>
    rw [Process.step]
    split
    · rename_i queue running own turned
      refine ⟨⟨o,traced.cached,traced.stored⟩,turnLive turned,fun idle => ?_⟩
      rw [show p.running = false from idle] at running
      contradiction
    · exact known
  | prefetched digest planBytes =>
    rw [Process.step]
    split
    · rename_i running
      refine ⟨⟨o,traced.cached,traced.stored⟩,?_,fun idle => ?_⟩
      · have same : (p.session.kernelState.prefetched digest planBytes).queue = p.queue := by
          unfold Connection.prefetched
          split <;> rfl
        rw [Process.queue,Process.remembers,same]
        exact known.live
      · rw [show p.running = false from idle] at running
        contradiction
    · exact known
  | stopped => exact ⟨⟨o,traced.cached,traced.stored⟩,fun _ _ => rfl,fun _ => rfl⟩
  | started =>
    rw [Process.step]
    split
    · exact known
    · rename_i stopped
      have fresh : (restart .fresh p.session).2.kernelState = .fresh := by
        rw [restartQueue,known.idle (by simpa using stopped),ite_self]
      refine ⟨⟨_,tracedRestart (withBridge n b) traced .fresh⟩,?_,fun _ => fresh⟩
      rw [Process.queue,fresh]
      exact fun _ _ => rfl

theorem drainSafe (q : Queue) {leaseId : String} (pending : leaseId ∈ q.pendingLeases) :
    q.drain.chain = .executing leaseId ∨ q.drain.WillExecute leaseId := by
  rw [willExecutePending (drainLive q)]
  unfold Queue.drain
  split
  · rename_i none
    rw [none] at pending
    contradiction
  · rename_i first rest listed
    rw [listed] at pending
    rcases List.mem_cons.mp pending with rfl | later
    · exact .inl rfl
    · exact .inr ⟨later,by simp⟩

theorem enqueueSafe {q : Queue} (live : q.Live) {leaseId other : String} :
    (q.enqueue other).WillExecute leaseId ↔
      q.WillExecute leaseId ∨ leaseId = other ∧ q.chain ≠ .rejected := by
  have next : (q.enqueue other).Live := fun _ none => by simp [Queue.enqueue] at none
  rw [willExecutePending next,willExecutePending live]
  simp only [Queue.enqueue,List.mem_append,List.mem_singleton]
  tauto

theorem turnSafe {q r : Queue} {t : Turn} (live : q.Live) (turned : q.turn t = some r)
    (own : t.accepts = none) (intact : t ≠ .failed) {executed : List String} {leaseId : String}
    (safe : leaseId ∈ executed ∨ q.chain = .executing leaseId ∨ q.WillExecute leaseId) :
    leaseId ∈ executed ++ ended q t ∨ r.chain = .executing leaseId ∨ r.WillExecute leaseId := by
  rw [willExecutePending live] at safe
  rcases safe with done | running | ⟨pending,_⟩
  · exact .inl (List.mem_append_left _ done)
  · cases turnSource turned with
    | accepted other => contradiction
    | called waiting settled chained => rw [running] at settled; contradiction
    | executed other same =>
      refine .inl (List.mem_append_right _ ?_)
      simp [ended,running]
    | failed other same => contradiction
  · right
    cases turnSource turned with
    | accepted other => contradiction
    | called waiting settled chained => exact drainSafe {q with waiting} pending
    | executed other same => exact drainSafe q pending
    | failed other same => contradiction

theorem failedSafe {q r : Queue} {failing : String} (turned : q.turn .failed = some r)
    (running : q.chain = .executing failing) {executed : List String} {leaseId : String} :
    (leaseId ∈ executed ++ ended q .failed ∨ r.chain = .executing leaseId ∨
      r.WillExecute leaseId) ↔ leaseId ∈ executed ∨ leaseId = failing := by
  cases turnSource turned with
  | failed other same =>
    have rests : ¬({q with chain := .rejected} : Queue).WillExecute leaseId := fun will =>
      ((willExecutePending (fun settled => by contradiction)).mp will).2 rfl
    simp [ended,running,rests]

theorem EachAccepted.mono {p q : Process σ} {P Q : String → Prop} (each : EachAccepted p P)
    (same : (stored q.session).rows = (stored p.session).rows)
    (weaker : ∀ leaseId, P leaseId → Q leaseId) : EachAccepted q Q := fun key answer found type =>
  weaker _ (each key answer (by rw [← same]; exact found) type)

theorem sparedUndecided {p : Process σ} {op : Operation Connection} (safe : LeasesSafe p)
    (same : restarts op = false) (none : decidedBy (withBridge n b) p.session op = none) :
    LeasesSafe {p with session := (op.perform (withBridge n b) p.session).2} := by
  have queue := undecidedQueue n b none same
  have answers : AnswersSame p.session (op.perform (withBridge n b) p.session).2 := by
    rcases answersStep (withBridge n b) p.session op with
      ⟨_,answers | ⟨⟨_,rfl⟩,_⟩⟩ | ⟨d,decided,_⟩
    · exact answers
    · contradiction
    · rw [none] at decided
      contradiction
  refine EachAccepted.mono safe answers.rows fun leaseId safe => ?_
  rw [Safe,Process.queue,queue]
  exact safe

theorem sparedDecided {p : Process σ} {op : Operation Connection} {d : Decided}
    (known : Known p) (safe : LeasesSafe p)
    (chosen : decidedBy (withBridge n b) p.session op = some d) :
    LeasesSafe {p with session := (op.perform (withBridge n b) p.session).2} ↔
      (d.answer.type = "work.accepted" → (NodeStateStore.saveOfferAnswer d.idem d.answer.type
        d.answer.payload p.session.store).1.isOk = true →
      p.queue.chain = .rejected → leaseIn d.answer ∈ p.executed) := by
  have queue := decidedQueue n b chosen
  obtain ⟨raw,now,envelope,rfl,inside⟩ := decidedSource _ chosen
  obtain ⟨decision,_,_,answer⟩ := inside.decided
  have made : MadeFor d.offer d.answer := ⟨offerTexts inside.offer.parsed,decision,now,answer⟩
  obtain ⟨_,store⟩ := answeredReceive (withBridge n b) inside
  rw [Operation.perform,discardingState] at queue ⊢
  -- The queue only grows, so what was safe stays so.
  have still : ∀ leaseId, Safe p leaseId →
      Safe {p with session := (receive (withBridge n b) raw now p.session).2} leaseId := by
    intro leaseId safe
    rw [Safe,Process.queue,queue]
    split
    · rcases safe with done | running | will
      · exact .inl done
      · exact .inr (.inl running)
      · exact .inr (.inr ((enqueueSafe known.live).mpr (.inl will)))
    · exact safe
  cases saving : (NodeStateStore.saveOfferAnswer d.idem d.answer.type d.answer.payload
    p.session.store).1 with
  | error message =>
    rw [saving] at store
    refine iff_of_true ?_ fun _ failed => by simp [Except.isOk,Except.toBool] at failed
    exact EachAccepted.mono safe (congrArg Contents.rows store.1) still
  | ok _ =>
    rw [saving] at store
    rw [RecordStore.keptPlain made.plain] at store
    have rows : (stored (receive (withBridge n b) raw now p.session).2).rows =
      (stored p.session).rows.insert (RecordStore.bound σ d.idem) d.answer :=
        congrArg Contents.rows store
    constructor
    · intro holds type _ rejected
      have here := holds (RecordStore.bound σ d.idem) d.answer
        (by rw [rows,Finmap.lookup_insert]) type
      rw [Safe,Process.queue,queue,if_pos type] at here
      rcases here with done | running | will
      · exact done
      · cases rejected.symm.trans running
      · rcases (enqueueSafe known.live).mp will with will | ⟨_,intact⟩
        · exact absurd rejected ((willExecutePending known.live).mp will).2
        · exact absurd rejected intact
    · intro spared key stored found type
      rw [rows] at found
      by_cases same : key = RecordStore.bound σ d.idem
      · subst same
        rw [Finmap.lookup_insert] at found
        cases found
        by_cases rejected : p.queue.chain = .rejected
        · exact .inl (spared type rfl rejected)
        · rw [Safe,Process.queue,queue,if_pos type]
          exact .inr (.inr ((enqueueSafe known.live).mpr (.inr ⟨rfl,rejected⟩)))
      · rw [Finmap.lookup_insert_of_ne _ same] at found
        exact still _ (safe key stored found type)

theorem calledSpared (p : Process σ) (op : Operation Connection) (known : Known p)
    (safe : LeasesSafe p) :
    LeasesSafe (p.step (withBridge n b) (.called op)) ↔ Spares (withBridge n b) p (.called op) := by
  rw [Process.step,Spares]
  cases running : p.running with
  | false => exact iff_of_true safe fun _ other => by contradiction
  | true =>
    cases same : restarts op with
    | true =>
      refine iff_of_true safe fun d _ chosen => ?_
      cases op with
      | restart kernelState => contradiction
      | _ => contradiction
    | false =>
      rw [if_pos (by rfl)]
      cases chosen : decidedBy (withBridge n b) p.session op with
      | none =>
        exact iff_of_true (sparedUndecided n b safe same chosen) fun _ _ other => by contradiction
      | some d =>
        have decides := sparedDecided n b known safe chosen
        rw [running] at decides
        rw [decides]
        exact ⟨fun spared other _ same => by cases same; exact spared,fun spared => spared d rfl rfl⟩

theorem turnedSpared (p : Process σ) (t : Turn) (known : Known p) (safe : LeasesSafe p) :
    LeasesSafe (p.step (withBridge n b) (.turned t)) ↔ Spares (withBridge n b) p (.turned t) := by
  rw [Process.step]
  split
  · rename_i queue running own turned
    by_cases fails : t = .failed
    · subst fails
      obtain ⟨failing,executing⟩ : ∃ failing, p.queue.chain = .executing failing := by
        cases turnSource turned with
        | failed failing executing => exact ⟨failing,executing⟩
      constructor
      · intro holds failing _ executing key answer found type
        exact (failedSafe turned executing).mp (holds key answer found type)
      · intro spared key answer found type
        exact (failedSafe turned executing).mpr (spared failing running executing key answer found type)
    · refine iff_of_true ?_ ?_
      · exact EachAccepted.mono safe rfl fun leaseId safe =>
          turnSafe known.live turned own fails safe
      · cases t with
        | failed => exact absurd rfl fails
        | _ => trivial
  · rename_i blocked
    refine iff_of_true safe ?_
    cases t with
    | failed =>
      intro failing running executing
      exact absurd (show p.queue.turn .failed = some _ by rw [Queue.turn,executing])
        (blocked _ running rfl)
    | _ => trivial

theorem sparedStep (p : Process σ) (e : Event) (known : Known p) (safe : LeasesSafe p) :
    LeasesSafe (p.step (withBridge n b) e) ↔ Spares (withBridge n b) p e := by
  cases e with
  | called op => exact calledSpared n b p op known safe
  | turned t => exact turnedSpared n b p t known safe
  | prefetched digest planBytes =>
    rw [Process.step]
    refine iff_of_true ?_ trivial
    split
    · refine EachAccepted.mono safe rfl fun leaseId safe => ?_
      have same : (p.session.kernelState.prefetched digest planBytes).queue = p.queue := by
        unfold Connection.prefetched
        split <;> rfl
      rw [Safe,Process.queue,Process.remembers,same]
      exact safe
    · exact safe
  | stopped =>
    have rests (leaseId : String) : ¬(Queue.fresh).WillExecute leaseId := fun will => by
      have pending := ((willExecutePending (fun _ _ => rfl)).mp will).1
      contradiction
    constructor
    · intro holds key answer found type
      rcases holds key answer found type with done | running | will
      · exact done
      · contradiction
      · exact absurd will (rests _)
    · intro spared key answer found type
      exact .inl (spared key answer found type)
  | started =>
    rw [Process.step]
    refine iff_of_true ?_ trivial
    split
    · exact safe
    · rename_i stopped
      have fresh := known.idle (by simpa using stopped)
      have store := (restartRecords Connection.fresh p.session).1
      refine EachAccepted.mono safe (congrArg Contents.rows store) fun leaseId safe => ?_
      rw [Safe,Process.queue] at safe ⊢
      rw [restartQueue,fresh,ite_self]
      rw [fresh] at safe
      exact safe

def installed (store : σ) : Process σ :=
  ⟨⟨store,.fresh,0,0,∅,"",none,0,none,.empty,false,0⟩,false,[]⟩

/-- In every run of a node process from an empty store, with restarts, crashes, store faults
and failing executions anywhere, every lease with a stored acceptance is executed, executing
or queued to be in every state, exactly when each step spares those leases. -/
theorem leasesSurvive {store : σ} {events : List Event}
    (empty : (RecordStore.contents store).held = (∅,∅)) :
    (∀ front back, events = front ++ back →
      LeasesSafe (reach (Process.step (withBridge n b)) (installed store) front)) ↔
    ∀ front e back, events = front ++ e::back →
      Spares (withBridge n b) (reach (Process.step (withBridge n b)) (installed store) front) e := by
  have known : Known (installed store) := by
    refine ⟨⟨unanswered,fun _ => rfl,?_⟩,fun _ _ => rfl,fun _ => rfl⟩
    rw [show (stored (installed store).session).answers = ∅ from congrArg Prod.fst empty]
    exact fun _ => rfl
  refine everyPrefix _ (knownStep n b) (sparedStep n b) known ?_ events
  intro key answer found
  rw [show (stored (installed store).session).rows = ∅ from congrArg Prod.snd empty,
    Finmap.lookup_empty] at found
  contradiction

end

def planner : Bridge := .standard
  (fun _ => some (.object
    [("goal",.string "goal"),("repo",.string "/repo"),("agent",.string "codex")]))
  fun _ _ _ => true

def plannedNode : Node Connection :=
  ⟨idlePlatform,(idleNode 10).credentials,"key",kernelBridge idlePlatform planner,
    (idleNode 10).schemaBundleDigest,10⟩

def plannedOffer (messageId : String) : Event :=
  .called (.receive (cloudEnvelope "019b76da-a800-7000-8000-000000000000" messageId "work.offer"
    (some "offer-1") (offerPayload "019b76da-a800-7000-8000-0000000000a1"
      (String.ofList (List.replicate 64 '0')))) 1767225600000)

def greetedStart : List Event :=
  [.started,.called (.startHandshake 1767225600000),
   .prefetched (String.ofList (List.replicate 64 '0')) "plan"]

def acceptedThenStopped : List Event :=
  greetedStart ++ [plannedOffer "019b76da-a800-7000-8000-000000000001",.stopped] ++
  greetedStart ++ [plannedOffer "019b76da-a800-7000-8000-000000000002",.turned .called]

def laterProcess : Process InMemoryNodeStateStore :=
  reach (Process.step (withBridge plannedNode planner)) (installed .empty) acceptedThenStopped

theorem acceptedLeaseLost : ∃ (n : Node Connection) (b : Bridge) (store : InMemoryNodeStateStore)
    (events : List Event), (RecordStore.contents store).held = (∅,∅) ∧
    ¬∀ front back, events = front ++ back →
      LeasesSafe (reach (Process.step (withBridge n b)) (installed store) front) := by
  have checked : (((stored laterProcess.session).rows.lookup "offer-1").map
        fun answer => (answer.type,leaseIn answer)) =
          some ("work.accepted","019b76da-a800-7000-8000-0000000000c1") ∧
      laterProcess.executed = [] ∧ laterProcess.queue = .fresh := by decide +kernel
  obtain ⟨accepted,idle,empty⟩ := checked
  obtain ⟨answer,found,same⟩ := Option.map_eq_some_iff.mp accepted
  refine ⟨plannedNode,planner,.empty,acceptedThenStopped,rfl,?_⟩
  intro holds
  have all : LeasesSafe laterProcess := holds acceptedThenStopped [] (List.append_nil _).symm
  have safe := all "offer-1" answer found (congrArg Prod.fst same)
  rw [Safe,idle,empty] at safe
  rcases safe with done | running | will
  · exact List.not_mem_nil done
  · exact Chain.noConfusion running
  · exact List.not_mem_nil ((willExecutePending (fun _ _ => rfl)).mp will).1

def eachAccepted (p : Process InMemoryNodeStateStore) (check : String → Bool) : Bool :=
  (stored p.session).rows.all fun _ answer =>
    answer.type != "work.accepted" || check (leaseIn answer)

theorem allLooked {check : String → OfferAnswer → Bool} {answers : OfferAnswers}
    (checked : answers.all check = true) {key : String} {answer : OfferAnswer}
    (found : answers.lookup key = some answer) : check key answer = true := by
  induction answers using Finmap.induction_on with
  | H a =>
    have each (entries : List ((_ : String) × OfferAnswer)) (b : Bool) :
        entries.foldl (fun x e => x && check e.1 e.2) b =
          (b && entries.all fun e => check e.1 e.2) := by
      induction entries generalizing b with
      | nil => exact (Bool.and_true b).symm
      | cons e rest ih => rw [List.foldl_cons,ih,List.all_cons,Bool.and_assoc]
    have checked : a.entries.foldl (fun x e => x && check e.1 e.2) true = true := checked
    rw [each,Bool.true_and] at checked
    exact List.all_eq_true.mp checked ⟨key,answer⟩ (AList.mem_lookup_iff.mp found)

theorem eachAcceptedSource {p : Process InMemoryNodeStateStore} {check : String → Bool}
    (checked : eachAccepted p check = true) : EachAccepted p (check · = true) := by
  intro key answer found type
  have here := allLooked checked found
  simpa [type] using here

def sparing (p : Process InMemoryNodeStateStore) : Event → Bool
  | .stopped => eachAccepted p p.executed.contains
  | .turned .failed => false
  | .called _ => p.queue.chain != .rejected
  | _ => true

theorem sparingSpares {n : Node Connection} {p : Process InMemoryNodeStateStore} {e : Event}
    (spares : sparing p e = true) : Spares n p e := by
  cases e with
  | stopped =>
    have each := eachAcceptedSource spares
    exact fun key answer found type => by simpa using each key answer found type
  | called op => exact fun _ _ _ _ _ rejected => by simp [sparing,rejected] at spares
  | turned t =>
    cases t with
    | failed => contradiction
    | _ => trivial
  | _ => trivial

def executedThenStopped : List Event :=
  greetedStart ++ [plannedOffer "019b76da-a800-7000-8000-000000000001",.turned .called,
    .turned .executed,.stopped] ++
  greetedStart ++ [plannedOffer "019b76da-a800-7000-8000-000000000002"]

theorem executedLeaseKept : LeasesSafe
    (reach (Process.step (withBridge plannedNode planner)) (installed InMemoryNodeStateStore.empty)
      executedThenStopped) := by
  have checked : everyStep (Process.step (withBridge plannedNode planner)) sparing
    (installed InMemoryNodeStateStore.empty) executedThenStopped = true := by decide +kernel
  exact (leasesSurvive plannedNode planner rfl).mpr (fun front e back split =>
    sparingSpares (everyStepSource _ checked split)) executedThenStopped []
      (List.append_nil _).symm

end ControlCenter.LeaseRecovery
