import ControlCenter.LeaseRecovery
import ControlCenter.ReplayProtection
import ControlCenter.SessionReports

/-! A node's connection: the client with its sockets, the session, and the drain that
executes accepted leases and sends what each execution proposes. The kernel answers as it
may; sockets open, close and are replaced between any two turns of the event loop. -/
namespace ControlCenter.CompletionDelivery
open JsonValue ZodSchema AccpEnvelope AccpMessages StateStore Dialogue ControlCenter.Execution
open Operations ScriptRuns Session
open ActionLogic SessionFrames JournalRefinement SealedEnvelopes SealRoundTrip ReplayProtection
open LeaseQueue CoordinatorBridge AcceptedExecution ExecutionProgress SessionReports RunLogic
open AcceptedProgress (steady crew)

inductive ReadyState where
  | connecting
  | opened
  | closing
  | closed
  deriving DecidableEq, Repr

inductive Progress where
  | opening
  | resolved
  | listening
  | settled
  deriving DecidableEq, Repr

-- The session a socket is handshaken under is kept in the model alone.
structure Socket where
  readyState : ReadyState
  progress : Progress
  welcomed : Option String
  deriving DecidableEq, Repr

structure NodeWsClient where
  sockets : List Socket
  socket : Option Nat
  closed : Bool

structure Sent where
  socket : Nat
  welcomed : Option String
  envelope : Envelope

structure Execution where
  number : Nat
  leaseId : String
  deriving DecidableEq, Repr

-- The execution a drain awaits, cut at its stages: the kernel has the task to create, to
-- run, or to read back; at the end the completion is sealed and the drain goes on.
inductive Phase where
  | resting
  | creating (e : Execution) (entry : AcceptedOffer) (now : Int) (rest : Reported String)
  | running (e : Execution) (entry : AcceptedOffer) (now : Int) (taskId : String)
      (rest : TaskCrew (Option RunTaskResult))
  | reporting (e : Execution) (taskId : String) (rest : Reported ExecutionOutcome)
  | proposed (e : Execution) (completionEnvelope : Envelope)

-- The lists of finished executions, of their completions and of what was sent are kept in
-- the model alone.
structure NodeConnection (σ : Type) where
  session : NodeSession σ Connection
  client : NodeWsClient
  phase : Phase
  executions : Nat
  finished : List Execution
  completions : List (Execution × Envelope)
  wire : List Sent

inductive Event where
  | connect
  | opens (socket : Nat)
  | handshakes (socket : Nat) (now : Int)
  | message (socket : Nat) (raw : Json) (now : Int)
  | connected (socket : Nat)
  | fails (socket : Nat)
  | errs (socket : Nat)
  | closing (socket : Nat)
  | closes (socket : Nat)
  | close
  | prefetched (digest planBytes : String)
  | called (now : Int)
  | answers (reply : (q : KernelQuestion) → Except String (KernelAnswer q))
  | flushes (now next : Int)

def Socket.listens (s : Socket) : Bool :=
  s.progress == .listening || s.progress == .settled

namespace NodeWsClient
variable (c : NodeWsClient)

def current : Option Socket := c.socket.bind fun i => c.sockets[i]?

def change (i : Nat) (f : Socket → Socket) : NodeWsClient := {c with sockets := c.sockets.modify i f}

def has (i : Nat) (p : Socket → Bool) : Bool := c.sockets[i]?.any p

end NodeWsClient

section
variable {σ : Type} [NodeStateStore σ] (n : Node Connection) (o : Coordinator.Options)

namespace NodeConnection
variable (c : NodeConnection σ)

def remembers (queue : Queue) : NodeConnection σ :=
  {c with session := {c.session with kernelState := {c.session.kernelState with queue}}}

def queue : Queue := c.session.kernelState.queue

def disconnects : NodeConnection σ := {c with session := (disconnect c.session).2}

-- A socket that is not open is sent nothing, and nobody is told.
def send (envelope : Envelope) : NodeConnection σ := match c.client.socket with
  | none => c
  | some i => match c.client.sockets[i]? with
    | none => c
    | some s => if s.readyState = .opened then
        {c with wire := c.wire ++ [⟨i,s.welcomed,envelope⟩]} else c

def sendAll (envelopes : List Envelope) : NodeConnection σ := envelopes.foldl send c

def abortSocket (i : Nat) : NodeConnection σ :=
  {c.disconnects with client := {c.client with
    socket := if c.client.socket = some i then none else c.client.socket
    sockets := c.client.sockets.modify i fun s =>
      if s.readyState = .closed then s else {s with readyState := .closing}}}

def connects : NodeConnection σ :=
  if c.client.closed then c
  else
    let c := match c.client.socket with
      | some i => c.abortSocket i
      | none => c
    {c with client := {c.client with
      sockets := c.client.sockets ++ [⟨.connecting,.opening,none⟩]
      socket := some c.client.sockets.length}}

def handshakes (i : Nat) (now : Int) : NodeConnection σ :=
  match startHandshake n now c.session with
  | (.ok hello,session) => {c with
      session
      client := c.client.change i fun s => {s with progress := .listening}}.send hello
  | (.error _,session) => {c with
      session
      client := c.client.change i fun s => {s with progress := .settled}}.abortSocket i

def receives (i : Nat) (raw : Json) (now : Int) : NodeConnection σ :=
  let (reply,session) := receive n raw now c.session
  let c := {c with session}
  let c := if session.connected then
      {c with client := c.client.change i fun s => {s with welcomed := some session.sessionId}}
    else c
  match reply with
  | .ok outbound => c.sendAll outbound
  | .error _ => c

def rejects : NodeConnection σ :=
  {c.remembers {c.queue with chain := .rejected} with phase := .resting}

def reports (e : Execution) (taskId : String) (script : Reported ExecutionOutcome) :
    NodeConnection σ :=
  match advance n script c.session with
  | (.done outcome,session) => {c with
      session
      phase := .proposed e outcome.completionEnvelope
      completions := c.completions ++ [(e,outcome.completionEnvelope)]}
  | (.fail _,session) => {c with session}.rejects
  | (.ask q next,session) => {c with session,phase := .reporting e taskId (.ask q next)}

def ran (e : Execution) (entry : AcceptedOffer) (now : Int) (taskId : String) :
    TaskCrew (Option RunTaskResult) → NodeConnection σ
  | .done (some result) =>
    if result.taskId = taskId then
      {c with finished := c.finished ++ [e]}.reports n e taskId
        (reportExecution n.platform entry.offer now taskId result)
    else c.rejects
  | .done none | .fail _ => c.rejects
  | .ask q next => {c with phase := .running e entry now taskId (.ask q next)}

def created (e : Execution) (entry : AcceptedOffer) (now : Int) (script : Reported String) :
    NodeConnection σ := match advance n script c.session with
  | (.done taskId,session) => {c with session,phase := .running e entry now taskId (runNext o)}
  | (.fail _,session) => {c with session}.rejects
  | (.ask q next,session) => {c with session,phase := .creating e entry now (.ask q next)}

def executes (now : Int) : NodeConnection σ := match c.queue.chain with
  | .executing leaseId => match c.session.kernelState.accepted.lookup leaseId with
    | none => c.rejects
    | some entry => {c with executions := c.executions + 1}.created n o ⟨c.executions,leaseId⟩
        entry now (createOwn entry.offer now leaseId entry.plan)
  | _ => c

def answered (reply : (q : KernelQuestion) → Except String (KernelAnswer q)) :
    NodeConnection σ := match c.phase with
  | .creating e entry now (.ask (.inl q) next) => c.created n o e entry now (next (reply q))
  | .running e entry now taskId (.ask q next) => c.ran n e entry now taskId (next (reply q))
  | .reporting e taskId (.ask (.inl q) next) => c.reports n e taskId (next (reply q))
  | _ => c

def loops (next : Int) : NodeConnection σ :=
  {c.remembers c.queue.drain with phase := .resting}.executes n o next

def flushes (now next : Int) : NodeConnection σ := match c.phase with
  | .proposed _ completionEnvelope => match flush n now none c.session with
    | (.ok batches,session) =>
      (({c with session}.sendAll batches).send completionEnvelope).loops n o next
    | (.error _,session) => {c with session}.rejects
  | _ => c

def step : Event → NodeConnection σ
  | .connect => c.connects
  | .opens i => if c.client.has i (·.readyState == .connecting) then
      {c with client := c.client.change i fun s => {s with
        readyState := .opened,progress := .resolved}} else c
  | .handshakes i now => if c.client.has i (·.progress == .resolved) then c.handshakes n i now else c
  | .message i raw now =>
    if c.client.socket = some i ∧ c.client.has i (·.listens) then c.receives n i raw now else c
  | .connected i => if c.session.connected && c.client.has i (·.progress == .listening) then
      {c with client := c.client.change i fun s => {s with progress := .settled}} else c
  | .fails i =>
    if c.client.has i (·.progress == .opening) ||
        !c.session.connected && c.client.has i (·.progress == .listening) then
      {c with client := c.client.change i fun s => {s with progress := .settled}}.abortSocket i
    else c
  | .errs i =>
    if c.client.socket = some i ∧ c.client.has i (·.listens) then c.disconnects else c
  | .closing i => if c.client.has i (·.readyState == .opened) then
      {c with client := c.client.change i fun s => {s with readyState := .closing}} else c
  | .closes i =>
    let closed := {c with client := c.client.change i fun s => {s with readyState := .closed}}
    if c.client.socket = some i ∧ c.client.has i (·.listens) then
      {closed.disconnects with client := {closed.client with socket := none}} else closed
  | .close => {c with client := {c.client with
      closed := true
      sockets := match c.client.socket with
        | none => c.client.sockets
        | some i => c.client.sockets.modify i fun s =>
            if s.readyState = .closed then s else {s with readyState := .closing}}}
  | .prefetched digest planBytes => {c with session := {c.session with
      kernelState := c.session.kernelState.prefetched digest planBytes}}
  | .called now => match c.phase,c.queue.chain,c.queue.waiting with
    | .resting,.settled,waiting + 1 =>
      (c.remembers {c.queue with waiting}.drain).executes n o now
    | _,_,_ => c
  | .answers reply => c.answered n o reply
  | .flushes now next => c.flushes n o now next

end NodeConnection

def NodeConnection.resumed (c : NodeConnection σ)
    (reply : (q : KernelQuestion) → Except String (KernelAnswer q)) :
    Option (Reported ExecutionOutcome) := match c.phase with
  | .running _ entry now taskId (.ask q next) => match next (reply q) with
    | .done (some result) =>
      if result.taskId = taskId then
        some (reportExecution n.platform entry.offer now taskId result)
      else none
    | _ => none
  | .reporting _ _ (.ask (.inl q) next) => some (next (reply q))
  | _ => none

def Phase.answered (reply : (q : KernelQuestion) → Except String (KernelAnswer q)) : Phase → Prop
  | .running _ entry now _ _ => InClock now ∧
      accepts (workOfferSchema n.platform) entry.offer = true
  | .reporting _ taskId (.ask (.inl q) _) => ∃ a, reply q = .ok a ∧ ReadsJointly (Stored taskId) q a
  | _ => True

def Severs (c : NodeConnection σ) : Event → Prop
  | .connect => c.client.closed = false
  | .handshakes i _ => c.client.has i (·.progress == .resolved) = true
  | .fails i | .closing i | .closes i => c.client.socket = some i
  | .close => True
  | _ => False

-- The store refuses nothing, and what is sealed can be. The connection is open when the
-- completion is sealed, and nothing severs it before the drain goes on.
structure Meets (c : NodeConnection σ) (event : Event) : Prop where
  unsevered : ∀ e envelope, c.phase = .proposed e envelope → ¬Severs c event
  reports : ∀ reply script, event = .answers reply → c.resumed n reply = some script →
    c.phase.answered n reply ∧ Unrefused n script c.session ∧
    ∀ outcome session, advance n script c.session = (.done outcome,session) →
      c.session.connected = true ∧ ∃ s, c.client.current = some s ∧ s.readyState = .opened
  flushes : ∀ now next e envelope, event = .flushes now next → c.phase = .proposed e envelope →
    InClock now ∧ (∀ fault, (flush n now none c.session).1 = .error fault → ¬storeFault fault) ∧
    (c.session.connected = true → ∀ pending store,
      NodeStateStore.eventsAfter c.session.ackedCursor c.session.store = (.ok pending,store) →
        ∀ event ∈ pending, canonical event.toJson = true)

end

section
variable {σ : Type}

-- Sent on an open socket that was handshaken under the session it is sealed for.
def Delivered (c : NodeConnection σ) (e : Execution) : Prop :=
  ∃ envelope, (e,envelope) ∈ c.completions ∧
    ∃ s ∈ c.wire, s.envelope = envelope ∧ s.welcomed = some envelope.sessionId

def Phase.retains : Phase → Option Execution
  | .reporting e _ _ | .proposed e _ => some e
  | _ => none

structure NoneLost (c : NodeConnection σ) : Prop where
  accounted : ∀ e ∈ c.finished, Delivered c e ∨ c.phase.retains = some e
  idle : c.phase = .resting → ∀ e ∈ c.finished, Delivered c e

structure Known (p : Platform) (c : NodeConnection σ) : Prop where
  accounted : ∀ e ∈ c.finished, Delivered c e ∨ c.phase.retains = some e
  sealed : ∀ e envelope, c.phase = .proposed e envelope → (e,envelope) ∈ c.completions
  underway : ∀ e taskId script, c.phase = .reporting e taskId script → Underway p taskId script
  shaken : c.session.connected = true →
    ∃ s, c.client.current = some s ∧ s.welcomed = some c.session.sessionId
  stands : ∀ e envelope, c.phase = .proposed e envelope →
    envelope.sessionId = c.session.sessionId ∧
    ∃ s, c.client.current = some s ∧ s.readyState = .opened ∧ s.welcomed = some envelope.sessionId

theorem knownLosesNone {p : Platform} {c : NodeConnection σ} (known : Known p c) : NoneLost c := by
  refine ⟨known.accounted,fun resting e finished => ?_⟩
  rcases known.accounted e finished with delivered | retained
  · exact delivered
  · rw [resting] at retained
    cases retained

structure Carries (c d : NodeConnection σ) : Prop where
  phase : d.phase = c.phase
  finished : d.finished = c.finished
  completions : d.completions = c.completions
  wire : ∀ s ∈ c.wire, s ∈ d.wire

theorem Carries.refl (c : NodeConnection σ) : Carries c c := ⟨rfl,rfl,rfl,fun _ => id⟩

theorem Carries.trans {c d e : NodeConnection σ} (first : Carries c d) (rest : Carries d e) :
    Carries c e :=
  ⟨rest.phase.trans first.phase,rest.finished.trans first.finished,
    rest.completions.trans first.completions,fun s listed => rest.wire s (first.wire s listed)⟩

theorem Carries.delivered {c d : NodeConnection σ} {e : Execution} (carries : Carries c d)
    (delivered : Delivered c e) : Delivered d e := by
  obtain ⟨envelope,completed,s,listed,same,welcomed⟩ := delivered
  exact ⟨envelope,by rwa [carries.completions],s,carries.wire s listed,same,welcomed⟩

theorem Carries.known {p : Platform} {c d : NodeConnection σ} (carries : Carries c d)
    (known : Known p c) (shaken : d.session.connected = true →
      ∃ s, d.client.current = some s ∧ s.welcomed = some d.session.sessionId)
    (stands : ∀ e envelope, c.phase = .proposed e envelope →
      envelope.sessionId = d.session.sessionId ∧
      ∃ s, d.client.current = some s ∧ s.readyState = .opened ∧
        s.welcomed = some envelope.sessionId) : Known p d := by
  obtain ⟨phase,finished,completions,wire⟩ := carries
  refine ⟨fun e listed => ?_,?_,?_,shaken,?_⟩
  · rw [finished] at listed
    rw [phase]
    exact (known.accounted e listed).imp_left
      (Carries.delivered ⟨phase,finished,completions,wire⟩)
  · rw [phase,completions]
    exact known.sealed
  · rw [phase]
    exact known.underway
  · rw [phase]
    exact stands

structure Sends (c d : NodeConnection σ) : Prop extends Carries c d where
  client : d.client = c.client
  session : d.session = c.session

theorem sendSends (c : NodeConnection σ) (envelope : Envelope) : Sends c (c.send envelope) := by
  unfold NodeConnection.send
  split
  · exact ⟨.refl c,rfl,rfl⟩
  split
  · exact ⟨.refl c,rfl,rfl⟩
  split
  · exact ⟨⟨rfl,rfl,rfl,fun s listed => List.mem_append_left _ listed⟩,rfl,rfl⟩
  · exact ⟨.refl c,rfl,rfl⟩

theorem sendAllSends (c : NodeConnection σ) (envelopes : List Envelope) :
    Sends c (c.sendAll envelopes) := by
  induction envelopes generalizing c with
  | nil => exact ⟨.refl c,rfl,rfl⟩
  | cons envelope rest ih =>
    have first := sendSends c envelope
    have later := ih (c.send envelope)
    exact ⟨first.toCarries.trans later.toCarries,later.client.trans first.client,
      later.session.trans first.session⟩

theorem Sends.known {p : Platform} {c d : NodeConnection σ} (sends : Sends c d)
    (known : Known p c) : Known p d := by
  refine sends.toCarries.known known ?_ ?_
  · rw [sends.client,sends.session]
    exact known.shaken
  · rw [sends.client,sends.session]
    exact known.stands

theorem sendReaches {c : NodeConnection σ} {s : Socket} (envelope : Envelope)
    (current : c.client.current = some s) (opened : s.readyState = .opened) :
    ∃ sent ∈ (c.send envelope).wire, sent.envelope = envelope ∧ sent.welcomed = s.welcomed := by
  obtain ⟨i,chosen,found⟩ := Option.bind_eq_some_iff.mp current
  refine ⟨⟨i,s.welcomed,envelope⟩,?_,rfl,rfl⟩
  unfold NodeConnection.send
  rw [chosen]
  dsimp only
  rw [found]
  dsimp only
  rw [if_pos opened]
  exact List.mem_append_right _ (List.mem_singleton_self _)

theorem changedCurrent {client : NodeWsClient} {s : Socket} (i : Nat) (f : Socket → Socket)
    (current : client.current = some s) :
    (client.change i f).current = some (if client.socket = some i then f s else s) := by
  obtain ⟨j,chosen,found⟩ := Option.bind_eq_some_iff.mp current
  unfold NodeWsClient.current NodeWsClient.change
  rw [chosen]
  show (client.sockets.modify i f)[j]? = _
  rw [List.getElem?_modify,found]
  by_cases same : i = j
  · simp [same]
  · simp [same,Ne.symm same]

section
variable {p : Platform} {c : NodeConnection σ}

theorem changeKnown (known : Known p c) (i : Nat) {f : Socket → Socket}
    (welcomed : ∀ s, (f s).welcomed = s.welcomed)
    (opened : ∀ e envelope, c.phase = .proposed e envelope → c.client.socket = some i →
      ∀ s, s.readyState = .opened → (f s).readyState = .opened) :
    Known p {c with client := c.client.change i f} := by
  refine Carries.known (c := c) ⟨rfl,rfl,rfl,fun _ => id⟩ known (fun connected => ?_)
    fun e envelope proposed => ?_
  · obtain ⟨s,current,own⟩ := known.shaken connected
    refine ⟨_,changedCurrent i f current,?_⟩
    split
    · exact (welcomed s).trans own
    · exact own
  · obtain ⟨same,s,current,ready,own⟩ := known.stands e envelope proposed
    refine ⟨same,_,changedCurrent i f current,?_⟩
    split
    · rename_i here
      exact ⟨opened e envelope proposed here s ready,(welcomed s).trans own⟩
    · exact ⟨ready,own⟩

theorem disconnectsKnown (known : Known p c) : Known p c.disconnects :=
  Carries.known (c := c) ⟨rfl,rfl,rfl,fun _ => id⟩ known (fun connected => Bool.noConfusion connected)
    known.stands

theorem apartKnown {d : NodeConnection σ} (carries : Carries c d) (known : Known p c)
    (offline : d.session.connected = false)
    (none : ∀ e envelope, c.phase ≠ .proposed e envelope) : Known p d :=
  carries.known known (fun connected => by rw [offline] at connected; cases connected)
    fun e envelope proposed => absurd proposed (none e envelope)

theorem abortKnown (known : Known p c) (i : Nat)
    (other : ∀ e envelope, c.phase = .proposed e envelope → c.client.socket ≠ some i) :
    Known p (c.abortSocket i) := by
  refine Carries.known (c := c) ⟨rfl,rfl,rfl,fun _ => id⟩ known
    (fun connected => Bool.noConfusion connected) fun e envelope proposed => ?_
  obtain ⟨same,s,current,ready,own⟩ := known.stands e envelope proposed
  have chosen := other e envelope proposed
  have kept := changedCurrent i (fun s => if s.readyState = .closed then s else
    {s with readyState := .closing}) current
  rw [if_neg chosen] at kept
  refine ⟨same,s,?_,ready,own⟩
  unfold NodeConnection.abortSocket NodeWsClient.current
  rw [if_neg chosen]
  exact kept

theorem connectsKnown (known : Known p c)
    (unsevered : ∀ e envelope, c.phase = .proposed e envelope → ¬c.client.closed = false) :
    Known p c.connects := by
  unfold NodeConnection.connects
  split
  · exact known
  · rename_i opened
    have none : ∀ e envelope, c.phase ≠ .proposed e envelope := fun e envelope proposed =>
      unsevered e envelope proposed (Bool.eq_false_iff.mpr opened)
    cases held : c.client.socket with
    | some i => exact apartKnown (c := c) ⟨rfl,rfl,rfl,fun _ => id⟩ known rfl none
    | none =>
      refine apartKnown (c := c) ⟨rfl,rfl,rfl,fun _ => id⟩ known ?_ none
      refine Bool.eq_false_iff.mpr fun connected => ?_
      obtain ⟨s,current,_⟩ := known.shaken connected
      unfold NodeWsClient.current at current
      rw [held] at current
      cases current

theorem handshakeOffline {n : Node Connection} {now : Int} {s t : NodeSession σ Connection} {hello : Envelope}
    (h : startHandshake n now s = (.ok hello,t)) : t.connected = false := by
  have spec : wp (startHandshake n now : SessionM σ Connection Envelope)
      (fun _ t => t.connected = false) (fun _ _ => True) s := by
    unfold startHandshake
    rw [wpBind]
    refine wpIntro (fun sessionId u _ => ?_) fun _ _ _ => trivial
    rw [wpBind,wpChanging,wpBind,wpGet]
    refine wpIntro (fun hello t sealed => ?_) fun _ _ _ => trivial
    have frame (type : String) (payload : Json) (extra : Extra) :
        Frame (fun _ => False) SameConnection (sealMessage n type payload now extra :
          SessionM σ Connection Envelope) := frameSeal connectionServing.toSealing n type payload now extra
    exact ((frame _ _ _).ok sealed).connected
  exact wpOk (Q := fun _ t => t.connected = false) spec h

theorem handshakesKnown {n : Node Connection} (i : Nat) (now : Int) (known : Known p c)
    (none : ∀ e envelope, c.phase ≠ .proposed e envelope) : Known p (c.handshakes n i now) := by
  unfold NodeConnection.handshakes
  split
  · rename_i hello session shook
    refine (sendSends _ hello).known ?_
    exact apartKnown (c := c) ⟨rfl,rfl,rfl,fun _ => id⟩ known (handshakeOffline shook) none
  · exact apartKnown (c := c) ⟨rfl,rfl,rfl,fun _ => id⟩ known rfl none

end

structure Leaves (c d : NodeConnection σ) : Prop where
  finished : d.finished = c.finished
  completions : d.completions = c.completions
  wire : d.wire = c.wire
  retains : d.phase.retains = none
  client : d.client = c.client
  connection : SameConnection c.session d.session

theorem Leaves.known {p : Platform} {c d : NodeConnection σ} (leaves : Leaves c d)
    (delivered : ∀ e ∈ c.finished, Delivered c e) (shaken : c.session.connected = true →
      ∃ s, c.client.current = some s ∧ s.welcomed = some c.session.sessionId) : Known p d := by
  have none := leaves.retains
  refine ⟨fun e finished => ?_,fun e envelope proposed => ?_,fun e taskId script reporting => ?_,?_,
    fun e envelope proposed => ?_⟩
  · rw [leaves.finished] at finished
    obtain ⟨envelope,completed,sent⟩ := delivered e finished
    refine .inl ⟨envelope,?_,?_⟩
    · rwa [leaves.completions]
    · rwa [leaves.wire]
  · rw [proposed] at none
    cases none
  · rw [reporting] at none
    cases none
  · rw [leaves.client,leaves.connection.connected,leaves.connection.sessionId]
    exact shaken
  · rw [proposed] at none
    cases none

end

section
variable {σ : Type} [NodeStateStore σ] {n : Node Connection} {o : Coordinator.Options}
  {c : NodeConnection σ}

theorem receivesKnown (i : Nat) (raw : Json) (now : Int) (known : Known n.platform c)
    (current : c.client.socket = some i) (listens : c.client.has i (·.listens) = true) :
    Known n.platform (c.receives n i raw now) := by
  obtain ⟨own,found,_⟩ := (Option.any_eq_true _ _).mp listens
  have here : c.client.current = some own := Option.bind_eq_some_iff.mpr ⟨i,current,found⟩
  have same := guardedReceive n raw now c.session
  unfold NodeConnection.receives
  cases received : receive n raw now c.session with
  | mk reply session =>
    rw [received] at same
    have same : session.sessionId = c.session.sessionId := by
      refine same.1.trans ?_
      split <;> rfl
    dsimp only
    have taken : Known n.platform (if session.connected = true then
        {c with session,client := c.client.change i fun s => {s with welcomed := some session.sessionId}}
        else {c with session}) := by
      split
      · have changed (s : Socket) (held : c.client.current = some s) :=
          changedCurrent i (fun s => {s with welcomed := some session.sessionId}) held
        refine Carries.known (c := c) ⟨rfl,rfl,rfl,fun _ => id⟩ known (fun _ => ?_)
          fun e envelope proposed => ?_
        · refine ⟨_,changed own here,?_⟩
          rw [if_pos current]
        · obtain ⟨sealed,s,held,ready,_⟩ := known.stands e envelope proposed
          refine ⟨sealed.trans same.symm,_,changed s held,?_⟩
          rw [if_pos current]
          exact ⟨ready,congrArg some (same.trans sealed.symm)⟩
      · rename_i offline
        refine Carries.known (c := c) ⟨rfl,rfl,rfl,fun _ => id⟩ known
          (fun connected => absurd connected offline) fun e envelope proposed => ?_
        obtain ⟨sealed,stands⟩ := known.stands e envelope proposed
        exact ⟨sealed.trans same.symm,stands⟩
    cases reply with
    | ok outbound => exact (sendAllSends _ outbound).known taken
    | error fault => exact taken

theorem createdLeaves {e : Execution} {entry : AcceptedOffer} {now : Int}
    {script : Reported String} : Leaves c (c.created n o e entry now script) := by
  have same := advanceSame n script c.session
  unfold NodeConnection.created
  cases advanced : advance n script c.session with
  | mk rest session =>
    rw [advanced] at same
    cases rest with
    | done taskId => exact ⟨rfl,rfl,rfl,rfl,rfl,same⟩
    | fail error => exact ⟨rfl,rfl,rfl,rfl,rfl,same.connected,same.sessionId⟩
    | ask q next => exact ⟨rfl,rfl,rfl,rfl,rfl,same⟩

theorem executesLeaves {now : Int} (retains : c.phase.retains = none) :
    Leaves c (c.executes n o now) := by
  unfold NodeConnection.executes
  split
  · rename_i leaseId _
    cases c.session.kernelState.accepted.lookup leaseId with
    | none => exact ⟨rfl,rfl,rfl,rfl,rfl,rfl,rfl⟩
    | some entry =>
      have leaves : Leaves {c with executions := c.executions + 1}
          (NodeConnection.created n o {c with executions := c.executions + 1}
            ⟨c.executions,leaseId⟩ entry now (createOwn entry.offer now leaseId entry.plan)) :=
        createdLeaves
      exact ⟨leaves.finished,leaves.completions,leaves.wire,leaves.retains,leaves.client,
        leaves.connection⟩
  · exact ⟨rfl,rfl,rfl,retains,rfl,rfl,rfl⟩

theorem reportsKnown {e : Execution} {taskId : String} {script : Reported ExecutionOutcome}
    (delivered : ∀ f ∈ c.finished, Delivered c f ∨ f = e) (shaken : c.session.connected = true →
      ∃ s, c.client.current = some s ∧ s.welcomed = some c.session.sessionId)
    (underway : Underway n.platform taskId script) (unrefused : Unrefused n script c.session)
    (opened : ∀ outcome session, advance n script c.session = (.done outcome,session) →
      c.session.connected = true ∧ ∃ s, c.client.current = some s ∧ s.readyState = .opened) :
    Known n.platform (c.reports n e taskId script) := by
  unfold NodeConnection.reports
  rcases advanceUnderway n underway unrefused with
    ⟨outcome,session,ran,same,own⟩ | ⟨q,next,session,ran,same,onward⟩
  · obtain ⟨connected,s,current,ready⟩ := opened outcome session ran
    obtain ⟨s',current',welcomed⟩ := shaken connected
    cases current.symm.trans current'
    rw [ran]
    refine ⟨fun f finished => ?_,fun f envelope proposed => ?_,fun f taskId script reporting => ?_,
      fun _ => ⟨s,current,welcomed.trans (congrArg some same.sessionId.symm)⟩,
      fun f envelope proposed => ?_⟩
    · refine (delivered f finished).imp ?_ (fun same => by rw [same]; rfl)
      rintro ⟨envelope,completed,sent⟩
      exact ⟨envelope,List.mem_append_left _ completed,sent⟩
    · cases proposed
      exact List.mem_append_right _ (List.mem_singleton_self _)
    · cases reporting
    · cases proposed
      exact ⟨own.trans same.sessionId.symm,s,current,ready,welcomed.trans (congrArg some own.symm)⟩
  · rw [ran]
    refine ⟨fun f finished => ?_,fun f envelope proposed => ?_,fun f taskId script reporting => ?_,
      fun connected => ?_,fun f envelope proposed => ?_⟩
    · exact (delivered f finished).imp_right fun same => by rw [same]; rfl
    · cases proposed
    · cases reporting
      exact onward
    · rw [same.connected] at connected
      obtain ⟨s,current,welcomed⟩ := shaken connected
      exact ⟨s,current,welcomed.trans (congrArg some same.sessionId.symm)⟩
    · cases proposed

theorem answeredKnown (hashes : Hashes n.platform)
    {reply : (q : KernelQuestion) → Except String (KernelAnswer q)}
    (known : Known n.platform c) (meets : Meets n c (.answers reply)) :
    Known n.platform (c.answered n o reply) := by
  have delivered (retains : c.phase.retains = none) : ∀ e ∈ c.finished, Delivered c e := by
    intro e finished
    refine (known.accounted e finished).resolve_right fun same => ?_
    rw [retains] at same
    cases same
  unfold NodeConnection.answered
  split
  · rename_i phase
    have retains : c.phase.retains = none := by rw [phase]; rfl
    exact createdLeaves.known (delivered retains) known.shaken
  · rename_i e entry now taskId q next phase
    have retains : c.phase.retains = none := by rw [phase]; rfl
    have all := delivered retains
    have rejects : Known n.platform c.rejects :=
      Leaves.known (c := c) ⟨rfl,rfl,rfl,rfl,rfl,rfl,rfl⟩ all known.shaken
    cases ended : next (reply q) with
    | fail error => exact rejects
    | ask q next => exact Leaves.known (c := c) ⟨rfl,rfl,rfl,rfl,rfl,rfl,rfl⟩ all known.shaken
    | done found =>
      cases found with
      | none => exact rejects
      | some result =>
        show Known n.platform (if result.taskId = taskId then
          NodeConnection.reports n {c with finished := c.finished ++ [e]} e taskId
            (reportExecution n.platform entry.offer now taskId result) else c.rejects)
        split
        · rename_i own
          have resumed : c.resumed n reply =
              some (reportExecution n.platform entry.offer now taskId result) := by
            unfold NodeConnection.resumed
            rw [phase]
            dsimp only
            rw [ended]
            exact if_pos own
          obtain ⟨answered,unrefused,opened⟩ := meets.reports reply _ rfl resumed
          rw [phase] at answered
          obtain ⟨clock,offered⟩ := answered
          refine reportsKnown (fun f finished => ?_) known.shaken
            (reportUnderway hashes clock (offerOffered offered) result)
            unrefused opened
          rcases List.mem_append.mp finished with finished | last
          · exact .inl (all f finished)
          · exact .inr (List.mem_singleton.mp last)
        · exact rejects
  · rename_i e taskId q next phase
    have resumed : c.resumed n reply = some (next (reply q)) := by
      unfold NodeConnection.resumed
      rw [phase]
    obtain ⟨answered,unrefused,opened⟩ := meets.reports reply _ rfl resumed
    rw [phase] at answered
    obtain ⟨a,replied,shown⟩ := answered
    have underway := known.underway e taskId _ phase
    refine reportsKnown (fun f finished => ?_) known.shaken ?_ unrefused opened
    · refine (known.accounted f finished).imp_right fun same => ?_
      rw [phase] at same
      exact (Option.some.inj same).symm
    · rw [replied]
      exact ⟨underway.succeeds.2 a shown,underway.closes.2 id _⟩
  · exact known

theorem loopsKnown {next : Int} (delivered : ∀ e ∈ c.finished, Delivered c e)
    (shaken : c.session.connected = true →
      ∃ s, c.client.current = some s ∧ s.welcomed = some c.session.sessionId) :
    Known n.platform (c.loops n o next) := by
  have leaves : Leaves {c.remembers c.queue.drain with phase := .resting} (c.loops n o next) :=
    executesLeaves rfl
  exact leaves.known delivered shaken

theorem flushesKnown {now next : Int} (known : Known n.platform c)
    (meets : Meets n c (.flushes now next)) : Known n.platform (c.flushes n o now next) := by
  cases phase : c.phase with
  | proposed e envelope =>
    obtain ⟨clock,unrefused,written⟩ := meets.flushes now next e envelope rfl phase
    obtain ⟨_,s,current,ready,welcomed⟩ := known.stands e envelope phase
    have fails : wp (flush n now none) (fun _ _ => True) (fun fault _ => storeFault fault) c.session :=
      failsFlush (fun _ => trivial) n clock written
    have frame : Frame (fun _ => False) SameConnection (flush n now none :
        SessionM σ Connection (List Envelope)) := frameFlush connectionServing.reading n now none
    have same := frame.always c.session
    cases flushed : flush n now none c.session with
    | mk result session =>
    rw [flushed] at same
    cases result with
    | error fault => exact absurd (wpError fails flushed) (unrefused fault (by rw [flushed]))
    | ok batches =>
      have split : c.flushes n o now next =
          (({c with session}.sendAll batches).send envelope).loops n o next := by
        unfold NodeConnection.flushes
        rw [phase]
        dsimp only
        rw [flushed]
      rw [split]
      have first := sendAllSends {c with session} batches
      generalize NodeConnection.sendAll {c with session} batches = d at first
      have last := sendSends d envelope
      have all : Carries c (d.send envelope) := by
        refine Carries.trans ?_ last.toCarries
        exact ⟨first.phase,first.finished,first.completions,first.wire⟩
      have here : d.client.current = some s := by rwa [first.client]
      obtain ⟨sent,listed,sealed,under⟩ := sendReaches envelope here ready
      refine loopsKnown (fun f finished => ?_) fun connected => ?_
      · rw [all.finished] at finished
        rcases known.accounted f finished with delivered | retained
        · exact all.delivered delivered
        · rw [phase] at retained
          cases retained
          refine ⟨envelope,?_,sent,listed,sealed,under.trans welcomed⟩
          rw [all.completions]
          exact known.sealed e envelope phase
      · rw [last.session,first.session,same.connected] at connected
        rw [last.client,first.client,last.session,first.session,same.sessionId]
        exact known.shaken connected
  | _ =>
    unfold NodeConnection.flushes
    rw [phase]
    exact known

theorem calledKnown {now : Int} (known : Known n.platform c) :
    Known n.platform (c.step n o (.called now)) := by
  rw [NodeConnection.step]
  split
  · rename_i waiting phase settled chained
    have none : c.phase.retains = none := by rw [phase]; rfl
    have leaves : Leaves (c.remembers {c.queue with waiting}.drain)
        ((c.remembers {c.queue with waiting}.drain).executes n o now) := executesLeaves none
    refine leaves.known (fun e finished => ?_) known.shaken
    refine (known.accounted e finished).resolve_right fun retained => ?_
    rw [phase] at retained
    cases retained
  · exact known

theorem closedKnown (known : Known n.platform c)
    (unproposed : ∀ e envelope, c.phase ≠ .proposed e envelope) :
    Known n.platform (c.step n o .close) := by
  rw [NodeConnection.step]
  refine Carries.known (c := c) ⟨rfl,rfl,rfl,fun _ => id⟩ known (fun connected => ?_)
    fun e envelope proposed => absurd proposed (unproposed e envelope)
  obtain ⟨s,current,own⟩ := known.shaken connected
  obtain ⟨i,chosen,_⟩ := Option.bind_eq_some_iff.mp current
  have changed := changedCurrent i (fun s => if s.readyState = .closed then s else
    {s with readyState := .closing}) current
  rw [if_pos chosen] at changed
  have welcomed : (if s.readyState = .closed then s else {s with readyState := .closing}).welcomed =
      s.welcomed := by split <;> rfl
  refine ⟨_,?_,welcomed.trans own⟩
  unfold NodeWsClient.current NodeWsClient.change at changed
  unfold NodeWsClient.current
  dsimp only
  rw [chosen] at changed ⊢
  exact changed

theorem stepKnown (hashes : Hashes n.platform) (known : Known n.platform c) (e : Event)
    (meets : Meets n c e) : Known n.platform (c.step n o e) := by
  have severed (h : Severs c e) : ∀ e envelope, c.phase ≠ .proposed e envelope :=
    fun e envelope proposed => meets.unsevered e envelope proposed h
  cases e with
  | connect => exact connectsKnown known fun e envelope proposed h => severed h e envelope proposed
  | opens i =>
    rw [NodeConnection.step]
    split
    · exact changeKnown known i (fun _ => rfl) fun _ _ _ _ _ _ => rfl
    · exact known
  | handshakes i now =>
    rw [NodeConnection.step]
    split
    · exact handshakesKnown i now known (severed ‹_›)
    · exact known
  | message i raw now =>
    rw [NodeConnection.step]
    split
    · rename_i heard
      exact receivesKnown i raw now known heard.1 heard.2
    · exact known
  | connected i =>
    rw [NodeConnection.step]
    split
    · exact changeKnown known i (fun _ => rfl) fun _ _ _ _ _ => id
    · exact known
  | fails i =>
    rw [NodeConnection.step]
    split
    · have settled : Known n.platform
          {c with client := c.client.change i fun s => {s with progress := .settled}} :=
        changeKnown known i (fun _ => rfl) fun _ _ _ _ _ => id
      exact abortKnown settled i fun e envelope proposed here => severed here e envelope proposed
    · exact known
  | errs i =>
    rw [NodeConnection.step]
    split
    · exact disconnectsKnown known
    · exact known
  | closing i =>
    rw [NodeConnection.step]
    split
    · exact changeKnown known i (fun _ => rfl) fun e envelope proposed here =>
        absurd proposed (severed here e envelope)
    · exact known
  | closes i =>
    rw [NodeConnection.step]
    dsimp only
    split
    · rename_i heard
      exact apartKnown (c := c) ⟨rfl,rfl,rfl,fun _ => id⟩ known rfl (severed heard.1)
    · exact changeKnown known i (fun _ => rfl) fun e envelope proposed here =>
        absurd proposed (severed here e envelope)
  | close => exact closedKnown known (severed trivial)
  | prefetched digest planBytes =>
    exact Carries.known (c := c) ⟨rfl,rfl,rfl,fun _ => id⟩ known known.shaken known.stands
  | called now => exact calledKnown known
  | answers reply => exact answeredKnown hashes known meets
  | flushes now next => exact flushesKnown known meets

def unconnected (session : NodeSession σ Connection) : NodeConnection σ :=
  ⟨session,⟨[],none,false⟩,.resting,0,[],[],[]⟩

/-- However executions, closing sockets, reconnects and handshakes interleave, no finished
execution is lost while each completion is sealed on an open connection that nothing severs
before the drain has sent it, and the session's store refuses no report. -/
theorem completionsKept (hashes : Hashes n.platform) {session : NodeSession σ Connection}
    (offline : session.connected = false) {events : List Event}
    (meets : ∀ front e back, events = front ++ e::back →
      Meets n (reach (NodeConnection.step n o) (unconnected session) front) e)
    (front back : List Event) (split : events = front ++ back) :
    NoneLost (reach (NodeConnection.step n o) (unconnected session) front) := by
  have start : Known n.platform (unconnected session) := by
    refine ⟨fun e finished => ?_,fun e envelope proposed => ?_,fun e taskId script reporting => ?_,
      fun connected => ?_,fun e envelope proposed => ?_⟩
    · cases finished
    · cases proposed
    · cases reporting
    · exact absurd connected (Bool.eq_false_iff.mp offline)
    · cases proposed
  have known := reachMet (NodeConnection.step n o) (I := Known n.platform)
    (fun c e known met => stepKnown hashes known e met) start meets front back split
  exact knownLosesNone known

end

def node : Node Connection := LeaseRecovery.withBridge LeaseRecovery.plannedNode LeaseRecovery.planner

def constructed : NodeSession InMemoryNodeStateStore Connection :=
  (restart Connection.fresh (LeaseRecovery.installed .empty).session).2

abbrev InMemoryConnection := NodeConnection InMemoryNodeStateStore

def atWork (w : System.World) : (q : KernelQuestion) → Except String (KernelAnswer q)
  | .inl q => (System.respond ⟨⟨0,0⟩,none⟩ steady w q).1
  | .inr _ => .error "unanswered"

def nextWorld (w : System.World) : KernelQuestion → System.World
  | .inl q => (System.respond ⟨⟨0,0⟩,none⟩ steady w q).2
  | .inr _ => w

def Phase.awaits : Phase → Option KernelQuestion
  | .creating _ _ _ (.ask (.inl q) _) | .running _ _ _ _ (.ask q _)
  | .reporting _ _ (.ask (.inl q) _) => some q
  | _ => none

def worlds (change : Nat → System.World → System.World) :
    Nat → InMemoryConnection → System.World → List System.World
  | 0,_,_ => []
  | k + 1,c,w => match c.phase.awaits with
    | none => []
    | some q => change k w :: worlds change k (c.answered node crew (atWork (change k w)))
        (nextWorld (change k w) q)

def welcoming (socket : Nat) (sessionId : String) : Event :=
  .message socket (Admission.cloudEnvelope sessionId "019b76da-a800-7000-8000-000000000001"
    "node.welcome" none (Admission.welcomePayload 1 0 10 10)) 1767225600000

def leasing : List Event :=
  [.connect,.opens 0,.handshakes 0 1767225600000,
   welcoming 0 "019b76da-a800-7000-8000-000000000000",.connected 0,
   .prefetched (String.ofList (List.replicate 64 '0')) "plan",
   .message 0 (Admission.cloudEnvelope "019b76da-a800-7000-8000-000000000000"
     "019b76da-a800-7000-8000-000000000002" "work.offer" (some "offer-1")
     (OfferLedger.offerPayload "019b76da-a800-7000-8000-0000000000a1"
       (String.ofList (List.replicate 64 '0')))) 1767225600000,
   .called 1767225600000]

def shuttingDown (k : Nat) (w : System.World) : System.World :=
  if k = 30 then System.setMemory w 0 {w.memory 0 with shutdownRequested := true} else w

def kernelAnswers : List Event :=
  (worlds shuttingDown 46 (reach (NodeConnection.step node crew) (unconnected constructed) leasing)
    (System.idleWorld .empty)).map fun w => .answers (atWork w)

def shows (taskId : String) (reply : (q : KernelQuestion) → Except String (KernelAnswer q)) :
    KernelQuestion → Bool
  | .inl .snapshot => (reply (.inl .snapshot)).toOption.any fun db : Db.ControlCenterDb =>
      decide (Stored taskId db)
  | q => (reply q).isOk

theorem showsStored {taskId : String} {reply : (q : KernelQuestion) → Except String (KernelAnswer q)}
    {q : KernelQuestion} (shown : shows taskId reply q = true) :
    ∃ a, reply q = .ok a ∧ ReadsJointly (Stored taskId) q a := by
  match q with
  | .inr members =>
    obtain ⟨a,replied⟩ := okSome (show (reply (.inr members)).isOk = true from shown)
    exact ⟨a,replied,trivial⟩
  | .inl q =>
    cases q with
    | snapshot =>
      obtain ⟨db,found,stored⟩ := (Option.any_eq_true _ _).mp shown
      cases replied : reply (.inl .snapshot) with
      | error error =>
        rw [replied] at found
        cases found
      | ok a =>
        rw [replied] at found
        cases found
        exact ⟨_,rfl,(of_decide_eq_true stored : Stored taskId db)⟩
    | _ =>
      obtain ⟨a,replied⟩ := okSome shown
      exact ⟨a,replied,trivial⟩

def takes : Reported ExecutionOutcome → NodeSession InMemoryNodeStateStore Connection → Bool
  | .ask (.inr r) next,s => (perform node r s).1.isOk && decide (s.nodeCursor ≤ 9007199254740991) &&
      takes (next ((perform node r s).1.mapError Fault.text)) (perform node r s).2
  | _,_ => true

theorem takesUnrefused {script : Reported ExecutionOutcome}
    {s : NodeSession InMemoryNodeStateStore Connection} (taken : takes script s = true) :
    Unrefused node script s := by
  induction script generalizing s with
  | done | fail => trivial
  | ask q next ih =>
    cases q with
    | inl q => trivial
    | inr r =>
      rw [takes,Bool.and_eq_true,Bool.and_eq_true] at taken
      obtain ⟨⟨returned,safe⟩,later⟩ := taken
      refine ⟨fun fault failed => ?_,of_decide_eq_true safe,ih _ later⟩
      rw [failed] at returned
      cases returned

instance (c : InMemoryConnection) : DecidablePred (Severs c)
  | .connect => inferInstanceAs (Decidable (c.client.closed = false))
  | .handshakes i _ => inferInstanceAs (Decidable (c.client.has i (·.progress == .resolved) = true))
  | .fails i | .closing i | .closes i => inferInstanceAs (Decidable (c.client.socket = some i))
  | .close => .isTrue trivial
  | .opens _ | .message .. | .connected _ | .errs _ | .prefetched .. | .called _ | .answers _
  | .flushes .. => .isFalse id

instance (now : Int) : Decidable (InClock now) :=
  inferInstanceAs (Decidable (0 ≤ now ∧ now ≤ 0xffffffffffff))

def answers (reply : (q : KernelQuestion) → Except String (KernelAnswer q)) : Phase → Bool
  | .running _ entry now _ _ => decide (InClock now) && accepts (workOfferSchema node.platform) entry.offer
  | .reporting _ taskId (.ask (.inl q) _) => shows taskId reply q
  | _ => true

def meeting (c : InMemoryConnection) (event : Event) : Bool :=
  (match c.phase with
    | .proposed .. => !decide (Severs c event)
    | _ => true) &&
  match event with
  | .answers reply => (c.resumed node reply).all fun script =>
      answers reply c.phase && takes script c.session &&
      match (advance node script c.session).1 with
      | .done _ => c.session.connected && c.client.current.any fun s => s.readyState == .opened
      | _ => true
  | .flushes now _ => match c.phase with
    | .proposed .. => decide (InClock now) && (flush node now none c.session).1.isOk &&
        ((NodeStateStore.eventsAfter c.session.ackedCursor c.session.store).1.toOption.all fun pending =>
          pending.all fun event => canonical event.toJson)
    | _ => true
  | _ => true

theorem meetingMeets {c : InMemoryConnection} {event : Event} (meets : meeting c event = true) :
    Meets node c event := by
  obtain ⟨unsevered,meets⟩ := Bool.and_eq_true_iff.mp meets
  constructor
  · intro e envelope proposed severs
    rw [proposed] at unsevered
    simp [severs] at unsevered
  · rintro reply script rfl resumed
    dsimp only at meets
    rw [resumed,Option.all_some,Bool.and_eq_true,Bool.and_eq_true] at meets
    obtain ⟨⟨answered,taken⟩,opened⟩ := meets
    refine ⟨?_,takesUnrefused taken,fun outcome session advanced => ?_⟩
    · unfold Phase.answered
      unfold answers at answered
      split at answered
      · exact (Bool.and_eq_true_iff.mp answered).imp_left of_decide_eq_true
      · exact showsStored answered
      · trivial
    · rw [advanced] at opened
      obtain ⟨connected,s,current,ready⟩ := (Bool.and_eq_true_iff.mp opened).imp_right
        (Option.any_eq_true _ _).mp
      exact ⟨connected,s,current,eq_of_beq ready⟩
  · rintro now next e envelope rfl proposed
    dsimp only at meets
    rw [proposed] at meets
    simp only [Bool.and_eq_true] at meets
    obtain ⟨⟨clock,returned⟩,written⟩ := meets
    refine ⟨of_decide_eq_true clock,fun fault failed => ?_,fun _ pending store read event listed => ?_⟩
    · rw [failed] at returned
      cases returned
    · rw [read] at written
      exact List.all_eq_true.mp written event listed

def deliveredRun : List Event := leasing ++ kernelAnswers ++ [.flushes 1767225600000 1767225600000]

theorem zeroHashes : Hashes node.platform := fun _ => by
  show fits _ ("sha256:" ++ String.ofList (List.replicate 64 '0')).toList = true
  decide +kernel

theorem connectedDelivered :
    NoneLost (reach (NodeConnection.step node crew) (unconnected constructed) deliveredRun) := by
  have checked : everyStep (NodeConnection.step node crew) meeting (unconnected constructed)
    deliveredRun = true := by decide +kernel
  exact completionsKept zeroHashes rfl (fun _ _ _ split => meetingMeets (everyStepSource _ checked split))
    deliveredRun [] (List.append_nil _).symm

def lostRun : List Event :=
  leasing ++ kernelAnswers.take 20 ++ [.closing 0,.closes 0] ++ kernelAnswers.drop 20 ++
  [.flushes 1767225600000 1767225600000,.connect,.opens 1,.handshakes 1 1767225600001,
   welcoming 1 "019b76da-a801-7000-8000-000000000000",.connected 1]

def reconnected : InMemoryConnection :=
  reach (NodeConnection.step node crew) (unconnected constructed) lostRun

def unsent (c : InMemoryConnection) : Bool :=
  c.session.connected && c.finished == [⟨0,"019b76da-a800-7000-8000-0000000000c1"⟩] &&
    c.phase.retains.isNone &&
    c.completions.all fun p => c.wire.all fun s => s.envelope.type != p.2.type

theorem completionLost : reconnected.session.connected = true ∧ ¬NoneLost reconnected := by
  have checked : unsent reconnected = true := by decide +kernel
  simp only [unsent,Bool.and_eq_true,beq_iff_eq,List.all_eq_true,bne_iff_ne] at checked
  obtain ⟨⟨⟨connected,finished⟩,released⟩,apart⟩ := checked
  refine ⟨connected,fun kept => ?_⟩
  rcases kept.accounted ⟨0,"019b76da-a800-7000-8000-0000000000c1"⟩ (by simp [finished]) with
    delivered | retained
  · obtain ⟨envelope,completed,sent,listed,same,_⟩ := delivered
    exact apart _ completed sent listed (congrArg Envelope.type same)
  · rw [retained] at released
    exact absurd released Bool.false_ne_true

end ControlCenter.CompletionDelivery
