import ControlCenter.EventBatches
import ControlCenter.OfferIdentity

/-! The batches in flight on one connection. A flush and the replay of a welcome cut at most
the welcome's number of batches each, without regard to those already in flight. -/
namespace ControlCenter.FlowControl
open JsonValue AccpEnvelope AccpMessages StateStore Session ActionLogic
open SessionFrames SessionRuns Admission DurableRecords OfferLedger SealedEnvelopes OfferIdentity
open EventBatches (Adjacent Carries batches flushSealed)
open OverAcknowledgement (after resetNode)

def Eases {σ κ : Type} (s t : NodeSession σ κ) : Prop :=
  t.welcome = none ∨ t.welcome = s.welcome ∧ s.ackedCursor ≤ t.ackedCursor

theorem easesServing {σ κ : Type} : Serving (Eases : NodeSession σ κ → NodeSession σ κ → Prop) where
  refl _ := .inr ⟨rfl,Nat.le_refl _⟩
  trans s t u front back := by
    rcases back with none | ⟨same,acked⟩
    · exact .inl none
    · rcases front with none | ⟨before,below⟩
      · exact .inl (same.trans none)
      · exact .inr ⟨same.trans before,below.trans acked⟩
  outSeq _ _ := .inr ⟨rfl,Nat.le_refl _⟩
  draws _ _ := .inr ⟨rfl,Nat.le_refl _⟩
  store _ _ := .inr ⟨rfl,Nat.le_refl _⟩
  kernelState _ _ := .inr ⟨rfl,Nat.le_refl _⟩
  nodeCursor _ _ := .inr ⟨rfl,Nat.le_refl _⟩
  ackedCursor _ _ := .inr ⟨rfl,Nat.le_max_left _ _⟩
  offerAnswers _ _ := .inr ⟨rfl,Nat.le_refl _⟩

def Grants {σ κ : Type} (s t : NodeSession σ κ) : Prop :=
  t.welcome = s.welcome ∧ t.ackedCursor = s.ackedCursor

theorem grantsReading {σ κ : Type} [NodeStateStore σ] {excused : Fault → Prop} :
    Reading excused (Grants : NodeSession σ κ → NodeSession σ κ → Prop) where
  refl _ := ⟨rfl,rfl⟩
  trans _ _ _ front back := ⟨back.1.trans front.1,back.2.trans front.2⟩
  outSeq _ _ := ⟨rfl,rfl⟩
  draws _ _ := ⟨rfl,rfl⟩
  events _ := frameStore (fun _ _ => ⟨rfl,rfl⟩) _
  truncations := frameStore (fun _ _ => ⟨rfl,rfl⟩) _

section
variable {σ κ : Type} (n : Node κ)

def acceptedWelcome (s : NodeSession σ κ) (op : Operation κ) : Option Welcome :=
  (offeredWelcome n s op).filter fun welcome =>
    !s.epoch.any fun epoch => decide (welcome.connectionEpoch < epoch)

def cutting (s : NodeSession σ κ) : Operation κ → Option (Welcome × Nat)
  | .flush _ fromCursor =>
    if s.connected then s.welcome.map fun welcome => (welcome,fromCursor.getD s.ackedCursor)
    else none
  | .receive raw now => (acceptedWelcome n s (.receive raw now)).map fun welcome =>
      (welcome,welcome.nodeCursorAck)
  | _ => none

def lastCursorOf (events : List NodeEvent) : Nat := (events.getLast?.map (·.cursor)).getD 0

-- The cursors at which a batch is full or the next one does not follow; so many events are
-- in the batch already.
def batchEnds (size : Nat) : Nat → List Nat → List Nat
  | _,[] => []
  | _,[cursor] => [cursor]
  | filled,cursor::next::rest =>
      if next = cursor + 1 ∧ filled + 1 < size then batchEnds size (filled + 1) (next::rest)
      else cursor::batchEnds size 0 (next::rest)

example : batchEnds 2 0 [4,5,6,9,10] = [5,6,10] := by decide

variable [NodeStateStore σ]

def cutCursors (s : NodeSession σ κ) (welcome : Welcome) (fromCursor : Nat) : List Nat :=
  match (NodeStateStore.eventsAfter fromCursor s.store).1 with
  | .ok pending => (batches welcome pending).map lastCursorOf
  | .error _ => []

def sentBy (s : NodeSession σ κ) : Operation κ → List Envelope
  | .receive raw now => (receive n raw now s).1.toOption.getD []
  | .flush now fromCursor => (flush n now fromCursor s).1.toOption.getD []
  | .proposeCompletion payload now => (proposeCompletion n payload now s).1.toOption.toList
  | .startHandshake now => (startHandshake n now s).1.toOption.toList
  | _ => []

omit n [NodeStateStore σ] in
def batchCursors (out : List Envelope) : List Nat :=
  (out.filter fun e => e.type == "run.event_batch").map fun e => cursorAt "lastCursor" e.payload

def connects (s : NodeSession σ κ) (op : Operation κ) : Bool :=
  match op,(op.perform n s).1 with
  | .startHandshake _,.ok _ | .restart _,.ok _ => true
  | _,_ => false

def handNext (s : NodeSession σ κ) (op : Operation κ) (handed : List Nat) : List Nat :=
  if connects n s op then [] else handed ++ batchCursors (sentBy n s op)

def handedOut (s : NodeSession σ κ) (ops : List (Operation κ)) : List Nat :=
  carried n (handNext n) s ops []

omit n [NodeStateStore σ] in
def inFlight (s : NodeSession σ κ) (handed : List Nat) : Nat :=
  handed.countP fun cursor => decide (s.ackedCursor < cursor)

omit n [NodeStateStore σ] in
def InWindow (s : NodeSession σ κ) (handed : List Nat) : Prop :=
  ∀ welcome, s.welcome = some welcome → inFlight s handed ≤ welcome.maxUnackedBatches

-- The batches that what is journaled above a cursor makes, as many as the welcome allows in
-- one call, and of these the ones that end above the acknowledged cursor.
def batchesDue (s : NodeSession σ κ) (welcome : Welcome) (fromCursor : Nat) : Nat :=
  let pending := (NodeStateStore.eventsAfter fromCursor s.store).1.toOption.getD []
  ((batchEnds welcome.maxEventsPerBatch 0 (pending.map (·.cursor))).take
    welcome.maxUnackedBatches).countP fun cursor => decide (s.ackedCursor < cursor)

def RoomFor (s : NodeSession σ κ) (op : Operation κ) (handed : List Nat) : Prop :=
  ∀ welcome fromCursor, cutting n s op = some (welcome,fromCursor) →
    inFlight s handed + batchesDue s welcome fromCursor ≤ welcome.maxUnackedBatches

omit n [NodeStateStore σ] in
theorem endsFirst {size filled : Nat} {xs : List NodeEvent} {tail : List Nat} (some : xs ≠ [])
    (adjacent : xs.IsChain Adjacent) (fits : filled + xs.length ≤ size)
    (stops : filled + xs.length = size ∨ ∀ next ∈ tail.head?, next ≠ lastCursorOf xs + 1) :
    batchEnds size filled (xs.map (·.cursor) ++ tail) =
      lastCursorOf xs::batchEnds size 0 tail := by
  induction xs generalizing filled with
  | nil => contradiction
  | cons e rest ih =>
    cases rest with
    | nil =>
      cases tail with
      | nil => rfl
      | cons next tail =>
        have ended : ¬(next = e.cursor + 1 ∧ filled + 1 < size) := by
          rintro ⟨follows,room⟩
          rcases stops with full | apart
          · simp only [List.length_singleton] at full
            omega
          · exact apart next rfl follows
        simp only [List.map_cons,List.map_nil,List.singleton_append,batchEnds,if_neg ended]
        rfl
    | cons e' rest =>
      obtain ⟨follows,later⟩ := List.isChain_cons_cons.mp adjacent
      simp only [List.length_cons] at fits stops
      have goesOn : e'.cursor = e.cursor + 1 ∧ filled + 1 < size := ⟨follows,by omega⟩
      have next : batchEnds size (filled + 1) ((e'::rest).map (·.cursor) ++ tail) = _ :=
        ih (by simp) later (by simp only [List.length_cons]; omega)
          (stops.imp (fun full => by simp only [List.length_cons]; omega) id)
      simp only [List.map_cons,List.cons_append] at next ⊢
      rw [batchEnds,if_pos goesOn,next]
      rfl

omit n [NodeStateStore σ] in
theorem endsSlices {size : Nat} (positive : 1 ≤ size) {fuel xs : List NodeEvent} {tail : List Nat}
    (enough : xs.length ≤ fuel.length) (adjacent : xs.IsChain Adjacent)
    (stops : xs ≠ [] → ∀ next ∈ tail.head?, next ≠ lastCursorOf xs + 1) :
    batchEnds size 0 (xs.map (·.cursor) ++ tail) =
      (slicesFrom size fuel xs).map lastCursorOf ++ batchEnds size 0 tail := by
  induction fuel generalizing xs with
  | nil =>
    rw [List.length_nil,Nat.le_zero,List.length_eq_zero_iff] at enough
    rw [enough]
    rfl
  | cons used fuel ih =>
    by_cases none_ : xs = []
    · rw [none_]
      rfl
    have whole : slicesFrom size (used::fuel) xs = xs.take size::slicesFrom size fuel (xs.drop size) := by
      cases xs with
      | nil => contradiction
      | cons => rfl
    have some : 0 < xs.length := List.length_pos_iff.mpr none_
    rw [whole]
    by_cases fits : xs.length ≤ size
    · have alone : batchEnds size 0 (xs.map (·.cursor) ++ tail) = _ :=
        endsFirst none_ adjacent (by omega) (.inr (stops none_))
      have spent : slicesFrom size fuel [] = [] := by cases fuel <;> rfl
      rw [List.take_of_length_le fits,List.drop_eq_nil_of_le fits,spent,alone]
      rfl
    · have fewer : (xs.drop size).length ≤ fuel.length := by
        simp only [List.length_drop,List.length_cons] at enough ⊢
        omega
      have last : lastCursorOf (xs.drop size) = lastCursorOf xs := by
        rw [lastCursorOf,lastCursorOf,List.getLast?_drop,if_neg fits]
      have later := ih fewer (adjacent.drop size) fun _ => last ▸ stops none_
      have full : (xs.take size).length = size := List.length_take_of_le (by omega)
      have first : xs.take size ≠ [] := List.ne_nil_of_length_pos (by omega)
      have cut : batchEnds size 0 ((xs.take size).map (·.cursor) ++
          ((xs.drop size).map (·.cursor) ++ tail)) = _ :=
        endsFirst first (adjacent.take size) (by omega) (.inl (by omega))
      rw [← List.append_assoc,← List.map_append,List.take_append_drop] at cut
      rw [cut,later]
      rfl

omit n [NodeStateStore σ] in
theorem endsRuns {size : Nat} (positive : 1 ≤ size) (runs : List (List NodeEvent))
    (each : ∀ run ∈ runs, run ≠ [] ∧ run.IsChain Adjacent)
    (apart : runs.IsChain fun a b => ∀ next ∈ b.head?, next.cursor ≠ lastCursorOf a + 1) :
    batchEnds size 0 (runs.flatten.map (·.cursor)) =
      (runs.flatMap (slices size)).map lastCursorOf := by
  induction runs with
  | nil => rfl
  | cons run rest ih =>
    obtain ⟨own,later⟩ := List.forall_mem_cons.mp each
    rw [List.flatten_cons,List.map_append,List.flatMap_cons,List.map_append,
      ← ih later apart.tail]
    refine endsSlices positive le_rfl own.2 fun _ next first => ?_
    cases rest with
    | nil => cases first
    | cons other rest =>
      obtain ⟨e,others,same⟩ := List.exists_cons_of_ne_nil (later other (by simp)).1
      have start := (List.isChain_cons_cons.mp apart).1 e (by rw [same]; rfl)
      rw [same] at first
      cases first
      exact start

omit n [NodeStateStore σ] in
theorem endsBatches (welcome : Welcome) (pending : List NodeEvent) :
    (batches welcome pending).map lastCursorOf =
      (batchEnds welcome.maxEventsPerBatch 0 (pending.map (·.cursor))).take
        welcome.maxUnackedBatches := by
  have runs := endsRuns (EventBatches.sizePositive welcome) (contiguousEventRuns pending)
    (fun run listed => ⟨List.ne_nil_of_mem_splitBy listed,EventBatches.runAdjacent listed⟩) (by
      refine (List.isChain_getLast_head_splitBy _ pending).imp fun a b bounds next first => ?_
      obtain ⟨some,some',unrelated⟩ := bounds
      rw [List.head?_eq_some_head some'] at first
      cases first
      rw [lastCursorOf,List.getLast?_eq_some_getLast some]
      simpa using unrelated)
  rw [contiguousEventRuns,List.flatten_splitBy] at runs
  rw [batches,List.map_take,contiguousEventRuns,runs]

omit n in
theorem cutDue (s : NodeSession σ κ) (welcome : Welcome) (fromCursor : Nat) :
    inFlight s (cutCursors s welcome fromCursor) = batchesDue s welcome fromCursor := by
  rw [inFlight,batchesDue,cutCursors]
  cases (NodeStateStore.eventsAfter fromCursor s.store).1 with
  | ok pending => exact congrArg _ (endsBatches welcome pending)
  | error message => simp [Except.toOption,batchEnds]

omit n [NodeStateStore σ] in
theorem carriedCursors {bs : List (List NodeEvent)} {out : List Envelope}
    (h : List.Forall₂ Carries bs out) : batchCursors out = bs.map lastCursorOf := by
  induction h with
  | nil => rfl
  | @cons events e bs out head _ ih =>
    obtain ⟨id,truncated,_,payload⟩ := head.payload
    have last : cursorAt "lastCursor" e.payload = lastCursorOf events := by
      rw [cursorAt,payload]
      simp [batchPayload,lastCursorOf,lookup]
    rw [batchCursors] at ih ⊢
    rw [List.filter_cons_of_pos (by simp [head.type]),List.map_cons,List.map_cons,last,ih]

omit n [NodeStateStore σ] in
theorem easedWindow {s t : NodeSession σ κ} {handed : List Nat} (eases : Eases s t)
    (within : InWindow s handed) : InWindow t handed := by
  intro welcome held
  rcases eases with none | ⟨same,acked⟩
  · rw [none] at held
    contradiction
  · refine (List.countP_mono_left ?_).trans (within welcome (same ▸ held))
    intro cursor _ above
    simp only [decide_eq_true_eq] at above ⊢
    omega

omit [NodeStateStore σ] in
theorem offeredDelivered {s : NodeSession σ κ} {raw : Json} {now : Int} {envelope : Envelope}
    (outcome : admission n s raw now = .delivered envelope) (type : envelope.type = "node.welcome") :
    offeredWelcome n s (.receive raw now) = parseAs nodeWelcomeSchema envelope.payload := by
  rw [offeredWelcome,deliveredBy,outcome,Outcome.dispatched,Option.bind_some,if_pos type]

theorem easedReceive {s : NodeSession σ κ} {raw : Json} {now : Int}
    (idle : acceptedWelcome n s (.receive raw now) = none) : Eases s (receive n raw now s).2 := by
  have serving : Serving (Eases : NodeSession σ κ → NodeSession σ κ → Prop) := easesServing
  rw [receiveAdmitted]
  cases outcome : admission n s raw now with
  | thrown message => exact serving.refl s
  | rejected code detail => exact (frameRejected serving.toSealing n raw code detail now).always s
  | foreign envelope => exact (frameNack serving.toSealing n _ _ _ _ now).always s
  | duplicate envelope => exact serving.refl s
  | delivered envelope =>
    dsimp only
    by_cases type : envelope.type = "node.welcome"
    · rw [acceptedWelcome,offeredDelivered n outcome type] at idle
      rw [dispatch,if_pos type,welcomeReceived]
      cases parsed : parseAs nodeWelcomeSchema envelope.payload with
      | none => exact .inr ⟨rfl,Nat.le_refl _⟩
      | some welcome =>
        rw [parsed,Option.filter_some] at idle
        dsimp only
        rw [show (recorded s envelope).epoch = s.epoch from rfl]
        cases lower : s.epoch.any fun epoch => decide (Welcome.connectionEpoch welcome < epoch) with
        | true => exact .inl rfl
        | false =>
          rw [lower] at idle
          contradiction
    · exact (frameServed serving n envelope now fun welcome => absurd welcome type).always
        (recorded s envelope)

theorem easedStep {s : NodeSession σ κ} {op : Operation κ} (idle : cutting n s op = none) :
    Eases s (op.perform n s).2 := by
  have serving : Serving (Eases : NodeSession σ κ → NodeSession σ κ → Prop) := easesServing
  have calm {β : Type} {m : SessionM σ κ β} (frame : Frame (fun _ => False) Eases m) :
      Eases s (discarding m s).2 := by
    rw [discardingState]
    exact frame.always s
  cases op with
  | emitEvent kind data ids now => exact calm (frameEmit serving.journaling n kind data ids now)
  | flush now fromCursor => exact calm (frameFlush serving.reading n now fromCursor)
  | proposeCompletion payload now => exact calm (framePropose serving.toSealing n payload now)
  | startHandshake now =>
    exact calm (frameHandshake serving.toSealing n (fun _ _ => .inl rfl) now)
  | disconnect => exact .inl rfl
  | restart kernelState =>
    have restarts : Frame (fun _ => False) Eases (restart kernelState : SessionM σ κ Unit) :=
      frameSeq serving.trans (frameStore serving.store _) fun _ =>
        frameSeq serving.trans (frameStore serving.store _) fun _ =>
          frameChanging fun _ => .inl rfl
    exact restarts.always s
  | receive raw now =>
    rw [Operation.perform,discardingState]
    exact easedReceive n (Option.map_eq_none_iff.mp idle)

omit [NodeStateStore σ] in
theorem unbatched {out : List Envelope} (each : ∀ e ∈ out, e.type ≠ "run.event_batch") :
    batchCursors out = [] := by
  rw [batchCursors,List.filter_eq_nil_iff.mpr fun e listed => by simpa using each e listed]
  rfl

omit [NodeStateStore σ] in
theorem unbatchedReturned {m : SessionM σ κ (List Envelope)} {s : NodeSession σ κ}
    (each : wp m (fun out _ => ∀ e ∈ out, e.type ≠ "run.event_batch") (fun _ _ => True) s) :
    batchCursors ((m s).1.toOption.getD []) = [] := by
  refine unbatched fun e listed => ?_
  rcases run : m s with ⟨fault | out,t⟩
  · rw [run] at listed
    simp [Except.toOption] at listed
  · rw [run] at listed
    exact wpOk (Q := fun out _ => ∀ e ∈ out, e.type ≠ "run.event_batch") each run e listed

omit [NodeStateStore σ] in
theorem unbatchedSealed {m : SessionM σ κ Envelope} {s : NodeSession σ κ}
    (each : wp m (fun e _ => e.type ≠ "run.event_batch") (fun _ _ => True) s) :
    batchCursors (m s).1.toOption.toList = [] := by
  refine unbatched fun e listed => ?_
  rcases run : m s with ⟨fault | sealed,t⟩
  · rw [run] at listed
    simp [Except.toOption] at listed
  · rw [run] at listed
    rw [List.mem_singleton.mp listed]
    exact wpOk (Q := fun e _ => e.type ≠ "run.event_batch") each run

theorem cutFlush {s : NodeSession σ κ} {welcome : Welcome} (connected : s.connected = true)
    (held : s.welcome = some welcome) (now : Int) (fromCursor : Option Nat) :
    wp (flush n now fromCursor) (fun out _ => batchCursors out =
      cutCursors s welcome (fromCursor.getD s.ackedCursor)) (fun _ _ => True) s := by
  refine wpIntro (fun out t run => ?_) fun _ _ _ => trivial
  rw [cutCursors]
  cases read : (NodeStateStore.eventsAfter (fromCursor.getD s.ackedCursor) s.store).1 with
  | ok pending => exact carriedCursors (flushSealed n connected held read run)
  | error message =>
    unfold flush at run
    rw [runOk (show (get : SessionM σ κ _) s = (.ok s,s) from rfl),connected,held] at run
    dsimp only at run
    have failed : (onStore (NodeStateStore.eventsAfter (fromCursor.getD s.ackedCursor)) :
        SessionM σ κ (List NodeEvent)) s = (.error (.store message),{s with
          store := (NodeStateStore.eventsAfter (fromCursor.getD s.ackedCursor) s.store).2}) := by
      rw [onStore]
      rcases called : NodeStateStore.eventsAfter (fromCursor.getD s.ackedCursor) s.store with
        ⟨result,store⟩
      rw [called] at read
      dsimp only at read
      rw [read]
    rw [runError failed] at run
    cases congrArg Prod.fst run

theorem cutReplay {s : NodeSession σ κ} {welcome : Welcome} (connected : s.connected = true)
    (held : s.welcome = some welcome) (now : Int) (fromCursor : Nat) :
    wp (welcomeReplay n now fromCursor) (fun out _ => batchCursors out =
      cutCursors s welcome fromCursor) (fun _ _ => True) s := by
  unfold welcomeReplay
  rw [wpBind]
  refine wpMono (cutFlush n connected held now (some fromCursor)) (fun replays t cut => ?_)
    fun _ _ _ => trivial
  rw [wpBind]
  refine wpIntro (fun truncations u _ => ?_) fun _ _ _ => trivial
  split
  · exact cut
  · unfold reconcileSummary
    rw [wpBind,wpBind,wpGet,wpBind]
    refine wpIntro (fun truncations v _ => ?_) fun _ _ _ => trivial
    refine wpMono (sealSpec n _ _ now _ v) (fun summary _ sealed => ?_) fun _ _ _ => trivial
    rw [wpPure,batchCursors,List.filter_cons_of_neg (by rw [sealed.1.type]; decide)]
    exact cut

structure Cut (s t : NodeSession σ κ) (welcome : Welcome) (fromCursor : Nat)
    (result : Except Fault (List Envelope)) : Prop where
  held : t.welcome = some welcome
  acked : t.ackedCursor = s.ackedCursor
  handed : batchCursors (result.toOption.getD []) =
    if result.isOk then cutCursors s welcome fromCursor else []

theorem cutReturned {m : SessionM σ κ (List Envelope)} {s u : NodeSession σ κ}
    {welcome : Welcome} {fromCursor : Nat} (held : s.welcome = some welcome)
    (same : s.ackedCursor = u.ackedCursor ∧ s.store = u.store)
    (grants : Frame (fun _ => False) Grants m)
    (cut : wp m (fun out _ => batchCursors out = cutCursors s welcome fromCursor)
      (fun _ _ => True) s) : Cut u (m s).2 welcome fromCursor (m s).1 := by
  obtain ⟨still,acked⟩ := grants.always s
  refine ⟨still.trans held,acked.trans same.1,?_⟩
  rcases run : m s with ⟨fault | out,t⟩
  · rfl
  · refine (wpOk (Q := fun out _ => batchCursors out = cutCursors s welcome fromCursor)
      cut run).trans ?_
    rw [cutCursors,cutCursors,same.2]
    rfl

omit [NodeStateStore σ] in
theorem acceptedSource {s : NodeSession σ κ} {raw : Json} {now : Int} {welcome : Welcome}
    (h : acceptedWelcome n s (.receive raw now) = some welcome) :
    ∃ envelope, admission n s raw now = .delivered envelope ∧ envelope.type = "node.welcome" ∧
      parseAs nodeWelcomeSchema envelope.payload = some welcome ∧
      ¬(s.epoch.any fun epoch => decide (Welcome.connectionEpoch welcome < epoch)) = true := by
  obtain ⟨offered,above⟩ := Option.filter_eq_some_iff.mp h
  simp only [offeredWelcome,Option.bind_eq_some_iff] at offered
  obtain ⟨envelope,delivered,inside⟩ := offered
  split at inside
  · exact ⟨envelope,dispatchedSource delivered,‹_›,inside,by simpa using above⟩
  · contradiction

theorem cutReceive {s : NodeSession σ κ} {raw : Json} {now : Int} {welcome : Welcome}
    (accepted : acceptedWelcome n s (.receive raw now) = some welcome) :
    Cut s (receive n raw now s).2 welcome (Welcome.nodeCursorAck welcome)
      (receive n raw now s).1 := by
  obtain ⟨envelope,outcome,type,parsed,above⟩ := acceptedSource n accepted
  have run : receive n raw now s = welcomeReplay n now (Welcome.nodeCursorAck welcome)
      {recorded s envelope with
        welcome := some welcome,epoch := some (Welcome.connectionEpoch welcome),
        connected := true} := by
    rw [receiveAdmitted,outcome]
    dsimp only
    rw [dispatch,if_pos type,welcomeReceived,parsed]
    dsimp only
    rw [show (recorded s envelope).epoch = s.epoch from rfl,if_neg above]
  rw [run]
  exact cutReturned rfl ⟨rfl,rfl⟩ (frameReplay grantsReading n now _) (cutReplay n rfl rfl now _)

variable [RecordStore σ]

theorem offerReplies {s : NodeSession σ κ} {o : Origins} (traced : Traced s o)
    (envelope : Envelope) (now : Int) : wp (receiveOffer n envelope now)
      (fun out _ => ∀ e ∈ out, e.type ∈ answerTypes) (fun _ _ => True) s := by
  have answers (answer : OfferAnswer) (known : answer.type ∈ answerTypes) (u : NodeSession σ κ) :
      wp (sealAnswer n envelope (idemOf envelope) answer now)
        (fun out _ => ∀ e ∈ out, e.type ∈ answerTypes) (fun _ _ => True) u := by
    refine wpMono (answerSealed n envelope _ answer now u) ?_ fun _ _ _ => trivial
    rintro out t ⟨_,_,e,rfl,type,_⟩ e' listed
    rw [List.mem_singleton.mp listed,type]
    exact known
  cases parsed : parsePayload n.platform "work.offer" envelope.payload with
  | error message =>
    unfold receiveOffer
    rw [parsed]
    trivial
  | ok offer =>
    have run : receiveOffer n envelope now s = _ := offerReceived n s parsed
    have known := originHeld n traced (idemOf envelope)
    cases held : heldAnswer n s (idemOf envelope) with
    | some answer =>
      rw [held] at run known
      dsimp only at run
      obtain ⟨_,_,made⟩ := known
      exact wpSame run (answers answer made.known s)
    | none =>
      rw [held] at run
      rcases decided : n.kernel.decideOffer offer s.kernelState with
        ⟨message | decision,kernelState⟩
      · rw [decided] at run
        unfold wp
        rw [run]
        trivial
      · rw [decided] at run
        dsimp only at run
        refine wpSame run ?_
        rw [wpBind]
        refine wpIntro (fun _ u _ => ?_) fun _ _ _ => trivial
        exact answers _ (answerPlain (offerTexts parsed) decision now).2 u

theorem silentReceive {s : NodeSession σ κ} {o : Origins} (traced : Traced s o) {raw : Json}
    {now : Int} (idle : acceptedWelcome n s (.receive raw now) = none) :
    wp (receive n raw now) (fun out _ => ∀ e ∈ out, e.type ≠ "run.event_batch")
      (fun _ _ => True) s := by
  refine returnsReceived n s raw now (fun u type payload extra e reply sealed => ?_)
    (fun envelope outcome type => ?_) fun envelope outcome type => ?_
  · rw [sealed.type]
    rcases reply with rfl | rfl
    · decide
    · decide
  · have run := welcomeReceived n envelope now (recorded s envelope)
    rw [acceptedWelcome,offeredDelivered n outcome type] at idle
    cases parsed : parseAs nodeWelcomeSchema envelope.payload with
    | none =>
      rw [parsed] at run
      unfold wp
      rw [run]
      trivial
    | some welcome =>
      rw [parsed] at run
      rw [parsed,Option.filter_some] at idle
      cases lower : s.epoch.any fun epoch => decide (Welcome.connectionEpoch welcome < epoch) with
      | true =>
        dsimp only at run
        rw [show (recorded s envelope).epoch = s.epoch from rfl,if_pos lower] at run
        unfold wp
        rw [run]
        simp
      | false =>
        rw [lower] at idle
        contradiction
  · have before : Traced (recorded s envelope) o := ⟨traced.cached,traced.stored⟩
    refine wpMono (offerReplies n before envelope now) (fun out _ known e listed => ?_)
      fun _ _ _ => trivial
    have type := known e listed
    intro batch
    rw [batch] at type
    exact absurd type (by decide)

theorem silentStep {s : NodeSession σ κ} {o : Origins} (traced : Traced s o) {op : Operation κ}
    (idle : cutting n s op = none) : batchCursors (sentBy n s op) = [] := by
  cases op with
  | receive raw now =>
    exact unbatchedReturned (silentReceive n traced (Option.map_eq_none_iff.mp idle))
  | flush now fromCursor =>
    refine unbatchedReturned ?_
    unfold flush
    rw [wpBind,wpGet]
    split
    · rename_i connected held
      rw [cutting,if_pos connected,held] at idle
      contradiction
    · simp
  | proposeCompletion payload now =>
    refine unbatchedSealed ?_
    unfold proposeCompletion
    rw [wpBind]
    refine wpIntro (fun completion t _ => ?_) fun _ _ _ => trivial
    refine wpMono (sealSpec n _ _ now _ t) (fun e _ sealed => ?_) fun _ _ _ => trivial
    rw [sealed.1.type]
    decide
  | startHandshake now =>
    refine unbatchedSealed ?_
    unfold startHandshake
    rw [wpBind]
    refine wpIntro (fun sessionId t _ => ?_) fun _ _ _ => trivial
    rw [wpBind,wpChanging,wpBind,wpGet]
    refine wpMono (sealSpec n _ _ now _ _) (fun e _ sealed => ?_) fun _ _ _ => trivial
    rw [sealed.1.type]
    decide
  | _ => rfl

omit [RecordStore σ] in
theorem cutStep {s : NodeSession σ κ} {op : Operation κ} {welcome : Welcome} {fromCursor : Nat}
    (cuts : cutting n s op = some (welcome,fromCursor)) :
    connects n s op = false ∧ (op.perform n s).2.welcome = some welcome ∧
    (op.perform n s).2.ackedCursor = s.ackedCursor ∧ batchCursors (sentBy n s op) =
      if (op.perform n s).1.isOk then cutCursors s welcome fromCursor else [] := by
  cases op with
  | flush now from? =>
    rw [cutting] at cuts
    split at cuts
    · obtain ⟨w,held,same⟩ := Option.map_eq_some_iff.mp cuts
      cases same
      rename_i connected
      have cut := cutReturned held ⟨rfl,rfl⟩ (frameFlush grantsReading n now from?)
        (cutFlush n connected held now from?)
      rw [Operation.perform,discardingState,discardingReturns]
      exact ⟨rfl,cut.held,cut.acked,cut.handed⟩
    · contradiction
  | receive raw now =>
    obtain ⟨w,accepted,same⟩ := Option.map_eq_some_iff.mp cuts
    cases same
    have cut := cutReceive n accepted
    rw [Operation.perform,discardingState,discardingReturns]
    exact ⟨rfl,cut.held,cut.acked,cut.handed⟩
  | _ => contradiction

theorem windowStep {s : NodeSession σ κ} {op : Operation κ} {handed : List Nat}
    (traced : ∃ o, Traced s o) (within : InWindow s handed) (room : RoomFor n s op handed) :
    InWindow (op.perform n s).2 (handNext n s op handed) := by
  obtain ⟨o,traced⟩ := traced
  cases cuts : cutting n s op with
  | none =>
    rw [handNext]
    split
    · exact fun welcome _ => Nat.zero_le _
    · rw [silentStep n traced cuts,List.append_nil]
      exact easedWindow (easedStep n cuts) within
  | some cut =>
    obtain ⟨welcome,fromCursor⟩ := cut
    obtain ⟨same,held,acked,sent⟩ := cutStep n cuts
    have enough := room welcome fromCursor cuts
    intro w other
    cases held.symm.trans other
    rw [handNext,same,sent,inFlight,acked]
    cases (op.perform n s).1.isOk with
    | true =>
      rw [← cutDue] at enough
      exact (List.countP_append ..).le.trans enough
    | false =>
      simp only [Bool.false_eq_true,if_false,List.append_nil]
      exact (Nat.le_add_right _ _).trans enough

omit [RecordStore σ] in
theorem roomNeeded {s : NodeSession σ κ} {op : Operation κ} {handed : List Nat}
    (within : InWindow (op.perform n s).2 (handNext n s op handed))
    (returned : (op.perform n s).1.isOk = true) : RoomFor n s op handed := by
  intro welcome fromCursor cuts
  obtain ⟨same,held,acked,sent⟩ := cutStep n cuts
  have room := within welcome held
  rw [handNext,same,sent,returned,inFlight,acked] at room
  rw [← cutDue]
  exact (List.countP_append ..).symm.le.trans room

/-- Over every run whose flushes and accepted welcomes all have room for the batches that
are due, the batches in flight on the connection stay within the welcome's limit; and each
that returns needs the room. -/
theorem flowControl {start : NodeSession σ κ} {ops : List (Operation κ)}
    (empty : start.offerAnswers = ∅ ∧ (stored start).answers = ∅) :
    ((∀ front op back, ops = front ++ op::back →
        RoomFor n (after n start front) op (handedOut n start front)) →
      ∀ front back, ops = front ++ back →
        InWindow (after n start front) (handedOut n start front)) ∧
    ((∀ front back, ops = front ++ back →
        InWindow (after n start front) (handedOut n start front)) →
      ∀ front op back, ops = front ++ op::back →
        (op.perform n (after n start front)).1.isOk = true →
        RoomFor n (after n start front) op (handedOut n start front)) := by
  have traced : ∃ o, Traced start o := by
    refine ⟨unanswered,?_,?_⟩
    · rw [empty.1]; exact fun _ => rfl
    · rw [empty.2]; exact fun _ => rfl
  constructor
  · intro rooms front back split
    refine (everyMet n (handNext n) (I := fun s handed => (∃ o, Traced s o) ∧ InWindow s handed)
      (D := RoomFor n) ?_ ⟨traced,fun _ _ => Nat.zero_le _⟩ rooms front back split).2
    rintro s op handed ⟨traced,within⟩ room
    obtain ⟨o,known⟩ := traced
    exact ⟨⟨_,tracedStep n known op⟩,windowStep n ⟨o,known⟩ within room⟩
  · intro within front op back split returned
    have next := within (front ++ [op]) back (by rw [split,List.append_assoc]; rfl)
    rw [afterLast] at next
    refine roomNeeded n ?_ returned
    rwa [handedOut,carriedLast] at next

end

def narrowWelcome : Operation Unit :=
  .receive (cloudEnvelope "019b76da-a800-7000-8000-000000000000"
    "019b76da-a800-7000-8000-000000000011" "node.welcome" none (welcomePayload 1 0 1 256))
    1767225600000

def flushedTwice : List (Operation Unit) :=
  [.startHandshake 1767225600000,narrowWelcome,noted "run.note",.flush 1767225600000 none,
   .flush 1767225600000 none]

theorem windowOverrun : ∃ (start : NodeSession InMemoryNodeStateStore Unit)
    (ops : List (Operation Unit)), start.offerAnswers = ∅ ∧ (stored start).answers = ∅ ∧
    ¬∀ front back, ops = front ++ back →
      InWindow (after (idleNode 10) start front) (handedOut (idleNode 10) start front) := by
  have checked : (after (idleNode 10) resetNode flushedTwice).welcome.any (fun welcome =>
      decide (welcome.maxUnackedBatches < inFlight (after (idleNode 10) resetNode flushedTwice)
        (handedOut (idleNode 10) resetNode flushedTwice))) = true := by decide +kernel
  refine ⟨resetNode,flushedTwice,rfl,rfl,fun holds => ?_⟩
  obtain ⟨welcome,held,above⟩ := (Option.any_eq_true _ _).mp checked
  exact absurd (holds flushedTwice [] (List.append_nil _).symm welcome held)
    (by simpa using above)

def flushedInTurn : List (Operation Unit) :=
  [.startHandshake 1767225600000,narrowWelcome,noted "run.note",.flush 1767225600000 none,
   .receive (OverAcknowledgement.cloudAck "019b76da-a800-7000-8000-000000000000" 1) 1767225600000,
   noted "run.note",.flush 1767225600000 none]

def hasRoom (s : NodeSession InMemoryNodeStateStore Unit) (op : Operation Unit)
    (handed : List Nat) : Bool :=
  (cutting (idleNode 10) s op).all fun (welcome,fromCursor) =>
    decide (inFlight s handed + batchesDue s welcome fromCursor ≤ welcome.maxUnackedBatches)

theorem flushedInWindow : InWindow (after (idleNode 10) resetNode flushedInTurn)
    (handedOut (idleNode 10) resetNode flushedInTurn) := by
  have rooms : everyCall (idleNode 10) (handNext (idleNode 10)) hasRoom resetNode
    flushedInTurn [] = true := by decide +kernel
  refine (flowControl (idleNode 10) ⟨rfl,rfl⟩).1 ?_ flushedInTurn [] (List.append_nil _).symm
  intro front op back split welcome fromCursor cuts
  have room := everyCallSource (idleNode 10) _ rooms split
  rw [hasRoom,cuts] at room
  exact of_decide_eq_true room

end ControlCenter.FlowControl
