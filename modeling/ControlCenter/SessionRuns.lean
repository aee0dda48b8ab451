import ControlCenter.JournalRefinement

/-! Runs of a node session: any order of its calls, with restarts from the store, in
which the store calls succeed. Every state reached accounts for every cursor. -/
namespace ControlCenter.SessionRuns
open JsonValue AccpEnvelope AccpIds StateStore Session PositionLedger JournalView
open JournalRefinement ActionLogic SessionFrames LawfulNodeStateStore

inductive Operation (κ : Type) where
  | emitEvent (kind : String) (data : List (String × Json)) (ids : EventIds) (now : Int)
  | receive (raw : Json) (now : Int)
  | startHandshake (now : Int)
  | flush (now : Int) (fromCursor : Option Nat)
  | proposeCompletion (payload : Json) (now : Int)
  | disconnect
  | restart (kernelState : κ)

theorem returnedNoFault {result : Except Fault Unit} (returned : result.isOk = true) :
    ∀ fault, result = .error fault → ¬storeFault fault := fun _ failed => by
  rw [failed] at returned
  contradiction

section
variable {σ κ : Type} [NodeStateStore σ]

def discarding {α : Type} (m : SessionM σ κ α) : SessionM σ κ Unit := m >>= fun _ => pure ()

omit [NodeStateStore σ] in
theorem discardingState {α : Type} (m : SessionM σ κ α) (s : NodeSession σ κ) :
    (discarding m s).2 = (m s).2 := by
  rcases run : m s with ⟨e | a,t⟩
  · rw [discarding,runError run]
  · rw [discarding,runOk run]
    rfl

omit [NodeStateStore σ] in
theorem discardingError {α : Type} {m : SessionM σ κ α} {s : NodeSession σ κ} {fault : Fault}
    (failed : (m s).1 = .error fault) : (discarding m s).1 = .error fault := by
  rcases run : m s with ⟨e | a,t⟩
  · rw [run] at failed
    cases failed
    rw [discarding,runError run]
  · rw [run] at failed
    contradiction

omit [NodeStateStore σ] in
theorem discardingOk {α : Type} {m : SessionM σ κ α} {s : NodeSession σ κ}
    (returned : (discarding m s).1.isOk = true) : ∃ a, m s = (.ok a,(discarding m s).2) := by
  rcases run : m s with ⟨e | a,t⟩
  · rw [discarding,runError run] at returned
    contradiction
  · exact ⟨a,by rw [discarding,runOk run]; rfl⟩

omit [NodeStateStore σ] in
theorem discardingReturns {α : Type} (m : SessionM σ κ α) (s : NodeSession σ κ) :
    (discarding m s).1.isOk = (m s).1.isOk := by
  rcases run : m s with ⟨e | a,t⟩
  · rw [discarding,runError run]
    rfl
  · rw [discarding,runOk run]
    rfl

def Operation.perform (n : Node κ) : Operation κ → SessionM σ κ Unit
  | .emitEvent kind data ids now => discarding (Session.emitEvent n kind data ids now)
  | .receive raw now => discarding (Session.receive n raw now)
  | .startHandshake now => discarding (Session.startHandshake n now)
  | .flush now fromCursor => discarding (Session.flush n now fromCursor)
  | .proposeCompletion payload now => discarding (Session.proposeCompletion n payload now)
  | .disconnect => Session.disconnect
  | .restart kernelState => Session.restart kernelState

def Step (n : Node κ) (s t : NodeSession σ κ) : Prop :=
  ∃ op : Operation κ, ∃ result, op.perform n s = (result,t) ∧
    ∀ fault, result = .error fault → ¬storeFault fault

def Run (n : Node κ) : NodeSession σ κ → NodeSession σ κ → Prop := Relation.ReflTransGen (Step n)

theorem stepReturned {n : Node κ} {s : NodeSession σ κ} (op : Operation κ)
    (returned : (op.perform n s).1.isOk = true) : Step n s (op.perform n s).2 :=
  ⟨op,(op.perform n s).1,Prod.mk.eta.symm,returnedNoFault returned⟩

variable [LawfulNodeStateStore σ]

def opened (kernelState : κ) : NodeSession σ κ :=
  ⟨empty,kernelState,0,0,∅,"",none,0,none,.empty,false,0⟩

def journal (s : NodeSession σ κ) : List Entry := (view s.store).live
def reported (s : NodeSession σ κ) : List (Nat × Nat) := (view s.store).gone

def unacked (s : NodeSession σ κ) : List Entry :=
  (journal s).filter fun e => decide (s.ackedCursor < e.cursor)

theorem framedDiscard {α : Type} {P : Pattern} {m : SessionM σ κ α}
    (moves : Frame storeFault (Moves P) m) : Frame storeFault (Moves P) (discarding m) :=
  frameBind moves (fun _ => framePure () quietRefl) (fun _ _ h => h) movesThenQuiet

theorem calmOperation (n : Node κ) (op : Operation κ)
    (other : ∀ kind data ids now, op ≠ .emitEvent kind data ids now) :
    Frame storeFault (Moves Calm) (op.perform n : SessionM σ κ Unit) := by
  cases op with
  | emitEvent kind data ids now => exact absurd rfl (other kind data ids now)
  | receive raw now => exact framedDiscard (movesReceive n raw now)
  | startHandshake now => exact framedDiscard (quietFrame (quietHandshake n now))
  | flush now fromCursor => exact framedDiscard (quietFrame (frameFlush quietReading n now fromCursor))
  | proposeCompletion payload now =>
    refine framedDiscard (quietFrame ?_)
    exact frameSeq quietTrans (frameOrThrow quietRefl _) fun _ => frameSeal quietSealing n _ _ now _
  | disconnect => exact quietFrame quietDisconnect
  | restart kernelState => exact quietFrame (quietRestart kernelState)

theorem movesOperation (n : Node κ) (op : Operation κ) :
    Frame storeFault (Moves (Turn n.maxBufferedEvents)) (op.perform n : SessionM σ κ Unit) := by
  by_cases emits : ∃ kind data ids now, op = .emitEvent kind data ids now
  · obtain ⟨kind,data,ids,now,rfl⟩ := emits
    exact framedDiscard (movesEmit n kind data ids now)
  · have calm := calmOperation n op (σ := σ) fun kind data ids now same =>
      emits ⟨kind,data,ids,now,same⟩
    exact calm.mono fun _ _ moves synced => (moves synced).mono fun _ _ => .calm

theorem stepMoved {n : Node κ} {s t : NodeSession σ κ} (step : Step n s t)
    (synced : Synced s) : Moved (Turn n.maxBufferedEvents) s t := by
  obtain ⟨op,result,run,unexcused⟩ := step
  cases result with
  | ok _ => exact (movesOperation n op).ok run synced
  | error fault => exact (movesOperation n op).error run (unexcused fault rfl) synced

structure Kept (bound : Nat) (s : NodeSession σ κ) : Prop where
  synced : Synced s
  sound : (view s.store).Sound
  bounded : (view s.store).Bounded bound

theorem keptOpened (bound : Nat) (kernelState : κ) :
    Kept bound (opened kernelState : NodeSession σ κ) := by
  have start : view (opened kernelState : NodeSession σ κ).store = ⟨0,0,[],[]⟩ := emptyView
  refine ⟨⟨emptyOk,by rw [start]; rfl,by rw [start]; rfl⟩,?_,?_⟩
  · rw [start]
    exact ⟨⟨.nil,by simp [Ledger.positions]⟩,by simp,fun c low high => by
      have none : c ≤ 0 := high
      have some : 0 < c := low
      omega⟩
  · rw [start]
    exact .inl (Nat.zero_le _)

theorem keptStep {n : Node κ} {s t : NodeSession σ κ} (kept : Kept n.maxBufferedEvents s)
    (step : Step n s t) : Kept n.maxBufferedEvents t := by
  obtain ⟨synced,ws,turn,chain⟩ := stepMoved step kept.synced
  refine ⟨synced,?_,?_⟩
  · rw [chain.view]; exact turn.sound kept.sound
  · rw [chain.view]; exact turn.bounded kept.bounded

theorem keptRun {n : Node κ} {s t : NodeSession σ κ} (kept : Kept n.maxBufferedEvents s)
    (run : Run n s t) : Kept n.maxBufferedEvents t := by
  induction run with
  | refl => exact kept
  | tail _ step ih => exact keptStep ih step

theorem stepMonotone {n : Node κ} {s t : NodeSession σ κ}
    (kept : Kept n.maxBufferedEvents s) (step : Step n s t) :
    s.ackedCursor ≤ t.ackedCursor ∧ s.nodeCursor ≤ t.nodeCursor := by
  obtain ⟨synced,ws,turn,chain⟩ := stepMoved step kept.synced
  rw [kept.synced.acked,kept.synced.node,synced.acked,synced.node,chain.view]
  exact turn.monotone

theorem runMonotone {n : Node κ} {s t : NodeSession σ κ}
    (kept : Kept n.maxBufferedEvents s) (run : Run n s t) :
    s.ackedCursor ≤ t.ackedCursor ∧ s.nodeCursor ≤ t.nodeCursor := by
  induction run with
  | refl => exact ⟨le_rfl,le_rfl⟩
  | tail front step ih =>
    have last := stepMonotone (keptRun kept front) step
    exact ⟨ih.1.trans last.1,ih.2.trans last.2⟩

theorem runProtected {n : Node κ} {s t : NodeSession σ κ} (kept : Kept n.maxBufferedEvents s)
    (run : Run n s t) {e : Entry} (listed : e ∈ journal s)
    (isProtected : protectedKind e.kind = true) (above : t.ackedCursor < e.cursor) :
    e ∈ journal t := by
  induction run with
  | refl => exact listed
  | @tail t u front step ih =>
    have before := keptRun kept front
    have up := (stepMonotone before step).1
    have still := ih (by omega)
    obtain ⟨synced,ws,turn,chain⟩ := stepMoved step before.synced
    rw [synced.acked,chain.view] at above
    rw [journal,chain.view]
    exact turn.keeps before.sound still isProtected above

theorem emissionListed {n : Node κ} {s u : NodeSession σ κ} (kept : Kept n.maxBufferedEvents s)
    {kind : String} {data : List (String × Json)} {ids : EventIds} {now : Int} {event : NodeEvent}
    (emitted : emitEvent n kind data ids now s = (.ok event,u)) :
    event.kind = kind ∧ event.cursor = s.nodeCursor + 1 ∧ u.nodeCursor = event.cursor ∧
      (protectedKind kind = true → entryOf event ∈ journal u) := by
  obtain ⟨named,written⟩ := wpOk (emitSpec n kind data ids now s kept.synced) emitted
  refine ⟨named,written.cursor,written.node,fun isProtected => ?_⟩
  exact written.listed kept.synced (named ▸ isProtected)

/-- Every cursor above the acknowledged one is journaled once or reported in one range; an
emission takes the next cursor; protected events are journaled and stay until acknowledged;
cursors only grow; the buffer is bounded. -/
theorem journalKept {n : Node κ} {kernelState : κ} {s t : NodeSession σ κ}
    (before : Run n (opened kernelState) s) (after : Run n s t) :
    (∀ c, s.ackedCursor < c → c ≤ s.nodeCursor →
      ((journal s).map Entry.cursor).count c + (reported s).countP (inRange c) = 1) ∧
    (∀ kind data ids now event u, emitEvent n kind data ids now s = (.ok event,u) →
      event.kind = kind ∧ event.cursor = s.nodeCursor + 1 ∧ u.nodeCursor = event.cursor ∧
        (protectedKind kind = true → entryOf event ∈ journal u)) ∧
    (∀ e ∈ journal s, protectedKind e.kind = true → t.ackedCursor < e.cursor →
      e ∈ journal t) ∧
    s.ackedCursor ≤ t.ackedCursor ∧ s.nodeCursor ≤ t.nodeCursor ∧
    ((unacked s).length ≤ n.maxBufferedEvents ∨
      ∀ e ∈ unacked s, protectedKind e.kind = true) := by
  have kept := keptRun (keptOpened n.maxBufferedEvents kernelState) before
  have monotone := runMonotone kept after
  refine ⟨?_,fun _ _ _ _ _ _ => emissionListed kept,fun e => runProtected kept after,
    monotone.1,monotone.2,?_⟩
  · intro c low high
    rw [kept.synced.acked] at low
    rw [kept.synced.node] at high
    exact kept.sound.once c low high
  · rw [unacked,kept.synced.acked]
    exact kept.bounded

end

def idlePlatform : Platform where
  sha256Hex _ := String.ofList (List.replicate 64 '0')
  edSign _ _ := "c2ln"
  edVerify _ _ _ := .ok true
  isUrl _ := true
  fractionText _ := "0.5"
  randomBytes _ _ := 0
  hostPlatform := "linux-x64"
  zodIssues _ _ := "[]"

def idleNode (maxBufferedEvents : Nat) : Node Unit where
  platform := idlePlatform
  credentials := ⟨"n1","00000000-0000-7000-8000-000000000000","pem"⟩
  privateKey := "key"
  kernel := ⟨fun _ => pure .accept,none⟩
  schemaBundleDigest := "sha256:" ++ String.ofList (List.replicate 64 '0')
  maxBufferedEvents := maxBufferedEvents

def noted (kind : String) : Operation Unit := .emitEvent kind [] ⟨none,none⟩ 1767225600000

def overflowed : NodeSession InMemoryNodeStateStore Unit :=
  ((noted "run.progress").perform (idleNode 1)
    ((noted "run.started").perform (idleNode 1) (opened ())).2).2

theorem overflowedReached : Run (idleNode 1) (opened ()) overflowed :=
  .tail (.single (stepReturned (noted "run.started") (by decide +kernel)))
    (stepReturned (noted "run.progress") (by decide +kernel))

theorem overflowedKept :
    (∀ c, overflowed.ackedCursor < c → c ≤ overflowed.nodeCursor →
      ((journal overflowed).map Entry.cursor).count c +
        (reported overflowed).countP (inRange c) = 1) ∧
    (∃ event u, emitEvent (idleNode 1) "effect.started" [] ⟨none,none⟩ 1767225600000 overflowed =
      (.ok event,u) ∧ event.cursor = 3 ∧ entryOf event ∈ journal u) ∧
    (unacked overflowed).length ≤ 1 := by
  have kept := journalKept overflowedReached .refl
  refine ⟨kept.1,?_,?_⟩
  · obtain ⟨event,emitted⟩ := discardingOk (s := overflowed)
      (m := emitEvent (idleNode 1) "effect.started" [] ⟨none,none⟩ 1767225600000)
      (by decide +kernel)
    have listed := kept.2.1 _ _ _ _ _ _ emitted
    refine ⟨event,_,emitted,?_,listed.2.2.2 (by decide +kernel)⟩
    rw [listed.2.1]
    decide +kernel
  · rcases kept.2.2.2.2.2 with fits | _
    · exact fits
    · decide +kernel

end ControlCenter.SessionRuns
