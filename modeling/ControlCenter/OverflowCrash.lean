import ControlCenter.SessionRuns

/-! A process that dies between two durable writes of a session on the SQLite store,
and what the next process finds. The drop of an overflow is not one transaction. -/
namespace ControlCenter.OverflowCrash
open StateStore Session PositionLedger JournalView JournalRefinement ActionLogic SessionRuns
open LawfulNodeStateStore

variable {texts : SqliteText} {κ : Type}

abbrev SqliteSession (texts : SqliteText) (κ : Type) :=
  NodeSession (Committed (SqliteNodeStateStore texts)) κ

def reopened (file : SqliteNodeStateStore texts) (kernelState : κ) : SqliteSession texts κ :=
  let blank : SqliteSession texts κ :=
    {(opened kernelState : SqliteSession texts κ) with store := ⟨file,[]⟩}
  ((restart kernelState : SessionM (Committed (SqliteNodeStateStore texts)) κ Unit) blank).2

def survivors (n : Node κ) (s : SqliteSession texts κ) (op : Operation κ) :
    List (SqliteNodeStateStore texts) :=
  s.store.current :: (op.perform n s).2.store.commits.drop s.store.commits.length

def Survives (n : Node κ) (s : SqliteSession texts κ) (op : Operation κ) (k : Nat)
    (file : SqliteNodeStateStore texts) : Prop :=
  (∀ fault, (op.perform n s).1 = .error fault → ¬storeFault fault) ∧
    (survivors n s op)[k]? = some file

def Accounted (s : SqliteSession texts κ) : Prop := ∀ c, s.ackedCursor < c → c ≤ s.nodeCursor →
  (∃ e ∈ journal s, e.cursor = c) ∨ ∃ r ∈ reported s, r.1 ≤ c ∧ c ≤ r.2

def overflowing (n : Node κ) (s : SqliteSession texts κ) (kind : String) : List Nat :=
  ((Write.append (⟨s.nodeCursor + 1,kind⟩ : Entry)).apply (view s.store)).victims
    n.maxBufferedEvents

def CutSafe (n : Node κ) (s : SqliteSession texts κ) (op : Operation κ) (k : Nat) : Prop :=
  match op with
  | .emitEvent kind _ _ _ => k ≤ 1 ∨ 1 + (overflowing n s kind).length +
      (contiguousRanges (overflowing n s kind)).length ≤ k
  | _ => True

inductive CrashRun (n : Node κ) : SqliteSession texts κ → Prop
  | start (kernelState : κ) : CrashRun n (opened kernelState)
  | step {s t : SqliteSession texts κ} (before : CrashRun n s) (next : Step n s t) : CrashRun n t
  | crash {s : SqliteSession texts κ} {op : Operation κ} {k : Nat} {file : SqliteNodeStateStore texts}
      (before : CrashRun n s) (left : Survives n s op k file) (safe : CutSafe n s op k)
      (kernelState : κ) : CrashRun n (reopened file kernelState)

structure Durable (s : SqliteSession texts κ) : Prop where
  synced : Synced s
  sound : (view s.store).Sound

theorem accountedIff {s : SqliteSession texts κ} (synced : Synced s) :
    Accounted s ↔ (view s.store).Covered := by
  have each (c : Nat) : ((∃ e ∈ journal s, e.cursor = c) ∨
      ∃ r ∈ reported s, r.1 ≤ c ∧ c ≤ r.2) ↔ 1 ≤ (view s.store).accounts c := by
    have listed : (∃ e ∈ journal s, e.cursor = c) ↔
        0 < (view s.store).positions.count c := by
      rw [List.count_pos_iff,Ledger.positions,List.mem_map]
      rfl
    have ranged : (∃ r ∈ reported s, r.1 ≤ c ∧ c ≤ r.2) ↔
        0 < (view s.store).gone.countP (inRange c) := by
      simp only [List.countP_pos_iff,inRange,Bool.and_eq_true,decide_eq_true_eq]
      rfl
    rw [listed,ranged,Ledger.accounts]
    omega
  unfold Accounted Ledger.Covered
  simp only [each,synced.acked,synced.node]

theorem reopenedSynced {file : SqliteNodeStateStore texts} (good : Sqlite.ok file)
    (kernelState : κ) : Synced (reopened file kernelState) := ⟨good,rfl,rfl⟩

theorem callWrites {n : Node κ} {s t : SqliteSession texts κ} {op : Operation κ}
    {result : Except Fault Unit} (durable : Durable s) (run : op.perform n s = (result,t))
    (unexcused : ∀ fault, result = .error fault → ¬storeFault fault) :
    ∃ ws, Chain s.store ws t.store ∧ ∀ k, k ≤ ws.length →
      (CutSafe n s op k → (applyAll (view s.store) (ws.take k)).Sound) ∧
      (¬CutSafe n s op k → ¬(applyAll (view s.store) (ws.take k)).Covered) := by
  by_cases emits : ∃ kind data ids now, op = .emitEvent kind data ids now
  · obtain ⟨kind,data,ids,now,rfl⟩ := emits
    have spec := emitSpec n kind data ids now s durable.synced
    have discarded : wp (discarding (emitEvent n kind data ids now))
        (fun _ t => ∃ e : NodeEvent, e.kind = kind ∧ Emitted n.maxBufferedEvents s e t)
        (fun e t => ¬storeFault e → Still s t) s := by
      rw [discarding,wpBind]
      exact wpMono spec (fun e _ emitted => ⟨e,emitted⟩) fun _ _ h => h
    cases result with
    | error fault =>
      have still := wpError discarded run (unexcused fault rfl)
      refine ⟨[],by rw [still.store]; exact .nil _,fun k small => ?_⟩
      have none : k = 0 := by simpa using small
      subst none
      exact ⟨fun _ => by simpa using durable.sound,
        fun cut => absurd (.inl (Nat.zero_le 1)) cut⟩
    | ok _ =>
      obtain ⟨e,sameKind,emitted⟩ := wpOk discarded run
      have entry : entryOf e = ⟨s.nodeCursor + 1,kind⟩ := by
        rw [entryOf,emitted.cursor,sameKind]
      have next : position (entryOf e) = (view s.store).top + 1 := by
        rw [← durable.synced.node]; exact emitted.cursor
      have distinct := (soundAppend durable.sound next).nodup.sublist
        (victimsSublist n.maxBufferedEvents _)
      refine ⟨_,emitted.writes,fun k _ => ⟨fun safe => ?_,fun cut => ?_⟩⟩
      · rw [CutSafe,overflowing,← entry] at safe
        exact cutSound durable.sound next (rangesReport distinct) safe
      · rw [CutSafe,overflowing,← entry] at cut
        exact cutLost durable.sound next (rangesReport distinct) (by omega) (by omega)
  · have calm := calmOperation n op (σ := Committed (SqliteNodeStateStore texts))
      fun kind data ids now same => emits ⟨kind,data,ids,now,same⟩
    have moved : Moved Calm s t := by
      cases result with
      | ok _ => exact calm.ok run durable.synced
      | error fault => exact calm.error run (unexcused fault rfl) durable.synced
    obtain ⟨ws,pattern,chain⟩ := moved.writes
    refine ⟨ws,chain,fun k _ => ⟨fun _ => pattern.cut durable.sound k,fun cut => ?_⟩⟩
    refine absurd ?_ cut
    cases op with
    | emitEvent kind data ids now => exact absurd ⟨kind,data,ids,now,rfl⟩ emits
    | _ => trivial

theorem survivor {n : Node κ} {s : SqliteSession texts κ} {op : Operation κ} {k : Nat}
    {file : SqliteNodeStateStore texts} (durable : Durable s) (left : Survives n s op k file) :
    Sqlite.ok file ∧ (CutSafe n s op k → (Sqlite.view file).Sound) ∧
      (¬CutSafe n s op k → ¬(Sqlite.view file).Covered) := by
  obtain ⟨unexcused,found⟩ := left
  obtain ⟨ws,chain,cuts⟩ := callWrites durable Prod.mk.eta.symm unexcused
  obtain ⟨cs,commits,length,states⟩ := chain.commits durable.synced.ok
  rw [survivors,commits,List.drop_left] at found
  obtain ⟨good,seen⟩ := states k file found
  have small : k ≤ ws.length := by
    have inside := (List.getElem?_eq_some_iff.mp found).1
    simp only [List.length_cons,length] at inside
    omega
  have cut := cuts k small
  refine ⟨good,fun safe => ?_,fun unsafeCut => ?_⟩
  · have kept := cut.1 safe
    rwa [show view s.store = view s.store.current from rfl,← seen] at kept
  · have lost := cut.2 unsafeCut
    rwa [show view s.store = view s.store.current from rfl,← seen] at lost

theorem durableRun {n : Node κ} {s : SqliteSession texts κ} (run : CrashRun n s) : Durable s := by
  induction run with
  | start kernelState =>
    have kept := keptOpened (σ := Committed (SqliteNodeStateStore texts)) 0 kernelState
    exact ⟨kept.synced,kept.sound⟩
  | step _ next ih =>
    obtain ⟨synced,ws,turn,chain⟩ := stepMoved next ih.synced
    exact ⟨synced,by rw [chain.view]; exact turn.sound ih.sound⟩
  | crash _ left safe kernelState ih =>
    obtain ⟨good,kept,_⟩ := survivor ih left
    exact ⟨reopenedSynced good kernelState,kept safe⟩

/-- In every run whose crashes are safe cuts nothing is unaccounted for, and the next
crash loses a cursor exactly when it is not a safe cut. -/
theorem overflowCrash {n : Node κ} {s : SqliteSession texts κ} (run : CrashRun n s) :
    Accounted s ∧ ∀ (op : Operation κ) (k : Nat) (file : SqliteNodeStateStore texts)
      (kernelState : κ), Survives n s op k file →
        (Accounted (reopened file kernelState) ↔ CutSafe n s op k) := by
  have durable := durableRun run
  refine ⟨(accountedIff durable.synced).mpr durable.sound.covered,?_⟩
  intro op k file kernelState left
  obtain ⟨good,kept,lost⟩ := survivor durable left
  rw [accountedIff (reopenedSynced good kernelState)]
  constructor
  · intro covered
    by_contra cut
    exact lost cut covered
  · intro safe
    exact (kept safe).covered

theorem nthLeft {α : Type} {l : List α} {k : Nat} {default : α} (inside : k < l.length) :
    l[k]? = some (l.getD k default) := by
  rw [List.getD_eq_getElem?_getD,List.getElem?_eq_getElem inside]
  rfl

def notedOnce : SqliteSession nodeSqlite Unit := ((noted "run.started").perform (idleNode 1) (opened ())).2

theorem notedOnceRun : CrashRun (idleNode 1) notedOnce :=
  .step (.start ()) (stepReturned (noted "run.started") (by decide +kernel))

def cutFile : SqliteNodeStateStore nodeSqlite :=
  (survivors (idleNode 1) notedOnce (noted "run.progress")).getD 2 .empty

theorem cutFileLeft : Survives (idleNode 1) notedOnce (noted "run.progress") 2 cutFile :=
  ⟨returnedNoFault (by decide +kernel),nthLeft (by decide +kernel)⟩

theorem cutFileLoses : CrashRun (idleNode 1) notedOnce ∧
    Survives (idleNode 1) notedOnce (noted "run.progress") 2 cutFile ∧
    ¬Accounted (reopened cutFile ()) := by
  refine ⟨notedOnceRun,cutFileLeft,fun accounted => ?_⟩
  have first := accounted 1 (by decide +kernel) (by decide +kernel)
  revert first
  decide +kernel

theorem notedOnceCut : Accounted notedOnce ∧
    (Accounted (reopened cutFile ()) ↔ CutSafe (idleNode 1) notedOnce (noted "run.progress") 2) :=
  ⟨(overflowCrash notedOnceRun).1,(overflowCrash notedOnceRun).2 _ 2 cutFile () cutFileLeft⟩

end ControlCenter.OverflowCrash
