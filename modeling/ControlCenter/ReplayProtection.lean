import ControlCenter.Admission

/-! A signed envelope is dispatched at most once over every run: another session id is
foreign, and one session's duplicate index holds every message id it was given. -/
namespace ControlCenter.ReplayProtection
open JsonValue ZodSchema AccpEnvelope AccpIds AccpMessages AccpSeal StateStore Session
open ActionLogic SessionFrames SessionRuns Admission
open OverAcknowledgement (after)

variable {σ κ : Type} (n : Node κ)

def SameGuard (s t : NodeSession σ κ) : Prop := t.sessionId = s.sessionId ∧ t.dedup = s.dedup

theorem guardServing : Serving (SameGuard : NodeSession σ κ → NodeSession σ κ → Prop) where
  refl _ := ⟨rfl,rfl⟩
  trans _ _ _ front back := ⟨back.1.trans front.1,back.2.trans front.2⟩
  outSeq _ _ := ⟨rfl,rfl⟩
  draws _ _ := ⟨rfl,rfl⟩
  store _ _ := ⟨rfl,rfl⟩
  kernelState _ _ := ⟨rfl,rfl⟩
  nodeCursor _ _ := ⟨rfl,rfl⟩
  ackedCursor _ _ := ⟨rfl,rfl⟩
  offerAnswers _ _ := ⟨rfl,rfl⟩

def handshakeId (s : NodeSession σ κ) : Operation κ → Option String
  | .startHandshake now => (drawUuid n now s).1.toOption
  | _ => none

def identity (envelope : Envelope) : String × String := (envelope.sessionId,envelope.messageId)

def ofSession (sessionId : String) (envelopes : List Envelope) : List String :=
  (envelopes.filter fun e => e.sessionId == sessionId).map (·.messageId)

theorem deliveredPresented {s : NodeSession σ κ} {op : Operation κ} {envelope : Envelope}
    (h : deliveredBy n s op = some envelope) : presentedBy n s op = some envelope := by
  cases op with
  | receive raw now => exact congrArg Outcome.presented (dispatchedSource h)
  | _ => contradiction

theorem deliveredNew {s : NodeSession σ κ} {raw : Json} {now : Int} {envelope : Envelope}
    (h : admission n s raw now = .delivered envelope) : envelope.sessionId = s.sessionId ∧
    envelope.sessionId ≠ "" ∧ envelope.messageId ∉ s.dedup.seen := by
  obtain ⟨⟨payload,verified⟩,expected,fresh⟩ := (presentedSource n).2 h
  have own : envelope.sessionId = s.sessionId := by
    simp only [isExpectedCloudEnvelope,Bool.and_eq_true,beq_iff_eq] at expected
    exact expected.2
  refine ⟨own,fun empty => ?_,fun listed => ?_⟩
  · have session := parsedSession (verifiedSource verified).parsed
    rw [empty] at session
    contradiction
  · rw [List.contains_iff_mem.mpr listed] at fresh
    contradiction

section
variable [NodeStateStore σ]

theorem guardedReceive (raw : Json) (now : Int) (s : NodeSession σ κ) :
    SameGuard (match (admission n s raw now).dispatched with
      | some envelope => recorded s envelope
      | none => s) (receive n raw now s).2 := by
  rw [receiveAdmitted]
  cases admission n s raw now with
  | thrown message => exact guardServing.refl s
  | rejected code detail =>
    exact (frameRejected guardServing.toSealing n raw code detail now).always s
  | foreign envelope => exact (frameNack guardServing.toSealing n _ _ _ _ now).always s
  | duplicate envelope => exact guardServing.refl s
  | delivered envelope =>
    exact (frameServed guardServing n envelope now fun _ =>
      frameWelcome guardServing.reading n (fun _ _ _ _ => ⟨rfl,rfl⟩) envelope now).always _

omit [NodeStateStore σ] in
theorem guardedHandshake (now : Int) (s : NodeSession σ κ) :
    match (drawUuid n now s).1.toOption with
    | some sessionId => (startHandshake n now s).2.sessionId = sessionId ∧
        (startHandshake n now s).2.dedup = .empty
    | none => SameGuard s (startHandshake n now s).2 := by
  have drawn := (frameDraw guardServing.toSealing n now).always s
  unfold startHandshake
  rcases run : drawUuid n now s with ⟨e | sessionId,t⟩
  · rw [runError run]
    rw [run] at drawn
    exact drawn
  · rw [runOk run]
    have seals {type payload extra} : Frame (fun _ => False) SameGuard
      (sealMessage n type payload now extra : SessionM σ κ Envelope) :=
      frameSeal guardServing.toSealing n _ _ now _
    exact seals.always _

theorem guardedRestart (kernelState : κ) (s : NodeSession σ κ) :
    SameGuard s (restart kernelState s).2 ∨
    ((restart kernelState s).2.sessionId = "" ∧ (restart kernelState s).2.dedup = .empty) := by
  have reads {β : Type} (m : StoreM σ β) (s : NodeSession σ κ) :
      SameGuard s ((onStore m : SessionM σ κ β) s).2 :=
    (frameStore guardServing.store m).always s
  unfold restart
  rcases first : onStore NodeStateStore.loadCursors s with ⟨e | cursors,t⟩
  · rw [runError first]
    exact .inl (by simpa only [first] using reads NodeStateStore.loadCursors s)
  · rw [runOk first]
    rcases second : onStore NodeStateStore.loadOfferAnswers t with ⟨e | answers,u⟩
    · rw [runError second]
      have front := reads NodeStateStore.loadCursors s
      have back := reads NodeStateStore.loadOfferAnswers t
      rw [first] at front
      rw [second] at back
      exact .inl (guardServing.trans _ _ _ front back)
    · rw [runOk second]
      exact .inr ⟨rfl,rfl⟩

def WithinCapacity (s : NodeSession σ κ) (ops : List (Operation κ)) : Prop :=
  ∀ sessionId, (ofSession sessionId (gathered n (presentedBy n) s ops)).dedup.length ≤ 10000

omit [NodeStateStore σ] in
structure Guarded (s : NodeSession σ κ) (shaken : List String) (taken : List Envelope) :
    Prop where
  own : s.sessionId = "" ∨ s.sessionId ∈ shaken
  known : ∀ e ∈ taken, e.sessionId ≠ "" ∧ e.sessionId ∈ shaken
  index : ofSession s.sessionId taken = s.dedup.seen
  capacity : s.dedup.capacity = 10000
  distinct : (taken.map identity).Nodup

omit [NodeStateStore σ] in
theorem Guarded.kept {s t : NodeSession σ κ} {shaken : List String} {taken : List Envelope}
    (guarded : Guarded s shaken taken) (same : SameGuard s t) : Guarded t shaken taken := by
  obtain ⟨session,dedup⟩ := same
  exact ⟨by rw [session]; exact guarded.own,guarded.known,
    by rw [session,dedup]; exact guarded.index,by rw [dedup]; exact guarded.capacity,
    guarded.distinct⟩

theorem ofSessionNone {sessionId : String} {taken : List Envelope}
    (other : ∀ e ∈ taken, e.sessionId ≠ sessionId) : ofSession sessionId taken = [] := by
  rw [ofSession,List.map_eq_nil_iff,List.filter_eq_nil_iff]
  intro e listed
  simpa using other e listed

omit [NodeStateStore σ] in
theorem Guarded.renewed {s t : NodeSession σ κ} {shaken shaken' : List String}
    {taken : List Envelope} (guarded : Guarded s shaken taken) (more : shaken ⊆ shaken')
    (dedup : t.dedup = .empty) (own : t.sessionId = "" ∨
      (t.sessionId ∈ shaken' ∧ t.sessionId ∉ shaken)) : Guarded t shaken' taken := by
  refine ⟨own.imp_right And.left,fun e listed => ?_,?_,by rw [dedup]; rfl,guarded.distinct⟩
  · exact ⟨(guarded.known e listed).1,more (guarded.known e listed).2⟩
  · rw [dedup]
    refine ofSessionNone fun e listed same => ?_
    obtain ⟨named,inside⟩ := guarded.known e listed
    rw [same] at named inside
    rcases own with empty | ⟨_,fresh⟩
    · exact named empty
    · exact fresh inside

theorem ofSessionNodup {sessionId : String} {taken : List Envelope}
    (distinct : (taken.map identity).Nodup) : (ofSession sessionId taken).Nodup := by
  have filtered := distinct.sublist ((List.filter_sublist
    (p := fun e : Envelope => e.sessionId == sessionId)).map identity)
  have same : (taken.filter fun e => e.sessionId == sessionId).map identity =
      (ofSession sessionId taken).map fun m => (sessionId,m) := by
    rw [ofSession,List.map_map]
    refine List.map_congr_left fun e listed => ?_
    have own := (List.mem_filter.mp listed).2
    rw [beq_iff_eq] at own
    exact Prod.ext own rfl
  rw [same] at filtered
  exact filtered.of_map _

omit [NodeStateStore σ] in
theorem Guarded.extended {s : NodeSession σ κ} {shaken : List String} {taken : List Envelope}
    (guarded : Guarded s shaken taken) {envelope : Envelope}
    (own : envelope.sessionId = s.sessionId) (fresh : envelope.messageId ∉ s.dedup.seen) :
    ((taken ++ [envelope]).map identity).Nodup ∧
    ofSession s.sessionId (taken ++ [envelope]) = s.dedup.seen ++ [envelope.messageId] := by
  constructor
  · rw [List.map_append,List.nodup_append]
    refine ⟨guarded.distinct,by simp,?_⟩
    intro a listed b here same
    simp only [List.map_cons,List.map_nil,List.mem_singleton] at here
    obtain ⟨e,inside,rfl⟩ := List.mem_map.mp listed
    rw [here] at same
    obtain ⟨session,message⟩ := Prod.mk.inj same
    refine fresh ?_
    rw [← guarded.index,← message]
    refine List.mem_map_of_mem (List.mem_filter.mpr ⟨inside,?_⟩)
    rw [beq_iff_eq,session,own]
  · rw [ofSession,List.filter_append,List.map_append,← guarded.index,ofSession]
    simp [own]

omit [NodeStateStore σ] in
theorem Guarded.took {s : NodeSession σ κ} {shaken : List String} {taken : List Envelope}
    (guarded : Guarded s shaken taken) {envelope : Envelope}
    (own : envelope.sessionId = s.sessionId) (named : envelope.sessionId ≠ "")
    (fresh : envelope.messageId ∉ s.dedup.seen) (room : s.dedup.seen.length + 1 ≤ 10000) :
    Guarded (recorded s envelope) shaken (taken ++ [envelope]) := by
  obtain ⟨distinct,index⟩ := guarded.extended own fresh
  have unseen : ¬s.dedup.seen.contains envelope.messageId = true := fun seen =>
    fresh (List.contains_iff_mem.mp seen)
  have fits : ¬s.dedup.capacity < (s.dedup.seen ++ [envelope.messageId]).length := by
    rw [guarded.capacity,List.length_append,List.length_singleton]
    omega
  have dedup : (recorded s envelope).dedup =
      {s.dedup with seen := s.dedup.seen ++ [envelope.messageId]} := by
    simp only [recorded,MessageDedupIndex.check]
    rw [if_neg unseen]
    dsimp only
    rw [if_neg fits]
  refine ⟨guarded.own,fun e listed => ?_,?_,?_,distinct⟩
  · rcases List.mem_append.mp listed with before | here
    · exact guarded.known e before
    · rw [List.mem_singleton.mp here]
      refine ⟨named,?_⟩
      rcases guarded.own with empty | inside
      · exact absurd (own.trans empty) named
      · rwa [own]
  · rw [dedup]
    exact index
  · rw [dedup]
    exact guarded.capacity

theorem Guarded.step {s : NodeSession σ κ} {shaken : List String} {taken : List Envelope}
    (guarded : Guarded s shaken taken) (op : Operation κ)
    (fresh : ∀ sessionId, handshakeId n s op = some sessionId → sessionId ∉ shaken)
    (room : ∀ envelope, deliveredBy n s op = some envelope → s.dedup.seen.length + 1 ≤ 10000) :
    Guarded (op.perform n s).2 (shaken ++ (handshakeId n s op).toList)
      (taken ++ (deliveredBy n s op).toList) := by
  have calm {m : SessionM σ κ Unit} (frame : Frame (fun _ => False) SameGuard m) :
      Guarded (m s).2 (shaken ++ []) (taken ++ []) := by
    rw [List.append_nil,List.append_nil]
    exact guarded.kept (frame.always s)
  have discarded {β : Type} {m : SessionM σ κ β} (frame : Frame (fun _ => False) SameGuard m) :
      Frame (fun _ => False) SameGuard (discarding m) :=
    frameSeq guardServing.trans frame fun _ => framePure () guardServing.refl
  cases op with
  | emitEvent kind data ids now => exact calm (discarded (frameEmit guardServing.journaling n kind data ids now))
  | flush now fromCursor => exact calm (discarded (frameFlush guardServing.reading n now fromCursor))
  | proposeCompletion payload now =>
    exact calm (discarded (framePropose guardServing.toSealing n payload now))
  | disconnect => exact calm (frameChanging fun _ => ⟨rfl,rfl⟩)
  | startHandshake now =>
    have shook := guardedHandshake n now s
    rw [Operation.perform,discardingState]
    unfold handshakeId at fresh ⊢
    simp only [deliveredBy,Option.toList_none,List.append_nil]
    cases drawn : (drawUuid n now s).1.toOption with
    | none =>
      rw [drawn] at shook
      simpa using guarded.kept shook
    | some sessionId =>
      rw [drawn] at shook
      obtain ⟨session,dedup⟩ := shook
      refine guarded.renewed (by simp) dedup (.inr ?_)
      rw [session]
      exact ⟨by simp,fresh sessionId drawn⟩
  | restart kernelState =>
    simp only [handshakeId,deliveredBy,Option.toList_none,List.append_nil]
    rcases guardedRestart kernelState s with same | ⟨session,dedup⟩
    · exact guarded.kept same
    · exact guarded.renewed (List.Subset.refl _) dedup (.inl session)
  | receive raw now =>
    have received := guardedReceive n raw now s
    rw [Operation.perform,discardingState]
    unfold deliveredBy at room ⊢
    simp only [handshakeId,Option.toList_none,List.append_nil]
    cases dispatched : (admission n s raw now).dispatched with
    | none =>
      rw [dispatched] at received
      simpa using guarded.kept received
    | some envelope =>
      rw [dispatched] at received
      obtain ⟨own,named,fresh⟩ := deliveredNew n (dispatchedSource dispatched)
      exact (guarded.took own named fresh (room envelope dispatched)).kept received

theorem deliveredSubset (s : NodeSession σ κ) (ops : List (Operation κ)) :
    gathered n (deliveredBy n) s ops ⊆ gathered n (presentedBy n) s ops := by
  induction ops generalizing s with
  | nil => exact List.Subset.refl _
  | cons op rest ih =>
    intro envelope listed
    rcases List.mem_append.mp listed with here | later
    · refine List.mem_append_left _ (Option.mem_toList.mpr ?_)
      exact deliveredPresented n (Option.mem_toList.mp here)
    · exact List.mem_append_right _ (ih _ later)

theorem ofSessionSubset {sessionId : String} {taken presented : List Envelope}
    (inside : taken ⊆ presented) : ofSession sessionId taken ⊆ ofSession sessionId presented := by
  intro m listed
  obtain ⟨e,kept,same⟩ := List.mem_map.mp listed
  obtain ⟨here,own⟩ := List.mem_filter.mp kept
  exact List.mem_map.mpr ⟨e,List.mem_filter.mpr ⟨inside here,own⟩,same⟩

theorem guardedRun {s : NodeSession σ κ} {ops : List (Operation κ)}
    (constructed : s.sessionId = "" ∧ s.dedup = .empty)
    (distinct : (gathered n (handshakeId n) s ops).Nodup) (bounded : WithinCapacity n s ops) :
    Guarded (after n s ops) (gathered n (handshakeId n) s ops)
      (gathered n (deliveredBy n) s ops) := by
  induction ops using List.reverseRecOn with
  | nil =>
    have dedup : (after n s []).dedup = .empty := constructed.2
    exact ⟨.inl constructed.1,by simp [gathered,collected],by rw [dedup]; rfl,
      by rw [dedup]; rfl,by simp [gathered,collected]⟩
  | append_singleton front op ih =>
    have parts := gatheredLast n (handshakeId n) s front op
    have within := distinct
    rw [parts,List.nodup_append] at within
    have smaller : WithinCapacity n s front := by
      intro sessionId
      refine le_trans ?_ (bounded sessionId)
      refine (List.subperm_of_subset (List.nodup_dedup _) ?_).length_le
      intro m listed
      rw [List.mem_dedup] at listed ⊢
      refine ofSessionSubset ?_ listed
      rw [gatheredLast]
      exact List.subset_append_left _ _
    have guarded := ih within.1 smaller
    rw [parts,gatheredLast,afterLast]
    refine guarded.step n op ?_ ?_
    · intro sessionId drawn listed
      exact within.2.2 _ listed _ (by rw [drawn]; simp) rfl
    · intro envelope delivered
      have new : envelope.sessionId = (after n s front).sessionId ∧
          envelope.messageId ∉ (after n s front).dedup.seen := by
        cases op with
        | receive raw now =>
          obtain ⟨own,_,fresh⟩ := deliveredNew n (dispatchedSource delivered)
          exact ⟨own,fresh⟩
        | _ => contradiction
      obtain ⟨nodup,index⟩ := guarded.extended new.1 new.2
      have unique : (ofSession (after n s front).sessionId
        (gathered n (deliveredBy n) s front ++ [envelope])).Nodup := ofSessionNodup nodup
      have inside := deliveredSubset n s (front ++ [op])
      rw [gatheredLast n (deliveredBy n),delivered] at inside
      have count := (List.subperm_of_subset unique fun m listed =>
        List.mem_dedup.mpr (ofSessionSubset inside listed)).length_le
      rw [index,List.length_append,List.length_singleton] at count
      exact count.trans (bounded _)

/-- Over every run each signed envelope is dispatched at most once, and a call that
dispatches none changes nothing but the numbers it spends. -/
theorem replayProtection {start : NodeSession σ κ} {ops : List (Operation κ)}
    (constructed : start.sessionId = "" ∧ start.dedup = .empty)
    (distinct : (gathered n (handshakeId n) start ops).Nodup)
    (bounded : WithinCapacity n start ops) :
    ((gathered n (deliveredBy n) start ops).map identity).Nodup ∧
    ∀ front raw now back, ops = front ++ .receive raw now :: back →
      deliveredBy n (after n start front) (.receive raw now) = none →
      Spent (after n start front) (receive n raw now (after n start front)).2 ∧
      ∀ kernel, receive {n with kernel} raw now (after n start front) =
        receive n raw now (after n start front) :=
  ⟨(guardedRun n constructed distinct bounded).distinct,fun _ _ _ _ _ idle =>
    ⟨undispatchedSpends n idle,undispatchedUnconsulted n idle⟩⟩

end

def replayedWelcome : List (Operation Unit) :=
  let welcome := Operation.receive (cloudEnvelope "019b76da-a800-7000-8000-000000000000"
    "019b76da-a800-7000-8000-000000000001" "node.welcome" none (welcomePayload 1 0 4 256))
    1767225600000
  [.startHandshake 1767225600000,welcome,welcome]

theorem replayedWelcomeOnce :
    ((gathered (idleNode 10) (deliveredBy (idleNode 10))
      (opened () : NodeSession InMemoryNodeStateStore Unit) replayedWelcome).map identity).Nodup ∧
    (gathered (idleNode 10) (deliveredBy (idleNode 10))
      (opened () : NodeSession InMemoryNodeStateStore Unit) replayedWelcome).length = 1 := by
  have counts : (gathered (idleNode 10) (deliveredBy (idleNode 10))
        (opened () : NodeSession InMemoryNodeStateStore Unit) replayedWelcome).length = 1 ∧
      (gathered (idleNode 10) (presentedBy (idleNode 10))
        (opened () : NodeSession InMemoryNodeStateStore Unit) replayedWelcome).length = 2 ∧
      (gathered (idleNode 10) (handshakeId (idleNode 10))
        (opened () : NodeSession InMemoryNodeStateStore Unit) replayedWelcome).Nodup := by
    decide +kernel
  refine ⟨(replayProtection (idleNode 10) ⟨rfl,rfl⟩ counts.2.2 fun sessionId => ?_).1,counts.1⟩
  refine (List.dedup_sublist _).length_le.trans ?_
  rw [ofSession,List.length_map]
  refine (List.length_filter_le _ _).trans ?_
  rw [counts.2.1]
  decide

end ControlCenter.ReplayProtection
