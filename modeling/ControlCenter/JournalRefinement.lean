import ControlCenter.JournalView
import ControlCenter.SessionFrames
import Mathlib.Data.List.Dedup

/-! Every call of a node session that no store call failed in is one turn of its
ledger: quiet, an offer answer, an acknowledgement, or an emission with its drop. -/
namespace ControlCenter.JournalRefinement
open JsonValue AccpEnvelope AccpMessages AccpSeal StateStore Session PositionLedger
open JournalView ActionLogic SessionFrames LawfulNodeStateStore

theorem extendCount {ranges : List (Nat × Nat)} (proper : ∀ r ∈ ranges, r.1 ≤ r.2) (x c : Nat) :
    (extendRanges ranges x).countP (inRange c) =
      ranges.countP (inRange c) + (if c = x then 1 else 0) := by
  unfold extendRanges
  cases h : ranges.getLast? with
  | none =>
    have empty : ranges = [] := by simpa using h
    subst empty
    by_cases same : c = x
    · simp [inRange,same]
    · have outside : ¬(x ≤ c ∧ c ≤ x) := by omega
      simp [inRange,same,outside]
  | some last =>
    obtain ⟨front,rfl⟩ := List.getLast?_eq_some_iff.mp h
    have low := proper last (by simp)
    simp only
    split
    · rename_i next
      simp only [List.dropLast_concat,List.countP_append,List.countP_singleton,inRange,
        Bool.and_eq_true,decide_eq_true_eq]
      split <;> split <;> split <;> omega
    · simp only [List.countP_append,List.countP_singleton,inRange,Bool.and_eq_true,
        decide_eq_true_eq]
      split <;> split <;> split <;> omega

theorem extendProper {ranges : List (Nat × Nat)} (proper : ∀ r ∈ ranges, r.1 ≤ r.2) (x : Nat) :
    ∀ r ∈ extendRanges ranges x, r.1 ≤ r.2 := by
  unfold extendRanges
  cases h : ranges.getLast? with
  | none => simp
  | some last =>
    have low := proper last (List.mem_of_getLast? h)
    simp only
    intro r hr
    split at hr
    · rcases List.mem_append.mp hr with old | new
      · exact proper r (List.dropLast_subset _ old)
      · rw [List.mem_singleton.mp new]
        omega
    · rcases List.mem_append.mp hr with old | new
      · exact proper r old
      · rw [List.mem_singleton.mp new]

theorem rangesCount {ranges : List (Nat × Nat)} (proper : ∀ r ∈ ranges, r.1 ≤ r.2)
    (cursors : List Nat) :
    (∀ c, (cursors.foldl extendRanges ranges).countP (inRange c) =
      ranges.countP (inRange c) + cursors.count c) ∧
    ∀ r ∈ cursors.foldl extendRanges ranges, r.1 ≤ r.2 := by
  induction cursors generalizing ranges with
  | nil => simpa using proper
  | cons x rest ih =>
    obtain ⟨counts,kept⟩ := ih (extendProper proper x)
    refine ⟨fun c => ?_,kept⟩
    rw [List.foldl_cons,counts,extendCount proper,List.count_cons]
    by_cases same : c = x
    · simp [same]; omega
    · have other : ¬x = c := fun h => same h.symm
      simp [same,other]

theorem rangesReport {cursors : List Nat} (distinct : cursors.Nodup) :
    Reports (contiguousRanges cursors) cursors := by
  have none : ∀ r ∈ ([] : List (Nat × Nat)), r.1 ≤ r.2 := by simp
  have counted := rangesCount none
    (cursors.dedup.insertionSort (· ≤ ·))
  refine ⟨fun c => ?_,counted.2⟩
  rw [contiguousRanges,counted.1 c,List.Perm.count_eq (List.perm_insertionSort _ _),
    List.dedup_eq_self.mpr distinct]
  simp

def storeFault : Fault → Prop
  | .store _ => True
  | .thrown _ => False

variable {σ κ α : Type} [NodeStateStore σ] [LawfulNodeStateStore σ]

structure Synced (s : NodeSession σ κ) : Prop where
  ok : ok s.store
  node : s.nodeCursor = (view s.store).top
  acked : s.ackedCursor = (view s.store).floor

structure Still (s t : NodeSession σ κ) : Prop where
  store : t.store = s.store
  node : t.nodeCursor = s.nodeCursor
  acked : t.ackedCursor = s.ackedCursor

theorem Still.synced {s t : NodeSession σ κ} (still : Still s t) (synced : Synced s) :
    Synced t :=
  ⟨still.store ▸ synced.ok,by rw [still.node,still.store,synced.node],
    by rw [still.acked,still.store,synced.acked]⟩

def Quiet (s t : NodeSession σ κ) : Prop := Synced s → Still s t

theorem quietRefl (s : NodeSession σ κ) : Quiet s s := fun _ => ⟨rfl,rfl,rfl⟩

theorem quietTrans (s t u : NodeSession σ κ) (front : Quiet s t) (back : Quiet t u) :
    Quiet s u := fun synced => by
  have first := front synced
  have second := back (first.synced synced)
  exact ⟨second.store.trans first.store,second.node.trans first.node,
    second.acked.trans first.acked⟩

omit [NodeStateStore σ] [LawfulNodeStateStore σ] in
theorem wpOnStore {m : StoreM σ α} {Q : α → NodeSession σ κ → Prop}
    {E : Fault → NodeSession σ κ → Prop} {s : NodeSession σ κ}
    (ok : ∀ a store, m s.store = (.ok a,store) → Q a {s with store})
    (error : ∀ message t, E (.store message) t) : wp (onStore m) Q E s := by
  unfold wp onStore
  rcases h : m s.store with ⟨a | a,store⟩
  · exact error a _
  · exact ok a store h

section Quiet
variable (n : Node κ)

abbrev IsQuiet (m : SessionM σ κ α) : Prop := Frame storeFault Quiet m

theorem quietRead {m : StoreM σ α} {P : σ → α → Prop} (reads : ∀ {s}, ok s → Reads m s (P s)) :
    IsQuiet (onStore m : SessionM σ κ α) := fun s => by
  apply wpOnStore
  · intro a store run synced
    obtain ⟨same,_⟩ := reads synced.ok a store run
    exact ⟨same,rfl,rfl⟩
  · intro message t unexcused
    exact absurd trivial unexcused

theorem quietReading : Reading storeFault (Quiet : NodeSession σ κ → NodeSession σ κ → Prop) where
  refl := quietRefl
  trans := quietTrans
  outSeq _ _ _ := ⟨rfl,rfl,rfl⟩
  draws _ _ _ := ⟨rfl,rfl,rfl⟩
  events _ := quietRead events
  truncations := quietRead ranges

theorem quietSealing : Sealing (Quiet : NodeSession σ κ → NodeSession σ κ → Prop) :=
  quietReading.toSealing

theorem quietKernel (s : NodeSession σ κ) (kernelState : κ) : Quiet s {s with kernelState} :=
  fun _ => ⟨rfl,rfl,rfl⟩

theorem quietConnection (s : NodeSession σ κ) (welcome : Option AccpMessages.Welcome)
    (epoch : Option Nat) (connected : Bool) : Quiet s {s with welcome,epoch,connected} :=
  fun _ => ⟨rfl,rfl,rfl⟩

theorem quietHandshake (now : Int) :
    IsQuiet (startHandshake n now : SessionM σ κ Envelope) :=
  frameHandshake quietSealing n (fun _ _ _ => ⟨rfl,rfl,rfl⟩) now

theorem quietDisconnect :
    IsQuiet (disconnect : SessionM σ κ Unit) :=
  frameChanging fun s => quietConnection s _ _ _

theorem quietRestart (kernelState : κ) :
    IsQuiet (restart kernelState : SessionM σ κ Unit) := fun s => by
  unfold restart
  rw [wpBind]
  apply wpOnStore
  · intro c store readCursors
    rw [wpBind]
    apply wpOnStore
    · intro saved store' readAnswers
      rw [changing,wpModify]
      intro synced
      obtain ⟨rfl,node,acked⟩ := cursors synced.ok c store readCursors
      obtain ⟨same,_⟩ := answers synced.ok saved store' readAnswers
      exact ⟨same,by rw [synced.node,← node],by rw [synced.acked,← acked]⟩
    · intro message t unexcused
      exact absurd trivial unexcused
  · intro message t unexcused
    exact absurd trivial unexcused

end Quiet

structure Shift (s : NodeSession σ κ) (ws : List (Write Entry)) (t : NodeSession σ κ) :
    Prop where
  chain : Chain s.store ws t.store
  node : t.nodeCursor = s.nodeCursor
  acked : t.ackedCursor = s.ackedCursor

theorem Shift.append {s t u : NodeSession σ κ} {front back : List (Write Entry)}
    (first : Shift s front t) (next : Shift t back u) : Shift s (front ++ back) u :=
  ⟨first.chain.append next.chain,next.node.trans first.node,next.acked.trans first.acked⟩

theorem Shift.synced {s t : NodeSession σ κ} {ws : List (Write Entry)} (shift : Shift s ws t)
    (synced : Synced s) (top : (applyAll (view s.store) ws).top = (view s.store).top)
    (floor : (applyAll (view s.store) ws).floor = (view s.store).floor) : Synced t :=
  ⟨shift.chain.ok synced.ok,by rw [shift.node,synced.node,shift.chain.view,top],
    by rw [shift.acked,synced.acked,shift.chain.view,floor]⟩

abbrev Pattern := Ledger Entry → List (Write Entry) → Prop

structure Moved (P : Pattern) (s t : NodeSession σ κ) : Prop where
  synced : Synced t
  writes : ∃ ws, P (view s.store) ws ∧ Chain s.store ws t.store

def Moves (P : Pattern) (s t : NodeSession σ κ) : Prop := Synced s → Moved P s t

theorem quietMoves {s t : NodeSession σ κ} (quiet : Quiet s t) : Moves Calm s t :=
  fun synced => by
    have still := quiet synced
    refine ⟨still.synced synced,[],.quiet,?_⟩
    rw [still.store]
    exact .nil _

theorem quietThenMoves {P : Pattern} (s t u : NodeSession σ κ) (quiet : Quiet s t)
    (moves : Moves P t u) : Moves P s u := fun synced => by
  have still := quiet synced
  obtain ⟨after,ws,pattern,chain⟩ := moves (still.synced synced)
  rw [still.store] at pattern chain
  exact ⟨after,ws,pattern,chain⟩

theorem movesThenQuiet {P : Pattern} (s t u : NodeSession σ κ) (moves : Moves P s t)
    (quiet : Quiet t u) : Moves P s u := fun synced => by
  obtain ⟨after,ws,pattern,chain⟩ := moves synced
  have still := quiet after
  exact ⟨still.synced after,ws,pattern,by rw [still.store]; exact chain⟩

theorem Moved.mono {P Q : Pattern} {s t : NodeSession σ κ} (moved : Moved P s t)
    (weaker : ∀ L ws, P L ws → Q L ws) : Moved Q s t := by
  obtain ⟨ws,pattern,chain⟩ := moved.writes
  exact ⟨moved.synced,ws,weaker _ _ pattern,chain⟩

theorem wpSynced {m : SessionM σ κ α} {R : NodeSession σ κ → NodeSession σ κ → Prop}
    {s : NodeSession σ κ}
    (h : Synced s → wp m (fun _ t => R s t) (fun e t => ¬storeFault e → R s t) s) :
    wp m (fun _ t => Synced s → R s t) (fun e t => ¬storeFault e → Synced s → R s t) s :=
  wpIntro (fun _ _ run synced => wpOk (Q := fun _ t => R s t) (h synced) run)
    fun _ _ run unexcused synced =>
      wpError (E := fun e t => ¬storeFault e → R s t) (h synced) run unexcused

section Emission
variable (n : Node κ)

theorem firstLoose {unacked : List NodeEvent} {L : Ledger Entry}
    (seen : unacked.map entryOf = L.unsettled) :
    L.loose = (unacked.filter fun e => !protectedKind e.kind).map entryOf := by
  rw [Ledger.loose,← seen,List.filter_map]
  rfl

theorem unackedFewer {L : Ledger Entry} {v : Entry} (listed : v ∈ L.unsettled) :
    (L.forget [position v]).unsettled.length < L.unsettled.length := by
  rw [forgetUnsettled]
  exact List.length_filter_lt_length_iff_exists.mpr ⟨v,listed,by simp⟩

theorem shiftNone {s : NodeSession σ κ} {dropped ps : List Nat} (none : ps = []) :
    dropped = dropped ++ ps ∧ Shift s (ps.map .forget) s := by
  subst none
  exact ⟨by simp,.nil _,rfl,rfl⟩

theorem dropSpec (fuel unacked : List NodeEvent) (dropped : List Nat) (s : NodeSession σ κ)
    (synced : Synced s) (seen : unacked.map entryOf = (view s.store).unsettled)
    (enough : unacked.length ≤ fuel.length) :
    wp (dropVictims n fuel unacked dropped)
      (fun d t => d = dropped ++ (view s.store).victims n.maxBufferedEvents ∧
        Shift s (((view s.store).victims n.maxBufferedEvents).map .forget) t)
      (fun e _ => storeFault e) s := by
  have size : (view s.store).unsettled.length = unacked.length := by
    rw [← seen,List.length_map]
  induction fuel generalizing unacked dropped s with
  | nil =>
    have nothing : unacked = [] := List.length_eq_zero_iff.mp (by simpa using enough)
    subst nothing
    exact shiftNone (victimsNone (by rw [size]; exact Nat.zero_le _))
  | cons _ fuel ih =>
    unfold dropVictims
    split
    · exact shiftNone (victimsNone (by rw [size]; assumption))
    have exceeds : n.maxBufferedEvents < (view s.store).unsettled.length := by omega
    have loose := firstLoose seen
    cases found : unacked.find? fun e => !protectedKind e.kind with
    | none =>
      have empty : (unacked.filter fun e => !protectedKind e.kind) = [] := by
        rw [← List.head?_filter] at found
        exact List.head?_eq_none_iff.mp found
      exact shiftNone (victimsKept (by rw [loose,empty]; rfl))
    | some victim =>
      rw [← List.head?_filter] at found
      obtain ⟨rest,front⟩ := List.head?_eq_some_iff.mp found
      rw [front,List.map_cons] at loose
      have listed : entryOf victim ∈ (view s.store).unsettled :=
        List.mem_of_mem_filter (p := fun e => !kept e)
          (by rw [← Ledger.loose,loose]; exact List.mem_cons_self)
      have round := victimsStep (ordered synced.ok) exceeds loose
      rw [wpBind]
      apply wpOnStore
      · intro _ store deletion
        have wrote := deleted synced.ok store deletion
        have after : Shift s [.forget victim.cursor] {s with store} := ⟨.one wrote,rfl,rfl⟩
        have synced' := after.synced synced rfl rfl
        have seenView : view store = (view s.store).forget [position (entryOf victim)] :=
          (wroteView wrote).trans (applyForget (view s.store) [victim.cursor])
        rw [wpBind,wpGet,wpBind]
        apply wpOnStore
        · intro unacked' store' reading
          obtain ⟨same,entries⟩ := events synced'.ok unacked' store' reading
          rw [show store' = store from same]
          have seen' : unacked'.map entryOf = (view store).unsettled := by
            rw [entries,synced'.acked]
            rfl
          have fewer : unacked'.length ≤ fuel.length := by
            have less := unackedFewer listed
            rw [← seenView,← seen',List.length_map,size] at less
            simp only [List.length_cons] at enough
            omega
          have rest := ih unacked' (dropped ++ [victim.cursor]) {s with store} synced' seen'
            fewer (by rw [← seen',List.length_map])
          refine wpMono rest ?_ fun _ _ h => h
          rintro d t ⟨rfl,shift⟩
          rw [round,← seenView]
          exact ⟨by simp [entryOf],after.append shift⟩
        · intro message t
          exact trivial
      · intro message t
        exact trivial

theorem recordSpec (rs : List (Nat × Nat)) (s : NodeSession σ κ) (synced : Synced s) :
    wp (recordTruncations rs : SessionM σ κ Unit) (fun _ t => Shift s (rs.map .record) t)
      (fun e _ => storeFault e) s := by
  induction rs generalizing s with
  | nil => exact ⟨.nil _,rfl,rfl⟩
  | cons r rest ih =>
    unfold recordTruncations
    rw [wpBind]
    apply wpOnStore
    · intro _ store recording
      have wrote := truncated synced.ok store recording
      have after : Shift s [.record (r.1,r.2)] {s with store} := ⟨.one wrote,rfl,rfl⟩
      have later := ih {s with store} (after.synced synced rfl rfl)
      exact wpMono later (fun _ t shift => after.append shift) fun _ _ h => h
    · intro message t
      exact trivial

theorem forgetKeeps (L : Ledger Entry) (ps : List Nat) :
    (applyAll L (ps.map .forget)).top = L.top ∧
    (applyAll L (ps.map .forget)).floor = L.floor := by
  rw [applyForget]
  exact ⟨rfl,rfl⟩

theorem overflowKeeps (L : Ledger Entry) (ps : List Nat) (rs : List (Nat × Nat)) :
    (applyAll L (ps.map .forget ++ rs.map .record)).top = L.top ∧
    (applyAll L (ps.map .forget ++ rs.map .record)).floor = L.floor := by
  rw [applyAppend,applyForget,applyRecord]
  exact ⟨rfl,rfl⟩

def overflow (bound : Nat) (L : Ledger Entry) : List (Write Entry) :=
  (L.victims bound).map .forget ++ (contiguousRanges (L.victims bound)).map .record

theorem enforceSpec (s : NodeSession σ κ) (synced : Synced s) :
    wp (enforceBufferBounds n)
      (fun _ t => Shift s (overflow n.maxBufferedEvents (view s.store)) t)
      (fun e _ => storeFault e) s := by
  unfold enforceBufferBounds
  rw [wpBind,wpGet,wpBind]
  apply wpOnStore
  · intro unacked store reading
    obtain ⟨same,entries⟩ := events synced.ok unacked store reading
    rw [same]
    have seen : unacked.map entryOf = (view s.store).unsettled := by
      rw [entries,synced.acked]
      rfl
    have size : (view s.store).unsettled.length = unacked.length := by
      rw [← seen,List.length_map]
    split
    · rw [overflow,victimsNone (by rw [size]; assumption)]
      exact ⟨.nil _,rfl,rfl⟩
    · rw [wpBind]
      refine wpMono (dropSpec n unacked unacked [] s synced seen le_rfl) ?_ fun _ _ h => h
      rintro d t ⟨rfl,shift⟩
      rw [List.nil_append]
      have kept := forgetKeeps (view s.store) ((view s.store).victims n.maxBufferedEvents)
      refine wpMono (recordSpec _ t (shift.synced synced kept.1 kept.2)) ?_ fun _ _ h => h
      intro _ u recorded
      exact shift.append recorded
  · intro message t
    exact trivial

def emission (bound : Nat) (L : Ledger Entry) (e : Entry) : List (Write Entry) :=
  .append e :: overflow bound ((Write.append e).apply L)

structure Emitted (bound : Nat) (s : NodeSession σ κ) (e : NodeEvent) (t : NodeSession σ κ) :
    Prop where
  cursor : e.cursor = s.nodeCursor + 1
  node : t.nodeCursor = e.cursor
  acked : t.ackedCursor = s.ackedCursor
  writes : Chain s.store (emission bound (view s.store) (entryOf e)) t.store

theorem emitSpec (kind : String) (data : List (String × Json)) (ids : EventIds) (now : Int)
    (s : NodeSession σ κ) (synced : Synced s) :
    wp (emitEvent n kind data ids now)
      (fun e t => e.kind = kind ∧ Emitted n.maxBufferedEvents s e t)
      (fun e t => ¬storeFault e → Still s t) s := by
  unfold emitEvent
  rw [wpBind,wpGet,wpBind]
  have draws : IsQuiet (drawUuid n now : SessionM σ κ String) := frameDraw quietSealing n now
  refine wpIntro (fun eventId drawn run => ?_) fun e t run unexcused =>
    draws.error run unexcused synced
  have still := draws.ok run synced
  have syncedDrawn := still.synced synced
  rw [wpBind]
  apply wpOnStore
  · intro _ store appending
    obtain ⟨next,wrote⟩ := append syncedDrawn.ok store appending
    rw [wpBind,changing,wpModify,wpBind]
    have top : (view store).top = s.nodeCursor + 1 := by rw [wroteView wrote]; rfl
    have floor : (view store).floor = (view drawn.store).floor := by rw [wroteView wrote]; rfl
    have syncedNext : Synced {drawn with store,nodeCursor := s.nodeCursor + 1} :=
      ⟨wroteOk wrote,top.symm,by rw [floor]; exact syncedDrawn.acked⟩
    refine wpMono (enforceSpec n _ syncedNext) ?_ fun e t fault unexcused =>
      absurd fault unexcused
    intro _ t shift
    have seen : view store = (Write.append ⟨s.nodeCursor + 1,kind⟩).apply (view s.store) := by
      rw [wroteView wrote,still.store]
      rfl
    rw [still.store] at wrote
    refine ⟨rfl,rfl,shift.node,shift.acked.trans still.acked,?_⟩
    exact .cons wrote (seen ▸ shift.chain)
  · intro message t unexcused
    exact absurd trivial unexcused

theorem emissionTurn {bound : Nat} {L : Ledger Entry} (ordered : L.Ordered) {e : Entry}
    (next : e.cursor = L.top + 1) : Turn bound L (emission bound L e) := by
  have appended := orderedWrite ordered (w := .append e) fun _ same => by cases same; exact next
  have distinct := appended.nodup.sublist (victimsSublist bound _)
  exact .emit next (rangesReport distinct)

theorem Emitted.synced {bound : Nat} {s t : NodeSession σ κ} {e : NodeEvent}
    (h : Emitted bound s e t) (synced : Synced s) : Synced t := by
  have seen := h.writes.view
  rw [emission,applyCons] at seen
  have kept := overflowKeeps ((Write.append (entryOf e)).apply (view s.store))
    (((Write.append (entryOf e)).apply (view s.store)).victims bound)
    (contiguousRanges (((Write.append (entryOf e)).apply (view s.store)).victims bound))
  refine ⟨h.writes.ok synced.ok,?_,?_⟩
  · rw [seen,overflow,kept.1,h.node]; rfl
  · rw [seen,overflow,kept.2,h.acked,synced.acked]; rfl

theorem Emitted.moved {bound : Nat} {s t : NodeSession σ κ} {e : NodeEvent}
    (h : Emitted bound s e t) (synced : Synced s) : Moved (Turn bound) s t :=
  ⟨h.synced synced,_,emissionTurn (ordered synced.ok) (by rw [← synced.node]; exact h.cursor),
    h.writes⟩

theorem Emitted.listed {bound : Nat} {s t : NodeSession σ κ} {e : NodeEvent}
    (h : Emitted bound s e t) (synced : Synced s) (isProtected : protectedKind e.kind = true) :
    entryOf e ∈ (view t.store).live := by
  have next : (entryOf e).cursor = (view s.store).top + 1 := by
    rw [← synced.node]
    exact h.cursor
  have appended := orderedWrite (ordered synced.ok) (w := .append (entryOf e)) fun _ same => by
    cases same
    exact next
  rw [h.writes.view]
  exact overflowSpares appended _ (List.mem_append_right _ (List.mem_singleton_self _)) isProtected

theorem movesEmit (kind : String) (data : List (String × Json)) (ids : EventIds) (now : Int) :
    Frame storeFault (Moves (Turn n.maxBufferedEvents))
      (emitEvent n kind data ids now : SessionM σ κ NodeEvent) := fun s =>
  wpSynced fun synced => wpMono (emitSpec n kind data ids now s synced)
    (fun _ _ emitted => emitted.2.moved synced)
    fun _ _ still unexcused =>
      (quietMoves (fun _ => still unexcused) synced).mono fun _ _ => .calm

theorem movesAck (envelope : Envelope) :
    Frame storeFault (Moves Calm)
      (receiveAck n envelope : SessionM σ κ (List Envelope)) := by
  refine frameBind (frameOrThrow quietRefl _) (fun ack => ?_) (fun _ _ => quietMoves) quietThenMoves
  split
  · exact framePure _ fun s => quietMoves (quietRefl s)
  · rename_i highest _
    intro s
    apply wpSynced
    intro synced
    rw [wpBind,changing,wpModify,wpBind,wpGet,wpBind]
    apply wpOnStore
    · intro _ store raising
      have wrote := acked synced.ok store raising
      rw [wpBind]
      apply wpOnStore
      · intro _ store' pruning
        have wrote' := pruned (wroteOk wrote) store' pruning
        have chain : Chain s.store [.raise (max s.ackedCursor highest),
            .prune (max s.ackedCursor highest)] store' := .cons wrote (.one wrote')
        have seen := chain.view
        refine ⟨⟨chain.ok synced.ok,?_,?_⟩,_,.settle ?_,chain⟩
        · rw [seen]; exact synced.node
        · rw [seen]; rfl
        · rw [← synced.acked]; exact Nat.le_max_left _ _
      · intro message t unexcused
        exact absurd trivial unexcused
    · intro message t unexcused
      exact absurd trivial unexcused

theorem movesSave (idem : String) (answer : OfferAnswer) :
    Frame storeFault (Moves Calm)
      (onStore (NodeStateStore.saveOfferAnswer idem answer.type answer.payload) :
        SessionM σ κ Unit) := fun s => by
  apply wpOnStore
  · intro _ store saving synced
    have wrote := saved synced.ok store saving
    have seen := wroteView wrote
    exact ⟨⟨wroteOk wrote,by rw [seen]; exact synced.node,by rw [seen]; exact synced.acked⟩,
      _,.aside,.one wrote⟩
  · intro message t unexcused
    exact absurd trivial unexcused

theorem quietFrame {m : SessionM σ κ α} (quiet : IsQuiet m) :
    Frame storeFault (Moves Calm) m :=
  quiet.mono fun _ _ => quietMoves

theorem movesOffer (envelope : Envelope) (now : Int) :
    Frame storeFault (Moves Calm)
      (receiveOffer n envelope now : SessionM σ κ (List Envelope)) := by
  have first {β : Type} {m : SessionM σ κ β} {f : β → SessionM σ κ (List Envelope)}
      (quiet : IsQuiet m) (next : ∀ b, Frame storeFault (Moves Calm) (f b)) :=
    frameBind quiet next (fun _ _ => quietMoves) quietThenMoves
  refine first (frameOrThrow quietRefl _) fun offer => first (frameGet quietRefl) fun s => ?_
  split
  · exact quietFrame (frameAnswer quietSealing n envelope _ _ now)
  · refine first (frameKernel quietKernel _) fun decision => ?_
    refine first (frameChanging fun _ _ => ⟨rfl,rfl,rfl⟩) fun _ => ?_
    exact frameBind (movesSave _ _) (fun _ => frameAnswer quietSealing n envelope _ _ now)
      (fun _ _ h => h) movesThenQuiet

theorem movesDispatch (envelope : Envelope) (now : Int) :
    Frame storeFault (Moves Calm)
      (dispatch n envelope now : SessionM σ κ (List Envelope)) := by
  unfold dispatch
  split
  · exact quietFrame (frameWelcome quietReading n quietConnection envelope now)
  split
  · exact movesAck n envelope
  split
  · exact movesOffer n envelope now
  split
  · exact quietFrame (frameDecision quietSealing n (reviewedAny quietKernel) envelope now)
  split
  · exact quietFrame (frameAcknowledge quietSealing n envelope now)
  · exact quietFrame (frameNack quietSealing n _ _ _ _ now)

theorem movesReceive (raw : Json) (now : Int) :
    Frame storeFault (Moves Calm)
      (receive n raw now : SessionM σ κ (List Envelope)) := by
  have first {β : Type} {m : SessionM σ κ β} {f : β → SessionM σ κ (List Envelope)}
      (quiet : IsQuiet m) (next : ∀ b, Frame storeFault (Moves Calm) (f b)) :=
    frameBind quiet next (fun _ _ => quietMoves) quietThenMoves
  refine first (frameOrThrow quietRefl _) fun verified => ?_
  split
  · exact quietFrame (frameRejected quietSealing n raw _ _ now)
  · refine first (frameGet quietRefl) fun s => ?_
    split
    · exact quietFrame (frameNack quietSealing n _ _ _ _ now)
    · refine first (frameChanging fun _ _ => ⟨rfl,rfl,rfl⟩) fun _ => ?_
      split
      · exact quietFrame (framePure _ quietRefl)
      · exact movesDispatch n _ now

end Emission

end ControlCenter.JournalRefinement
