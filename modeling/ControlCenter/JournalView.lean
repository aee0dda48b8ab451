import ControlCenter.Session
import ControlCenter.PositionLedger

/-! A node state store as a ledger of cursors: what each call of a session reads from
it and writes to it, for the in-memory store, the SQLite store, and either of them
together with its commits. -/
namespace ControlCenter.JournalView
open JsonValue ZodSchema AccpEnvelope AccpMessages StateStore Session PositionLedger

structure Entry where
  cursor : Nat
  kind : String
  deriving DecidableEq, Repr

instance : Positioned Entry := ⟨Entry.cursor,fun e => protectedKind e.kind⟩

@[simp] theorem entryPosition (e : Entry) : position e = e.cursor := rfl
@[simp] theorem entryKept (e : Entry) : kept e = protectedKind e.kind := rfl

def entryOf (e : NodeEvent) : Entry := ⟨e.cursor,e.kind⟩

variable {σ α : Type}

def Reads (m : StoreM σ α) (s : σ) (P : α → Prop) : Prop :=
  ∀ a t, m s = (.ok a,t) → t = s ∧ P a

def Writes (m : StoreM σ Unit) (s : σ) (P : σ → Prop) : Prop :=
  ∀ t, m s = (.ok (),t) → P t

class LawfulNodeStateStore (σ : Type) [NodeStateStore σ] where
  ok : σ → Prop
  view : σ → Ledger Entry
  wrote : Write Entry → σ → σ → Prop
  empty : σ
  emptyOk : ok empty
  emptyView : view empty = ⟨0,0,[],[]⟩
  ordered : ∀ {s}, ok s → (view s).Ordered
  wroteOk : ∀ {w s t}, wrote w s t → ok t
  wroteView : ∀ {w s t}, wrote w s t → view t = w.apply (view s)
  cursors : ∀ {s}, ok s → Reads NodeStateStore.loadCursors s fun c =>
    c.nodeCursor = (view s).top ∧ c.ackedCursor = (view s).floor
  events : ∀ {s c}, ok s → Reads (NodeStateStore.eventsAfter c) s fun es =>
    es.map entryOf = (view s).live.filter fun e => decide (c < position e)
  ranges : ∀ {s}, ok s → Reads NodeStateStore.loadTruncations s fun ts =>
    ts.map (fun t => (t.fromCursor,t.toCursor)) = (view s).gone
  answers : ∀ {s}, ok s → Reads NodeStateStore.loadOfferAnswers s fun _ => True
  append : ∀ {s e}, ok s → Writes (NodeStateStore.appendEventAndAdvanceCursor e) s fun t =>
    e.cursor = (view s).top + 1 ∧ wrote (.append (entryOf e)) s t
  acked : ∀ {s c}, ok s → Writes (NodeStateStore.setAckedCursor c) s (wrote (.raise c) s)
  pruned : ∀ {s c}, ok s → Writes (NodeStateStore.pruneUpTo c) s (wrote (.prune c) s)
  deleted : ∀ {s c}, ok s → Writes (NodeStateStore.deleteEventAt c) s (wrote (.forget c) s)
  saved : ∀ {s k y v}, ok s → Writes (NodeStateStore.saveOfferAnswer k y v) s (wrote .other s)
  truncated : ∀ {s a b r}, ok s →
    Writes (NodeStateStore.appendTruncation a b r) s (wrote (.record (a,b)) s)

theorem readingSource {f : σ → Except String α} {s t : σ} {a : α}
    (h : reading f s = (.ok a,t)) : t = s ∧ f s = .ok a := by
  unfold reading at h
  exact ⟨(congrArg Prod.snd h).symm,congrArg Prod.fst h⟩

theorem writingSource {f : σ → Except String σ} {s t : σ}
    (h : writing f s = (.ok (),t)) : f s = .ok t := by
  unfold writing at h
  split at h
  · rename_i next written
    cases congrArg Prod.snd h
    exact written
  · cases congrArg Prod.fst h

def Replaced (ok : σ → Prop) (view : σ → Ledger Entry) (w : Write Entry) (s t : σ) : Prop :=
  ok t ∧ view t = w.apply (view s)

theorem filterSorted {β : Type} {key : β → Nat} {r : β → β → Prop} [DecidableRel r]
    (below : ∀ a b, key a < key b → r a b) (p : β → Bool) {rows : List β}
    (ascending : (rows.map key).Pairwise (· < ·)) :
    (rows.filter p).insertionSort r = rows.filter p := by
  have pairwise : (rows.filter p).Pairwise r :=
    ((List.pairwise_map.mp ascending).filter p).imp (below _ _)
  exact pairwise.insertionSort_eq

namespace InMemory

def view (s : InMemoryNodeStateStore) : Ledger Entry :=
  ⟨s.nodeCursor,s.ackedCursor,s.events.map entryOf,
    s.truncations.map fun t => (t.fromCursor,t.toCursor)⟩

def ok (s : InMemoryNodeStateStore) : Prop := (view s).Ordered

theorem eventsAfterEntries {s : InMemoryNodeStateStore} (h : ok s) (c : Nat) :
    (s.eventsAfter c).map entryOf =
      (view s).live.filter fun e => decide (c < position e) := by
  have ascending : (s.events.map (·.cursor)).Pairwise (· < ·) := by
    have positions := h.ascending
    simpa [Ledger.positions,view,Function.comp_def,entryOf] using positions
  have sorted := filterSorted (r := cursorOrder) (fun _ _ => Nat.le_of_lt)
    (fun e => decide (c < e.cursor)) ascending
  rw [InMemoryNodeStateStore.eventsAfter,sorted,view,List.filter_map]
  rfl

theorem appendSource {e : NodeEvent} {s t : InMemoryNodeStateStore}
    (h : s.appendEventAndAdvanceCursor e = .ok t) :
    e.cursor = s.nodeCursor + 1 ∧ t = {s with events := s.events ++ [e],nodeCursor := e.cursor} := by
  unfold InMemoryNodeStateStore.appendEventAndAdvanceCursor at h
  split at h <;> try contradiction
  split at h <;> try contradiction
  cases Except.ok.inj h
  exact ⟨not_not.mp ‹_›,rfl⟩

theorem replaced {w : Write Entry} {s t : InMemoryNodeStateStore} (h : ok s)
    (next : ∀ e, w = .append e → position e = (view s).top + 1)
    (same : view t = w.apply (view s)) : Replaced ok view w s t :=
  ⟨by rw [ok,same]; exact orderedWrite h next,same⟩

instance : LawfulNodeStateStore InMemoryNodeStateStore where
  ok := ok
  view := view
  wrote := Replaced ok view
  empty := .empty
  emptyOk := ⟨.nil,by simp [Ledger.positions,view,InMemoryNodeStateStore.empty]⟩
  emptyView := rfl
  ordered h := h
  wroteOk h := h.1
  wroteView h := h.2
  cursors _ a t run := by
    obtain ⟨rfl,value⟩ := readingSource run
    cases Except.ok.inj value
    exact ⟨rfl,rfl,rfl⟩
  events {s c} h a t run := by
    obtain ⟨rfl,value⟩ := readingSource run
    cases Except.ok.inj value
    exact ⟨rfl,eventsAfterEntries h c⟩
  ranges _ a t run := by
    obtain ⟨rfl,value⟩ := readingSource run
    cases Except.ok.inj value
    exact ⟨rfl,rfl⟩
  answers _ a t run := ⟨(readingSource run).1,trivial⟩
  append {s e} h t run := by
    obtain ⟨next,rfl⟩ := appendSource (writingSource run)
    refine ⟨next,replaced h (fun _ same => by cases same; exact next) ?_⟩
    simp [view,Write.apply,entryOf]
  acked h t run := by
    cases Except.ok.inj (writingSource run)
    exact replaced h (by simp) rfl
  pruned h t run := by
    cases Except.ok.inj (writingSource run)
    refine replaced h (by simp) ?_
    simp only [view,Write.apply,List.filter_map]
    rfl
  deleted h t run := by
    cases Except.ok.inj (writingSource run)
    refine replaced h (by simp) ?_
    simp only [view,Write.apply,List.filter_map]
    rfl
  saved h t run := by
    cases Except.ok.inj (writingSource run)
    exact replaced h (by simp) rfl
  truncated {s a b r} h t run := by
    have written := writingSource run
    simp only [InMemoryNodeStateStore.appendTruncation,bind,Except.bind] at written
    split at written <;> try contradiction
    cases Except.ok.inj written
    refine replaced h (by simp) ?_
    simp [view,Write.apply]

end InMemory

namespace Sqlite

def rowEntry (row : EventRow) : Entry := ⟨row.cursor,textAt "kind" row.eventJson⟩

variable {texts : SqliteText}

def view (s : SqliteNodeStateStore texts) : Ledger Entry :=
  ⟨s.cursorValue "node_cursor",s.cursorValue "acked_cursor",s.nodeEvents.map rowEntry,
    s.truncations.map fun t => (t.fromCursor,t.toCursor)⟩

structure ok (s : SqliteNodeStateStore texts) : Prop where
  ordered : (view s).Ordered
  keyed : ∀ row ∈ s.nodeEvents, cursorAt "cursor" row.eventJson = row.cursor

theorem nodeEventNames : (nodeEventShape.map Field.name).Nodup := by decide

theorem parsedEntry {raw : Json} {e : NodeEvent} (h : parseNodeEvent raw = some e) :
    e.cursor = cursorAt "cursor" raw ∧ e.kind = textAt "kind" raw := by
  simp only [parseNodeEvent,bind,Option.bind_eq_some_iff] at h
  obtain ⟨v,hv,last⟩ := h
  cases Option.some.inj last
  have cursor := objectField hv nodeEventNames
    (f := field "cursor" cursorSchema) (by simp [nodeEventShape]) rfl
  have kind := objectField hv nodeEventNames
    (f := field "kind" string) (by simp [nodeEventShape]) rfl
  have sameCursor : v.get "cursor" = raw.get "cursor" := integerFromSame cursor
  have sameKind : v.get "kind" = raw.get "kind" := stringThatSame kind
  refine ⟨?_,?_⟩
  · show cursorAt "cursor" v = cursorAt "cursor" raw
    rw [cursorAt,cursorAt,sameCursor]
  · show textAt "kind" v = textAt "kind" raw
    rw [textAt,textAt,sameKind]

theorem imageEntry (e : NodeEvent) :
    cursorAt "cursor" e.toJson.image = e.cursor ∧ textAt "kind" e.toJson.image = e.kind := by
  simp [NodeEvent.toJson,Json.nat,Json.image,imageMembers,cursorAt,textAt,Json.natural,
    Number.integer?,Json.text]

theorem rowsParsed {rows : List EventRow} {es : List NodeEvent}
    (h : rows.mapM SqliteNodeStateStore.parseRow = .ok es)
    (keyed : ∀ row ∈ rows, cursorAt "cursor" row.eventJson = row.cursor) :
    es.map entryOf = rows.map rowEntry := by
  induction rows generalizing es with
  | nil => simp [pure,Except.pure] at h; subst es; rfl
  | cons row rest ih =>
    simp only [List.mapM_cons,bind,Except.bind,SqliteNodeStateStore.parseRow] at h
    cases hp : parseNodeEvent row.eventJson with
    | none => simp [hp] at h
    | some e =>
      simp only [hp] at h
      split at h <;> try contradiction
      rename_i tail ht
      cases Except.ok.inj h
      have entry := parsedEntry hp
      have key := keyed row (by simp)
      have rows := ih ht fun r hr => keyed r (by simp [hr])
      simp [rows,entryOf,rowEntry,entry.1,entry.2,key]

theorem eventsAfterEntries {s : SqliteNodeStateStore texts} (h : ok s) {c : Nat}
    {es : List NodeEvent} (read : s.eventsAfter c = .ok es) :
    es.map entryOf = (view s).live.filter fun e => decide (c < position e) := by
  have ascending : (s.nodeEvents.map (·.cursor)).Pairwise (· < ·) := by
    have positions := h.ordered.ascending
    simpa [Ledger.positions,view,Function.comp_def,rowEntry] using positions
  have sorted := filterSorted (r := rowOrder) (fun _ _ => Nat.le_of_lt)
    (fun row => decide (c < row.cursor)) ascending
  rw [SqliteNodeStateStore.eventsAfter,sorted] at read
  rw [rowsParsed read fun row hr => h.keyed row (List.mem_of_mem_filter hr),view,List.filter_map]
  rfl

theorem truncationsRead {rows : List TruncationRow} {ts : List Truncation}
    (h : rows.mapM SqliteNodeStateStore.readTruncation = .ok ts) :
    ts.map (fun t => (t.fromCursor,t.toCursor)) =
      rows.map fun t => (t.fromCursor,t.toCursor) := by
  induction rows generalizing ts with
  | nil => cases Except.ok.inj h; rfl
  | cons row rest ih =>
    simp only [List.mapM_cons,bind,Except.bind,SqliteNodeStateStore.readTruncation] at h
    split at h <;> try contradiction
    rename_i first read
    split at read <;> try contradiction
    cases Except.ok.inj read
    split at h <;> try contradiction
    rename_i tail ht
    cases Except.ok.inj h
    simp only [List.map_cons,ih ht]

theorem appendSource {e : NodeEvent} {s t : SqliteNodeStateStore texts}
    (h : s.appendEventAndAdvanceCursor e = .ok t) :
    e.cursor = s.cursorValue "node_cursor" + 1 ∧
      t = ({s with nodeEvents := s.nodeEvents ++ [⟨e.cursor,e.toJson.image⟩]} :
        SqliteNodeStateStore texts).upsertCursor "node_cursor" e.cursor := by
  simp only [SqliteNodeStateStore.appendEventAndAdvanceCursor,bind,Except.bind,
    SqliteNodeStateStore.insertEvent] at h
  split at h <;> try contradiction
  split at h <;> try contradiction
  rename_i inserted written
  split at written <;> try contradiction
  cases Except.ok.inj written
  cases Except.ok.inj h
  exact ⟨not_not.mp ‹_›,rfl⟩

theorem upserted (s : SqliteNodeStateStore texts) (value : Nat) :
    view (s.upsertCursor "node_cursor" value) = {view s with top := value} ∧
    view (s.upsertCursor "acked_cursor" value) = {view s with floor := value} := by
  have other : "acked_cursor" ≠ "node_cursor" := by decide
  simp [view,SqliteNodeStateStore.upsertCursor,SqliteNodeStateStore.cursorValue,
    AList.lookup_insert,AList.lookup_insert_ne other,AList.lookup_insert_ne other.symm]

theorem replaced {w : Write Entry} {s t : SqliteNodeStateStore texts} (h : ok s)
    (next : ∀ e, w = .append e → position e = (view s).top + 1)
    (same : view t = w.apply (view s))
    (keyed : ∀ row ∈ t.nodeEvents, cursorAt "cursor" row.eventJson = row.cursor) :
    Replaced ok view w s t :=
  ⟨⟨by rw [same]; exact orderedWrite h.ordered next,keyed⟩,same⟩

theorem replacedFilter {w : Write Entry} {s : SqliteNodeStateStore texts} (h : ok s)
    {p : EventRow → Bool} (next : ∀ e, w = .append e → position e = (view s).top + 1)
    (same : view ({s with nodeEvents := s.nodeEvents.filter p} : SqliteNodeStateStore texts) =
      w.apply (view s)) :
    Replaced ok view w s {s with nodeEvents := s.nodeEvents.filter p} :=
  replaced h next same fun row hr => h.keyed row (List.mem_of_mem_filter hr)

instance : LawfulNodeStateStore (SqliteNodeStateStore texts) where
  ok := ok
  view := view
  wrote := Replaced ok view
  empty := .empty
  emptyOk := ⟨⟨.nil,by simp [Ledger.positions,view,SqliteNodeStateStore.empty]⟩,
    by simp [SqliteNodeStateStore.empty]⟩
  emptyView := rfl
  ordered h := h.ordered
  wroteOk h := h.1
  wroteView h := h.2
  cursors _ a t run := by
    obtain ⟨rfl,value⟩ := readingSource run
    cases Except.ok.inj value
    exact ⟨rfl,rfl,rfl⟩
  events h a t run := by
    obtain ⟨rfl,value⟩ := readingSource run
    exact ⟨rfl,eventsAfterEntries h value⟩
  ranges _ a t run := by
    obtain ⟨rfl,value⟩ := readingSource run
    exact ⟨rfl,truncationsRead value⟩
  answers _ a t run := ⟨(readingSource run).1,trivial⟩
  append {s e} h t run := by
    obtain ⟨next,rfl⟩ := appendSource (writingSource run)
    refine ⟨next,replaced h (fun _ same => by cases same; exact next) ?_ ?_⟩
    · rw [(upserted _ _).1]
      simp [view,Write.apply,entryOf,rowEntry,(imageEntry e).2]
      rfl
    · intro row hr
      rcases List.mem_append.mp hr with old | new
      · exact h.keyed row old
      · cases List.mem_singleton.mp new
        exact (imageEntry e).1
  acked {s c} h t run := by
    cases Except.ok.inj (writingSource run)
    exact replaced h (by simp) (upserted s c).2 h.keyed
  pruned h t run := by
    cases Except.ok.inj (writingSource run)
    refine replacedFilter h (by simp) ?_
    simp only [view,Write.apply,List.filter_map]
    rfl
  deleted h t run := by
    cases Except.ok.inj (writingSource run)
    refine replacedFilter h (by simp) ?_
    simp only [view,Write.apply,List.filter_map]
    rfl
  saved h t run := by
    cases Except.ok.inj (writingSource run)
    exact replaced h (by simp) rfl h.keyed
  truncated {s a b r} h t run := by
    have written := writingSource run
    simp only [SqliteNodeStateStore.appendTruncation,bind,Except.bind] at written
    split at written <;> try contradiction
    cases Except.ok.inj written
    refine replaced h (by simp) ?_ h.keyed
    simp only [view,Write.apply,List.map_append]
    rfl

end Sqlite

theorem committedRead {m : StoreM σ α} {s : Committed σ} {P : α → Prop}
    (h : Reads m s.current P) : Reads (Committed.read m) s P := by
  intro a t run
  simp only [Committed.read] at run
  rcases found : m s.current with ⟨result,next⟩
  rw [found] at run
  cases congrArg Prod.fst run
  obtain ⟨rfl,value⟩ := h a next found
  exact ⟨(congrArg Prod.snd run).symm,value⟩

theorem committedWrite {m : StoreM σ Unit} {s : Committed σ} {P : σ → Prop}
    (h : Writes m s.current P) :
    Writes (Committed.write m) s fun t => P t.current ∧ t.commits = s.commits ++ [t.current] := by
  intro t run
  simp only [Committed.write] at run
  split at run
  · rename_i next written
    cases congrArg Prod.snd run
    exact ⟨h next written,rfl⟩
  · cases congrArg Prod.fst run

theorem Writes.mono {m : StoreM σ Unit} {s : σ} {P Q : σ → Prop} (h : Writes m s P)
    (weaker : ∀ t, P t → Q t) : Writes m s Q := fun t run => weaker t (h t run)

section Lawful
variable [NodeStateStore σ] [LawfulNodeStateStore σ]
open LawfulNodeStateStore

instance : LawfulNodeStateStore (Committed σ) where
  ok s := ok s.current
  view s := view s.current
  wrote w s t := wrote w s.current t.current ∧ t.commits = s.commits ++ [t.current]
  empty := ⟨empty,[]⟩
  emptyOk := emptyOk
  emptyView := emptyView
  ordered h := ordered h
  wroteOk h := wroteOk h.1
  wroteView h := wroteView h.1
  cursors h := committedRead (cursors h)
  events h := committedRead (events h)
  ranges h := committedRead (ranges h)
  answers h := committedRead (answers h)
  append h := (committedWrite (append h)).mono fun _ w => ⟨w.1.1,w.1.2,w.2⟩
  acked h := committedWrite (acked h)
  pruned h := committedWrite (pruned h)
  deleted h := committedWrite (deleted h)
  saved h := committedWrite (saved h)
  truncated h := committedWrite (truncated h)

inductive Chain : σ → List (Write Entry) → σ → Prop
  | nil (s : σ) : Chain s [] s
  | cons {s t u : σ} {w : Write Entry} {ws : List (Write Entry)} (first : wrote w s t)
      (rest : Chain t ws u) : Chain s (w::ws) u

theorem Chain.one {s t : σ} {w : Write Entry} (h : wrote w s t) : Chain s [w] t :=
  .cons h (.nil t)

theorem Chain.append {s t u : σ} {front back : List (Write Entry)} (h : Chain s front t)
    (next : Chain t back u) : Chain s (front ++ back) u := by
  induction h with
  | nil s => exact next
  | cons first _ ih => exact .cons first (ih next)

theorem Chain.view {s t : σ} {ws : List (Write Entry)} (h : Chain s ws t) :
    view t = applyAll (view s) ws := by
  induction h with
  | nil s => rfl
  | cons first _ ih => rw [ih,wroteView first,applyCons]

theorem Chain.ok {s t : σ} {ws : List (Write Entry)} (h : Chain s ws t) (start : ok s) :
    ok t := by
  induction h with
  | nil s => exact start
  | cons first _ ih => exact ih (wroteOk first)

theorem Chain.commits {s t : Committed σ} {ws : List (Write Entry)} (h : Chain s ws t)
    (start : LawfulNodeStateStore.ok s) :
    ∃ cs : List σ, t.commits = s.commits ++ cs ∧ cs.length = ws.length ∧
      ∀ k d, (s.current::cs)[k]? = some d → LawfulNodeStateStore.ok d ∧
        LawfulNodeStateStore.view d =
          applyAll (LawfulNodeStateStore.view s.current) (ws.take k) := by
  induction h with
  | nil s =>
    refine ⟨[],by simp,rfl,?_⟩
    intro k d found
    cases k with
    | zero => cases Option.some.inj found; exact ⟨start,rfl⟩
    | succ k => simp at found
  | @cons s t u w ws first rest ih =>
    obtain ⟨cs,commits,length,states⟩ := ih (wroteOk first)
    refine ⟨t.current::cs,by rw [commits,first.2]; simp,by simp [length],?_⟩
    intro k d found
    cases k with
    | zero => cases Option.some.inj found; exact ⟨start,rfl⟩
    | succ k =>
      obtain ⟨good,seen⟩ := states k d (by simpa using found)
      refine ⟨good,?_⟩
      rw [seen,List.take_succ_cons,applyCons,← wroteView first.1]

end Lawful

end ControlCenter.JournalView
