import ControlCenter.Admission

/-! The cursors and the offer answers a store keeps. Any call of a store may throw, and
then leaves them as they were. -/
namespace ControlCenter.DurableRecords
open JsonValue AccpEnvelope AccpIds AccpMessages StateStore Session ActionLogic
open SessionFrames SessionRuns Admission
open JournalView (readingSource writingSource)

structure Records where
  nodeCursor : Nat
  ackedCursor : Nat
  answers : OfferAnswers

def Records.answering (r : Records) (key : String) (answer : OfferAnswer) : Records :=
  {r with answers := r.answers.insert key answer}

structure Contents extends Records where
  rows : OfferAnswers

def Contents.saving (c : Contents) (bound read : String) (loads : Bool) (answer : OfferAnswer) :
    Contents :=
  {c with
    rows := c.rows.insert bound answer
    answers := if loads then c.answers.insert read answer else c.answers}

def Plain (payload : Json) : Prop := payload ≠ .undefined ∧ payload.image = payload

section
variable {σ α : Type}

def Changes (contents f : σ → Contents) (m : StoreM σ α) : Prop :=
  ∀ s, contents (m s).2 = match (m s).1 with
    | .ok _ => f s
    | .error _ => contents s

class RecordStore (σ : Type) [NodeStateStore σ] where
  contents : σ → Contents
  kept : Json → Json
  keptPlain : ∀ {payload}, Plain payload → kept payload = payload
  -- The key an answer is stored under, and the key a stored key is read as.
  bound : String → String
  read : String → String
  loads : σ → String → Bool
  loadsFresh : ∀ {s k}, (contents s).answers.lookup (read (bound k)) = none → loads s k = true
  cursorsLoaded : ∀ {s c t}, NodeStateStore.loadCursors s = (.ok c,t) →
    c.nodeCursor = (contents s).nodeCursor ∧ c.ackedCursor = (contents s).ackedCursor
  answersLoaded : ∀ {s a t}, NodeStateStore.loadOfferAnswers s = (.ok a,t) →
    a = (contents s).answers
  cursors : Changes contents contents NodeStateStore.loadCursors
  answers : Changes contents contents NodeStateStore.loadOfferAnswers
  events : ∀ c, Changes contents contents (NodeStateStore.eventsAfter c)
  truncations : Changes contents contents NodeStateStore.loadTruncations
  deleted : ∀ c, Changes contents contents (NodeStateStore.deleteEventAt c)
  pruned : ∀ c, Changes contents contents (NodeStateStore.pruneUpTo c)
  truncated : ∀ a b r, Changes contents contents (NodeStateStore.appendTruncation a b r)
  appended : ∀ e, Changes contents (fun s => {contents s with nodeCursor := e.cursor})
    (NodeStateStore.appendEventAndAdvanceCursor e)
  acked : ∀ c, Changes contents (fun s => {contents s with ackedCursor := c})
    (NodeStateStore.setAckedCursor c)
  saved : ∀ k y v, Changes contents
    (fun s => (contents s).saving (bound k) (read (bound k)) (loads s k) ⟨y,kept v⟩)
    (NodeStateStore.saveOfferAnswer k y v)

def loadedKey (σ : Type) [NodeStateStore σ] [RecordStore σ] (key : String) : String :=
  RecordStore.read σ (RecordStore.bound σ key)

def KeyKept (σ : Type) [NodeStateStore σ] [RecordStore σ] (key : String) : Prop :=
  loadedKey σ key = key

variable {contents : σ → Contents}

theorem changesReading (f : σ → Except String α) :
    Changes contents contents (reading f) := fun s => by
  show contents s = _
  cases (reading f s).1 <;> rfl

theorem changesWriting {g : σ → Contents} {f : σ → Except String σ}
    (each : ∀ s t, f s = .ok t → contents t = g s) :
    Changes contents g (writing f) := fun s => by
  unfold writing
  cases run : f s with
  | ok t => exact each s t run
  | error message => rfl

end

namespace InMemory

def contents (s : InMemoryNodeStateStore) : Contents :=
  ⟨⟨s.nodeCursor,s.ackedCursor,s.offerAnswers⟩,s.offerAnswers⟩

theorem written {g : InMemoryNodeStateStore → Contents}
    {f : InMemoryNodeStateStore → InMemoryNodeStateStore}
    (each : ∀ s, contents (f s) = g s) : Changes contents g (writing fun s => .ok (f s)) :=
  changesWriting fun s t run => by rw [← Except.ok.inj run]; exact each s

instance : RecordStore InMemoryNodeStateStore where
  contents := contents
  kept := id
  keptPlain _ := rfl
  bound := id
  read := id
  loads _ _ := true
  loadsFresh _ := rfl
  cursorsLoaded h := by
    obtain ⟨_,read⟩ := readingSource h
    cases Except.ok.inj read
    exact ⟨rfl,rfl⟩
  answersLoaded h := (Except.ok.inj (readingSource h).2).symm
  cursors := changesReading _
  answers := changesReading _
  events _ := changesReading _
  truncations := changesReading _
  deleted _ := written fun _ => rfl
  pruned _ := written fun _ => rfl
  truncated a b r := changesWriting fun s t run => by
    simp only [InMemoryNodeStateStore.appendTruncation,bind,Except.bind] at run
    split at run
    · contradiction
    · rw [← Except.ok.inj run]; rfl
  appended e := changesWriting fun s t run => by
    simp only [InMemoryNodeStateStore.appendEventAndAdvanceCursor] at run
    split at run
    · contradiction
    split at run
    · contradiction
    · rw [← Except.ok.inj run]; rfl
  acked _ := written fun _ => rfl
  saved _ _ _ := written fun _ => rfl

end InMemory

namespace Sqlite
open SqliteNodeStateStore (upsertAnswer loadAnswers)

variable {texts : SqliteText}

def loadedRow (texts : SqliteText) (rows : List AnswerRow) (key : String) : Option AnswerRow :=
  rows.reverse.find? fun row => texts.read row.idemKey == key

def rowLoads (texts : SqliteText) (rows : List AnswerRow) (bound : String) : Bool :=
  !(rows.any fun row => row.idemKey == bound) ||
    (loadedRow texts rows (texts.read bound)).all fun row => row.idemKey == bound

def rowAnswers (rows : List AnswerRow) : OfferAnswers :=
  rows.foldl (fun answers row => answers.insert row.idemKey row.answer) ∅

theorem loadedLookup (texts : SqliteText) (rows : List AnswerRow) (key : String) :
    (loadAnswers texts rows).lookup key = (loadedRow texts rows key).map AnswerRow.answer := by
  unfold loadAnswers loadedRow
  induction rows using List.reverseRecOn with
  | nil => rfl
  | append_singleton front row ih =>
    rw [List.foldl_append,List.foldl_cons,List.foldl_nil,List.reverse_append,List.reverse_singleton,
      List.singleton_append,List.find?_cons]
    by_cases same : texts.read row.idemKey = key
    · rw [same,Finmap.lookup_insert,beq_self_eq_true]
      rfl
    · rw [Finmap.lookup_insert_of_ne _ (Ne.symm same),ih,beq_false_of_ne same]

theorem rowAnswersLoaded (rows : List AnswerRow) : rowAnswers rows = loadAnswers ⟨id,id⟩ rows := rfl

theorem upsertKeys (bound : String) (answer : OfferAnswer) {rows : List AnswerRow}
    (held : (rows.any fun row => row.idemKey == bound) = true) (key : String) :
    loadedRow texts (upsertAnswer bound answer rows) key =
      (loadedRow texts rows key).map fun row =>
        if row.idemKey = bound then {row with answer} else row := by
  unfold loadedRow upsertAnswer
  rw [if_pos held,← List.map_reverse,List.find?_map]
  congr 1
  refine congrArg (List.find? · _) (funext fun row => ?_)
  show (texts.read (if row.idemKey = bound then {row with answer} else row).idemKey == key) = _
  split <;> rfl

theorem loadedReads {rows : List AnswerRow} {key : String} {row : AnswerRow}
    (found : loadedRow texts rows key = some row) : texts.read row.idemKey = key := by
  unfold loadedRow at found
  have passes := List.find?_some found
  exact eq_of_beq passes

theorem rowHeld {bound : String} {rows : List AnswerRow}
    (held : (rows.any fun row => row.idemKey == bound) = true) :
    (loadedRow texts rows (texts.read bound)).isSome = true := by
  obtain ⟨row,listed,same⟩ := List.any_eq_true.mp held
  rw [loadedRow,List.find?_isSome]
  exact ⟨row,List.mem_reverse.mpr listed,by rw [eq_of_beq same]; exact beq_self_eq_true _⟩

theorem upsertLoaded (bound : String) (answer : OfferAnswer) (rows : List AnswerRow) :
    loadAnswers texts (upsertAnswer bound answer rows) =
      if rowLoads texts rows bound then (loadAnswers texts rows).insert (texts.read bound) answer
      else loadAnswers texts rows := by
  cases held : rows.any fun row => row.idemKey == bound with
  | false =>
    have fresh : rowLoads texts rows bound = true := by rw [rowLoads,held]; rfl
    rw [if_pos fresh,upsertAnswer,held,if_neg Bool.false_ne_true,loadAnswers,List.foldl_append]
    rfl
  | true =>
    have some_ : (loadedRow texts rows (texts.read bound)).isSome = true := rowHeld held
    obtain ⟨own,found⟩ := Option.isSome_iff_exists.mp some_
    have loads : rowLoads texts rows bound = (own.idemKey == bound) := by
      rw [rowLoads,held,found]
      rfl
    refine Finmap.ext_lookup fun key => ?_
    rw [loadedLookup,upsertKeys bound answer held]
    by_cases same : key = texts.read bound
    · subst same
      rw [found,loads]
      by_cases mine : own.idemKey = bound
      · rw [beq_iff_eq.mpr mine,if_pos rfl,Finmap.lookup_insert,Option.map_some,Option.map_some,
          if_pos mine]
      · rw [beq_false_of_ne mine,if_neg Bool.false_ne_true,loadedLookup,found,Option.map_some,
          Option.map_some,if_neg mine,Option.map_some]
    · have elsewhere : (if rowLoads texts rows bound then
          (loadAnswers texts rows).insert (texts.read bound) answer
          else loadAnswers texts rows).lookup key = (loadAnswers texts rows).lookup key := by
        split
        · exact Finmap.lookup_insert_of_ne _ same
        · rfl
      rw [elsewhere,loadedLookup,Option.map_map]
      cases other : loadedRow texts rows key with
      | none => rfl
      | some row =>
        have reads := loadedReads other
        have apart : row.idemKey ≠ bound := fun own => same (by rw [← reads,own])
        simp only [Option.map_some,Function.comp,if_neg apart]

theorem rowLoadsPlain (rows : List AnswerRow) (bound : String) :
    rowLoads ⟨id,id⟩ rows bound = true := by
  unfold rowLoads
  cases found : loadedRow ⟨id,id⟩ rows bound with
  | none => simp [found]
  | some row =>
    have reads : row.idemKey = bound := loadedReads found
    simp [found,reads]

theorem upsertRows (bound : String) (answer : OfferAnswer) (rows : List AnswerRow) :
    rowAnswers (upsertAnswer bound answer rows) = (rowAnswers rows).insert bound answer := by
  rw [rowAnswersLoaded,upsertLoaded,if_pos (rowLoadsPlain rows bound)]
  rfl

def contents (s : SqliteNodeStateStore texts) : Contents :=
  ⟨⟨s.cursorValue "node_cursor",s.cursorValue "acked_cursor",loadAnswers texts s.offerAnswers⟩,
    rowAnswers s.offerAnswers⟩

theorem written {g : SqliteNodeStateStore texts → Contents}
    {f : SqliteNodeStateStore texts → SqliteNodeStateStore texts}
    (each : ∀ s, contents (f s) = g s) : Changes contents g (writing fun s => .ok (f s)) :=
  changesWriting fun s t run => by rw [← Except.ok.inj run]; exact each s

theorem upserted (s : SqliteNodeStateStore texts) (value : Nat) :
    contents (s.upsertCursor "node_cursor" value) = {contents s with nodeCursor := value} ∧
    contents (s.upsertCursor "acked_cursor" value) = {contents s with ackedCursor := value} := by
  simp [contents,SqliteNodeStateStore.upsertCursor,SqliteNodeStateStore.cursorValue,
    AList.lookup_insert,AList.lookup_insert_ne]

instance : RecordStore (SqliteNodeStateStore texts) where
  contents := contents
  kept := SqliteNodeStateStore.storedPayload
  keptPlain {payload} plain := by
    cases payload with
    | undefined => exact absurd rfl plain.1
    | _ => exact plain.2
  bound := texts.bound
  read := texts.read
  loads s key := rowLoads texts s.offerAnswers (texts.bound key)
  loadsFresh {s key} absent := by
    have none_ : loadedRow texts s.offerAnswers (texts.read (texts.bound key)) = none := by
      have read := absent
      rw [contents,loadedLookup] at read
      exact Option.map_eq_none_iff.mp read
    rw [rowLoads,none_]
    exact Bool.or_true _
  cursorsLoaded h := by
    obtain ⟨_,read⟩ := readingSource h
    cases Except.ok.inj read
    exact ⟨rfl,rfl⟩
  answersLoaded h := (Except.ok.inj (readingSource h).2).symm
  cursors := changesReading _
  answers := changesReading _
  events _ := changesReading _
  truncations := changesReading _
  deleted _ := written fun _ => rfl
  pruned _ := written fun _ => rfl
  truncated a b r := changesWriting fun s t run => by
    simp only [SqliteNodeStateStore.appendTruncation,bind,Except.bind] at run
    split at run
    · contradiction
    · rw [← Except.ok.inj run]; rfl
  appended e := changesWriting fun s t run => by
    simp only [SqliteNodeStateStore.appendEventAndAdvanceCursor] at run
    split at run
    · contradiction
    · obtain ⟨inserted,inserting,last⟩ := AccpEnvelope.exceptBind run
      rw [← Except.ok.inj last,(upserted inserted e.cursor).1]
      simp only [SqliteNodeStateStore.insertEvent] at inserting
      split at inserting
      · contradiction
      · rw [← Except.ok.inj inserting]; rfl
  acked c := written fun s => (upserted s c).2
  saved key type payload := written fun s => by
    rw [contents,upsertLoaded,upsertRows]
    rfl

end Sqlite

def cutKey : String := String.ofList ("offer-1".toList ++ [Char.ofNat 0,'a'])

structure Flaky (σ : Type) where
  inner : σ
  failures : List (Option String)

namespace Flaky
variable {σ α : Type}

def call (m : StoreM σ α) : StoreM (Flaky σ) α := fun s =>
  match s.failures.head?.join with
  | some message => (.error message,{s with failures := s.failures.tail})
  | none => ((m s.inner).1,⟨(m s.inner).2,s.failures.tail⟩)

instance [NodeStateStore σ] : NodeStateStore (Flaky σ) where
  loadCursors := call NodeStateStore.loadCursors
  setNodeCursor n := call (NodeStateStore.setNodeCursor n)
  setAckedCursor n := call (NodeStateStore.setAckedCursor n)
  appendEvent event := call (NodeStateStore.appendEvent event)
  appendEventAndAdvanceCursor event := call (NodeStateStore.appendEventAndAdvanceCursor event)
  eventsAfter cursor := call (NodeStateStore.eventsAfter cursor)
  pruneUpTo cursor := call (NodeStateStore.pruneUpTo cursor)
  deleteEventAt cursor := call (NodeStateStore.deleteEventAt cursor)
  saveOfferAnswer key type payload := call (NodeStateStore.saveOfferAnswer key type payload)
  loadOfferAnswers := call NodeStateStore.loadOfferAnswers
  appendTruncation fromCursor toCursor reason :=
    call (NodeStateStore.appendTruncation fromCursor toCursor reason)
  loadTruncations := call NodeStateStore.loadTruncations

theorem callSource {m : StoreM σ α} {s t : Flaky σ} {a : α} (h : call m s = (.ok a,t)) :
    m s.inner = (.ok a,t.inner) := by
  unfold call at h
  split at h
  · have failed := congrArg Prod.fst h
    contradiction
  · obtain ⟨result,same⟩ := Prod.mk.inj h
    exact Prod.ext result (congrArg Flaky.inner same)

theorem callChanges {contents f : σ → Contents} {m : StoreM σ α} (changes : Changes contents f m) :
    Changes (fun s => contents s.inner) (fun s => f s.inner) (call m) := fun s => by
  unfold call
  split
  · rfl
  · exact changes s.inner

instance [NodeStateStore σ] [RecordStore σ] : RecordStore (Flaky σ) where
  contents s := RecordStore.contents s.inner
  kept := RecordStore.kept σ
  keptPlain := RecordStore.keptPlain
  bound := RecordStore.bound σ
  read := RecordStore.read σ
  loads s := RecordStore.loads s.inner
  loadsFresh absent := RecordStore.loadsFresh absent
  cursorsLoaded h := RecordStore.cursorsLoaded (callSource h)
  answersLoaded h := RecordStore.answersLoaded (callSource h)
  cursors := callChanges RecordStore.cursors
  answers := callChanges RecordStore.answers
  events c := callChanges (RecordStore.events c)
  truncations := callChanges RecordStore.truncations
  deleted c := callChanges (RecordStore.deleted c)
  pruned c := callChanges (RecordStore.pruned c)
  truncated a b r := callChanges (RecordStore.truncated a b r)
  appended e := callChanges (RecordStore.appended e)
  acked c := callChanges (RecordStore.acked c)
  saved k y v := callChanges (RecordStore.saved k y v)

end Flaky

section
variable {σ κ α : Type} [NodeStateStore σ] [RecordStore σ]

def stored (s : NodeSession σ κ) : Contents := RecordStore.contents s.store

def loaded (s : NodeSession σ κ) : Records := (stored s).toRecords

def cached (s : NodeSession σ κ) : Records := ⟨s.nodeCursor,s.ackedCursor,s.offerAnswers⟩

def savedContents (s : σ) (key : String) (answer : OfferAnswer) : Contents :=
  (RecordStore.contents s).saving (RecordStore.bound σ key) (loadedKey σ key)
    (RecordStore.loads s key) answer

structure LoadsBack (s : σ) (key : String) : Prop where
  kept : KeyKept σ key
  loads : RecordStore.loads s key = true

theorem LoadsBack.fresh {s : σ} {key : String} (kept : KeyKept σ key)
    (absent : (RecordStore.contents s).answers.lookup key = none) : LoadsBack s key :=
  ⟨kept,RecordStore.loadsFresh (by
    rw [show RecordStore.read σ (RecordStore.bound σ key) = key from kept]
    exact absent)⟩

theorem savedBack {s : σ} {key : String} (back : LoadsBack s key) (answer : OfferAnswer) :
    (savedContents s key answer).toRecords =
      (RecordStore.contents s).answering key answer := by
  have own : loadedKey σ key = key := back.kept
  unfold savedContents Contents.saving
  rw [back.loads,own]
  rfl

theorem savedElsewhere {s : σ} {key : String} (elsewhere : ¬LoadsBack s key)
    (answer : OfferAnswer) : (savedContents s key answer).answers.lookup key =
      (RecordStore.contents s).answers.lookup key := by
  unfold savedContents Contents.saving
  dsimp only
  cases loads : RecordStore.loads s key with
  | false => rfl
  | true =>
    rw [if_pos rfl]
    exact Finmap.lookup_insert_of_ne _ fun same => elsewhere ⟨same.symm,loads⟩

theorem frameChanges {f : σ → Contents} {m : StoreM σ α}
    {R : NodeSession σ κ → NodeSession σ κ → Prop} {excused : Fault → Prop}
    (changes : Changes RecordStore.contents f m)
    (same : ∀ s store, RecordStore.contents store = stored s → R s {s with store})
    (moved : ∀ s store, RecordStore.contents store = f s.store → R s {s with store}) :
    Frame excused R (onStore m) := fun s => by
  have change := changes s.store
  unfold wp onStore
  rcases called : m s.store with ⟨e | a,store⟩
  · rw [called] at change
    exact fun _ => same s store change
  · rw [called] at change
    exact moved s store change

theorem storeWrites {f : σ → Contents} {m : StoreM σ α} {s t : NodeSession σ κ}
    {result : Except Fault α} (changes : Changes RecordStore.contents f m)
    (run : onStore m s = (result,t)) : ∃ store, t = {s with store} ∧
    ((∃ a, result = .ok a ∧ (m s.store).1 = .ok a ∧ stored t = f s.store) ∨
     (∃ message, result = .error (.store message) ∧ (m s.store).1 = .error message ∧
       stored t = stored s)) := by
  have change := changes s.store
  unfold onStore at run
  rcases called : m s.store with ⟨e | a,store⟩
  · rw [called] at run change
    cases run
    exact ⟨store,rfl,.inr ⟨e,rfl,rfl,change⟩⟩
  · rw [called] at run change
    cases run
    exact ⟨store,rfl,.inl ⟨a,rfl,rfl,change⟩⟩

def Contents.held (c : Contents) : OfferAnswers × OfferAnswers := (c.answers,c.rows)

def AnswersSame (s t : NodeSession σ κ) : Prop :=
  t.offerAnswers = s.offerAnswers ∧ (stored t).held = (stored s).held

theorem AnswersSame.loaded {s t : NodeSession σ κ} (same : AnswersSame s t) :
    (stored t).answers = (stored s).answers := congrArg Prod.fst same.2

theorem AnswersSame.rows {s t : NodeSession σ κ} (same : AnswersSame s t) :
    (stored t).rows = (stored s).rows := congrArg Prod.snd same.2

theorem answersStore {f : σ → Contents} {m : StoreM σ α} {excused : Fault → Prop}
    (changes : Changes RecordStore.contents f m)
    (same : ∀ s, (f s).held = (RecordStore.contents s).held) :
    Frame excused AnswersSame (onStore m : SessionM σ κ α) :=
  frameChanges changes (fun _ _ kept => ⟨rfl,congrArg Contents.held kept⟩)
    fun _ _ moved => ⟨rfl,(congrArg Contents.held moved).trans (same _)⟩

theorem answersJournaling {excused : Fault → Prop} :
    Journaling excused (AnswersSame : NodeSession σ κ → NodeSession σ κ → Prop) where
  refl _ := ⟨rfl,rfl⟩
  trans _ _ _ front back := ⟨back.1.trans front.1,back.2.trans front.2⟩
  outSeq _ _ := ⟨rfl,rfl⟩
  draws _ _ := ⟨rfl,rfl⟩
  events c := answersStore (RecordStore.events c) fun _ => rfl
  truncations := answersStore RecordStore.truncations fun _ => rfl
  deleted c := answersStore (RecordStore.deleted c) fun _ => rfl
  truncated a b r := answersStore (RecordStore.truncated a b r) fun _ => rfl
  appended e := answersStore (RecordStore.appended e) fun _ => rfl
  acked c := answersStore (RecordStore.acked c) fun _ => rfl
  pruned c := answersStore (RecordStore.pruned c) fun _ => rfl
  nodeCursor _ _ := ⟨rfl,rfl⟩
  ackedCursor _ _ := ⟨rfl,rfl⟩

end

end ControlCenter.DurableRecords
