import ControlCenter.AccpMessages
import Mathlib.Data.Finmap

/-! The durable half of a node session: cursors, event journal, offer answers and
truncation records, behind one interface with an in-memory and an SQLite store. -/
namespace ControlCenter.StateStore
open JsonValue ZodSchema AccpEnvelope AccpMessages

structure NodeEvent where
  cursor : Nat
  eventId : String
  kind : String
  occurredAt : String
  data : List (String × Json)
  runId : Option String
  taskId : Option String
  deriving Repr

def NodeEvent.toJson (e : NodeEvent) : Json := .object
  ([("cursor",.nat e.cursor),("eventId",.string e.eventId),("kind",.string e.kind),
    ("occurredAt",.string e.occurredAt),("data",.object e.data)] ++
   present "runId" e.runId ++ present "taskId" e.taskId)

def membersOf : Json → List (String × Json)
  | .object members => members
  | _ => []

def parseNodeEvent (raw : Json) : Option NodeEvent := do
  let v ← nodeEventSchema raw
  some ⟨cursorAt "cursor" v,textAt "eventId" v,textAt "kind" v,textAt "occurredAt" v,
    membersOf (v.get "data"),(v.get "runId").text,(v.get "taskId").text⟩

structure Cursors where
  nodeCursor : Nat
  ackedCursor : Nat
  deriving DecidableEq, Repr

inductive TruncationReason where
  | bufferBytes
  | bufferAge
  deriving DecidableEq, Repr

def TruncationReason.text : TruncationReason → String
  | .bufferBytes => "BUFFER_BYTES"
  | .bufferAge => "BUFFER_AGE"

def asTruncationReason (reason : String) : Except String TruncationReason :=
  if reason = "BUFFER_BYTES" then .ok .bufferBytes
  else if reason = "BUFFER_AGE" then .ok .bufferAge
  else .error s!"unknown truncation reason: {reason}"

structure Truncation where
  fromCursor : Nat
  toCursor : Nat
  reason : TruncationReason
  deriving DecidableEq, Repr

structure OfferAnswer where
  type : String
  payload : Json
  deriving Repr

abbrev OfferAnswers := Finmap fun _ : String => OfferAnswer

abbrev StoreM (σ α : Type) := ExceptT String (StateM σ) α

class NodeStateStore (σ : Type) where
  loadCursors : StoreM σ Cursors
  setNodeCursor : Nat → StoreM σ Unit
  setAckedCursor : Nat → StoreM σ Unit
  appendEvent : NodeEvent → StoreM σ Unit
  appendEventAndAdvanceCursor : NodeEvent → StoreM σ Unit
  eventsAfter : Nat → StoreM σ (List NodeEvent)
  pruneUpTo : Nat → StoreM σ Unit
  deleteEventAt : Nat → StoreM σ Unit
  saveOfferAnswer : String → String → Json → StoreM σ Unit
  loadOfferAnswers : StoreM σ OfferAnswers
  appendTruncation : Nat → Nat → String → StoreM σ Unit
  loadTruncations : StoreM σ (List Truncation)

def reading {σ α : Type} (f : σ → Except String α) : StoreM σ α := fun s => (f s,s)

def writing {σ : Type} (f : σ → Except String σ) : StoreM σ Unit := fun s =>
  match f s with
  | .ok next => (.ok (),next)
  | .error message => (.error message,s)

def expectedCursor (expected got : Nat) : String :=
  s!"node state store: expected cursor {expected}, got {got}"

structure InMemoryNodeStateStore where
  nodeCursor : Nat
  ackedCursor : Nat
  events : List NodeEvent
  offerAnswers : OfferAnswers
  truncations : List Truncation

def InMemoryNodeStateStore.empty : InMemoryNodeStateStore := ⟨0,0,[],∅,[]⟩

def cursorOrder (a b : NodeEvent) : Prop := a.cursor ≤ b.cursor
instance : DecidableRel cursorOrder := fun _ _ => by unfold cursorOrder; infer_instance

namespace InMemoryNodeStateStore

def appendEventAndAdvanceCursor (event : NodeEvent) (s : InMemoryNodeStateStore) :
    Except String InMemoryNodeStateStore :=
  if event.cursor ≠ s.nodeCursor + 1 then
    .error (expectedCursor (s.nodeCursor + 1) event.cursor)
  else if s.events.any fun existing => existing.cursor == event.cursor then
    .error s!"node state store: duplicate event cursor {event.cursor}"
  else .ok {s with events := s.events ++ [event],nodeCursor := event.cursor}

def eventsAfter (cursor : Nat) (s : InMemoryNodeStateStore) : List NodeEvent :=
  (s.events.filter fun e => decide (cursor < e.cursor)).insertionSort cursorOrder

def appendTruncation (fromCursor toCursor : Nat) (reason : String)
    (s : InMemoryNodeStateStore) : Except String InMemoryNodeStateStore := do
  let known ← asTruncationReason reason
  .ok {s with truncations := s.truncations ++ [⟨fromCursor,toCursor,known⟩]}

end InMemoryNodeStateStore

instance : NodeStateStore InMemoryNodeStateStore where
  loadCursors := reading fun s => .ok ⟨s.nodeCursor,s.ackedCursor⟩
  setNodeCursor n := writing fun s => .ok {s with nodeCursor := n}
  setAckedCursor n := writing fun s => .ok {s with ackedCursor := n}
  appendEvent event := writing fun s => .ok {s with events := s.events ++ [event]}
  appendEventAndAdvanceCursor event :=
    writing (InMemoryNodeStateStore.appendEventAndAdvanceCursor event)
  eventsAfter cursor := reading fun s => .ok (s.eventsAfter cursor)
  pruneUpTo cursor := writing fun s =>
    .ok {s with events := s.events.filter fun e => decide (cursor < e.cursor)}
  deleteEventAt cursor := writing fun s =>
    .ok {s with events := s.events.filter fun e => e.cursor != cursor}
  saveOfferAnswer key type payload := writing fun s =>
    .ok {s with offerAnswers := s.offerAnswers.insert key ⟨type,payload⟩}
  loadOfferAnswers := reading fun s => .ok s.offerAnswers
  appendTruncation fromCursor toCursor reason :=
    writing (InMemoryNodeStateStore.appendTruncation fromCursor toCursor reason)
  loadTruncations := reading fun s => .ok s.truncations

structure EventRow where
  cursor : Nat
  eventJson : Json

structure TruncationRow where
  fromCursor : Nat
  toCursor : Nat
  reason : String
  deriving DecidableEq, Repr

structure AnswerRow where
  idemKey : String
  answer : OfferAnswer

-- The text node:sqlite stores for a string it binds, and the string it reads a text as.
structure SqliteText where
  bound : String → String
  read : String → String

-- A text is read up to its first NUL; a lone surrogate would be bound as U+FFFD.
def nodeSqlite : SqliteText :=
  ⟨id,fun text => String.ofList (text.toList.takeWhile fun c => c.toNat != 0)⟩

-- One database file; event_json and payload_json hold what their text parses back to.
structure SqliteNodeStateStore (texts : SqliteText) where
  nodeEvents : List EventRow
  nodeCursors : AList fun _ : String => Nat
  offerAnswers : List AnswerRow
  truncations : List TruncationRow

variable {texts : SqliteText}

def SqliteNodeStateStore.empty : SqliteNodeStateStore texts := ⟨[],∅,[],[]⟩

def rowOrder (a b : EventRow) : Prop := a.cursor ≤ b.cursor
instance : DecidableRel rowOrder := fun _ _ => by unfold rowOrder; infer_instance

namespace SqliteNodeStateStore

def cursorValue (key : String) (s : SqliteNodeStateStore texts) : Nat :=
  (s.nodeCursors.lookup key).getD 0

def upsertCursor (key : String) (value : Nat) (s : SqliteNodeStateStore texts) :
    SqliteNodeStateStore texts := {s with nodeCursors := s.nodeCursors.insert key value}

def insertEvent (event : NodeEvent) (s : SqliteNodeStateStore texts) :
    Except String (SqliteNodeStateStore texts) :=
  if s.nodeEvents.any fun row => row.cursor == event.cursor then
    .error "UNIQUE constraint failed: node_events.cursor"
  else .ok {s with nodeEvents := s.nodeEvents ++ [⟨event.cursor,event.toJson.image⟩]}

-- One transaction: both rows are written or neither is.
def appendEventAndAdvanceCursor (event : NodeEvent) (s : SqliteNodeStateStore texts) :
    Except String (SqliteNodeStateStore texts) :=
  let expected := s.cursorValue "node_cursor" + 1
  if event.cursor ≠ expected then .error (expectedCursor expected event.cursor)
  else do
    let inserted ← s.insertEvent event
    .ok (inserted.upsertCursor "node_cursor" event.cursor)

def parseRow (row : EventRow) : Except String NodeEvent :=
  match parseNodeEvent row.eventJson with
  | some event => .ok event
  | none => .error "ZodError: node event"

def eventsAfter (cursor : Nat) (s : SqliteNodeStateStore texts) : Except String (List NodeEvent) :=
  ((s.nodeEvents.filter fun row => decide (cursor < row.cursor)).insertionSort rowOrder).mapM
    parseRow

def appendTruncation (fromCursor toCursor : Nat) (reason : String) (s : SqliteNodeStateStore texts) :
    Except String (SqliteNodeStateStore texts) := do
  let known ← asTruncationReason reason
  .ok {s with truncations := s.truncations ++ [⟨fromCursor,toCursor,known.text⟩]}

def readTruncation (row : TruncationRow) : Except String Truncation := do
  let reason ← asTruncationReason row.reason
  .ok ⟨row.fromCursor,row.toCursor,reason⟩

-- JSON.stringify(payload ?? null), read back.
def storedPayload : Json → Json
  | .undefined => .null
  | payload => payload.image

-- A row of the same key is updated in place.
def upsertAnswer (key : String) (answer : OfferAnswer) (rows : List AnswerRow) : List AnswerRow :=
  if rows.any fun row => row.idemKey == key then
    rows.map fun row => if row.idemKey = key then {row with answer} else row
  else rows ++ [⟨key,answer⟩]

def loadAnswers (texts : SqliteText) (rows : List AnswerRow) : OfferAnswers :=
  rows.foldl (fun answers row => answers.insert (texts.read row.idemKey) row.answer) ∅

end SqliteNodeStateStore

instance : NodeStateStore (SqliteNodeStateStore texts) where
  loadCursors := reading fun s =>
    .ok ⟨s.cursorValue "node_cursor",s.cursorValue "acked_cursor"⟩
  setNodeCursor n := writing fun s => .ok (s.upsertCursor "node_cursor" n)
  setAckedCursor n := writing fun s => .ok (s.upsertCursor "acked_cursor" n)
  appendEvent event := writing (SqliteNodeStateStore.insertEvent event)
  appendEventAndAdvanceCursor event :=
    writing (SqliteNodeStateStore.appendEventAndAdvanceCursor event)
  eventsAfter cursor := reading (SqliteNodeStateStore.eventsAfter cursor)
  pruneUpTo cursor := writing fun s =>
    .ok {s with nodeEvents := s.nodeEvents.filter fun row => decide (cursor < row.cursor)}
  deleteEventAt cursor := writing fun s =>
    .ok {s with nodeEvents := s.nodeEvents.filter fun row => row.cursor != cursor}
  saveOfferAnswer key type payload := writing fun s => .ok {s with
    offerAnswers := SqliteNodeStateStore.upsertAnswer (texts.bound key)
      ⟨type,SqliteNodeStateStore.storedPayload payload⟩ s.offerAnswers}
  loadOfferAnswers := reading fun s =>
    .ok (SqliteNodeStateStore.loadAnswers texts s.offerAnswers)
  appendTruncation fromCursor toCursor reason :=
    writing (SqliteNodeStateStore.appendTruncation fromCursor toCursor reason)
  loadTruncations := reading fun s => s.truncations.mapM SqliteNodeStateStore.readTruncation

-- A store with the states its successful writes left behind, oldest first: what a
-- process that dies between two of them finds when it reopens the file.
structure Committed (σ : Type) where
  current : σ
  commits : List σ

namespace Committed
variable {σ α : Type}

def read (m : StoreM σ α) : StoreM (Committed σ) α := fun s =>
  let (result,next) := m s.current
  (result,{s with current := next})

def write (m : StoreM σ Unit) : StoreM (Committed σ) Unit := fun s =>
  match m s.current with
  | (.ok (),next) => (.ok (),⟨next,s.commits ++ [next]⟩)
  | (.error message,next) => (.error message,{s with current := next})

end Committed

instance {σ : Type} [NodeStateStore σ] : NodeStateStore (Committed σ) where
  loadCursors := Committed.read NodeStateStore.loadCursors
  setNodeCursor n := Committed.write (NodeStateStore.setNodeCursor n)
  setAckedCursor n := Committed.write (NodeStateStore.setAckedCursor n)
  appendEvent event := Committed.write (NodeStateStore.appendEvent event)
  appendEventAndAdvanceCursor event :=
    Committed.write (NodeStateStore.appendEventAndAdvanceCursor event)
  eventsAfter cursor := Committed.read (NodeStateStore.eventsAfter cursor)
  pruneUpTo cursor := Committed.write (NodeStateStore.pruneUpTo cursor)
  deleteEventAt cursor := Committed.write (NodeStateStore.deleteEventAt cursor)
  saveOfferAnswer key type payload :=
    Committed.write (NodeStateStore.saveOfferAnswer key type payload)
  loadOfferAnswers := Committed.read NodeStateStore.loadOfferAnswers
  appendTruncation fromCursor toCursor reason :=
    Committed.write (NodeStateStore.appendTruncation fromCursor toCursor reason)
  loadTruncations := Committed.read NodeStateStore.loadTruncations

end ControlCenter.StateStore
