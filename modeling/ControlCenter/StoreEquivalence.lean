import ControlCenter.DurableRecords
import Mathlib.Data.List.TakeWhile

/-! The two stores of a node session side by side: whatever calls a session makes and
wherever the database file is closed and opened again, both return the same, as long as answers
are loaded only under keys that the database reads back as they are. -/
namespace ControlCenter.StoreEquivalence
open JsonValue ZodSchema AccpMessages StateStore DurableRecords

inductive Call where
  | loadCursors
  | setAckedCursor (n : Nat)
  | appendEventAndAdvanceCursor (event : NodeEvent)
  | eventsAfter (cursor : Nat)
  | pruneUpTo (cursor : Nat)
  | deleteEventAt (cursor : Nat)
  | saveOfferAnswer (key type : String) (payload : Json)
  | loadOfferAnswers
  | appendTruncation (fromCursor toCursor : Nat) (reason : String)
  | loadTruncations

inductive Observation where
  | done
  | cursors (cursors : Cursors)
  | events (events : List NodeEvent)
  | answers (answers : OfferAnswers)
  | truncations (truncations : List Truncation)

section
variable {σ α : Type}

def observed (f : α → Observation) (m : StoreM σ α) : StoreM σ Observation := fun s =>
  ((m s).1.map f,(m s).2)

variable [NodeStateStore σ]

def Call.perform : Call → StoreM σ Observation
  | .loadCursors => observed .cursors NodeStateStore.loadCursors
  | .setAckedCursor n => observed (fun _ => .done) (NodeStateStore.setAckedCursor n)
  | .appendEventAndAdvanceCursor event =>
      observed (fun _ => .done) (NodeStateStore.appendEventAndAdvanceCursor event)
  | .eventsAfter cursor => observed .events (NodeStateStore.eventsAfter cursor)
  | .pruneUpTo cursor => observed (fun _ => .done) (NodeStateStore.pruneUpTo cursor)
  | .deleteEventAt cursor => observed (fun _ => .done) (NodeStateStore.deleteEventAt cursor)
  | .saveOfferAnswer key type payload =>
      observed (fun _ => .done) (NodeStateStore.saveOfferAnswer key type payload)
  | .loadOfferAnswers => observed .answers NodeStateStore.loadOfferAnswers
  | .appendTruncation fromCursor toCursor reason =>
      observed (fun _ => .done) (NodeStateStore.appendTruncation fromCursor toCursor reason)
  | .loadTruncations => observed .truncations NodeStateStore.loadTruncations

end

structure File (texts : SqliteText) where
  userVersion : Nat
  tables : SqliteNodeStateStore texts

variable {texts : SqliteText}

def schemaVersion : Nat := 1

-- What the constructor makes of the file: the tables are created where there are none.
def migrate (f : File texts) : Except String (File texts) :=
  if f.userVersion = 0 then .ok {f with userVersion := schemaVersion}
  else if f.userVersion ≠ schemaVersion then
    .error (s!"node state store: unsupported schema version {f.userVersion} " ++
      s!"(this build supports {schemaVersion})")
  else .ok f

inductive Use where
  | call (c : Call)
  | reopen

def observeMemory : InMemoryNodeStateStore → List Use → List (Except String Observation)
  | _,[] => []
  | s,.call c::rest => (c.perform s).1::observeMemory (c.perform s).2 rest
  | s,.reopen::rest => observeMemory s rest

def observeFile : File texts → List Use → List (Except String Observation)
  | _,[] => []
  | f,.call c::rest => (c.perform f.tables).1::
      observeFile {f with tables := (c.perform f.tables).2} rest
  | f,.reopen::rest => match migrate f with
    | .ok opened => observeFile opened rest
    | .error error => [.error error]

def File.fresh (texts : SqliteText) : File texts := ⟨0,.empty⟩

def observeDatabase (texts : SqliteText) (uses : List Use) : List (Except String Observation) :=
  observeFile (.fresh texts) (.reopen::uses)

structure Valid (e : NodeEvent) : Prop where
  accepted : accepts nodeEventSchema e.toJson = true
  json : e.toJson.image = e.toJson

def savedKeys (uses : List Use) : List String := uses.filterMap fun
  | .call (.saveOfferAnswer key _ _) => some key
  | _ => none

theorem savedAppend (front back : List Use) :
    savedKeys (front ++ back) = savedKeys front ++ savedKeys back := List.filterMap_append

def Use.Valid : Use → Prop
  | .call (.appendEventAndAdvanceCursor event) => StoreEquivalence.Valid event
  | .call (.saveOfferAnswer _ _ payload) => Plain payload
  | _ => True

theorem requiredText {v parsed : Json} {shape : List Field} (h : object shape v = some parsed)
    (distinct : (shape.map Field.name).Nodup) (name : String) (check : String → Bool)
    (listed : field name (stringThat check) ∈ shape) : parsed.get name = v.get name :=
  stringThatSame (objectField h distinct listed rfl)

theorem eventParsed {e : NodeEvent} (valid : Valid e) : parseNodeEvent e.toJson.image = some e := by
  rw [valid.json]
  obtain ⟨v,parsed⟩ := Option.isSome_iff_exists.mp valid.accepted
  have names := JournalView.Sqlite.nodeEventNames
  have cursor : integerFrom 0 (e.toJson.get "cursor") = some (v.get "cursor") :=
    objectField parsed names (f := field "cursor" AccpEnvelope.cursorSchema)
      (by simp [nodeEventShape]) rfl
  have data : record (e.toJson.get "data") = some (v.get "data") :=
    objectField parsed names (f := field "data" record) (by simp [nodeEventShape]) rfl
  have eventId := requiredText parsed names "eventId" _ (.tail _ (.head _))
  have runId := (optionalText parsed names "runId" _ (.tail _ (.tail _ (.head _)))).1
  have taskId := (optionalText parsed names "taskId" _ (.tail _ (.tail _ (.tail _ (.head _))))).1
  have kind := requiredText parsed names "kind" _
    (.tail _ (.tail _ (.tail _ (.tail _ (.head _)))))
  have occurredAt := requiredText parsed names "occurredAt" _
    (.tail _ (.tail _ (.tail _ (.tail _ (.tail _ (.head _))))))
  have given : e.toJson.get "data" = .object e.data := by simp [NodeEvent.toJson]
  rw [given] at data
  have schema : nodeEventSchema e.toJson = some v := parsed
  simp only [parseNodeEvent,schema,Option.bind_some,bind,cursorAt,AccpEnvelope.textAt,integerFromSame cursor,
    eventId,kind,occurredAt,← Option.some.inj data,runId,taskId]
  obtain ⟨number,eventId,kind,occurredAt,data,_ | run,_ | task⟩ := e <;>
    simp [NodeEvent.toJson,membersOf,Json.text,present]

def rowOf (e : NodeEvent) : EventRow := ⟨e.cursor,e.toJson.image⟩

def truncationRow (t : Truncation) : TruncationRow := ⟨t.fromCursor,t.toCursor,t.reason.text⟩

abbrev Saves := List (String × OfferAnswer)

def memoryAnswers (saves : Saves) : OfferAnswers :=
  saves.foldl (fun answers save => answers.insert save.1 save.2) ∅

def fileRows (texts : SqliteText) (saves : Saves) : List AnswerRow :=
  saves.foldl (fun rows save =>
    SqliteNodeStateStore.upsertAnswer (texts.bound save.1) save.2 rows) []

structure Same (m : InMemoryNodeStateStore) (d : SqliteNodeStateStore texts) (saves : Saves) :
    Prop where
  nodeCursor : d.cursorValue "node_cursor" = m.nodeCursor
  ackedCursor : d.cursorValue "acked_cursor" = m.ackedCursor
  events : d.nodeEvents = m.events.map rowOf
  valid : ∀ e ∈ m.events, Valid e
  behind : ∀ e ∈ m.events, e.cursor ≤ m.nodeCursor
  answers : m.offerAnswers = memoryAnswers saves
  rows : d.offerAnswers = fileRows texts saves
  truncations : d.truncations = m.truncations.map truncationRow

theorem rowsParsed {events : List NodeEvent} (valid : ∀ e ∈ events, Valid e) :
    (events.map rowOf).mapM SqliteNodeStateStore.parseRow = .ok events := by
  induction events with
  | nil => rfl
  | cons e rest ih =>
    obtain ⟨own,later⟩ := List.forall_mem_cons.mp valid
    have parsed : SqliteNodeStateStore.parseRow (rowOf e) = .ok e := by
      unfold SqliteNodeStateStore.parseRow rowOf
      rw [eventParsed own]
    rw [List.map_cons,List.mapM_cons,parsed,ih later]
    rfl

theorem truncationsRead (truncations : List Truncation) :
    (truncations.map truncationRow).mapM SqliteNodeStateStore.readTruncation =
      .ok truncations := by
  induction truncations with
  | nil => rfl
  | cons t rest ih =>
    have read : SqliteNodeStateStore.readTruncation (truncationRow t) = .ok t := by
      obtain ⟨fromCursor,toCursor,_ | _⟩ := t <;> rfl
    rw [List.map_cons,List.mapM_cons,read,ih]
    rfl

theorem keptEvents {p : Nat → Bool} (events : List NodeEvent) :
    (events.map rowOf).filter (fun row => p row.cursor) =
      (events.filter fun e => p e.cursor).map rowOf := by
  rw [List.filter_map]
  rfl

theorem freshCursor {m : InMemoryNodeStateStore} {d : SqliteNodeStateStore texts} {saves : Saves}
    (same : Same m d saves) {event : NodeEvent} (next : event.cursor = m.nodeCursor + 1) :
    (m.events.any fun existing => existing.cursor == event.cursor) = false ∧
      (d.nodeEvents.any fun row => row.cursor == event.cursor) = false := by
  have apart : ∀ e ∈ m.events, e.cursor ≠ event.cursor := fun e listed equal => by
    have behind := same.behind e listed
    omega
  constructor
  · exact List.any_eq_false.mpr fun e listed => by simpa using apart e listed
  · rw [same.events,List.any_map]
    exact List.any_eq_false.mpr fun e listed => by simpa [rowOf] using apart e listed

theorem upserted (d : SqliteNodeStateStore texts) (value : Nat) :
    (d.upsertCursor "node_cursor" value).cursorValue "node_cursor" = value ∧
    (d.upsertCursor "node_cursor" value).cursorValue "acked_cursor" =
      d.cursorValue "acked_cursor" ∧
    (d.upsertCursor "acked_cursor" value).cursorValue "acked_cursor" = value ∧
    (d.upsertCursor "acked_cursor" value).cursorValue "node_cursor" =
      d.cursorValue "node_cursor" := by
  simp [SqliteNodeStateStore.upsertCursor,SqliteNodeStateStore.cursorValue,AList.lookup_insert,
    AList.lookup_insert_ne]

section
variable {m : InMemoryNodeStateStore} {d : SqliteNodeStateStore texts} {saves : Saves}

theorem appendedSame (same : Same m d saves) {event : NodeEvent} (valid : Valid event) :
    (∃ message, m.appendEventAndAdvanceCursor event = .error message ∧
      d.appendEventAndAdvanceCursor event = .error message) ∨
    ∃ next row, m.appendEventAndAdvanceCursor event = .ok next ∧
      d.appendEventAndAdvanceCursor event = .ok row ∧ Same next row saves := by
  unfold InMemoryNodeStateStore.appendEventAndAdvanceCursor
  unfold SqliteNodeStateStore.appendEventAndAdvanceCursor
  rw [same.nodeCursor]
  by_cases next : event.cursor = m.nodeCursor + 1
  · obtain ⟨fresh,absent⟩ := freshCursor same next
    have inserted : d.insertEvent event =
        .ok {d with nodeEvents := d.nodeEvents ++ [rowOf event]} := if_neg (by rw [absent]; simp)
    rw [if_neg (not_not_intro next),if_neg (by rw [fresh]; simp),if_neg (not_not_intro next),
      inserted]
    have moved := upserted ({d with nodeEvents := d.nodeEvents ++ [rowOf event]} :
      SqliteNodeStateStore texts) event.cursor
    refine .inr ⟨_,_,rfl,rfl,moved.1,moved.2.1.trans same.ackedCursor,?_,?_,?_,same.answers,
      same.rows,same.truncations⟩
    · show d.nodeEvents ++ [rowOf event] = (m.events ++ [event]).map rowOf
      rw [same.events,List.map_append]
      rfl
    · intro e listed
      rcases List.mem_append.mp listed with old | new
      · exact same.valid e old
      · exact List.mem_singleton.mp new ▸ valid
    · intro e listed
      show e.cursor ≤ event.cursor
      rcases List.mem_append.mp listed with old | new
      · have behind := same.behind e old
        omega
      · exact (List.mem_singleton.mp new ▸ le_refl event.cursor)
  · exact .inl ⟨_,if_pos next,if_pos next⟩

theorem truncatedSame (same : Same m d saves) (fromCursor toCursor : Nat) (reason : String) :
    (∃ message, m.appendTruncation fromCursor toCursor reason = .error message ∧
      d.appendTruncation fromCursor toCursor reason = .error message) ∨
    ∃ next row, m.appendTruncation fromCursor toCursor reason = .ok next ∧
      d.appendTruncation fromCursor toCursor reason = .ok row ∧ Same next row saves := by
  unfold InMemoryNodeStateStore.appendTruncation SqliteNodeStateStore.appendTruncation
  cases asTruncationReason reason with
  | error message => exact .inl ⟨message,rfl,rfl⟩
  | ok known =>
    refine .inr ⟨_,_,rfl,rfl,same.nodeCursor,same.ackedCursor,same.events,same.valid,same.behind,
      same.answers,same.rows,?_⟩
    rw [same.truncations,List.map_append]
    rfl

theorem writtenSame {f : InMemoryNodeStateStore → Except String InMemoryNodeStateStore}
    {g : SqliteNodeStateStore texts → Except String (SqliteNodeStateStore texts)}
    (same : Same m d saves)
    (alike : (∃ message, f m = .error message ∧ g d = .error message) ∨
      ∃ next row, f m = .ok next ∧ g d = .ok row ∧ Same next row saves) :
    (observed (fun _ => Observation.done) (writing g) d).1 =
        (observed (fun _ => Observation.done) (writing f) m).1 ∧
      Same (observed (fun _ => Observation.done) (writing f) m).2
        (observed (fun _ => Observation.done) (writing g) d).2 saves := by
  unfold observed writing
  obtain ⟨message,left,right⟩ | ⟨next,row,left,right,after⟩ := alike
  · rw [left,right]
    exact ⟨rfl,same⟩
  · rw [left,right]
    exact ⟨rfl,after⟩

theorem eventsSame (same : Same m d saves) (cursor : Nat) :
    d.eventsAfter cursor = .ok (m.eventsAfter cursor) := by
  unfold SqliteNodeStateStore.eventsAfter InMemoryNodeStateStore.eventsAfter
  rw [same.events,keptEvents (p := fun c => decide (cursor < c)),
    ← List.map_insertionSort (r := cursorOrder) (s := rowOrder) rowOf _ fun _ _ _ _ => Iff.rfl]
  refine rowsParsed fun e listed => same.valid e ?_
  exact (List.mem_filter.mp ((List.mem_insertionSort _).mp listed)).1

theorem filteredSame (same : Same m d saves) (p : Nat → Bool) :
    Same {m with events := m.events.filter fun e => p e.cursor}
      ({d with nodeEvents := d.nodeEvents.filter fun row => p row.cursor} :
        SqliteNodeStateStore texts) saves where
  nodeCursor := same.nodeCursor
  ackedCursor := same.ackedCursor
  events := by rw [same.events,keptEvents]
  valid e listed := same.valid e (List.mem_filter.mp listed).1
  behind e listed := same.behind e (List.mem_filter.mp listed).1
  answers := same.answers
  rows := same.rows
  truncations := same.truncations

end

def Kept (texts : SqliteText) (key : String) : Prop := texts.read (texts.bound key) = key

theorem savedHeld {saves : Saves} {save : String × OfferAnswer} (listed : save ∈ saves) :
    ((memoryAnswers saves).lookup save.1).isSome = true := by
  unfold memoryAnswers
  induction saves using List.reverseRecOn with
  | nil => cases listed
  | append_singleton front last ih =>
    rw [List.foldl_append,List.foldl_cons,List.foldl_nil]
    by_cases same : save.1 = last.1
    · rw [same,Finmap.lookup_insert]
      rfl
    · rw [Finmap.lookup_insert_of_ne _ same]
      refine ih ((List.mem_append.mp listed).resolve_right fun own => same ?_)
      rw [List.mem_singleton.mp own]

theorem rowSaved {saves : Saves} {row : AnswerRow} (listed : row ∈ fileRows texts saves) :
    ∃ save ∈ saves, row.idemKey = texts.bound save.1 := by
  unfold fileRows at listed
  induction saves using List.reverseRecOn generalizing row with
  | nil => cases listed
  | append_singleton front last ih =>
    rw [List.foldl_append,List.foldl_cons,List.foldl_nil,
      SqliteNodeStateStore.upsertAnswer] at listed
    have earlier {r : AnswerRow} (old : r ∈ front.foldl (fun rows save =>
        SqliteNodeStateStore.upsertAnswer (texts.bound save.1) save.2 rows) []) :
        ∃ save ∈ front ++ [last], r.idemKey = texts.bound save.1 := by
      obtain ⟨save,inside,same⟩ := ih old
      exact ⟨save,List.mem_append_left _ inside,same⟩
    split at listed
    · obtain ⟨old,inside,rfl⟩ := List.mem_map.mp listed
      obtain ⟨save,saved,same⟩ := earlier inside
      refine ⟨save,saved,Eq.trans ?_ same⟩
      split <;> rfl
    · rcases List.mem_append.mp listed with old | new
      · exact earlier old
      · rw [List.mem_singleton.mp new]
        exact ⟨last,List.mem_append_right _ List.mem_cons_self,rfl⟩

theorem loadedSaved {saves : Saves} {key : String} {row : AnswerRow}
    (found : Sqlite.loadedRow texts (fileRows texts saves) key = some row) :
    ∃ save ∈ saves, row.idemKey = texts.bound save.1 ∧ texts.read (texts.bound save.1) = key := by
  have listed := List.mem_reverse.mp (List.mem_of_find?_eq_some found)
  obtain ⟨save,saved,same⟩ := rowSaved listed
  exact ⟨save,saved,same,by rw [← same]; exact Sqlite.loadedReads found⟩

theorem loadsKept {saves : Saves} (kept : ∀ save ∈ saves, Kept texts save.1) :
    SqliteNodeStateStore.loadAnswers texts (fileRows texts saves) = memoryAnswers saves := by
  induction saves using List.reverseRecOn with
  | nil => rfl
  | append_singleton front last ih =>
    have before := ih fun save listed => kept save (List.mem_append_left _ listed)
    have own : texts.read (texts.bound last.1) = last.1 :=
      kept last (List.mem_append_right _ List.mem_cons_self)
    -- The row it is loaded from is that of a kept key, so it is its own.
    have loads : Sqlite.rowLoads texts (fileRows texts front) (texts.bound last.1) = true := by
      rw [Sqlite.rowLoads]
      cases found : Sqlite.loadedRow texts (fileRows texts front)
        (texts.read (texts.bound last.1)) with
      | none => exact Bool.or_true _
      | some row =>
        obtain ⟨save,saved,same,reads⟩ := loadedSaved found
        have alike : save.1 = last.1 :=
          (kept save (List.mem_append_left _ saved)).symm.trans (reads.trans own)
        rw [Option.all_some,same,alike,beq_self_eq_true]
        exact Bool.or_true _
    rw [fileRows,memoryAnswers,List.foldl_append,List.foldl_append]
    show SqliteNodeStateStore.loadAnswers texts (SqliteNodeStateStore.upsertAnswer
      (texts.bound last.1) last.2 (fileRows texts front)) =
        (memoryAnswers front).insert last.1 last.2
    rw [Sqlite.upsertLoaded,if_pos loads,own,before]

def Settles (texts : SqliteText) : Prop := ∀ text,
  texts.read (texts.bound (texts.read text)) = texts.read text

theorem loadsSame (settles : Settles texts) {saves : Saves} :
    SqliteNodeStateStore.loadAnswers texts (fileRows texts saves) = memoryAnswers saves ↔
      ∀ save ∈ saves, Kept texts save.1 := by
  refine ⟨fun same save listed => ?_,loadsKept⟩
  have held := savedHeld listed
  rw [← same,Sqlite.loadedLookup,Option.isSome_map] at held
  obtain ⟨row,found⟩ := Option.isSome_iff_exists.mp held
  obtain ⟨_,_,_,reads⟩ := loadedSaved found
  rw [Kept,← reads]
  exact settles _

theorem performSame {m : InMemoryNodeStateStore} {d : SqliteNodeStateStore texts} {saves : Saves}
    (same : Same m d saves) (c : Call) (valid : (Use.call c).Valid)
    (other : c ≠ .loadOfferAnswers) : ∃ more, (c.perform d).1 = (c.perform m).1 ∧
      Same (c.perform m).2 (c.perform d).2 (saves ++ more) ∧
      more.map Prod.fst = savedKeys [.call c] := by
  have unsaved {next : InMemoryNodeStateStore} {row : SqliteNodeStateStore texts}
      (same : Same next row saves) : Same next row (saves ++ []) := by rwa [List.append_nil]
  cases c with
  | loadCursors =>
    refine ⟨[],?_,unsaved same,rfl⟩
    show Except.ok (Observation.cursors ⟨_,_⟩) = _
    rw [same.nodeCursor,same.ackedCursor]
    rfl
  | setAckedCursor n =>
    exact ⟨[],rfl,unsaved ⟨(upserted d n).2.2.2.trans same.nodeCursor,(upserted d n).2.2.1,
      same.events,same.valid,same.behind,same.answers,same.rows,same.truncations⟩,rfl⟩
  | appendEventAndAdvanceCursor event =>
    obtain ⟨result,after⟩ := writtenSame same (appendedSame same valid)
    exact ⟨[],result,unsaved after,rfl⟩
  | eventsAfter cursor =>
    refine ⟨[],?_,unsaved same,rfl⟩
    show (d.eventsAfter cursor).map _ = _
    rw [eventsSame same]
    rfl
  | pruneUpTo cursor =>
    exact ⟨[],rfl,unsaved (filteredSame same fun c => decide (cursor < c)),rfl⟩
  | deleteEventAt cursor => exact ⟨[],rfl,unsaved (filteredSame same fun c => c != cursor),rfl⟩
  | saveOfferAnswer key type payload =>
    have plain : SqliteNodeStateStore.storedPayload payload = payload :=
      RecordStore.keptPlain (σ := SqliteNodeStateStore texts) valid
    refine ⟨[(key,⟨type,payload⟩)],rfl,⟨same.nodeCursor,same.ackedCursor,same.events,same.valid,
      same.behind,?_,?_,same.truncations⟩,rfl⟩
    · show m.offerAnswers.insert key ⟨type,payload⟩ = _
      rw [same.answers,memoryAnswers,memoryAnswers,List.foldl_append]
      rfl
    · show SqliteNodeStateStore.upsertAnswer (texts.bound key)
        ⟨type,SqliteNodeStateStore.storedPayload payload⟩ d.offerAnswers = _
      rw [plain,same.rows,fileRows,fileRows,List.foldl_append]
      rfl
  | loadOfferAnswers => exact absurd rfl other
  | appendTruncation fromCursor toCursor reason =>
    obtain ⟨result,after⟩ := writtenSame same (truncatedSame same fromCursor toCursor reason)
    exact ⟨[],result,unsaved after,rfl⟩
  | loadTruncations =>
    refine ⟨[],?_,unsaved same,rfl⟩
    show (d.truncations.mapM SqliteNodeStateStore.readTruncation).map _ = _
    rw [same.truncations,truncationsRead]
    rfl

theorem splitsCons {α : Type} {u x : α} {rest : List α} {P : List α → Prop} :
    (∀ front back, u::rest = front ++ x::back → P front) ↔
      (u = x → P []) ∧ ∀ front back, rest = front ++ x::back → P (u::front) := by
  constructor
  · exact fun each => ⟨fun same => each [] rest (by rw [same]; rfl),
      fun front back split => each (u::front) back (by rw [split]; rfl)⟩
  · rintro ⟨first,later⟩ (_ | ⟨v,front⟩) back split
    · exact first (List.cons.inj split).1
    · obtain ⟨rfl,split⟩ := List.cons.inj split
      exact later front back (by assumption)

theorem observeSame (settles : Settles texts) (uses : List Use) (valid : ∀ u ∈ uses, u.Valid)
    {m : InMemoryNodeStateStore} {d : SqliteNodeStateStore texts} {saves : Saves}
    (same : Same m d saves) : observeFile ⟨schemaVersion,d⟩ uses = observeMemory m uses ↔
      ∀ front back, uses = front ++ .call .loadOfferAnswers :: back →
        ∀ key ∈ saves.map Prod.fst ++ savedKeys front, Kept texts key := by
  induction uses generalizing m d saves with
  | nil => exact iff_of_true rfl fun front _ split => by simp at split
  | cons u rest ih =>
    obtain ⟨own,later⟩ := List.forall_mem_cons.mp valid
    rw [splitsCons]
    cases u with
    | reopen =>
      refine (ih later same).trans ⟨fun each => ⟨nofun,each⟩,fun each => each.2⟩
    | call c =>
      by_cases loads : c = .loadOfferAnswers
      · subst loads
        have first : (Call.loadOfferAnswers.perform d).1 = (Call.loadOfferAnswers.perform m).1 ↔
            ∀ save ∈ saves, Kept texts save.1 := by
          rw [← loadsSame settles,← same.answers,← same.rows]
          constructor
          · exact fun equal => Observation.answers.inj (Except.ok.inj equal)
          · exact fun equal => congrArg (fun answers => Except.ok (Observation.answers answers)) equal
        rw [observeFile,observeMemory,List.cons.injEq,first]
        refine and_congr ?_ (ih later same)
        simp [savedKeys]
      · obtain ⟨more,result,after,keys⟩ := performSame same c own loads
        rw [observeFile,observeMemory,result,List.cons.injEq]
        refine (and_iff_right rfl).trans ((ih later after).trans ?_)
        have other : (Use.call c = .call .loadOfferAnswers →
            ∀ key ∈ saves.map Prod.fst ++ savedKeys [], Kept texts key) :=
          fun equal => absurd (Use.call.inj equal) loads
        rw [and_iff_right other]
        refine forall_congr' fun front => forall_congr' fun back => imp_congr_right fun _ => ?_
        rw [List.map_append,keys,List.append_assoc,← savedAppend]
        rfl

theorem nodeSqliteSettles : Settles nodeSqlite := by
  intro text
  simp only [nodeSqlite,id]
  rw [String.toList_ofList,List.takeWhile_idem]

def startedEvent : NodeEvent :=
  ⟨1,"019b76da-a800-7000-8000-000000000000","run.started","2026-01-01T00:00:00.000Z",
    [("step",.string "plan")],none,none⟩

def declined (key : String) : Use :=
  .call (.saveOfferAnswer key "work.declined" (.object [("reason",.string "NO_CAPACITY")]))

def declinedUses : List Use :=
  [.call (.appendEventAndAdvanceCursor startedEvent),declined "offer",.reopen,
    .call (.eventsAfter 0),.call .loadOfferAnswers]

def cutUses : List Use := [declined cutKey,.call .loadOfferAnswers]

def loadsCut : List (Except String Observation) → Bool
  | [_,.ok (.answers answers)] => (answers.lookup cutKey).isSome
  | _ => false

end ControlCenter.StoreEquivalence
