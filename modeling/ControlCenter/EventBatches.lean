import ControlCenter.SessionRuns
import Mathlib.Data.List.SplitBy

/-! What flush sends: the leading events above a floor, cut into runs of contiguous
cursors and those into batches of the size the welcome allows. The batch schema caps
a batch at 256 events; the welcome's limit need not. -/
namespace ControlCenter.EventBatches
open JsonValue ZodSchema AccpEnvelope AccpIds AccpMessages AccpSeal StateStore Session
open PositionLedger JournalView JournalRefinement ActionLogic SessionRuns LawfulNodeStateStore

theorem limitPositive (w : Welcome) {f : Field} (listed : f ∈ [field "maxUnackedBatches" positive,
    field "maxEventsPerBatch" positive]) : 1 ≤ w.limit f.name := by
  obtain ⟨raw,accepted⟩ := w.accepted
  have limits := objectField accepted (by decide)
    (f := field "limits" welcomeLimits) (by simp) rfl
  have names : ([field "maxUnackedBatches" positive,field "maxEventsPerBatch" positive,
      field "maxEnvelopeBytes" positive,field "heartbeatIntervalMs" (literal 15000),
      field "deadAfterMs" (literal 45000)].map Field.name).Nodup := by decide
  simp only [List.mem_cons,List.not_mem_nil,or_false] at listed
  rcases listed with rfl | rfl
  · exact positiveNatural (objectField limits names
      (f := field "maxUnackedBatches" positive) (by simp) rfl)
  · exact positiveNatural (objectField limits names
      (f := field "maxEventsPerBatch" positive) (by simp) rfl)

theorem batchLimitPositive (w : Welcome) : 1 ≤ w.maxUnackedBatches :=
  limitPositive w (f := field "maxUnackedBatches" positive) (by simp)

theorem sizePositive (w : Welcome) : 1 ≤ w.maxEventsPerBatch :=
  limitPositive w (f := field "maxEventsPerBatch" positive) (by simp)

section Slices
variable {size : Nat}

theorem slicesFlatten (positive : 1 ≤ size) {fuel run : List NodeEvent}
    (enough : run.length ≤ fuel.length) : (slicesFrom size fuel run).flatten = run := by
  induction fuel generalizing run with
  | nil => simp at enough; simp [slicesFrom,enough]
  | cons _ fuel ih =>
    cases run with
    | nil => rfl
    | cons e rest =>
      have fewer : ((e::rest).drop size).length ≤ fuel.length := by
        simp only [List.length_drop,List.length_cons] at enough ⊢
        omega
      simp [slicesFrom,ih fewer]

theorem sliceSource {fuel run part : List NodeEvent} (positive : 1 ≤ size)
    (h : part ∈ slicesFrom size fuel run) :
    part ≠ [] ∧ part.length ≤ size ∧ ∃ k, part = (run.drop k).take size := by
  induction fuel generalizing run with
  | nil => simp [slicesFrom] at h
  | cons _ fuel ih =>
    cases run with
    | nil => simp [slicesFrom] at h
    | cons e rest =>
      simp only [slicesFrom,List.mem_cons] at h
      rcases h with rfl | later
      · refine ⟨?_,List.length_take_le _ _,0,rfl⟩
        simp only [ne_eq,List.take_eq_nil_iff]
        intro none
        rcases none with zero | nil
        · omega
        · contradiction
      · obtain ⟨some,small,k,same⟩ := ih later
        exact ⟨some,small,size + k,by rw [same,List.drop_drop]⟩

theorem sliceWhole {run : List NodeEvent} (some : run ≠ []) (fits : run.length ≤ size) :
    slices size run = [run] := by
  cases run with
  | nil => contradiction
  | cons e rest =>
    unfold slices slicesFrom
    rw [List.take_of_length_le fits,List.drop_eq_nil_of_le fits]
    cases rest <;> rfl

variable (size) in
theorem sliceFirst {run : List NodeEvent} (some : run ≠ []) :
    ∃ rest, slices size run = run.take size :: rest := by
  cases run with
  | nil => contradiction
  | cons e rest => exact ⟨_,rfl⟩

end Slices

def Adjacent (a b : NodeEvent) : Prop := b.cursor = a.cursor + 1

theorem runAdjacent {events run : List NodeEvent} (h : run ∈ contiguousEventRuns events) :
    run.IsChain Adjacent := by
  have chain := List.isChain_of_mem_splitBy h
  exact chain.imp fun _ _ next => by simpa [Adjacent] using next

def batches (welcome : Welcome) (pending : List NodeEvent) : List (List NodeEvent) :=
  ((contiguousEventRuns pending).flatMap (slices welcome.maxEventsPerBatch)).take
    welcome.maxUnackedBatches

theorem batchSource {welcome : Welcome} {pending batch : List NodeEvent}
    (h : batch ∈ batches welcome pending) :
    batch ≠ [] ∧ batch.length ≤ welcome.maxEventsPerBatch ∧ batch.IsChain Adjacent := by
  obtain ⟨run,hrun,part⟩ := List.mem_flatMap.mp (List.mem_of_mem_take h)
  obtain ⟨some,small,k,same⟩ := sliceSource (sizePositive welcome) part
  refine ⟨some,small,?_⟩
  rw [same]
  exact ((runAdjacent hrun).drop k).take _

theorem allFlatten (welcome : Welcome) (pending : List NodeEvent) :
    ((contiguousEventRuns pending).flatMap (slices welcome.maxEventsPerBatch)).flatten =
      pending := by
  have each : ∀ runs : List (List NodeEvent),
      (runs.flatMap (slices welcome.maxEventsPerBatch)).flatten = runs.flatten := by
    intro runs
    induction runs with
    | nil => rfl
    | cons run rest ih =>
      rw [List.flatMap_cons,List.flatten_append,ih,List.flatten_cons,slices,
        slicesFlatten (sizePositive welcome) le_rfl]
  rw [each]
  exact List.flatten_splitBy _ _

theorem batchesLeading (welcome : Welcome) (pending : List NodeEvent) :
    ∃ rest, pending = (batches welcome pending).flatten ++ rest := by
  refine ⟨((contiguousEventRuns pending).flatMap (slices welcome.maxEventsPerBatch)).drop
    welcome.maxUnackedBatches |>.flatten,?_⟩
  rw [batches,← List.flatten_append,List.take_append_drop,allFlatten]

theorem adjacentLast {first : NodeEvent} {rest : List NodeEvent}
    (chain : (first::rest).IsChain Adjacent) :
    ((first::rest).getLast (by simp)).cursor = first.cursor + rest.length := by
  induction rest generalizing first with
  | nil => rfl
  | cons next rest ih =>
    obtain ⟨step,tail⟩ := List.isChain_cons_cons.mp chain
    rw [List.getLast_cons (by simp),ih tail,step]
    simp only [List.length_cons]
    omega

theorem cursorAccepted {k : Nat} : accepts cursorSchema (.nat k) = true ↔
    k ≤ 9007199254740991 := by
  rw [cursorSchema,nonnegative,naturalAccepted]
  omega

theorem cursorParsed {k : Nat} (small : k ≤ 9007199254740991) :
    cursorSchema (.nat k) = some (.nat k) := by
  have accepted := cursorAccepted.mpr small
  obtain ⟨v,hv⟩ := Option.isSome_iff_exists.mp accepted
  have nonnegative : integerFrom 0 (.nat k) = some v := hv
  rw [hv,integerFromSame nonnegative]

theorem eventCursor {e : NodeEvent} {parsed : Json} (h : nodeEventSchema e.toJson = some parsed) :
    e.cursor ≤ 9007199254740991 ∧ cursorAt "cursor" parsed = e.cursor := by
  have cursor := objectField h Sqlite.nodeEventNames
    (f := field "cursor" cursorSchema) (by simp [nodeEventShape]) rfl
  have own : e.toJson.get "cursor" = .nat e.cursor := by simp [NodeEvent.toJson]
  have same : parsed.get "cursor" = e.toJson.get "cursor" := integerFromSame cursor
  refine ⟨cursorAccepted.mp ?_,?_⟩
  · rw [← own]
    exact Option.isSome_iff_exists.mpr ⟨_,cursor⟩
  · rw [cursorAt,same,own,naturalOfNat]

theorem contiguousParsed {events : List NodeEvent} {parsed : List Json} {first : Nat}
    (h : arrayItems nodeEventSchema (events.map NodeEvent.toJson) = some parsed)
    (chain : events.IsChain Adjacent) (start : ∀ e, events.head? = some e → e.cursor = first) :
    contiguousFrom first parsed = true := by
  induction events generalizing parsed first with
  | nil => cases Option.some.inj h; rfl
  | cons e rest ih =>
    simp only [List.map_cons,arrayItems,bind,Option.bind_eq_some_iff] at h
    obtain ⟨head,hh,tail,ht,last⟩ := h
    cases Option.some.inj last
    have cursor := start e rfl
    have next : ∀ e', rest.head? = some e' → e'.cursor = first + 1 := by
      intro e' found
      obtain ⟨others,rfl⟩ := List.head?_eq_some_iff.mp found
      rw [← cursor]
      exact (List.isChain_cons_cons.mp chain).1
    simp [contiguousFrom,(eventCursor hh).2,cursor,ih ht chain.tail next]

theorem eventsAccepted {events : List NodeEvent} {parsed : List Json}
    (h : arrayItems nodeEventSchema (events.map NodeEvent.toJson) = some parsed) :
    ∀ e ∈ events, accepts nodeEventSchema e.toJson = true := fun _ listed =>
  itemsAccepted h _ (List.mem_map_of_mem listed)

theorem eventsParsed {events : List NodeEvent}
    (each : ∀ e ∈ events, accepts nodeEventSchema e.toJson = true) :
    ∃ parsed, arrayItems nodeEventSchema (events.map NodeEvent.toJson) = some parsed := by
  induction events with
  | nil => exact ⟨[],rfl⟩
  | cons e rest ih =>
    obtain ⟨head,hh⟩ := Option.isSome_iff_exists.mp (each e (by simp))
    obtain ⟨tail,ht⟩ := ih fun e' listed => each e' (by simp [listed])
    exact ⟨head::tail,by simp [arrayItems,hh,ht]⟩

theorem eventsSchemaSource {items : List Json} {parsed : Json}
    (h : eventsSchema (.array items) = some parsed) :
    ∃ out, arrayItems nodeEventSchema items = some out ∧ 1 ≤ out.length ∧ out.length ≤ 256 := by
  simp only [eventsSchema,arraySized,bind,Option.bind_eq_some_iff] at h
  obtain ⟨out,ho,last⟩ := h
  split at last <;> try contradiction
  rename_i sized
  simp only [Bool.and_eq_true,decide_eq_true_eq] at sized
  exact ⟨out,ho,sized⟩

theorem payloadEvents (id : String) (events : List NodeEvent) (truncated : Bool) :
    (batchPayload id events truncated).get "events" = .array (events.map NodeEvent.toJson) := by
  simp [batchPayload]

theorem payloadFirst (id : String) (e : NodeEvent) (rest : List NodeEvent) (truncated : Bool) :
    (batchPayload id (e::rest) truncated).get "firstCursor" = .nat e.cursor := by
  simp [batchPayload]

theorem payloadLast (id : String) (e : NodeEvent) (rest : List NodeEvent) (truncated : Bool) :
    (batchPayload id (e::rest) truncated).get "lastCursor" =
      .nat ((e::rest).getLast (by simp)).cursor := by
  simp [batchPayload,List.getLast?_eq_getLast_of_ne_nil]

def parsedBatch (id : String) (first last : Nat) (events : List Json) (truncated : Bool) :
    Json := .object
  [("batchId",.string id),("firstCursor",.nat first),("lastCursor",.nat last),
   ("events",.array events),("truncatedPendingReconcile",.boolean truncated)]

theorem parsedChecked {id : String} {first last : Nat} {events : List Json} {truncated : Bool}
    (ends : last + 1 = first + events.length) (contiguous : contiguousFrom first events = true) :
    (cursorAt "lastCursor" (parsedBatch id first last events truncated) + 1 ==
        cursorAt "firstCursor" (parsedBatch id first last events truncated) +
          (itemsOf ((parsedBatch id first last events truncated).get "events")).length &&
      contiguousFrom (cursorAt "firstCursor" (parsedBatch id first last events truncated))
        (itemsOf ((parsedBatch id first last events truncated).get "events"))) = true := by
  have low : cursorAt "firstCursor" (parsedBatch id first last events truncated) = first := by
    simp [cursorAt,parsedBatch]
  have high : cursorAt "lastCursor" (parsedBatch id first last events truncated) = last := by
    simp [cursorAt,parsedBatch]
  have items : (parsedBatch id first last events truncated).get "events" = .array events := by
    simp [parsedBatch]
  rw [low,high,items,itemsOf,contiguous,Bool.and_true]
  exact beq_iff_eq.mpr ends

theorem batchRefused {id : String} {events : List NodeEvent} {truncated : Bool}
    (h : accepts runEventBatchSchema (batchPayload id events truncated) = true) :
    (∀ e ∈ events, accepts nodeEventSchema e.toJson = true) ∧ events.length ≤ 256 := by
  obtain ⟨v,hv⟩ := Option.isSome_iff_exists.mp h
  simp only [runEventBatchSchema,refined,bind,Option.bind_eq_some_iff] at hv
  obtain ⟨parsed,shaped,_⟩ := hv
  have inside := objectField shaped (by decide)
    (f := field "events" eventsSchema) (by simp) rfl
  have own : (batchPayload id events truncated).get (field "events" eventsSchema).name =
      .array (events.map NodeEvent.toJson) := payloadEvents id events truncated
  rw [own] at inside
  obtain ⟨out,items,_,small⟩ := eventsSchemaSource inside
  refine ⟨eventsAccepted items,?_⟩
  rwa [itemsLength items,List.length_map] at small

theorem batchAccepted {id : String} {e : NodeEvent} {rest : List NodeEvent} {truncated : Bool}
    (identified : uuidSchema (.string id) = some (.string id))
    (chain : (e::rest).IsChain Adjacent)
    (each : ∀ e' ∈ e::rest, accepts nodeEventSchema e'.toJson = true)
    (small : (e::rest).length ≤ 256) :
    accepts runEventBatchSchema (batchPayload id (e::rest) truncated) = true := by
  obtain ⟨parsed,items⟩ := eventsParsed each
  have length := itemsLength items
  rw [List.length_map] at length
  have bounded (e' : NodeEvent) (listed : e' ∈ e::rest) :
      cursorSchema (.nat e'.cursor) = some (.nat e'.cursor) := by
    obtain ⟨_,hp⟩ := Option.isSome_iff_exists.mp (each e' listed)
    exact cursorParsed (eventCursor hp).1
  have events : eventsSchema (.array ((e::rest).map NodeEvent.toJson)) =
      some (.array parsed) := by
    have sized : 1 ≤ parsed.length ∧ parsed.length ≤ 256 := by
      rw [length]
      exact ⟨by simp,small⟩
    simp only [eventsSchema,arraySized,items,bind,Option.bind_some]
    simp [sized]
  have flag : (batchPayload id (e::rest) truncated).get "truncatedPendingReconcile" =
      .boolean truncated := by simp [batchPayload]
  have name : (batchPayload id (e::rest) truncated).get "batchId" = .string id := by
    simp [batchPayload]
  have shaped : eventBatchShape (batchPayload id (e::rest) truncated) =
      some (parsedBatch id e.cursor ((e::rest).getLast (by simp)).cursor parsed truncated) := by
    show (fields (batchPayload id (e::rest) truncated) _).bind _ = _
    rw [fieldsRequired rfl,fieldsRequired rfl,fieldsRequired rfl,fieldsRequired rfl,
      fieldsGiven (by rw [flag]; simp),name,payloadFirst,payloadLast,payloadEvents,flag,
      identified,bounded e (by simp),bounded _ (List.getLast_mem _),events]
    rfl
  have start : ∀ e', (e::rest).head? = some e' → e'.cursor = e.cursor := fun e' head => by
    cases Option.some.inj head
    rfl
  have contiguous := contiguousParsed items chain start
  have ends : ((e::rest).getLast (by simp)).cursor + 1 = e.cursor + parsed.length := by
    rw [adjacentLast chain,length,List.length_cons]
    omega
  simp only [accepts,runEventBatchSchema,refined,shaped,bind,Option.bind_some]
  rw [if_pos (parsedChecked ends contiguous)]
  rfl

section Limits
variable {size limit : Nat} {runs : List (List NodeEvent)}

theorem takenRun (some : ∀ run ∈ runs, run ≠ []) {batch : List NodeEvent}
    (h : batch ∈ (runs.flatMap (slices size)).take limit) :
    ∃ run ∈ runs.take limit, batch ∈ slices size run := by
  induction runs generalizing limit with
  | nil => simp at h
  | cons run rest ih =>
    cases limit with
    | zero => simp at h
    | succ limit =>
      obtain ⟨tail,first⟩ := sliceFirst size (some run (by simp))
      rw [List.flatMap_cons,List.take_append] at h
      rcases List.mem_append.mp h with here | later
      · exact ⟨run,by simp,List.mem_of_mem_take here⟩
      · have fewer : limit + 1 - (slices size run).length ≤ limit := by
          simp only [first,List.length_cons]
          omega
        obtain ⟨found,listed,inside⟩ := ih (fun r hr => some r (by simp [hr]))
          ((List.take_subset_take_left _ fewer) later)
        exact ⟨found,by simp [listed],inside⟩

theorem shortRuns (some : ∀ run ∈ runs, run ≠ []) (large : 256 < size)
    (short : ∀ batch ∈ (runs.flatMap (slices size)).take limit, batch.length ≤ 256) :
    ∀ run ∈ runs.take limit, run.length ≤ 256 := by
  induction runs generalizing limit with
  | nil => simp
  | cons run rest ih =>
    cases limit with
    | zero => simp
    | succ limit =>
      obtain ⟨tail,first⟩ := sliceFirst size (some run (by simp))
      have front := short (run.take size) (by simp [first])
      have fits : run.length ≤ 256 := by
        rw [List.length_take] at front
        omega
      have whole : slices size run = [run] := sliceWhole (some run (by simp)) (by omega)
      rw [List.flatMap_cons,whole,List.singleton_append,List.take_succ_cons] at short
      intro r hr
      rw [List.take_succ_cons] at hr
      rcases List.mem_cons.mp hr with rfl | later
      · exact fits
      · exact ih (fun r' hr' => some r' (by simp [hr']))
          (fun batch listed => short batch (by simp [listed])) r later

end Limits

variable {σ κ : Type} (n : Node κ)

structure Carries (events : List NodeEvent) (e : Envelope) : Prop where
  type : e.type = "run.event_batch"
  payload : ∃ id truncated, uuidSchema (.string id) = some (.string id) ∧
    e.payload = batchPayload id events truncated

theorem sealedPayload (type : String) (payload : Json) (now : Int) (extra : Extra)
    (s : NodeSession σ κ) :
    wp (sealMessage n type payload now extra) (fun e _ => e.type = type ∧ e.payload = payload)
      (fun _ _ => True) s := by
  unfold sealMessage
  rw [wpBind,changing,wpModify,wpBind]
  refine wpIntro (fun id t _ => ?_) fun _ _ _ => trivial
  rw [wpBind,wpGet]
  unfold sealEnvelope
  cases computePayloadDigest n.platform payload with
  | error message => exact trivial
  | ok digest =>
    simp only [bind,Except.bind]
    cases buildSigningInput n.platform _ with
    | error message => exact trivial
    | ok input => exact ⟨rfl,rfl⟩

theorem drawnUuid (now : Int) (s : NodeSession σ κ) :
    wp (drawUuid n now) (fun id _ => uuidSchema (.string id) = some (.string id))
      (fun _ _ => True) s := by
  unfold drawUuid
  rw [wpBind,wpGet,wpBind,changing,wpModify]
  cases h : uuidV7 now (n.platform.randomBytes s.draws) with
  | error message => exact trivial
  | ok id => exact uuidMatches h

variable [NodeStateStore σ]

theorem batchSealed (now : Int) (events : List NodeEvent) (s : NodeSession σ κ) :
    wp (sealBatch n now events) (fun e _ => Carries events e) (fun _ _ => True) s := by
  unfold sealBatch
  rw [wpBind]
  refine wpMono (drawnUuid n now s) (fun id t identified => ?_) fun _ _ h => h
  rw [wpBind]
  refine wpIntro (fun truncations u _ => ?_) fun _ _ _ => trivial
  exact wpMono (sealedPayload n _ _ now _ u)
    (fun e _ h => ⟨h.1,id,_,identified,h.2⟩) fun _ _ h => h

theorem batchesSealed (now : Int) {limit : Nat} (batches : List (List NodeEvent))
    (out : List Envelope) (room : out.length < limit) (s : NodeSession σ κ) :
    wp (sealBatches n now limit batches out)
      (fun all _ => ∃ new, all = out ++ new ∧
        List.Forall₂ Carries (batches.take (limit - out.length)) new)
      (fun _ _ => True) s := by
  induction batches generalizing out s with
  | nil => exact ⟨[],by simp,by simp⟩
  | cons events rest ih =>
    obtain ⟨k,hk⟩ : ∃ k, limit - out.length = k + 1 := ⟨limit - out.length - 1,by omega⟩
    unfold sealBatches
    rw [wpBind]
    refine wpMono (batchSealed n now events s) (fun e t carries => ?_) fun _ _ h => h
    dsimp only
    rw [hk,List.take_succ_cons]
    split
    · rename_i full
      simp only [List.length_append,List.length_singleton] at full
      obtain rfl : k = 0 := by omega
      exact ⟨[e],rfl,.cons carries (by simp)⟩
    · rename_i more
      simp only [List.length_append,List.length_singleton] at more
      refine wpMono (ih (out ++ [e]) (by simp; omega) t) ?_ fun _ _ h => h
      rintro all u ⟨new,rfl,each⟩
      have fewer : limit - (out ++ [e]).length = k := by simp; omega
      rw [fewer] at each
      exact ⟨e::new,by simp,.cons carries each⟩

theorem flushSealed {s t : NodeSession σ κ} {now : Int} {fromCursor : Option Nat}
    {welcome : Welcome} {pending : List NodeEvent} {out : List Envelope}
    (connected : s.connected = true) (welcomed : s.welcome = some welcome)
    (read : (NodeStateStore.eventsAfter (fromCursor.getD s.ackedCursor) s.store).1 =
      .ok pending)
    (flushed : flush n now fromCursor s = (.ok out,t)) :
    List.Forall₂ Carries (batches welcome pending) out := by
  have spec : wp (flush n now fromCursor)
      (fun all _ => List.Forall₂ Carries (batches welcome pending) all) (fun _ _ => True) s := by
    unfold flush
    rw [wpBind,wpGet,connected,welcomed]
    dsimp only
    rw [wpBind]
    apply wpOnStore
    · intro fetched store found
      rw [found] at read
      cases Except.ok.inj read
      have room : ([] : List Envelope).length < welcome.maxUnackedBatches :=
        batchLimitPositive welcome
      have spec := batchesSealed n now
        ((contiguousEventRuns pending).flatMap (slices welcome.maxEventsPerBatch)) []
        room {s with store}
      refine wpMono spec ?_ fun _ _ h => h
      rintro all u ⟨new,rfl,each⟩
      exact each
    · intro message u
      exact trivial
  exact wpOk (Q := fun all _ => List.Forall₂ Carries (batches welcome pending) all) spec flushed

def batchEvents (e : Envelope) : List Json := itemsOf (e.payload.get "events")

structure WellBatched (welcome : Welcome) (pending : List NodeEvent) (out : List Envelope) :
    Prop where
  valid : ∀ e ∈ out, e.type = "run.event_batch" ∧ accepts runEventBatchSchema e.payload = true
  sized : ∀ e ∈ out, (batchEvents e).length ≤ welcome.maxEventsPerBatch
  ascending : out.Pairwise fun a b =>
    cursorAt "lastCursor" a.payload < cursorAt "firstCursor" b.payload
  leading : ∃ rest, pending.map NodeEvent.toJson = out.flatMap batchEvents ++ rest

-- Every event in the batches is one the event schema accepts, and no batch outgrows the
-- schema: the welcome's size is within it, or the runs reached are.
def Sendable (welcome : Welcome) (pending : List NodeEvent) : Prop :=
  (∀ e ∈ (batches welcome pending).flatten, accepts nodeEventSchema e.toJson = true) ∧
  (welcome.maxEventsPerBatch ≤ 256 ∨
    ∀ run ∈ (contiguousEventRuns pending).take welcome.maxUnackedBatches, run.length ≤ 256)

theorem carriedEvents {events : List NodeEvent} {e : Envelope} (h : Carries events e) :
    batchEvents e = events.map NodeEvent.toJson := by
  obtain ⟨id,truncated,_,payload⟩ := h.payload
  rw [batchEvents,payload,payloadEvents,itemsOf]

theorem carriedAll {bs : List (List NodeEvent)} {out : List Envelope}
    (h : List.Forall₂ Carries bs out) :
    out.flatMap batchEvents = bs.flatten.map NodeEvent.toJson := by
  induction h with
  | nil => rfl
  | cons head _ ih => simp [ih,carriedEvents head]

theorem carriedMember {bs : List (List NodeEvent)} {out : List Envelope}
    (h : List.Forall₂ Carries bs out) {e : Envelope} (listed : e ∈ out) :
    ∃ b ∈ bs, Carries b e := by
  induction h with
  | nil => contradiction
  | cons head _ ih =>
    rcases List.mem_cons.mp listed with rfl | inside
    · exact ⟨_,by simp,head⟩
    · obtain ⟨b,hb,carries⟩ := ih inside
      exact ⟨b,by simp [hb],carries⟩

theorem carriedValid {bs : List (List NodeEvent)} {out : List Envelope}
    (h : List.Forall₂ Carries bs out)
    (source : ∀ b ∈ bs, b ≠ [] ∧ b.IsChain Adjacent) :
    (∀ e ∈ out, e.type = "run.event_batch" ∧ accepts runEventBatchSchema e.payload = true) ↔
      (∀ e ∈ bs.flatten, accepts nodeEventSchema e.toJson = true) ∧
      ∀ b ∈ bs, b.length ≤ 256 := by
  induction h with
  | nil => simp
  | @cons b e bs out head _ ih =>
    have rest := ih fun b' hb => source b' (by simp [hb])
    obtain ⟨some,chain⟩ := source b (by simp)
    obtain ⟨id,truncated,identified,payload⟩ := head.payload
    have here : accepts runEventBatchSchema e.payload = true ↔
        (∀ event ∈ b, accepts nodeEventSchema event.toJson = true) ∧ b.length ≤ 256 := by
      rw [payload]
      constructor
      · exact batchRefused
      · rintro ⟨each,small⟩
        cases b with
        | nil => contradiction
        | cons first others => exact batchAccepted identified chain each small
    simp only [List.forall_mem_cons,rest,here,head.type,true_and,List.flatten_cons,
      List.forall_mem_append]
    tauto

theorem carriedAscending {bs : List (List NodeEvent)} {out : List Envelope}
    (h : List.Forall₂ Carries bs out) (some : ∀ b ∈ bs, b ≠ [])
    (below : bs.Pairwise fun a b => ∀ x ∈ a, ∀ y ∈ b, x.cursor < y.cursor) :
    out.Pairwise fun a b =>
      cursorAt "lastCursor" a.payload < cursorAt "firstCursor" b.payload := by
  induction h with
  | nil => exact .nil
  | @cons b e bs out head tail ih =>
    obtain ⟨first,later⟩ := List.pairwise_cons.mp below
    refine .cons ?_ (ih (fun b' hb => some b' (by simp [hb])) later)
    intro e' listed
    obtain ⟨b',hb',carries⟩ := carriedMember tail listed
    obtain ⟨id,truncated,_,payload⟩ := head.payload
    obtain ⟨id',truncated',_,payload'⟩ := carries.payload
    have someHere := some b (by simp)
    have someThere := some b' (by simp [hb'])
    cases b with
    | nil => contradiction
    | cons x xs =>
      cases b' with
      | nil => contradiction
      | cons y ys =>
        rw [cursorAt,cursorAt,payload,payload',payloadLast,payloadFirst,naturalOfNat,
          naturalOfNat]
        exact first (y::ys) hb' _ (List.getLast_mem _) y (by simp)

variable [LawfulNodeStateStore σ]

/-- What flush returns is well batched exactly when the events it hands out are valid and
the welcome's batch size, or every run it reaches, stays within 256. -/
theorem flushBatches {kernelState : κ} {s t : NodeSession σ κ} {now : Int}
    {fromCursor : Option Nat} {welcome : Welcome} {pending : List NodeEvent}
    {out : List Envelope} (reached : Run n (opened kernelState) s)
    (connected : s.connected = true) (welcomed : s.welcome = some welcome)
    (read : (NodeStateStore.eventsAfter (fromCursor.getD s.ackedCursor) s.store).1 =
      .ok pending)
    (flushed : flush n now fromCursor s = (.ok out,t)) :
    WellBatched welcome pending out ↔ Sendable welcome pending := by
  have carried := flushSealed n connected welcomed read flushed
  have source (b : List NodeEvent) (listed : b ∈ batches welcome pending) :=
    batchSource listed
  have valid := carriedValid carried fun b listed => ⟨(source b listed).1,(source b listed).2.2⟩
  have runsSome (run : List NodeEvent) (listed : run ∈ contiguousEventRuns pending) :
      run ≠ [] := List.ne_nil_of_mem_splitBy listed
  constructor
  · intro well
    obtain ⟨each,short⟩ := valid.mp well.valid
    refine ⟨each,?_⟩
    by_cases small : welcome.maxEventsPerBatch ≤ 256
    · exact .inl small
    · exact .inr (shortRuns runsSome (by omega) short)
  · rintro ⟨each,limits⟩
    have short : ∀ b ∈ batches welcome pending, b.length ≤ 256 := by
      intro b listed
      rcases limits with small | runs
      · exact (source b listed).2.1.trans small
      · obtain ⟨run,taken,part⟩ := takenRun runsSome listed
        obtain ⟨_,_,k,same⟩ := sliceSource (sizePositive welcome) part
        have whole := runs run taken
        rw [same,List.length_take,List.length_drop]
        omega
    have synced := (keptRun (keptOpened n.maxBufferedEvents kernelState) reached).synced
    obtain ⟨_,entries⟩ := LawfulNodeStateStore.events synced.ok pending _ (Prod.ext read rfl)
    have ordered : pending.Pairwise fun a b => a.cursor < b.cursor := by
      have positions := (ordered synced.ok).ascending.sublist
        ((List.filter_sublist (p := fun e =>
          decide (fromCursor.getD s.ackedCursor < position e))).map position)
      rw [← entries,List.map_map] at positions
      exact List.pairwise_map.mp positions
    obtain ⟨rest,split⟩ := batchesLeading welcome pending
    rw [split] at ordered
    have below := (List.pairwise_flatten.mp (List.pairwise_append.mp ordered).1).2
    refine ⟨valid.mpr ⟨each,short⟩,?_,
      carriedAscending carried (fun b listed => (source b listed).1) below,
      rest.map NodeEvent.toJson,?_⟩
    · intro e listed
      obtain ⟨b,hb,carries⟩ := carriedMember carried listed
      rw [carriedEvents carries,List.length_map]
      exact (source b hb).2.1
    · rw [carriedAll carried,← List.map_append,← split]

def cloudWelcome (sessionId : String) (maxEventsPerBatch : Nat) : Json := .object
  [("protocol",.string "accp/1.0"),
   ("schemaDigest",.string ("sha256:" ++ String.ofList (List.replicate 64 '0'))),
   ("type",.string "node.welcome"),
   ("messageId",.string "019b76da-a800-7000-8000-000000000001"),
   ("sessionId",.string sessionId),
   ("workspaceId",.string "00000000-0000-7000-8000-000000000000"),
   ("senderId",.string "cloud"),("sequence",.nat 1),
   ("sentAt",.string "2026-01-01T00:00:00.000Z"),
   ("payloadDigest",.string ("sha256:" ++ String.ofList (List.replicate 64 '0'))),
   ("payload",.object
     [("protocol",.string "accp/1.0"),("connectionEpoch",.nat 1),
      ("schemaBundleDigest",.string ("sha256:" ++ String.ofList (List.replicate 64 '0'))),
      ("cloudCursor",.nat 0),("nodeCursorAck",.nat 0),
      ("policyBundleDigest",.string ("sha256:" ++ String.ofList (List.replicate 64 '0'))),
      ("limits",.object
        [("maxUnackedBatches",.nat 4),("maxEventsPerBatch",.nat maxEventsPerBatch),
         ("maxEnvelopeBytes",.nat 1048576),("heartbeatIntervalMs",.nat 15000),
         ("deadAfterMs",.nat 45000)]),
      ("serverTime",.string "2026-01-01T00:00:00.000Z")]),
   ("signature",.string "ed25519:c2ln")]

def hello : Operation Unit := .startHandshake 1767225600000

def greeting (maxEventsPerBatch : Nat) : Operation Unit :=
  .receive (cloudWelcome "019b76da-a800-7000-8000-000000000000" maxEventsPerBatch) 1767225600000

@[irreducible] def greeted : NodeSession InMemoryNodeStateStore Unit :=
  ((greeting 300).perform (idleNode 10000) (hello.perform (idleNode 10000) (opened ())).2).2

def progress (k : Nat) : NodeEvent :=
  ⟨k + 1,"019b76da-a800-7000-8000-000000000000","run.progress","2026-01-01T00:00:00.000Z",[],
    none,none⟩

def held (k : Nat) : NodeSession InMemoryNodeStateStore Unit := {greeted with
  draws := greeted.draws + k
  nodeCursor := k
  store := {greeted.store with events := (List.range k).map progress,nodeCursor := k}}

theorem wpStored {σ κ α : Type} {m : StoreM σ α} {Q : α → NodeSession σ κ → Prop}
    {E : Fault → NodeSession σ κ → Prop} {s : NodeSession σ κ} {a : α} {store : σ}
    (run : m s.store = (.ok a,store)) (h : Q a {s with store}) : wp (onStore m) Q E s := by
  simpa only [wp,onStore,run] using h

theorem heldFew (c k : Nat) (room : k < 10000) :
    ((held (k + 1)).store.eventsAfter c).length ≤ 10000 := by
  rw [InMemoryNodeStateStore.eventsAfter,List.length_insertionSort]
  refine (List.length_filter_le _ _).trans ?_
  show ((List.range (k + 1)).map progress).length ≤ 10000
  rw [List.length_map,List.length_range]
  omega

theorem heldAppend (k : Nat) :
    NodeStateStore.appendEventAndAdvanceCursor (progress k) (held k).store =
      (.ok (),(held (k + 1)).store) := by
  have fresh : ((List.range k).map progress).any (fun e => e.cursor == k + 1) = false := by
    simp only [List.any_map,List.any_eq_false,List.mem_range]
    intro j small
    simp [progress]
    omega
  have next : (List.range (k + 1)).map progress =
      (List.range k).map progress ++ [progress k] := by rw [List.range_succ,List.map_append]; rfl
  have appended : InMemoryNodeStateStore.appendEventAndAdvanceCursor (progress k)
      (held k).store = .ok (held (k + 1)).store := by
    unfold InMemoryNodeStateStore.appendEventAndAdvanceCursor
    rw [if_neg (fun differs => differs rfl)]
    simp only [held,next]
    exact if_neg (by rw [← Bool.not_eq_true] at fresh; exact fresh)
  show writing _ _ = _
  rw [writing,appended]

theorem heldStep {k : Nat} (room : k < 10000) :
    (noted "run.progress").perform (idleNode 10000) (held k) = (.ok (),held (k + 1)) := by
  have drawn : uuidV7 1767225600000 (fun _ => 0) =
      .ok "019b76da-a800-7000-8000-000000000000" := by decide +kernel
  have instant : toISOString 1767225600000 = "2026-01-01T00:00:00.000Z" := by decide +kernel
  have emits : wp (emitEvent (idleNode 10000) "run.progress" [] ⟨none,none⟩ 1767225600000)
      (fun _ t => t = held (k + 1)) (fun _ _ => False) (held k) := by
    unfold emitEvent
    rw [wpBind,wpGet,wpBind]
    unfold drawUuid
    rw [wpBind,wpGet,wpBind,changing,wpModify]
    have random (draws : Nat) : (idleNode 10000).platform.randomBytes draws = fun _ => 0 := rfl
    rw [random,drawn]
    show wp (_ >>= _) _ _ _
    rw [wpBind]
    simp only [instant]
    refine wpStored (heldAppend k) ?_
    rw [wpBind,changing,wpModify,wpBind]
    unfold enforceBufferBounds
    rw [wpBind,wpGet,wpBind]
    refine wpStored rfl ?_
    split
    · rfl
    · rename_i exceeds
      exact absurd (heldFew _ k room) exceeds
  show discarding (emitEvent (idleNode 10000) "run.progress" [] ⟨none,none⟩ 1767225600000)
    (held k) = _
  rcases run : emitEvent (idleNode 10000) "run.progress" [] ⟨none,none⟩ 1767225600000 (held k)
    with ⟨result,t⟩
  cases result with
  | error _ => exact (wpError (E := fun _ _ => False) emits run).elim
  | ok _ =>
    have same : t = held (k + 1) := wpOk (Q := fun _ t => t = held (k + 1)) emits run
    simp only [discarding,bind,ExceptT.bind,ExceptT.mk,StateT.bind,run,same]
    rfl

theorem greetedState : (greeted.nodeCursor = 0 ∧ greeted.store.nodeCursor = 0 ∧
    greeted.store.events.isEmpty = true) ∧ greeted.connected = true ∧
    (hello.perform (idleNode 10000)
      (opened () : NodeSession InMemoryNodeStateStore Unit)).1.isOk = true ∧
    ((greeting 300).perform (idleNode 10000) (hello.perform (idleNode 10000)
      (opened () : NodeSession InMemoryNodeStateStore Unit)).2).1.isOk = true ∧
    greeted.welcome.map Welcome.maxEventsPerBatch = some 300 := by
  decide +kernel

theorem heldNone : held 0 = greeted := by
  obtain ⟨node,stored,none⟩ := greetedState.1
  have events := List.isEmpty_iff.mp none
  unfold held
  generalize greeted = s at *
  obtain ⟨⟨storedCursor,acked,live,answers,truncations⟩,_,_,_,_,_,_,_,_,_,_,_⟩ := s
  cases node
  cases stored
  cases events
  rfl

theorem heldReached {k : Nat} (room : k ≤ 10000) : Run (idleNode 10000) (opened ()) (held k) := by
  induction k with
  | zero =>
    obtain ⟨_,_,greetsOk,welcomedOk,_⟩ := greetedState
    rw [heldNone]
    unfold greeted
    exact .tail (.single (stepReturned hello greetsOk)) (stepReturned (greeting 300) welcomedOk)
  | succ k ih =>
    have step : Step (idleNode 10000) (held k) (held (k + 1)) :=
      ⟨noted "run.progress",.ok (),heldStep (by omega),fun _ failed => by contradiction⟩
    exact (ih (by omega)).tail step

theorem acceptedSize {payload : Json} (h : accepts runEventBatchSchema payload = true) :
    (itemsOf (payload.get "events")).length ≤ 256 := by
  obtain ⟨v,hv⟩ := Option.isSome_iff_exists.mp h
  simp only [runEventBatchSchema,refined,bind,Option.bind_eq_some_iff] at hv
  obtain ⟨parsed,shaped,_⟩ := hv
  have inside := objectField shaped (by decide)
    (f := field "events" eventsSchema) (by simp) rfl
  cases own : payload.get "events" with
  | array items =>
    rw [show (field "events" eventsSchema).name = "events" from rfl,own] at inside
    obtain ⟨out,parsedItems,_,small⟩ := eventsSchemaSource inside
    rwa [itemsLength parsedItems] at small
  | _ => simp [itemsOf]

theorem returnedSome {α ε τ : Type} {r : Except ε α × τ} (h : r.1.isOk = true) :
    ∃ a t, r = (.ok a,t) := by
  obtain ⟨e | a,t⟩ := r
  · contradiction
  · exact ⟨a,t,rfl⟩

theorem oversizedBatch : ∃ (s t : NodeSession InMemoryNodeStateStore Unit) (welcome : Welcome)
    (pending : List NodeEvent) (out : List Envelope),
    Run (idleNode 10000) (opened ()) s ∧ s.connected = true ∧ s.welcome = some welcome ∧
    (NodeStateStore.eventsAfter s.ackedCursor s.store).1 = .ok pending ∧
    flush (idleNode 10000) 1767225600000 none s = (.ok out,t) ∧
    ¬WellBatched welcome pending out := by
  obtain ⟨_,connected,_,_,size⟩ := greetedState
  obtain ⟨welcome,welcomed,_⟩ := Option.map_eq_some_iff.mp size
  have flushed : (flush (idleNode 10000) 1767225600000 none (held 257)).1.isOk = true ∧
      (flush (idleNode 10000) 1767225600000 none (held 257)).1.toOption.map
        (fun out => out.map fun e => (batchEvents e).length) = some [257] := by decide +kernel
  obtain ⟨out,t,run⟩ := returnedSome flushed.1
  have lengths : out.map (fun e => (batchEvents e).length) = [257] := by
    rw [run] at flushed
    exact Option.some.inj flushed.2
  refine ⟨held 257,t,welcome,_,out,heldReached (by decide),connected,welcomed,rfl,run,?_⟩
  intro well
  obtain ⟨e,rest,rfl,length,_⟩ := List.map_eq_cons_iff.mp lengths
  have small : (batchEvents e).length ≤ 256 := acceptedSize (well.valid e (by simp)).2
  omega

theorem shortBatch : ∃ (t : NodeSession InMemoryNodeStateStore Unit) (welcome : Welcome)
    (pending : List NodeEvent) (out : List Envelope),
    flush (idleNode 10000) 1767225600000 none (held 2) = (.ok out,t) ∧
    pending.length = 2 ∧ WellBatched welcome pending out := by
  obtain ⟨_,connected,_,_,size⟩ := greetedState
  obtain ⟨welcome,welcomed,_⟩ := Option.map_eq_some_iff.mp size
  have reads : (flush (idleNode 10000) 1767225600000 none (held 2)).1.isOk = true ∧
      ((held 2).store.eventsAfter (held 2).ackedCursor).length = 2 ∧
      (∀ e ∈ (held 2).store.eventsAfter (held 2).ackedCursor,
        accepts nodeEventSchema e.toJson = true) ∧
      ∀ run ∈ contiguousEventRuns ((held 2).store.eventsAfter (held 2).ackedCursor),
        run.length ≤ 256 := by decide +kernel
  obtain ⟨flushed,count,each,short⟩ := reads
  obtain ⟨out,t,run⟩ := returnedSome flushed
  have found : (NodeStateStore.eventsAfter ((none : Option Nat).getD (held 2).ackedCursor)
      (held 2).store).1 = .ok ((held 2).store.eventsAfter (held 2).ackedCursor) := rfl
  have reached := heldReached (k := 2) (by decide)
  generalize (held 2).store.eventsAfter (held 2).ackedCursor = pending at *
  refine ⟨t,welcome,pending,out,run,count,?_⟩
  have batched := flushBatches (idleNode 10000) reached connected welcomed found run
  refine batched.mpr ⟨fun e listed => each e ?_,
    .inr fun r taken => short r (List.mem_of_mem_take taken)⟩
  obtain ⟨rest,split⟩ := batchesLeading welcome pending
  rw [split]
  exact List.mem_append_left _ listed

end ControlCenter.EventBatches
