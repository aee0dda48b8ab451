import ControlCenter.Db
import ControlCenter.RunLogic
import Mathlib.Algebra.Ring.Int.Defs

/-! One connection of the event stream: a durable log that only grows, the drain that reads
it behind a cursor, and the sink that writes frames or queues them. -/
namespace ControlCenter.EventStream
open Db RunLogic

structure Frame where
  text : String
  event : Option EventRow

def Frame.bytes (frame : Frame) : Int := frame.text.utf8ByteSize

def SSE_MAX_BUFFER_BYTES : Int := 1024 * 1024

-- What the socket was given and what the sink was handed are kept in the model alone.
structure SseSink where
  queue : List Frame
  queuedBytes : Int
  backpressured : Bool
  closed : Bool
  destroyed : Bool
  written : List Frame
  handed : List Frame

def SseSink.fresh : SseSink := ⟨[],0,false,false,false,[],[]⟩

namespace SseSink

def isClosed (s : SseSink) : Bool := s.closed || s.destroyed

section
variable (accepts : Nat → Bool)

def send (s : SseSink) (value : Frame) : SseSink := {s with
  backpressured := !accepts s.written.length
  written := s.written ++ [value]}

def enqueue (s : SseSink) (value : Frame) : SseSink :=
  if SSE_MAX_BUFFER_BYTES < s.queuedBytes + value.bytes then {s with destroyed := true}
  else {s with queue := s.queue ++ [value],queuedBytes := s.queuedBytes + value.bytes}

def write (s : SseSink) (value : Frame) : SseSink :=
  let s := {s with handed := s.handed ++ [value]}
  if s.isClosed then s
  else if !s.backpressured && s.queue.isEmpty then s.send accepts value
  else s.enqueue value

def flushQueue (s : SseSink) : List Frame → SseSink
  | [] => s
  | value::rest =>
    if s.backpressured then s
    else flushQueue (({s with queue := rest,queuedBytes := s.queuedBytes - value.bytes} :
      SseSink).send accepts value) rest

def flush (s : SseSink) : SseSink :=
  if s.isClosed then s else ({s with backpressured := false} : SseSink).flushQueue accepts s.queue

end

def close (s : SseSink) : SseSink := {s with closed := true,queue := [],queuedBytes := 0}

end SseSink

inductive Draining where
  | idle
  -- The query is under way.
  | querying
  | read (events : List EventRow)
  -- The loop is over and draining not yet null.
  | settling

structure Connection where
  log : List EventRow
  sink : SseSink
  cursor : Nat
  draining : Draining
  drainAgain : Bool

structure Stream where
  stringify : EventRow → String
  taskId : Option String
  accepts : Nat → Bool

def eventNameUnit (c : Char) : Char :=
  if c.isAlphanum || c == '_' || c == '.' || c == '-' then c else '_'

namespace Stream
variable (stream : Stream)

def formatSseEvent (event : EventRow) : String := String.intercalate "\n"
  [s!"id: {event.id}",s!"event: {event.type.map eventNameUnit}",
    s!"data: {stream.stringify event}","",""]

def eventFrame (event : EventRow) : Frame := ⟨stream.formatSseEvent event,some event⟩

def keepalive : Frame := ⟨": keepalive\n\n",none⟩

def wanted (afterId : Nat) (event : EventRow) : Bool :=
  stream.taskId.all (fun taskId => event.taskId == taskId) && decide (afterId < event.id)

-- The rows of the log are in the order of their ids.
def listEventsAfter (afterId limit : Nat) (log : List EventRow) : Except String (List EventRow) :=
  if 9007199254740991 < afterId then
    .error "Event cursor must be a non-negative safe integer"
  else .ok ((log.filter (stream.wanted afterId)).take limit)

def ask (c : Connection) : Connection := {c with draining := .querying}

def wake (c : Connection) : Connection :=
  if c.sink.isClosed then c
  else match c.draining with
    | .idle => ask {c with drainAgain := false}
    | _ => {c with drainAgain := true}

def query (fails : Bool) (c : Connection) : Connection := match c.draining with
  | .querying => match fails,stream.listEventsAfter c.cursor 500 c.log with
      | false,.ok events => {c with draining := .read events}
      | _,_ => {c with draining := .settling}
  | _ => c

def writeEvent (c : Connection) (event : EventRow) : Connection :=
  if event.id ≤ c.cursor then c
  else {c with
    sink := c.sink.write stream.accepts (stream.eventFrame event)
    cursor := event.id}

def afterBatches (c : Connection) : Connection :=
  if c.drainAgain && !c.sink.isClosed then ask {c with drainAgain := false}
  else {c with draining := .settling}

def resume (c : Connection) : Connection := match c.draining with
  | .read events =>
      let c := events.foldl stream.writeEvent {c with draining := .settling}
      if events.length < 500 || c.sink.isClosed then afterBatches c else ask c
  | _ => c

def settle (c : Connection) : Connection := match c.draining with
  | .settling => {c with draining := .idle}
  | _ => c

inductive Event where
  -- Rows of a transaction, under the next ids.
  | commit (rows : List EventRow)
  -- A notification of the bus, a tick of the poll, the first drain.
  | wake
  | query (fails : Bool)
  | resume
  | settle
  | heartbeat
  -- The drain event of the socket.
  | drained
  | close
  | destroy

def Ascending (log : List EventRow) : Prop := log.Pairwise fun a b => a.id < b.id

instance (log : List EventRow) : Decidable (Ascending log) :=
  inferInstanceAs (Decidable (log.Pairwise fun a b => a.id < b.id))

def step (c : Connection) : Event → Connection
  | .commit rows => if Ascending (c.log ++ rows) then {c with log := c.log ++ rows} else c
  | .wake => wake c
  | .query fails => stream.query fails c
  | .resume => stream.resume c
  | .settle => settle c
  | .heartbeat => {c with sink := c.sink.write stream.accepts keepalive}
  | .drained => {c with sink := c.sink.flush stream.accepts}
  | .close => {c with sink := c.sink.close}
  | .destroy => {c with sink := {c.sink with destroyed := true}}

def opened (log : List EventRow) (cursor : Nat) : Connection := ⟨log,.fresh,cursor,.idle,false⟩

end Stream

namespace SseSink

structure Sound (s : SseSink) : Prop where
  inOrder : s.written <+: s.handed
  queued : s.isClosed = false → s.handed = s.written ++ s.queue
  pressed : s.isClosed = false → s.queue ≠ [] → s.backpressured = true
  bytes : s.queuedBytes = (s.queue.map Frame.bytes).sum

variable {accepts : Nat → Bool} {s : SseSink}

theorem freshSound : Sound .fresh := ⟨List.prefix_rfl,fun _ => rfl,fun _ some_ => absurd rfl some_,rfl⟩

@[simp] theorem writeHanded (value : Frame) :
    (s.write accepts value).handed = s.handed ++ [value] := by
  unfold write enqueue send
  dsimp only
  split
  · rfl
  · split
    · rfl
    · split <;> rfl

theorem Sound.write (sound : Sound s) (value : Frame) : Sound (s.write accepts value) := by
  have longer : s.written <+: s.handed ++ [value] := sound.inOrder.trans (List.prefix_append _ _)
  unfold SseSink.write
  dsimp only
  split
  next closed =>
    exact ⟨longer,fun open_ => absurd (open_.symm.trans closed) Bool.false_ne_true,
      fun open_ => absurd (open_.symm.trans closed) Bool.false_ne_true,sound.bytes⟩
  next closed =>
    have isOpen : s.isClosed = false := Bool.eq_false_of_not_eq_true closed
    have queued := sound.queued isOpen
    split
    next direct =>
      simp only [Bool.and_eq_true,List.isEmpty_iff] at direct
      rw [direct.2,List.append_nil] at queued
      refine ⟨?_,fun _ => ?_,fun _ some_ => absurd direct.2 some_,sound.bytes⟩
      · simp only [send,queued]
        exact List.prefix_rfl
      · simp [send,queued,direct.2]
    next waits =>
      unfold enqueue
      split
      next =>
        refine ⟨longer,fun open_ => ?_,fun open_ => ?_,sound.bytes⟩
        all_goals simp [isClosed] at open_
      next =>
        refine ⟨longer,fun _ => by simp [queued],fun _ _ => ?_,by simp [sound.bytes]⟩
        cases pressed : s.backpressured with
        | true => rfl
        | false =>
          have none_ : s.queue ≠ [] := by
            intro empty
            simp [pressed,empty] at waits
          rw [sound.pressed isOpen none_] at pressed
          cases pressed

theorem flushQueueSound (queue : List Frame) : ∀ s : SseSink, s.queue = queue →
    s.isClosed = false → s.handed = s.written ++ queue →
    s.queuedBytes = (queue.map Frame.bytes).sum → Sound (s.flushQueue accepts queue) ∧
      (s.flushQueue accepts queue).handed = s.handed := by
  induction queue with
  | nil =>
    intro s same isOpen queued bytes
    unfold flushQueue
    exact ⟨⟨⟨[],queued.symm⟩,fun _ => by rw [same]; exact queued,
      fun _ some_ => absurd same some_,by rw [same]; exact bytes⟩,rfl⟩
  | cons value rest ih =>
    intro s same isOpen queued bytes
    unfold flushQueue
    split
    next pressed =>
      exact ⟨⟨⟨_,queued.symm⟩,fun _ => by rw [same]; exact queued,fun _ _ => pressed,
        by rw [same]; exact bytes⟩,rfl⟩
    next =>
      have next := ih (({s with queue := rest,queuedBytes := s.queuedBytes - value.bytes} :
        SseSink).send accepts value) rfl isOpen (by simp [send,queued]) (by
          simp only [send,bytes,List.map_cons,List.sum_cons]
          omega)
      exact ⟨next.1,next.2⟩

theorem Sound.flush (sound : Sound s) :
    Sound (s.flush accepts) ∧ (s.flush accepts).handed = s.handed := by
  unfold SseSink.flush
  split
  next => exact ⟨sound,rfl⟩
  next closed =>
    have isOpen : s.isClosed = false := by simpa using closed
    exact flushQueueSound s.queue {s with backpressured := false} rfl isOpen
      (sound.queued isOpen) sound.bytes

theorem Sound.close (sound : Sound s) : Sound s.close :=
  ⟨sound.inOrder,fun open_ => by simp [SseSink.close,isClosed] at open_,
    fun _ some_ => absurd rfl some_,rfl⟩

theorem Sound.destroy (sound : Sound s) : Sound {s with destroyed := true} :=
  ⟨sound.inOrder,fun open_ => by simp [isClosed] at open_,fun open_ => by simp [isClosed] at open_,
    sound.bytes⟩

end SseSink

namespace Stream
variable {stream : Stream} {start : Nat} {c : Connection}

theorem filterAfter {log tail : List EventRow} {afterId : Nat} {event : EventRow}
    (ascending : Ascending log) (next : log.filter (stream.wanted afterId) = event::tail) :
    afterId < event.id ∧ log.filter (stream.wanted event.id) = tail := by
  have listed : event ∈ log.filter (stream.wanted afterId) := next ▸ List.mem_cons_self
  have own := (List.mem_filter.mp listed).2
  simp only [wanted,Bool.and_eq_true,decide_eq_true_eq] at own
  have sorted : (event::tail).Pairwise fun a b => a.id < b.id :=
    next ▸ ascending.sublist List.filter_sublist
  have later := (List.pairwise_cons.mp sorted).1
  have narrower : log.filter (stream.wanted event.id) =
      (log.filter (stream.wanted afterId)).filter (stream.wanted event.id) := by
    rw [List.filter_filter]
    refine List.filter_congr fun e _ => ?_
    cases after : stream.wanted event.id e with
    | false => rfl
    | true =>
      simp only [wanted,Bool.and_eq_true,decide_eq_true_eq] at after
      simp only [wanted,after.1,Bool.true_and]
      exact (decide_eq_true (by omega)).symm
  refine ⟨own.2,?_⟩
  rw [narrower,next,List.filter_cons_of_neg (by simp [wanted]),List.filter_eq_self]
  intro e mem
  have inside : e ∈ log.filter (stream.wanted afterId) := next ▸ List.mem_cons_of_mem _ mem
  have wantedToo := (List.mem_filter.mp inside).2
  simp only [wanted,Bool.and_eq_true,decide_eq_true_eq] at wantedToo ⊢
  exact ⟨wantedToo.1,later e mem⟩

structure Sound (stream : Stream) (start : Nat) (c : Connection) : Prop where
  sink : c.sink.Sound
  ascending : Ascending c.log
  cursor : c.cursor = start ∨ ∃ e ∈ c.log, e.id = c.cursor
  later : start ≤ c.cursor
  kept : c.log.filter (stream.wanted start) =
    c.sink.handed.filterMap Frame.event ++ c.log.filter (stream.wanted c.cursor)
  read : ∀ events, c.draining = .read events → events <+: c.log.filter (stream.wanted c.cursor)

theorem Sound.drains (sound : Sound stream start c) {draining : Draining} {drainAgain : Bool}
    (other : ∀ events, draining ≠ .read events) :
    Sound stream start {c with draining,drainAgain} :=
  ⟨sound.sink,sound.ascending,sound.cursor,sound.later,sound.kept,fun events now =>
    absurd now (other events)⟩

theorem Sound.sinks (sound : Sound stream start c) {sink : SseSink} (own : sink.Sound)
    (handed : sink.handed.filterMap Frame.event = c.sink.handed.filterMap Frame.event) :
    Sound stream start {c with sink} :=
  ⟨own,sound.ascending,sound.cursor,sound.later,by rw [handed]; exact sound.kept,sound.read⟩

theorem Sound.commit (sound : Sound stream start c) (rows : List EventRow) :
    Sound stream start (stream.step c (.commit rows)) := by
  simp only [step]
  split
  next ascending =>
    have newer : rows.filter (stream.wanted start) = rows.filter (stream.wanted c.cursor) := by
      refine List.filter_congr fun e mem => ?_
      rcases sound.cursor with same | ⟨last,listed,same⟩
      · rw [same]
      · have later := sound.later
        have greater := (List.pairwise_append.mp ascending).2.2 last listed e mem
        simp only [wanted]
        congr 1
        exact decide_eq_decide.mpr (by omega)
    refine ⟨sound.sink,ascending,?_,sound.later,?_,fun events now => ?_⟩
    · exact sound.cursor.imp id fun ⟨e,listed,same⟩ => ⟨e,List.mem_append_left _ listed,same⟩
    · simp only [List.filter_append,newer,sound.kept,List.append_assoc]
    · rw [List.filter_append]
      exact (sound.read events now).trans (List.prefix_append _ _)
  next => exact sound

theorem Sound.writes (events : List EventRow) : ∀ {c : Connection}, Sound stream start c →
    (∀ events, c.draining ≠ .read events) →
    events <+: c.log.filter (stream.wanted c.cursor) →
      Sound stream start (events.foldl stream.writeEvent c) := by
  induction events with
  | nil => exact fun sound _ _ => sound
  | cons event rest ih =>
    intro c sound idle ⟨tail,next⟩
    obtain ⟨later,after⟩ := filterAfter sound.ascending next.symm
    have listed : event ∈ c.log := (List.mem_filter.mp
      (next ▸ List.mem_cons_self : event ∈ c.log.filter (stream.wanted c.cursor))).1
    rw [List.foldl_cons]
    have written : stream.writeEvent c event = {c with
        sink := c.sink.write stream.accepts (stream.eventFrame event)
        cursor := event.id} := if_neg (by omega)
    rw [written]
    refine ih ⟨sound.sink.write _,sound.ascending,.inr ⟨event,listed,rfl⟩,?_,?_,?_⟩ idle ?_
    · exact le_trans sound.later (le_of_lt later)
    · rw [sound.kept,← next,SseSink.writeHanded,List.filterMap_append]
      simp only [List.append_assoc]
      rw [after]
      rfl
    · exact fun events now => absurd now (idle events)
    · exact ⟨tail,after.symm⟩

theorem Sound.afterBatches (sound : Sound stream start c) : Sound stream start (afterBatches c) := by
  unfold Stream.afterBatches
  split
  · exact sound.drains nofun
  · exact sound.drains nofun

theorem Sound.ask (sound : Sound stream start c) : Sound stream start (ask c) := sound.drains nofun

theorem Sound.resume (sound : Sound stream start c) : Sound stream start (stream.resume c) := by
  unfold Stream.resume
  split
  next events now =>
    have idle : Sound stream start {c with draining := .settling} := sound.drains nofun
    have written := Sound.writes events idle nofun (sound.read events now)
    dsimp only
    split
    · exact written.afterBatches
    · exact written.ask
  next => exact sound

theorem Sound.query (sound : Sound stream start c) (fails : Bool) :
    Sound stream start (stream.query fails c) := by
  unfold Stream.query
  split
  next =>
    split
    next events listed =>
      refine ⟨sound.sink,sound.ascending,sound.cursor,sound.later,sound.kept,fun found now => ?_⟩
      cases now
      unfold listEventsAfter at listed
      split at listed
      · cases listed
      · cases listed
        exact List.take_prefix _ _
    next => exact sound.drains nofun
  next => exact sound

theorem Sound.wake (sound : Sound stream start c) : Sound stream start (wake c) := by
  unfold Stream.wake
  split
  next => exact sound
  next =>
    split
    next => exact sound.drains nofun
    next => exact ⟨sound.sink,sound.ascending,sound.cursor,sound.later,sound.kept,sound.read⟩

theorem Sound.step (sound : Sound stream start c) (e : Event) :
    Sound stream start (stream.step c e) := by
  cases e with
  | commit rows => exact sound.commit rows
  | wake => exact sound.wake
  | query fails => exact sound.query fails
  | resume => exact sound.resume
  | settle =>
    simp only [Stream.step,settle]
    split
    · exact sound.drains nofun
    · exact sound
  | heartbeat => exact sound.sinks (sound.sink.write _) (by simp [keepalive])
  | drained => exact sound.sinks sound.sink.flush.1 (by rw [sound.sink.flush.2])
  | close => exact sound.sinks sound.sink.close rfl
  | destroy => exact sound.sinks sound.sink.destroy rfl

theorem openedSound (stream : Stream) {log : List EventRow} (ascending : Ascending log) (start : Nat) :
    Sound stream start (opened log start) :=
  ⟨SseSink.freshSound,ascending,.inl rfl,le_rfl,rfl,nofun⟩

-- The events written are a prefix of the durable ones behind the starting cursor, and the
-- frames of the sink keep their order and their count.
theorem eventsStreamed (stream : Stream) {log : List EventRow} (ascending : Ascending log)
    (start : Nat) (events : List Event) :
    let c := reach stream.step (opened log start) events
    (c.sink.written.filterMap Frame.event <+: c.log.filter (stream.wanted start) ∧
      Ascending (c.log.filter (stream.wanted start))) ∧
    c.sink.written <+: c.sink.handed ∧
    c.sink.queuedBytes = (c.sink.queue.map Frame.bytes).sum ∧
    (c.sink.isClosed = false → c.sink.handed = c.sink.written ++ c.sink.queue ∧
      c.log.filter (stream.wanted start) =
        c.sink.handed.filterMap Frame.event ++ c.log.filter (stream.wanted c.cursor)) := by
  have sound := reachKept stream.step (I := Sound stream start) (fun _ e known => known.step e)
    (openedSound stream ascending start) events
  refine ⟨⟨?_,sound.ascending.sublist List.filter_sublist⟩,sound.sink.inOrder,sound.sink.bytes,
    fun isOpen => ⟨sound.sink.queued isOpen,sound.kept⟩⟩
  rw [sound.kept]
  exact (sound.sink.inOrder.filterMap _).trans (List.prefix_append _ _)

theorem appendCommits {m : Moment} {input : EventInput} {db db' : ControlCenterDb}
    (ascending : Ascending db.events) (numbered : ∀ e ∈ db.events, e.id ≤ db.events.length)
    (appended : appendEvent m input db = .ok db') : ∃ rows, db'.events = db.events ++ rows ∧
      stream.step (opened db.events start) (.commit rows) = opened db'.events start := by
  unfold appendEvent ControlCenterDb.insertEvent at appended
  obtain ⟨_,_,same⟩ := AccpEnvelope.exceptBind appended
  cases same
  refine ⟨_,rfl,if_pos (List.pairwise_append.mpr ⟨ascending,List.pairwise_singleton _ _,?_⟩)⟩
  intro a listed b new
  rw [List.mem_singleton.mp new]
  exact Nat.lt_succ_of_le (numbered a listed)

def logged (id : Nat) : EventRow := ⟨id,"task_1",none,"run.started",.info,"started",none,0⟩

def narrow : Stream := ⟨fun e => e.message,some "task_1",fun _ => false⟩

theorem eventsStreamedNarrow : (reach narrow.step (opened [logged 1,logged 2] 1)
    [.commit [logged 3],.wake,.query false,.resume,.drained]).sink.written.filterMap Frame.event <+:
      [logged 1,logged 2,logged 3].filter (narrow.wanted 1) :=
  (eventsStreamed narrow (show Ascending [logged 1,logged 2] by decide) 1 _).1.1

end Stream

end ControlCenter.EventStream
