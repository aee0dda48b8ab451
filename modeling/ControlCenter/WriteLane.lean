import ControlCenter.Db
import ControlCenter.Transactions
import ControlCenter.RunLogic
import Mathlib.Algebra.GroupWithZero.Nat

/-! The write lane of one database object: a chain of turns on the write connection, each
waiting for the one before it to be released, opened by init and drained by close. -/
namespace ControlCenter.WriteLane
open ActionLogic Transactions RunLogic

variable {D : Type}

-- A mutation outside a transaction leaves none open.
structure Write (D : Type) where
  run : Connection D Unit
  idle : ∀ {h}, h.working = none → (run h).2.working = none

inductive Operation (D : Type) where
  | write (body : Write D)
  | transaction (body : Connection D Unit)

inductive Turn (D : Type) where
  | waiting (operation : Operation D)
  | running (operation : Operation D)
  | released
  | abandoned

structure Lane (D : Type) where
  turns : List (Turn D)
  connection : Option (Handle D)
  opening : Bool
  closing : Bool
  closed : Bool

def Lane.initial : Lane D := ⟨[],none,false,false,false⟩

inductive Event (D : Type) where
  | init
  -- The opening that init began ends: with what is stored, or in an error.
  | opened (stored : Option D)
  | call (operation : Operation D)
  | proceed
  | close

section
variable (fault : Nat → Option Fault)

def Operation.execute : Operation D → Connection D Unit
  | .write body => body.run
  | .transaction body => withImmediateTransaction fault body

def serve : Option (Handle D) → List (Turn D) → Option (List (Turn D) × Option (Handle D))
  | _,[] => none
  | connection,.released::rest =>
      (serve connection rest).map fun (turns,connection) => (.released::turns,connection)
  | none,.waiting _::rest => some (.abandoned::rest,none)
  | some h,.waiting operation::rest => some (.running operation::rest,some h)
  | none,.running operation::rest => some (.running operation::rest,none)
  | some h,.running operation::rest => some (.released::rest,some (operation.execute fault h).2)
  | connection,.abandoned::rest => some (.abandoned::rest,connection)

def Lane.proceed (l : Lane D) : Lane D := match serve fault l.connection l.turns with
  | some (turns,connection) => {l with turns,connection}
  | none => if l.closing && !l.opening then {l with connection := none,closed := true} else l

def step (l : Lane D) : Event D → Lane D
  | .init => if l.closing || l.opening || l.connection.isSome then l else {l with opening := true}
  | .opened stored =>
      if l.opening then {l with opening := false,connection := stored.map fun d => ⟨d,none,0⟩}
      else l
  | .call operation => if l.closing then l else {l with turns := l.turns ++ [.waiting operation]}
  | .proceed => l.proceed fault
  | .close => {l with closing := true}

def Operation.Unwinds (h : Handle D) : Operation D → Prop
  | .write _ => True
  | .transaction body => ∀ opened e failed, beginImmediate fault h = (.ok (),opened) →
      committing fault body opened = (.error e,failed) →
      failed.working = none ∨ ∀ f, fault failed.issued = some f → f.rollsBack = true

def Ready : Option (Handle D) → List (Turn D) → Prop
  | _,[] => True
  | connection,.released::rest => Ready connection rest
  | connection,.waiting _::_ => connection ≠ none
  | some h,.running operation::_ => operation.Unwinds fault h
  | none,.running _::_ => True
  | _,.abandoned::_ => True

def Meets (l : Lane D) : Event D → Prop
  | .proceed => Ready fault l.connection l.turns
  | _ => True

end

section
variable {fault : Nat → Option Fault}

def Idle (connection : Option (Handle D)) : Prop := ∀ h ∈ connection, h.working = none

theorem beginIdle {h h' : Handle D} {e : String} (idle : h.working = none)
    (run : beginImmediate fault h = (.error e,h')) : h'.working = none := by
  unfold beginImmediate issue at run
  dsimp only at run
  split at run
  · obtain ⟨_,rfl⟩ := Prod.mk.inj run
    split
    · rfl
    · exact idle
  · rw [idle] at run
    cases (Prod.mk.inj run).1

theorem rollbackIdle (h : Handle D) : (rollback fault h).2.working = none ↔
    h.working = none ∨ ∀ f, fault h.issued = some f → f.rollsBack = true := by
  unfold rollback issue
  dsimp only
  cases failed : fault h.issued with
  | some f =>
    by_cases rolls : f.rollsBack = true
    · simp [rolls]
    · simp [rolls]
  | none =>
    cases working : h.working <;> simp

theorem committedIdle {body : Connection D Unit} {h h' : Handle D}
    (run : committing fault body h = (.ok (),h')) : h'.working = none := by
  unfold committing at run
  rcases ran : body h with ⟨e | ⟨⟩,middle⟩
  · rw [runError ran] at run
    cases (Prod.mk.inj run).1
  rw [runOk ran] at run
  rcases last : commit fault middle with ⟨e | ⟨⟩,done⟩
  · rw [runError last] at run
    cases (Prod.mk.inj run).1
  rw [runOk last] at run
  obtain ⟨_,rfl⟩ := Prod.mk.inj run
  unfold commit issue at last
  dsimp only at last
  split at last
  · cases (Prod.mk.inj last).1
  split at last
  · obtain ⟨_,rfl⟩ := Prod.mk.inj last
    rfl
  · cases (Prod.mk.inj last).1

theorem executeIdle {h : Handle D} (idle : h.working = none) (operation : Operation D) :
    (operation.execute fault h).2.working = none ↔ operation.Unwinds fault h := by
  cases operation with
  | write body => exact iff_of_true (body.idle idle) trivial
  | transaction body =>
    simp only [Operation.execute,Operation.Unwinds]
    unfold withImmediateTransaction
    rcases began : beginImmediate fault h with ⟨e | ⟨⟩,opened⟩
    · refine iff_of_true (beginIdle idle began) fun opened' e' failed' same => ?_
      cases (Prod.mk.inj same).1
    dsimp only
    rcases ran : committing fault body opened with ⟨e | ⟨⟩,failed⟩
    · dsimp only
      rw [rollbackIdle]
      constructor
      · intro unwound opened' e' failed' same ended
        obtain ⟨_,rfl⟩ := Prod.mk.inj same
        rw [ran] at ended
        obtain ⟨_,rfl⟩ := Prod.mk.inj ended
        exact unwound
      · exact fun unwinds => unwinds opened e failed rfl ran
    · refine iff_of_true (committedIdle ran) ?_
      intro opened' e' failed' same ended
      obtain ⟨_,rfl⟩ := Prod.mk.inj same
      rw [ran] at ended
      cases (Prod.mk.inj ended).1

def Turn.isWaiting : Turn D → Bool
  | .waiting _ => true
  | _ => false

def Turn.isRunning : Turn D → Bool
  | .running _ => true
  | _ => false

def Turn.isReleased : Turn D → Bool
  | .released => true
  | _ => false

def InOrder : List (Turn D) → Prop
  | [] => True
  | .released::rest => InOrder rest
  | _::rest => ∀ t ∈ rest, t.isWaiting = true

structure Sound (l : Lane D) : Prop where
  kept : .abandoned ∉ l.turns
  idle : Idle l.connection

structure Serves (fault : Nat → Option Fault) (connection : Option (Handle D))
    (turns turns' : List (Turn D)) (connection' : Option (Handle D)) : Prop where
  order : InOrder turns → InOrder turns'
  sound : .abandoned ∉ turns → Idle connection →
    ((.abandoned ∉ turns' ∧ Idle connection') ↔ Ready fault connection turns)
  running : (∀ t ∈ turns, t.isRunning = true → connection.isSome = true) →
    ∀ t ∈ turns', t.isRunning = true → connection'.isSome = true
  there : connection'.isSome = connection.isSome
  length : turns'.length = turns.length

theorem inOrderWaiting {turns : List (Turn D)} (waiting : ∀ t ∈ turns, t.isWaiting = true) :
    InOrder turns := by
  cases turns with
  | nil => trivial
  | cons t rest =>
    cases t with
    | waiting operation => exact fun t listed => waiting t (List.mem_cons_of_mem _ listed)
    | _ => exact absurd (waiting _ List.mem_cons_self) (by simp [Turn.isWaiting])

theorem serveSource {connection connection' : Option (Handle D)} {turns turns' : List (Turn D)}
    (h : serve fault connection turns = some (turns',connection')) :
    Serves fault connection turns turns' connection' := by
  induction turns generalizing turns' with
  | nil =>
    simp only [serve] at h
    contradiction
  | cons t rest ih =>
    cases t with
    | released =>
      simp only [serve,Option.map_eq_some_iff] at h
      obtain ⟨⟨turns,handle⟩,served,same⟩ := h
      obtain ⟨rfl,rfl⟩ := Prod.mk.inj same
      have tail := ih served
      refine ⟨tail.order,fun kept idle => ?_,fun held t listed runs => ?_,tail.there,
        by simp [tail.length]⟩
      · rw [List.mem_cons,not_or] at kept ⊢
        rw [and_assoc,and_iff_right (by simp),Ready]
        exact tail.sound kept.2 idle
      · rcases List.mem_cons.mp listed with rfl | listed
        · contradiction
        · exact tail.running (fun t listed => held t (List.mem_cons_of_mem _ listed)) t listed runs
    | abandoned =>
      simp only [serve] at h
      obtain ⟨rfl,rfl⟩ := Prod.mk.inj (Option.some.inj h)
      exact ⟨id,fun kept => absurd List.mem_cons_self kept,id,rfl,rfl⟩
    | waiting operation =>
      cases connection with
      | none =>
        simp only [serve] at h
        obtain ⟨rfl,rfl⟩ := Prod.mk.inj (Option.some.inj h)
        refine ⟨id,fun _ _ => ?_,fun held t listed runs => ?_,rfl,rfl⟩
        · simp [Ready]
        · rcases List.mem_cons.mp listed with rfl | listed
          · contradiction
          · exact held t (List.mem_cons_of_mem _ listed) runs
      | some handle =>
        simp only [serve] at h
        obtain ⟨rfl,rfl⟩ := Prod.mk.inj (Option.some.inj h)
        refine ⟨id,fun kept idle => ?_,fun _ _ _ _ => rfl,rfl,rfl⟩
        have free : .abandoned ∉ rest := fun listed => kept (List.mem_cons_of_mem _ listed)
        simp [Ready,free,idle]
    | running operation =>
      cases connection with
      | none =>
        simp only [serve] at h
        obtain ⟨rfl,rfl⟩ := Prod.mk.inj (Option.some.inj h)
        exact ⟨id,fun kept idle => iff_of_true ⟨kept,idle⟩ trivial,id,rfl,rfl⟩
      | some handle =>
        simp only [serve] at h
        obtain ⟨rfl,rfl⟩ := Prod.mk.inj (Option.some.inj h)
        refine ⟨inOrderWaiting,fun kept idle => ?_,fun _ _ _ _ => rfl,rfl,rfl⟩
        have free : .abandoned ∉ Turn.released::rest := by
          simpa using fun listed => kept (List.mem_cons_of_mem _ listed)
        rw [and_iff_right free,Ready,← executeIdle (idle handle rfl)]
        simp [Idle]

theorem serveNone {connection : Option (Handle D)} {turns : List (Turn D)}
    (h : serve fault connection turns = none) :
    Ready fault connection turns ∧ ∀ t ∈ turns, t.isReleased = true := by
  induction turns with
  | nil => exact ⟨by simp [Ready],by simp⟩
  | cons t rest ih =>
    cases t with
    | released =>
      simp only [serve,Option.map_eq_none_iff] at h
      obtain ⟨ready,released⟩ := ih h
      refine ⟨ready,fun t listed => ?_⟩
      rcases List.mem_cons.mp listed with rfl | listed
      · rfl
      · exact released t listed
    | abandoned => simp [serve] at h
    | waiting operation => cases connection <;> simp [serve] at h
    | running operation => cases connection <;> simp [serve] at h

theorem serveStops {connection : Option (Handle D)} {turns : List (Turn D)}
    {served : List (Turn D) × Option (Handle D)} (h : serve fault connection turns = some served)
    (released : ∀ t ∈ turns, t.isReleased = true) : False := by
  induction turns generalizing served with
  | nil =>
    simp only [serve] at h
    contradiction
  | cons t rest ih =>
    have first := released t List.mem_cons_self
    cases t with
    | released =>
      simp only [serve,Option.map_eq_some_iff] at h
      obtain ⟨tail,served,_⟩ := h
      exact ih served fun t listed => released t (List.mem_cons_of_mem _ listed)
    | _ => contradiction

structure Kept (l : Lane D) : Prop where
  order : InOrder l.turns
  running : ∀ t ∈ l.turns, t.isRunning = true → l.connection.isSome = true
  opening : l.opening = true → l.connection = none
  closed : l.closed = true → l.closing = true

theorem inOrderAppend {turns : List (Turn D)} {operation : Operation D} (order : InOrder turns) :
    InOrder (turns ++ [.waiting operation]) := by
  have waits {rest : List (Turn D)} (all : ∀ t ∈ rest, t.isWaiting = true) :
      ∀ t ∈ rest ++ [.waiting operation], t.isWaiting = true := by
    intro t listed
    rcases List.mem_append.mp listed with listed | listed
    · exact all t listed
    · rw [List.mem_singleton.mp listed]
      rfl
  induction turns with
  | nil => simp [InOrder]
  | cons t rest ih => cases t with
    | released => exact ih order
    | _ => exact waits order

theorem keptStep (l : Lane D) (e : Event D) (kept : Kept l) : Kept (step fault l e) := by
  cases e with
  | init =>
    unfold step
    dsimp only
    split
    · exact kept
    · rename_i fresh
      simp only [Bool.or_eq_true,not_or,Option.not_isSome_iff_eq_none] at fresh
      exact ⟨kept.order,kept.running,fun _ => fresh.2,kept.closed⟩
  | opened stored =>
    unfold step
    dsimp only
    split
    · rename_i opening
      refine ⟨kept.order,fun t listed runs => ?_,fun opening => by contradiction,kept.closed⟩
      have held := kept.running t listed runs
      rw [kept.opening opening] at held
      contradiction
    · exact kept
  | call operation =>
    unfold step
    dsimp only
    split
    · exact kept
    · refine ⟨inOrderAppend kept.order,fun t listed runs => ?_,kept.opening,kept.closed⟩
      rcases List.mem_append.mp listed with listed | listed
      · exact kept.running t listed runs
      · rw [List.mem_singleton.mp listed] at runs
        contradiction
  | proceed =>
    unfold step Lane.proceed
    dsimp only
    split
    · rename_i turns connection served
      have serves := serveSource served
      refine ⟨serves.order kept.order,serves.running kept.running,fun opening => ?_,kept.closed⟩
      rw [← Option.not_isSome_iff_eq_none,serves.there,kept.opening opening]
      simp
    · rename_i served
      split
      · rename_i drains
        refine ⟨kept.order,fun t listed runs => ?_,fun _ => rfl,
          fun _ => (Bool.and_eq_true_iff.mp drains).1⟩
        have rests := (serveNone served).2 t listed
        cases t <;> contradiction
      · exact kept
  | close => exact ⟨kept.order,kept.running,kept.opening,fun _ => rfl⟩

theorem soundStep (l : Lane D) (e : Event D) (sound : Sound l) :
    Sound (step fault l e) ↔ Meets fault l e := by
  cases e with
  | init =>
    unfold step
    dsimp only
    split <;> exact iff_of_true ⟨sound.kept,sound.idle⟩ trivial
  | opened stored =>
    unfold step
    dsimp only
    split
    · refine iff_of_true ⟨sound.kept,fun h found => ?_⟩ trivial
      obtain ⟨d,_,rfl⟩ := Option.map_eq_some_iff.mp found
      rfl
    · exact iff_of_true sound trivial
  | call operation =>
    unfold step
    dsimp only
    split
    · exact iff_of_true sound trivial
    · refine iff_of_true ⟨?_,sound.idle⟩ trivial
      simpa using sound.kept
  | proceed =>
    unfold step Lane.proceed Meets
    dsimp only
    split
    · rename_i turns connection served
      have serves := (serveSource served).sound sound.kept sound.idle
      exact ⟨fun after => serves.mp ⟨after.kept,after.idle⟩,
        fun ready => ⟨(serves.mpr ready).1,(serves.mpr ready).2⟩⟩
    · rename_i served
      have ready := (serveNone served).1
      split
      · exact iff_of_true ⟨sound.kept,fun h found => by contradiction⟩ ready
      · exact iff_of_true sound ready
  | close => exact iff_of_true ⟨sound.kept,sound.idle⟩ trivial

def Turn.left : Turn D → Nat
  | .waiting _ => 2
  | .running _ => 1
  | .released => 0
  | .abandoned => 1

def left (turns : List (Turn D)) : Nat := (turns.map Turn.left).sum

theorem leftReleased {turns : List (Turn D)} :
    left turns = 0 ↔ ∀ t ∈ turns, t.isReleased = true := by
  unfold left
  rw [List.sum_eq_zero_iff_forall_eq_nat]
  simp only [List.mem_map,forall_exists_index,and_imp,forall_apply_eq_imp_iff₂]
  exact forall₂_congr fun t _ => by cases t <;> simp [Turn.left,Turn.isReleased]

theorem serveAdvances {connection connection' : Option (Handle D)} {turns turns' : List (Turn D)}
    (h : serve fault connection turns = some (turns',connection')) (free : .abandoned ∉ turns)
    (ready : Ready fault connection turns)
    (held : ∀ t ∈ turns, t.isRunning = true → connection.isSome = true) (n : Nat) :
    left (turns'.take n) = left (turns.take n) - 1 := by
  induction turns generalizing turns' n with
  | nil =>
    simp only [serve] at h
    contradiction
  | cons t rest ih =>
    cases n with
    | zero => simp [left]
    | succ n =>
      cases t with
      | released =>
        simp only [serve,Option.map_eq_some_iff] at h
        obtain ⟨⟨turns,handle⟩,served,same⟩ := h
        obtain ⟨rfl,rfl⟩ := Prod.mk.inj same
        have tail := ih served (fun listed => free (List.mem_cons_of_mem _ listed)) ready
          (fun t listed => held t (List.mem_cons_of_mem _ listed)) n
        simpa [left,Turn.left] using tail
      | abandoned => exact absurd List.mem_cons_self free
      | waiting operation =>
        cases connection with
        | none => exact absurd rfl ready
        | some handle =>
          simp only [serve] at h
          obtain ⟨rfl,rfl⟩ := Prod.mk.inj (Option.some.inj h)
          simp only [left,List.take_succ_cons,List.map_cons,List.sum_cons,Turn.left]
          omega
      | running operation =>
        cases connection with
        | none => exact absurd (held _ List.mem_cons_self rfl) (by simp)
        | some handle =>
          simp only [serve] at h
          obtain ⟨rfl,rfl⟩ := Prod.mk.inj (Option.some.inj h)
          simp only [left,List.take_succ_cons,List.map_cons,List.sum_cons,Turn.left]
          omega

def Event.isProceed : Event D → Bool
  | .proceed => true
  | _ => false

def proceeds (events : List (Event D)) : Nat := (events.filter Event.isProceed).length

theorem leftStep {l : Lane D} {e : Event D} (kept : Kept l) (sound : Sound l)
    (meets : Meets fault l e) {n : Nat} (admitted : n ≤ l.turns.length) :
    n ≤ (step fault l e).turns.length ∧
      left ((step fault l e).turns.take n) ≤ left (l.turns.take n) - proceeds [e] := by
  cases e with
  | init =>
    unfold step
    dsimp only
    split <;> exact ⟨admitted,Nat.le_refl _⟩
  | opened stored =>
    unfold step
    dsimp only
    split <;> exact ⟨admitted,Nat.le_refl _⟩
  | call operation =>
    unfold step
    dsimp only
    split
    · exact ⟨admitted,Nat.le_refl _⟩
    · refine ⟨by simp only [List.length_append]; omega,?_⟩
      rw [List.take_append_of_le_length admitted]
      exact Nat.le_refl _
  | proceed =>
    unfold step Lane.proceed
    dsimp only
    split
    · rename_i served
      have length := (serveSource served).length
      exact ⟨by dsimp only; omega,Nat.le_of_eq (serveAdvances served sound.kept meets kept.running n)⟩
    · rename_i served
      have none : left (l.turns.take n) = 0 := leftReleased.mpr fun t listed =>
        (serveNone served).2 t (List.mem_of_mem_take listed)
      split <;> exact ⟨admitted,by rw [none]; exact Nat.zero_le _⟩
  | close => exact ⟨admitted,Nat.le_refl _⟩

def Lane.remaining (l : Lane D) : Nat := left l.turns + if l.closed then 0 else 1

structure Draining (l : Lane D) : Prop where
  closing : l.closing = true
  opening : l.opening = false

theorem drainStep {l : Lane D} {e : Event D} (kept : Kept l) (sound : Sound l)
    (meets : Meets fault l e) (draining : Draining l) :
    Draining (step fault l e) ∧
      (step fault l e).remaining ≤ l.remaining - proceeds [e] := by
  obtain ⟨closing,opening⟩ := draining
  cases e with
  | init =>
    unfold step
    simp only [closing,Bool.true_or,if_true]
    exact ⟨⟨closing,opening⟩,Nat.le_refl _⟩
  | opened stored =>
    unfold step
    simp only [opening,Bool.false_eq_true,if_false]
    exact ⟨⟨closing,opening⟩,Nat.le_refl _⟩
  | call operation =>
    unfold step
    simp only [closing,if_true]
    exact ⟨⟨closing,opening⟩,Nat.le_refl _⟩
  | proceed =>
    unfold step Lane.proceed
    dsimp only
    split
    · rename_i turns connection served
      refine ⟨⟨closing,opening⟩,?_⟩
      have length := (serveSource served).length
      have advances := serveAdvances served sound.kept meets kept.running turns.length
      rw [List.take_length,length,List.take_length] at advances
      have some_ : left l.turns ≠ 0 := fun none => serveStops served (leftReleased.mp none)
      simp only [Lane.remaining,advances,proceeds,Event.isProceed,List.filter_cons,if_true,
        List.filter_nil,List.length_singleton]
      omega
    · rename_i served
      have none : left l.turns = 0 := leftReleased.mpr (serveNone served).2
      simp only [closing,opening,Bool.not_false,Bool.and_true,if_true]
      exact ⟨⟨rfl,rfl⟩,by simp [Lane.remaining,none]⟩
  | close => exact ⟨⟨rfl,opening⟩,Nat.le_refl _⟩

def RunMeets (fault : Nat → Option Fault) (l : Lane D) (events : List (Event D)) : Prop :=
  ∀ front e back, events = front ++ e::back → Meets fault (reach (step fault) l front) e

theorem RunMeets.back {l : Lane D} {back : List (Event D)} (front : List (Event D))
    (meets : RunMeets fault l (front ++ back)) :
    RunMeets fault (reach (step fault) l front) back := by
  intro first e rest split
  have here := meets (front ++ first) e rest (by rw [split,List.append_assoc])
  rwa [reachAppend] at here

theorem proceedsCons (e : Event D) (rest : List (Event D)) :
    proceeds (e::rest) = proceeds [e] + proceeds rest := by
  unfold proceeds
  rw [← List.singleton_append,List.filter_append,List.length_append]

theorem runReleases {l : Lane D} {events : List (Event D)} (kept : Kept l) (sound : Sound l)
    (meets : RunMeets fault l events) {n : Nat} (admitted : n ≤ l.turns.length) :
    left ((reach (step fault) l events).turns.take n) ≤ left (l.turns.take n) - proceeds events := by
  induction events generalizing l with
  | nil => exact Nat.le_refl _
  | cons e rest ih =>
    have first : Meets fault l e := meets [] e rest rfl
    obtain ⟨grown,nearer⟩ := leftStep kept sound first admitted
    have tail := ih (keptStep l e kept) ((soundStep l e sound).mpr first)
      (meets.back [e]) grown
    rw [proceedsCons]
    exact Nat.le_trans tail (by omega)

theorem runDrains {l : Lane D} {events : List (Event D)} (kept : Kept l) (sound : Sound l)
    (meets : RunMeets fault l events) (draining : Draining l) :
    (reach (step fault) l events).remaining ≤ l.remaining - proceeds events := by
  induction events generalizing l with
  | nil => exact Nat.le_refl _
  | cons e rest ih =>
    have first : Meets fault l e := meets [] e rest rfl
    obtain ⟨draining,nearer⟩ := drainStep kept sound first draining
    have tail := ih (keptStep l e kept) ((soundStep l e sound).mpr first)
      (meets.back [e]) draining
    rw [proceedsCons]
    exact Nat.le_trans tail (by omega)

def laneAfter (fault : Nat → Option Fault) (events : List (Event D)) : Lane D :=
  reach (step fault) .initial events

structure NeverPoisoned (fault : Nat → Option Fault) (events : List (Event D)) : Prop where
  sound : ∀ front back, events = front ++ back →
    InOrder (laneAfter fault front).turns ∧ Sound (laneAfter fault front)
  releases : ∀ front back, events = front ++ back →
    left (laneAfter fault front).turns ≤ proceeds back →
    ∀ t ∈ (laneAfter fault events).turns.take (laneAfter fault front).turns.length,
      t.isReleased = true
  closes : ∀ front back, events = front ++ back → Draining (laneAfter fault front) →
    left (laneAfter fault front).turns < proceeds back →
    (laneAfter fault events).closed = true

theorem initialKept : Kept (Lane.initial : Lane D) :=
  ⟨trivial,fun _ _ => by simp_all [Lane.initial],fun opening => by contradiction,
    fun closed => by contradiction⟩

theorem initialSound : Sound (Lane.initial : Lane D) :=
  ⟨List.not_mem_nil,fun _ found => by contradiction⟩

theorem laneNeverPoisoned (fault : Nat → Option Fault) (events : List (Event D)) :
    NeverPoisoned fault events ↔ RunMeets fault .initial events := by
  have everySound := everyPrefix (step fault) (I := Sound) (J := Kept) (D := Meets fault)
    (fun l e => keptStep l e) (fun l e _ => soundStep l e) initialKept initialSound events
  constructor
  · exact fun never => everySound.mp fun front back split => (never.sound front back split).2
  intro meets
  have sounds := everySound.mpr meets
  have keeps (front : List (Event D)) : Kept (laneAfter fault front) :=
    reachKept (step fault) (fun l e => keptStep l e) initialKept front
  have after {front back : List (Event D)} (split : events = front ++ back) :
      laneAfter fault events = reach (step fault) (laneAfter fault front) back ∧
        RunMeets fault (laneAfter fault front) back := by
    subst split
    exact ⟨reachAppend _ _ _ _,meets.back front⟩
  refine ⟨fun front back split => ⟨(keeps front).order,sounds front back split⟩,?_,?_⟩
  · intro front back split enough
    obtain ⟨same,meets⟩ := after split
    apply leftReleased.mp
    have releases := runReleases (keeps front) (sounds front back split) meets (Nat.le_refl _)
    rw [← same,List.take_length] at releases
    omega
  · intro front back split draining enough
    obtain ⟨same,meets⟩ := after split
    have drains := runDrains (keeps front) (sounds front back split) meets draining
    rw [← same] at drains
    have at_ : (laneAfter fault front).remaining ≤ left (laneAfter fault front).turns + 1 := by
      unfold Lane.remaining
      split <;> omega
    have none : (laneAfter fault events).remaining = 0 := by omega
    unfold Lane.remaining at none
    by_contra open_
    rw [if_neg open_] at none
    omega

end

def claimTask : Operation Db.ControlCenterDb :=
  .transaction (statement (fun _ => none) fun db =>
    (Db.claimNextTask ⟨1000,"1"⟩ "worker-1" db).map fun (_,next) => ((),next))

def earlyClaim : List (Event Db.ControlCenterDb) :=
  [.call claimTask,.proceed,.init,.opened (some .empty),.call claimTask,.close]

def earlyLane : Lane Db.ControlCenterDb := laneAfter (fun _ => none) earlyClaim

theorem earlyStuck : step (fun _ => none) earlyLane .proceed = earlyLane := rfl

theorem earlyStays (n : Nat) :
    laneAfter (fun _ => none) (earlyClaim ++ List.replicate n .proceed) = earlyLane := by
  induction n with
  | zero => rfl
  | succ n ih =>
    rw [List.replicate_succ',← List.append_assoc]
    unfold laneAfter at ih ⊢
    rw [reachLast,ih]
    exact earlyStuck

theorem lanePoisoned : ¬∃ n,
    (laneAfter (fun _ => none) (earlyClaim ++ List.replicate n .proceed)).closed = true ∨
    (laneAfter (fun _ => none) (earlyClaim ++ List.replicate n .proceed)).turns ≠
      [.abandoned,.waiting claimTask] := by
  rintro ⟨n,moved⟩
  rw [earlyStays n] at moved
  rcases moved with closed | other
  · contradiction
  · exact other rfl

end ControlCenter.WriteLane
