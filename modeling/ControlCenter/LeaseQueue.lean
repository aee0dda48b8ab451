import Mathlib.Data.List.Induction

/-! The accepted leases of a connection that runs the coordinator's bridge. Each acceptance
chains one more drain of the queue onto a promise; a drain that throws rejects the chain,
and no callback chained onto it is ever called. -/
namespace ControlCenter.LeaseQueue

-- What became of the last drain that was called: it returned, it awaits an execution and
-- the report of it, or it threw.
inductive Chain where
  | settled
  | executing (leaseId : String)
  | rejected
  deriving DecidableEq, Repr

structure Queue where
  pendingLeases : List String
  waiting : Nat
  chain : Chain
  deriving DecidableEq, Repr

def Queue.fresh : Queue := ⟨[],0,.settled⟩

def Queue.enqueue (q : Queue) (leaseId : String) : Queue :=
  {q with pendingLeases := q.pendingLeases ++ [leaseId],waiting := q.waiting + 1}

def Queue.drain (q : Queue) : Queue := match q.pendingLeases with
  | [] => {q with chain := .settled}
  | leaseId::rest => {q with pendingLeases := rest,chain := .executing leaseId}

inductive Turn where
  | accepted (leaseId : String)
  | called
  | executed
  | failed
  deriving DecidableEq, Repr

def Queue.turn (q : Queue) : Turn → Option Queue
  | .accepted leaseId => some (q.enqueue leaseId)
  | .called => match q.chain,q.waiting with
    | .settled,waiting + 1 => some {q with waiting}.drain
    | _,_ => none
  | .executed => match q.chain with
    | .executing _ => some q.drain
    | _ => none
  | .failed => match q.chain with
    | .executing _ => some {q with chain := .rejected}
    | _ => none

def Turn.accepts : Turn → Option String
  | .accepted leaseId => some leaseId
  | _ => none

def Queue.passes (q : Queue) : Turn → Option String
  | .called | .executed => q.pendingLeases.head?
  | _ => none

def Queue.work : Queue → List Turn → Option Queue
  | q,[] => some q
  | q,t::rest => (q.turn t).bind fun next => next.work rest

def Queue.passed : Queue → List Turn → List String
  | _,[] => []
  | q,t::rest => match q.turn t with
    | none => []
    | some next => (q.passes t).toList ++ next.passed rest

def acceptedIn (turns : List Turn) : List String := turns.filterMap Turn.accepts

def Queue.AtRest (q : Queue) : Prop :=
  ∀ t : Turn, t.accepts = none → q.turn t = none

def Queue.effort (q : Queue) : Nat :=
  2 * q.pendingLeases.length + q.waiting + match q.chain with
    | .executing _ => 1
    | _ => 0

def Queue.Live (q : Queue) : Prop :=
  q.chain = .settled → q.waiting = 0 → q.pendingLeases = []

variable {q r : Queue} {t : Turn}

theorem drainLive (q : Queue) : q.drain.Live := by
  unfold Queue.drain
  split
  · exact fun _ _ => ‹_›
  · exact fun settled => by contradiction

theorem drainPasses (q : Queue) :
    q.pendingLeases.head?.toList ++ q.drain.pendingLeases = q.pendingLeases := by
  unfold Queue.drain
  split
  · rename_i none
    simp [none]
  · rename_i leaseId rest pending
    simp [pending]

theorem drainEffort (q : Queue) :
    q.drain.effort ≤ 2 * q.pendingLeases.length + q.waiting := by
  unfold Queue.drain
  split
  · simp [Queue.effort]
  · rename_i leaseId rest pending
    simp only [Queue.effort,pending,List.length_cons]
    omega

inductive Turned (q : Queue) : Turn → Queue → Prop where
  | accepted (leaseId : String) : Turned q (.accepted leaseId) (q.enqueue leaseId)
  | called (waiting : Nat) (settled : q.chain = .settled) (chained : q.waiting = waiting + 1) :
      Turned q .called {q with waiting}.drain
  | executed (leaseId : String) (running : q.chain = .executing leaseId) :
      Turned q .executed q.drain
  | failed (leaseId : String) (running : q.chain = .executing leaseId) :
      Turned q .failed {q with chain := .rejected}

theorem turnSource (h : q.turn t = some r) : Turned q t r := by
  cases t with
  | accepted leaseId =>
    cases Option.some.inj h
    exact .accepted leaseId
  | called =>
    simp only [Queue.turn] at h
    split at h
    · cases Option.some.inj h
      exact .called _ ‹_› ‹_›
    · contradiction
  | executed =>
    simp only [Queue.turn] at h
    split at h
    · cases Option.some.inj h
      exact .executed _ ‹_›
    · contradiction
  | failed =>
    simp only [Queue.turn] at h
    split at h
    · cases Option.some.inj h
      exact .failed _ ‹_›
    · contradiction

theorem turnPasses (h : q.turn t = some r) :
    (q.passes t).toList ++ r.pendingLeases = q.pendingLeases ++ t.accepts.toList := by
  cases turnSource h with
  | accepted leaseId => rfl
  | called waiting settled chained =>
    exact (drainPasses {q with waiting}).trans (List.append_nil _).symm
  | executed leaseId running => exact (drainPasses q).trans (List.append_nil _).symm
  | failed leaseId running => exact (List.append_nil _).symm

theorem turnLive (h : q.turn t = some r) : r.Live := by
  cases turnSource h with
  | accepted leaseId => exact fun _ none => by simp [Queue.enqueue] at none
  | called waiting settled chained => exact drainLive _
  | executed leaseId running => exact drainLive _
  | failed leaseId running => exact fun settled => by contradiction

theorem turnRejected (rejected : q.chain = .rejected) (h : q.turn t = some r) :
    r.chain = .rejected ∧ q.passes t = none := by
  cases turnSource h with
  | accepted leaseId => exact ⟨rejected,rfl⟩
  | called waiting settled chained => rw [rejected] at settled; contradiction
  | executed leaseId running => rw [rejected] at running; contradiction
  | failed leaseId running => rw [rejected] at running; contradiction

theorem turnShortens (own : t.accepts = none) (h : q.turn t = some r) : r.effort < q.effort := by
  cases turnSource h with
  | accepted leaseId => contradiction
  | called waiting settled chained =>
    have short := drainEffort {q with waiting}
    simp only [Queue.effort,settled,chained] at short ⊢
    omega
  | executed leaseId running =>
    have short := drainEffort q
    simp only [Queue.effort,running] at short ⊢
    omega
  | failed leaseId running =>
    simp only [Queue.effort,running]
    omega

theorem workCons {rest : List Turn} {u : Queue} (ran : q.work (t::rest) = some u) :
    ∃ r, q.turn t = some r ∧ r.work rest = some u := Option.bind_eq_some_iff.mp ran

theorem workAppend {front back : List Turn} : q.work (front ++ back) =
    (q.work front).bind fun r => r.work back := by
  induction front generalizing q with
  | nil => rfl
  | cons t rest ih =>
    rw [List.cons_append,Queue.work,Queue.work,Option.bind_assoc]
    exact Option.bind_congr fun _ _ => ih

theorem passedAppend {front back : List Turn} (ran : q.work front = some r) :
    q.passed (front ++ back) = q.passed front ++ r.passed back := by
  induction front generalizing q with
  | nil => cases Option.some.inj ran; rfl
  | cons t rest ih =>
    obtain ⟨next,turned,ran⟩ := workCons ran
    rw [List.cons_append,Queue.passed,Queue.passed,turned]
    dsimp only
    rw [ih ran,List.append_assoc]

theorem workPasses {turns : List Turn} (ran : q.work turns = some r) :
    q.passed turns ++ r.pendingLeases = q.pendingLeases ++ acceptedIn turns := by
  induction turns generalizing q with
  | nil =>
    cases Option.some.inj ran
    exact (List.append_nil _).symm
  | cons t rest ih =>
    obtain ⟨next,turned,ran⟩ := workCons ran
    have first := turnPasses turned
    rw [Queue.passed,turned]
    dsimp only
    rw [List.append_assoc,ih ran,← List.append_assoc,first,List.append_assoc,acceptedIn,acceptedIn,
      List.filterMap_cons]
    cases t.accepts <;> rfl

theorem workLive {turns : List Turn} (live : q.Live) (ran : q.work turns = some r) : r.Live := by
  induction turns generalizing q with
  | nil => cases Option.some.inj ran; exact live
  | cons t rest ih =>
    obtain ⟨next,turned,ran⟩ := workCons ran
    exact ih (turnLive turned) ran

theorem workRejected {turns : List Turn} (rejected : q.chain = .rejected)
    (ran : q.work turns = some r) : r.chain = .rejected ∧ q.passed turns = [] := by
  induction turns generalizing q with
  | nil => cases Option.some.inj ran; exact ⟨rejected,rfl⟩
  | cons t rest ih =>
    obtain ⟨next,turned,ran⟩ := workCons ran
    obtain ⟨still,none⟩ := turnRejected rejected turned
    obtain ⟨last,silent⟩ := ih still ran
    refine ⟨last,?_⟩
    rw [Queue.passed,turned]
    dsimp only
    rw [none,silent]
    rfl

theorem workEnds {turns : List Turn} (own : acceptedIn turns = []) (ran : q.work turns = some r) :
    turns.length + r.effort ≤ q.effort := by
  induction turns generalizing q with
  | nil =>
    cases Option.some.inj ran
    exact Nat.le_of_eq (Nat.zero_add _)
  | cons t rest ih =>
    obtain ⟨next,turned,ran⟩ := workCons ran
    rw [acceptedIn,List.filterMap_eq_nil_iff] at own
    have shorter := turnShortens (own t (by simp)) turned
    have later := ih (List.filterMap_eq_nil_iff.mpr fun u listed => own u (by simp [listed])) ran
    rw [List.length_cons]
    omega

theorem restChain (rest : q.AtRest) (live : q.Live) :
    q.chain = .rejected ∨ q.pendingLeases = [] := by
  cases chain : q.chain with
  | settled =>
    refine .inr (live chain ?_)
    have idle := rest .called rfl
    simp only [Queue.turn,chain] at idle
    split at idle
    · contradiction
    · rename_i other
      cases waiting : q.waiting with
      | zero => rfl
      | succ waiting => exact absurd waiting (other _ rfl)
  | executing leaseId =>
    have idle := rest .executed rfl
    simp [Queue.turn,chain] at idle
  | rejected => exact .inl rfl

theorem rejectedRests (rejected : q.chain = .rejected) : q.AtRest := by
  intro t own
  cases t with
  | accepted leaseId => contradiction
  | _ => simp [Queue.turn,rejected]

theorem rejectedSource {turns : List Turn} (intact : q.chain ≠ .rejected)
    (ran : q.work turns = some r) (rejected : r.chain = .rejected) :
    ∃ front back u, turns = front ++ .failed::back ∧ q.work front = some u ∧
      u.work (.failed::back) = some r := by
  induction turns generalizing q with
  | nil => cases Option.some.inj ran; exact absurd rejected intact
  | cons t rest ih =>
    have whole := ran
    obtain ⟨next,turned,ran⟩ := workCons ran
    by_cases fails : t = .failed
    · subst fails
      exact ⟨[],rest,q,rfl,rfl,whole⟩
    · have still : next.chain ≠ .rejected := by
        cases turnSource turned with
        | accepted leaseId => exact intact
        | failed leaseId running => exact absurd rfl fails
        | _ =>
          unfold Queue.drain
          split <;> simp
      obtain ⟨front,back,u,split,before,after⟩ := ih still ran
      refine ⟨t::front,back,u,by rw [split]; rfl,?_,after⟩
      rw [Queue.work,turned]
      exact before

def Queue.WillExecute (q : Queue) (leaseId : String) : Prop :=
  ∃ turns r, (∀ t ∈ turns, t = .called ∨ t = .executed) ∧ q.work turns = some r ∧
    leaseId ∈ q.passed turns

theorem nextTurn (live : q.Live) (intact : q.chain ≠ .rejected) {leaseId : String}
    {rest : List String} (pending : q.pendingLeases = leaseId::rest) :
    ∃ t r, (t = .called ∨ t = .executed) ∧ q.turn t = some r ∧ q.passes t = some leaseId ∧
      r.pendingLeases = rest ∧ r.chain = .executing leaseId := by
  cases chain : q.chain with
  | settled =>
    cases waiting : q.waiting with
    | zero =>
      rw [live chain waiting] at pending
      contradiction
    | succ left =>
      refine ⟨.called,_,.inl rfl,by rw [Queue.turn,chain,waiting],by rw [Queue.passes,pending]; rfl,?_⟩
      simp [Queue.drain,pending]
  | executing other =>
    refine ⟨.executed,_,.inr rfl,by rw [Queue.turn,chain],by rw [Queue.passes,pending]; rfl,?_⟩
    simp [Queue.drain,pending]
  | rejected => exact absurd chain intact

theorem willExecutePending (live : q.Live) {leaseId : String} :
    q.WillExecute leaseId ↔ leaseId ∈ q.pendingLeases ∧ q.chain ≠ .rejected := by
  constructor
  · rintro ⟨turns,r,own,ran,passed⟩
    have silent : acceptedIn turns = [] := List.filterMap_eq_nil_iff.mpr fun t listed => by
      rcases own t listed with rfl | rfl <;> rfl
    have left := workPasses ran
    rw [silent,List.append_nil] at left
    refine ⟨by rw [← left]; exact List.mem_append_left _ passed,fun rejected => ?_⟩
    rw [(workRejected rejected ran).2] at passed
    contradiction
  · rintro ⟨pending,intact⟩
    generalize listed : q.pendingLeases = leases at pending
    induction leases generalizing q with
    | nil => contradiction
    | cons first rest ih =>
      obtain ⟨t,r,kind,turned,passes,left,running⟩ := nextTurn live intact listed
      have here : q.passed [t] = [first] := by
        rw [Queue.passed,turned]
        dsimp only
        rw [passes]
        rfl
      rcases List.mem_cons.mp pending with rfl | later
      · refine ⟨[t],r,by simpa using kind,by rw [Queue.work,turned]; rfl,by rw [here]; simp⟩
      · obtain ⟨turns,u,own,ran,passed⟩ :=
          ih (turnLive turned) (by rw [running]; simp) left later
        refine ⟨t::turns,u,?_,by rw [Queue.work,turned]; exact ran,?_⟩
        · simpa using ⟨kind,own⟩
        · rw [Queue.passed,turned]
          exact List.mem_append_right _ passed

-- Every accepted lease is passed to executeAccepted once, in the order of acceptance, and
-- none is left when the queue comes to rest, as it does once acceptances stop.
structure ExecutesAll (turns : List Turn) : Prop where
  inOrder : ∀ front back q, turns = front ++ back → Queue.fresh.work front = some q →
    Queue.fresh.passed front <+: acceptedIn front
  all : ∀ front back q, turns = front ++ back → Queue.fresh.work front = some q → q.AtRest →
    Queue.fresh.passed front = acceptedIn front
  ends : ∀ front back q, turns = front ++ back → Queue.fresh.work front = some q →
    ∀ later r, acceptedIn later = [] → q.work later = some r → later.length ≤ q.effort

theorem freshPasses {turns : List Turn} (ran : Queue.fresh.work turns = some q) :
    Queue.fresh.passed turns ++ q.pendingLeases = acceptedIn turns := workPasses ran

/-- In every run of the queue each accepted lease is executed once and in order, whatever
fails, exactly when an execution fails only with no lease pending and none accepted later. -/
theorem leasesExecuted {turns : List Turn} (ran : Queue.fresh.work turns = some r) :
    ExecutesAll turns ↔ ∀ front back q, turns = front ++ .failed::back →
      Queue.fresh.work front = some q → q.pendingLeases = [] ∧ acceptedIn back = [] := by
  constructor
  · intro holds front back q split before
    have whole := ran
    rw [split,workAppend,before,Option.bind_some] at ran
    obtain ⟨next,turned,after⟩ := workCons ran
    have stopped : next.chain = .rejected ∧ next.pendingLeases = q.pendingLeases := by
      cases turnSource turned with
      | failed leaseId running => exact ⟨rfl,rfl⟩
    have failed : Queue.fresh.work (front ++ [.failed]) = some next := by
      rw [workAppend,before,Option.bind_some,Queue.work,turned]
      rfl
    have here := holds.all (front ++ [.failed]) back next (by rw [split,List.append_assoc]; rfl)
      failed (rejectedRests stopped.1)
    have left := freshPasses failed
    rw [here,List.append_right_eq_self,stopped.2] at left
    obtain ⟨still,silent⟩ := workRejected stopped.1 after
    have last := holds.all turns [] r (List.append_nil _).symm whole (rejectedRests still)
    have parts : acceptedIn ((front ++ [.failed]) ++ back) =
      acceptedIn (front ++ [.failed]) ++ acceptedIn back := List.filterMap_append
    rw [split,show front ++ .failed::back = (front ++ [.failed]) ++ back by
      rw [List.append_assoc]; rfl,passedAppend failed,silent,List.append_nil,here,parts] at last
    exact ⟨left,List.append_right_eq_self.mp last.symm⟩
  · intro spared
    refine ⟨fun front back q _ before => ⟨_,freshPasses before⟩,?_,?_⟩
    · intro front back q split before rest
      have left := freshPasses before
      rcases restChain rest (workLive (fun _ _ => rfl) before) with rejected | none
      · obtain ⟨first,later,u,cut,begun,after⟩ := rejectedSource (by decide) before rejected
        obtain ⟨empty,silent⟩ := spared first (later ++ back) u
          (by rw [split,cut,List.append_assoc]; rfl) begun
        rw [acceptedIn,List.filterMap_append,List.append_eq_nil_iff] at silent
        have none := workPasses after
        rw [empty,acceptedIn,List.filterMap_cons_none rfl,silent.1,List.append_nil,
          List.append_eq_nil_iff] at none
        rwa [none.2,List.append_nil] at left
      · rwa [none,List.append_nil] at left
    · intro front back q _ _ later r own ran
      have bounded := workEnds own ran
      omega

theorem laterLeaseStranded : ∃ turns r, Queue.fresh.work turns = some r ∧ ¬ExecutesAll turns := by
  have ran : Queue.fresh.work [.accepted "lease-1",.called,.accepted "lease-2",.failed] =
    some ⟨["lease-2"],1,.rejected⟩ := by decide
  refine ⟨_,_,ran,fun holds => ?_⟩
  have all := holds.all _ [] _ (List.append_nil _).symm ran (rejectedRests rfl)
  exact absurd all (by decide)

theorem bothLeasesExecuted : ExecutesAll [.accepted "lease-1",.called,.accepted "lease-2",
    .executed,.failed] := by
  have ran : Queue.fresh.work [.accepted "lease-1",.called,.accepted "lease-2",.executed,
    .failed] = some ⟨[],1,.rejected⟩ := by decide
  refine (leasesExecuted ran).mpr fun front back q split before => ?_
  have last : front = [.accepted "lease-1",.called,.accepted "lease-2",.executed] ∧ back = [] := by
    rcases front with _ | ⟨a,_ | ⟨b,_ | ⟨c,_ | ⟨d,_ | ⟨e,rest⟩⟩⟩⟩⟩ <;> simp at split ⊢
    simp [split]
  obtain ⟨rfl,rfl⟩ := last
  cases Option.some.inj before
  exact ⟨rfl,rfl⟩

end ControlCenter.LeaseQueue
