import ControlCenter.Guarantees

/-! One worker loop. Runs are started one after another, the next when the one before has
settled or its process is gone; everything else comes at any time, and between any two
questions of a run. -/
namespace ControlCenter.SingleRunner
open Db Dialogue Reliance Ports Coordinator Execution Operations ControlCenter.System Guarantees
open ExecutionQuestions ScriptRuns

structure Office where
  center : Center
  runner : Option ThreadId

def settled (job : Job) : Bool := match job.main with
  | .ask _ _ => false
  | _ => true

namespace Office

def initial : Office := ⟨.initial,none⟩

def world (o : Office) : World := o.center.world

def idle (o : Office) : Bool := o.center.pool.all fun l => o.runner != some l.id || settled l.job

end Office

variable (fleet : Nat → Options)

def step (o : Office) : Event → Option Office
  | .start process .runNext =>
      if o.idle then (System.step fleet o.center (.start process .runNext)).map fun center =>
        ⟨center,some ⟨o.center.next,process⟩⟩
      else none
  | e => (System.step fleet o.center e).map fun center => {o with center}

def Moves (o o' : Office) : Prop := ∃ e, step fleet o e = some o'

def Reach : Office → Office → Prop := Relation.ReflTransGen (Moves fleet)

structure Rules where
  tame : Question → Prop
  may : ThreadId → Question → World → Prop
  holds : World → Prop

def Rules.terms (r : Rules) (n : ThreadId) : Terms where
  may i q w := r.tame q ∨ (i = ⟨n,none⟩ ∧ r.may n q w)
  fair _ _ _ _ := True
  holds := r.holds

def Bounded (main member : Question → Prop) : Joint Question Answer String StepOutcome → Prop
  | .inl q => main q
  | .inr members => ∀ m ∈ members, Asks member m.2

structure Tamed (main member : Question → Prop) (job : Job) : Prop where
  script : Asks (Bounded main member) job.main
  orphans : ∀ m ∈ job.orphans, Asks member m.2

structure Rules.Kept (r : Rules) (fleet : Nat → Options) : Prop where
  initial : r.holds Center.initial.world
  tame : ∀ i c q w, r.holds w → r.tame q → r.holds (respond i c w q).2
  may : ∀ n c q w, r.holds w → r.may n q w → r.holds (respond ⟨n,none⟩ c w q).2
  memory : ∀ change, r.tame (.memory change)
  calm : ∀ q, Calm q → r.tame q
  members : ∀ o, Asks (Bounded (fun _ => True) r.tame) (Call.runNext.program o)
  starts : ∀ n w, r.holds w →
    SafeCrew (r.terms n).setting n (Call.runNext.program (fleet n.process)) (fun _ _ => True) w

section
variable {main member : Question → Prop}

theorem replaceEither {key : String} {c : Script Question Answer StepOutcome}
    {members : List (Member Question Answer String StepOutcome)}
    {m : Member Question Answer String StepOutcome} (h : m ∈ replace key c members) :
    m = (key,c) ∨ m ∈ members := by
  induction members with
  | nil => cases h
  | cons first rest ih =>
    obtain ⟨k,old⟩ := first
    unfold replace at h
    split at h
    · rename_i same
      rcases List.mem_cons.mp h with rfl | later
      · exact .inl (by rw [same])
      · exact .inr (List.mem_cons_of_mem _ later)
    · rcases List.mem_cons.mp h with rfl | later
      · exact .inr List.mem_cons_self
      · exact (ih later).imp id (List.mem_cons_of_mem _)

theorem replaceAsks {key : String} {q : Question} {rest : Except String (Answer q) →
    Script Question Answer StepOutcome} {r : Except String (Answer q)}
    {members : List (Member Question Answer String StepOutcome)}
    (found : Dialogue.member key members = some (.ask q rest))
    (each : ∀ m ∈ members, Asks member m.2) :
    ∀ m ∈ replace key (rest r) members, Asks member m.2 := by
  intro m inside
  rcases replaceEither inside with rfl | old
  · exact (each _ (memberListed found)).2 r
  · exact each m old

theorem tamedAsked {job : Job} {pick : Pick String} {k : Option String} {q : Question}
    (tamed : Tamed main member job) (h : asked pick job = some (k,q)) :
    (k = none ∧ main q) ∨ (k ≠ none ∧ member q) := by
  unfold asked at h
  split at h
  · cases Option.some.inj h
    exact .inl ⟨rfl,tamed.script.1⟩
  · split at h
    next found =>
      cases Option.some.inj h
      exact .inr ⟨Option.some_ne_none _,(tamed.script.1 _ (memberListed found)).1⟩
    next => cases h
  · split at h
    next found =>
      cases Option.some.inj h
      exact .inr ⟨Option.some_ne_none _,(tamed.orphans _ (memberListed found)).1⟩
    next => cases h
  · cases h

theorem tamedAdvance {job next : Job} {respond : Option String → Respond Question Answer World}
    {pick : Pick String} {w after : World} (tamed : Tamed main member job)
    (h : job.advance respond pick w = some (next,after)) : Tamed main member next := by
  obtain ⟨script,orphans⟩ := tamed
  cases advanceMoved h with
  | main => exact ⟨script.2 _,orphans⟩
  | member found =>
    exact ⟨⟨replaceAsks found script.1,script.2⟩,orphans⟩
  | join joined => exact ⟨script.2 _,orphans⟩
  | reject failed =>
    refine ⟨script.2 _,fun m inside => ?_⟩
    rcases List.mem_append.mp inside with old | left
    · exact orphans m old
    · exact script.1 m (List.mem_of_mem_filter left)
  | orphan found => exact ⟨script,replaceAsks found orphans⟩

theorem tamedSettled {job : Job} (tamed : Tamed main member job) (ended : settled job = true) :
    Tamed member member job := by
  obtain ⟨script,orphans⟩ := job
  refine ⟨?_,tamed.orphans⟩
  cases script with
  | ask q next => cases ended
  | done a => trivial
  | fail error => trivial

theorem tamedCalm {o : Options} {call : Call} (calm : ∀ q, Calm q → main q)
    (other : call ≠ .runNext) : Tamed main member (Thread.start (call.program o)) := by
  refine ⟨asksMono (fun q asks => ?_) (calmCall o call other),fun _ inside => nomatch inside⟩
  cases q with
  | inl q => exact calm q asks
  | inr members => exact asks.elim

theorem boundedAlone {α : Type} (p : Dialog α) :
    Asks (Bounded (fun _ => True) member) (Script.alone p : TaskCrew α) := by
  have anything : Asks (fun _ => True) p := by
    induction p with
    | done a => trivial
    | fail error => trivial
    | ask q next ih => exact ⟨trivial,ih⟩
  exact asksAlone (fun _ _ => trivial) anything

theorem boundedSequences (o : Options) (task : TaskRow) (pending : List RouteStepRow)
    (sequences : List Nat) (c : Carried)
    (may : ∀ step prior heard q, MayAsk step prior heard q → member q) :
    Asks (Bounded (fun _ => True) member) (runSequences o task pending sequences c) := by
  induction sequences generalizing c with
  | nil => exact boundedAlone _
  | cons sequence rest ih =>
    refine asksBind (boundedAlone _) fun stopping => ?_
    split
    · exact boundedAlone _
    refine asksBind ⟨fun m inside => ?_,fun r => by cases r <;> trivial⟩ fun all => ?_
    · obtain ⟨step,_,rfl⟩ := List.mem_map.mp inside
      exact asksMono (fun q ⟨heard,asks⟩ => may step c.priorResults heard q asks)
        (leadsAsks (executeLeads task c.inheritedWorktree))
    · refine asksBind (boundedAlone _) fun stopping => ?_
      split
      · exact boundedAlone _
      · split
        · exact boundedAlone _
        · exact ih _

theorem runMembers (o : Options) (may : ∀ step prior heard q, MayAsk step prior heard q → member q) :
    Asks (Bounded (fun _ => True) member) (Call.runNext.program o) := by
  refine asksBind ?_ fun _ => asksDone _
  refine asksBind (boundedAlone _) fun stopping => ?_
  split
  · exact asksDone _
  refine asksBind (boundedAlone _) fun claimed => ?_
  cases claimed with
  | none => exact asksDone _
  | some taskId =>
    refine asksBind ?_ fun _ => asksDone _
    refine asksBind (boundedAlone _) fun aggregate => ?_
    cases aggregate with
    | none => exact asksFail _
    | some aggregate =>
      dsimp only
      split
      · exact asksFail _
      split
      · exact asksFail _
      refine asksBind (boundedAlone _) fun stopping => ?_
      split
      · exact boundedAlone _
      · exact asksBind (boundedAlone _) fun _ => boundedSequences o _ _ _ _ may

end

structure Standing (r : Rules) (o : Office) : Prop where
  holds : r.holds o.world
  distinct : (o.center.pool.map Live.id).Nodup
  older : ∀ l ∈ o.center.pool, l.id.number < o.center.next
  started : ∀ n, o.runner = some n → n.number < o.center.next
  runner : ∀ l ∈ o.center.pool, o.runner = some l.id →
    Good (r.terms l.id).setting l.id l.job o.world ∧ Tamed (fun _ => True) r.tame l.job
  others : ∀ l ∈ o.center.pool, o.runner ≠ some l.id → Tamed r.tame r.tame l.job

section
variable {r : Rules} {fleet : Nat → Options} {o o' : Office}

theorem tameActs {n : ThreadId} {i : Who} {c : Choice} {q : Question} {w : World}
    (held : r.holds w) (tame : r.tame q) :
    Acts (r.terms n).setting i w (respond i c w q).2 :=
  ⟨q,(respond i c w q).1,.inl tame,held,c,trivial,rfl⟩

theorem runnerActs (kept : r.Kept fleet) {n : ThreadId} {k : Option String} {w after : World}
    (acts : Acts (r.terms n).setting ⟨n,k⟩ w after) : r.holds after := by
  obtain ⟨q,answer,may,held,c,_,answered⟩ := acts
  have after : r.holds (respond ⟨n,k⟩ c w q).2 := by
    rcases may with tame | ⟨own,may⟩
    · exact kept.tame _ c q w held tame
    · rw [own]
      exact kept.may n c q w held may
  rwa [answered] at after

theorem settleNames {s : Center} {id : ThreadId} {job : Job} {world : World} :
    (s.settle id job world).pool.map Live.id = s.pool.map Live.id := by
  refine (List.map_map ..).trans (List.map_congr_left fun l _ => ?_)
  by_cases own : l.id = id
  · simp [own]
  · simp [own]

theorem settleListed {s : Center} {id : ThreadId} {job : Job} {world : World} {l : Live}
    (inside : l ∈ (s.settle id job world).pool) :
    l = ⟨id,job⟩ ∨ (l.id ≠ id ∧ l ∈ s.pool) := by
  obtain ⟨old,member,rfl⟩ := List.mem_map.mp inside
  by_cases own : old.id = id
  · rw [if_pos (beq_iff_eq.mpr own)]
    exact .inl rfl
  · rw [if_neg (by simpa using own)]
    exact .inr ⟨own,member⟩

theorem settledDistinct (standing : Standing r o) {id : ThreadId} {job : Job} {world : World} :
    ((o.center.settle id job world).pool.map Live.id).Nodup := by
  rw [settleNames]
  exact standing.distinct

theorem runnerTurn (kept : r.Kept fleet) (standing : Standing r o) {l : Live}
    (found : o.center.find l.id = some l) (runs : o.runner = some l.id) {pick : Pick String}
    {c : Choice} {job : Job} {world : World}
    (moved : l.job.advance (fun k q w => respond ⟨l.id,k⟩ c w q) pick o.world =
      some (job,world)) : Standing r {o with center := o.center.settle l.id job world} := by
  obtain ⟨listed,_⟩ := foundLive found
  obtain ⟨good,tamed⟩ := standing.runner l listed runs
  have answers (k : Option String) (q : Question) (_ : asked pick l.job = some (k,q)) :
      (r.terms l.id).setting.answers ⟨l.id,k⟩ q o.world (respond ⟨l.id,k⟩ c o.world q).1
        (respond ⟨l.id,k⟩ c o.world q).2 := ⟨standing.holds,c,trivial,rfl⟩
  obtain ⟨good,acts⟩ := goodStep answers good moved
  have alone (l' : Live) (other : l'.id ≠ l.id) : o.runner ≠ some l'.id := fun same =>
    other (Option.some.inj (same.symm.trans runs))
  refine ⟨?_,settledDistinct standing,?_,standing.started,?_,?_⟩
  · rcases acts with rfl | ⟨k,acts⟩
    · exact standing.holds
    · exact runnerActs kept acts
  · intro l' inside
    rcases settleListed inside with rfl | ⟨_,old⟩
    · exact standing.older l listed
    · exact standing.older l' old
  · intro l' inside here
    rcases settleListed inside with rfl | ⟨other,old⟩
    · exact ⟨good,tamedAdvance tamed moved⟩
    · exact absurd here (alone l' other)
  · intro l' inside there
    rcases settleListed inside with rfl | ⟨other,old⟩
    · exact absurd runs there
    · exact standing.others l' old (alone l' other)

theorem otherTurn (kept : r.Kept fleet) (standing : Standing r o) {l : Live}
    (found : o.center.find l.id = some l) (other : o.runner ≠ some l.id) {pick : Pick String}
    {c : Choice} {job : Job} {world : World}
    (moved : l.job.advance (fun k q w => respond ⟨l.id,k⟩ c w q) pick o.world =
      some (job,world)) : Standing r {o with center := o.center.settle l.id job world} := by
  obtain ⟨listed,_⟩ := foundLive found
  have tamed := standing.others l listed other
  have changes : world = o.world ∨ ∃ k q, r.tame q ∧
      world = (respond ⟨l.id,k⟩ c o.world q).2 := by
    rcases advanceWorld moved with ⟨_,same⟩ | ⟨k,q,asks,same⟩
    · exact .inl same
    · refine .inr ⟨k,q,?_,same⟩
      rcases tamedAsked tamed asks with ⟨_,tame⟩ | ⟨_,tame⟩ <;> exact tame
  refine ⟨?_,settledDistinct standing,?_,standing.started,?_,?_⟩
  · rcases changes with rfl | ⟨k,q,tame,rfl⟩
    · exact standing.holds
    · exact kept.tame _ c q _ standing.holds tame
  · intro l' inside
    rcases settleListed inside with rfl | ⟨_,old⟩
    · exact standing.older l listed
    · exact standing.older l' old
  · intro l' inside here
    rcases settleListed inside with rfl | ⟨apart,old⟩
    · exact absurd here other
    · obtain ⟨good,tamed⟩ := standing.runner l' old here
      refine ⟨?_,tamed⟩
      rcases changes with rfl | ⟨k,q,tame,rfl⟩
      · exact good
      · exact goodStable good (stepsOne (fun same => apart same.symm)
          (tameActs standing.holds tame))
  · intro l' inside there
    rcases settleListed inside with rfl | ⟨apart,old⟩
    · exact tamedAdvance tamed moved
    · exact standing.others l' old there

theorem turnStanding (kept : r.Kept fleet) (standing : Standing r o) {id : ThreadId}
    {pick : Pick String} {c : Choice} {center : Center}
    (h : System.step fleet o.center (.turn id pick c) = some center) :
    Standing r {o with center} := by
  simp only [System.step,bind,Option.bind_eq_some_iff] at h
  obtain ⟨l,found,⟨job,world⟩,moved,last⟩ := h
  cases Option.some.inj last
  obtain ⟨_,rfl⟩ := foundLive found
  by_cases runs : o.runner = some l.id
  · exact runnerTurn kept standing found runs moved
  · exact otherTurn kept standing found runs moved

theorem crashStanding (kept : r.Kept fleet) (standing : Standing r o) (process : Nat) :
    Standing r {o with center := {o.center with
      world := setMemory o.world process .empty
      pool := o.center.pool.filter fun l => l.id.process != process}} := by
  have forgets : setMemory o.world process .empty =
      (respond ⟨⟨0,process⟩,none⟩ ⟨0,"",none,fun _ => .error ""⟩ o.world
        (.memory fun _ => .empty)).2 := rfl
  refine ⟨?_,standing.distinct.sublist (List.filter_sublist.map _),?_,standing.started,?_,?_⟩
  · show r.holds (setMemory o.world process .empty)
    rw [forgets]
    exact kept.tame _ _ _ _ standing.holds (kept.memory _)
  · exact fun l inside => standing.older l (List.mem_of_mem_filter inside)
  · intro l inside runs
    obtain ⟨listed,alive⟩ := List.mem_filter.mp inside
    obtain ⟨good,tamed⟩ := standing.runner l listed runs
    refine ⟨?_,tamed⟩
    show Good _ _ _ (setMemory o.world process .empty)
    rw [forgets]
    refine goodStable good (stepsOne (fun same => ?_)
      (tameActs standing.holds (kept.memory _)))
    rw [← same] at alive
    simp at alive
  · exact fun l inside there => standing.others l (List.mem_of_mem_filter inside) there

theorem freshNumber (standing : Standing r o) {l : Live} (listed : l ∈ o.center.pool)
    (process : Nat) : l.id ≠ ⟨o.center.next,process⟩ := fun same => by
  have older := standing.older l listed
  rw [same] at older
  exact Nat.lt_irrefl _ older

theorem startStanding (standing : Standing r o) {process : Nat} {job : Job}
    {runner : Option ThreadId} (started : ∀ n, runner = some n → n.number < o.center.next + 1)
    (olds : ∀ l ∈ o.center.pool, runner = some l.id → o.runner = some l.id)
    (rest : ∀ l ∈ o.center.pool, runner ≠ some l.id → Tamed r.tame r.tame l.job)
    (own : runner = some ⟨o.center.next,process⟩ →
      Good (r.terms ⟨o.center.next,process⟩).setting ⟨o.center.next,process⟩ job o.world ∧
        Tamed (fun _ => True) r.tame job)
    (calm : runner ≠ some ⟨o.center.next,process⟩ → Tamed r.tame r.tame job) :
    Standing r ⟨{o.center with
      pool := o.center.pool ++ [⟨⟨o.center.next,process⟩,job⟩]
      next := o.center.next + 1},runner⟩ := by
  have either (l : Live) (inside : l ∈ o.center.pool ++ [⟨⟨o.center.next,process⟩,job⟩]) :
      l ∈ o.center.pool ∨ l = ⟨⟨o.center.next,process⟩,job⟩ :=
    (List.mem_append.mp inside).imp id List.mem_singleton.mp
  refine ⟨standing.holds,?_,fun l inside => ?_,started,fun l inside runs => ?_,
    fun l inside there => ?_⟩
  · show ((o.center.pool ++ [_]).map Live.id).Nodup
    rw [List.map_append,List.nodup_append]
    refine ⟨standing.distinct,List.nodup_singleton _,fun a inside b one same => ?_⟩
    obtain ⟨l,listed,rfl⟩ := List.mem_map.mp inside
    cases List.mem_singleton.mp one
    exact freshNumber standing listed process same
  · rcases either l inside with old | rfl
    · exact Nat.lt_succ_of_lt (standing.older l old)
    · exact Nat.lt_succ_self _
  · rcases either l inside with old | rfl
    · exact standing.runner l old (olds l old runs)
    · exact own runs
  · rcases either l inside with old | rfl
    · exact rest l old there
    · exact calm there

theorem callStanding (kept : r.Kept fleet) (standing : Standing r o) (process : Nat) {call : Call}
    (other : call ≠ .runNext) : Standing r {o with center := {o.center with
      pool := o.center.pool ++ [⟨⟨o.center.next,process⟩,
        Thread.start (call.program (fleet process))⟩]
      next := o.center.next + 1}} := by
  have free : o.runner ≠ some ⟨o.center.next,process⟩ := fun same =>
    Nat.lt_irrefl _ (standing.started _ same)
  exact startStanding standing (fun n same => Nat.lt_succ_of_lt (standing.started n same))
    (fun _ _ same => same) standing.others (fun same => absurd same free)
    fun _ => tamedCalm kept.calm other

theorem runStanding (kept : r.Kept fleet) (standing : Standing r o) (idle : o.idle = true)
    (process : Nat) : Standing r ⟨{o.center with
      pool := o.center.pool ++ [⟨⟨o.center.next,process⟩,
        Thread.start (Call.runNext.program (fleet process))⟩]
      next := o.center.next + 1},some ⟨o.center.next,process⟩⟩ := by
  refine startStanding standing (fun n same => ?_) (fun l listed same => ?_)
    (fun l listed _ => ?_) (fun _ => ?_) (fun free => absurd rfl free)
  · cases Option.some.inj same
    exact Nat.lt_succ_self _
  · exact absurd (Option.some.inj same).symm (freshNumber standing listed process)
  · by_cases runs : o.runner = some l.id
    · have ended := List.all_eq_true.mp idle l listed
      simp only [runs,bne_self_eq_false,Bool.false_or] at ended
      exact tamedSettled (standing.runner l listed runs).2 ended
    · exact standing.others l listed runs
  · exact ⟨.working (kept.starts ⟨o.center.next,process⟩ _ standing.holds),
      ⟨kept.members _,fun _ inside => nomatch inside⟩⟩

theorem stepStanding (kept : r.Kept fleet) (standing : Standing r o) {e : Event}
    (h : step fleet o e = some o') : Standing r o' := by
  cases e with
  | start process call =>
    by_cases executes : call = .runNext
    · subst executes
      obtain ⟨idle,started⟩ := Option.ite_none_right_eq_some.mp h
      cases Option.some.inj started
      exact runStanding kept standing idle process
    · have moved : step fleet o (.start process call) =
          (System.step fleet o.center (.start process call)).map fun center =>
            {o with center} := by
        cases call <;> first | rfl | exact absurd rfl executes
      cases Option.some.inj (moved.symm.trans h)
      exact callStanding kept standing process executes
  | turn id pick c =>
    obtain ⟨center,moved,rfl⟩ := Option.map_eq_some_iff.mp h
    exact turnStanding kept standing moved
  | crash process =>
    cases Option.some.inj h
    exact crashStanding kept standing process

theorem initialStanding (kept : r.Kept fleet) : Standing r .initial where
  holds := kept.initial
  distinct := List.nodup_nil
  older _ inside := absurd inside List.not_mem_nil
  started _ same := by cases same
  runner _ inside := absurd inside List.not_mem_nil
  others _ inside := absurd inside List.not_mem_nil

theorem standingReach (kept : r.Kept fleet) (standing : Standing r o)
    (reach : Reach fleet o o') : Standing r o' := by
  induction reach with
  | refl => exact standing
  | tail _ moves ih =>
    obtain ⟨e,moved⟩ := moves
    exact stepStanding kept ih moved

end

section
variable {fleet : Nat → Options} {o o' : Office}

theorem stepCenter {e : Event} (h : step fleet o e = some o') :
    System.step fleet o.center e = some o'.center := by
  cases e with
  | start process call =>
    cases call <;>
      first
      | (cases Option.some.inj h; rfl)
      | (obtain ⟨_,started⟩ := Option.ite_none_right_eq_some.mp h
         cases Option.some.inj started
         rfl)
  | turn id pick c =>
    obtain ⟨center,moved,rfl⟩ := Option.map_eq_some_iff.mp h
    exact moved
  | crash process =>
    cases Option.some.inj h
    rfl

theorem stepWorld {e : Event} (h : step fleet o e = some o') : o'.world = o.world ∨
    (∃ i c q, o'.world = (respond i c o.world q).2) ∨
    ∃ process, o'.world = setMemory o.world process .empty := by
  have moved := stepCenter h
  cases e with
  | start process call =>
    have same : System.step fleet o.center (.start process call) = some _ := rfl
    rw [same] at moved
    exact .inl (congrArg Center.world (Option.some.inj moved)).symm
  | turn id pick c =>
    rcases turnWorld moved with same | ⟨i,q,_,_,same⟩
    · exact .inl same
    · exact .inr (.inl ⟨i,c,q,same⟩)
  | crash process =>
    have same : System.step fleet o.center (.crash process) = some _ := rfl
    rw [same] at moved
    exact .inr (.inr ⟨process,(congrArg Center.world (Option.some.inj moved)).symm⟩)

end

def act (o : Office) (e : Event) : Office := (step fleet o e).getD o

theorem actsReach {fleet : Nat → Options} {o : Office} (events : List Event) :
    Reach fleet o (RunLogic.reach (act fleet) o events) := by
  induction events generalizing o with
  | nil => exact .refl
  | cons e rest ih =>
    have later := ih (o := act fleet o e)
    show Reach fleet o (RunLogic.reach (act fleet) (act fleet o e) rest)
    cases moved : step fleet o e with
    | none =>
      have same : act fleet o e = o := by rw [act,moved]; rfl
      rwa [same] at later ⊢
    | some next =>
      have same : act fleet o e = next := by rw [act,moved]; rfl
      rw [same] at later ⊢
      exact .head ⟨e,moved⟩ later

end ControlCenter.SingleRunner
