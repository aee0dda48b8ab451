import ControlCenter.TaskClaims
import ControlCenter.TaskRecovery

/-! Daemons of one home: the lock file each start takes, the dead daemon it reclaims and
recovers, and what a worker leaves when it crashes or stops. -/
namespace ControlCenter.DaemonLeases
open Protocol Table Db DbRuns TaskClaims RunLogic

-- The version and time of a record are checked when it is read and decide nothing.
structure DaemonLeaseRecord where
  pid : Nat
  instanceToken : String
  deriving DecidableEq, Repr

-- writeExclusive creates the file before it writes the record.
structure LeaseFile where
  record : DaemonLeaseRecord
  written : Bool
  deriving DecidableEq, Repr

inductive Phase where
  | acquiring (attempt : Nat) (reclaimed : Option DaemonLeaseRecord)
  | observing (attempt : Nat) (reclaimed : Option DaemonLeaseRecord)
  | checking (attempt : Nat) (reclaimed : Option DaemonLeaseRecord) (observed : DaemonLeaseRecord)
  | rereading (attempt : Nat) (reclaimed : Option DaemonLeaseRecord) (observed : DaemonLeaseRecord)
  | removing (attempt : Nat) (reclaimed : Option DaemonLeaseRecord) (observed : DaemonLeaseRecord)
  | writing (reclaimed : Option DaemonLeaseRecord)
  | recovering (reclaimed : DaemonLeaseRecord)
  | starting
  | serving
  | ending (served : Bool)
  | releasing (served : Bool)
  | gone
  deriving DecidableEq, Repr

structure Daemon where
  record : DaemonLeaseRecord
  phase : Phase
  deriving DecidableEq, Repr

instance : Keyed Daemon String := ⟨fun d => d.record.instanceToken⟩

structure Home where
  lease : Option LeaseFile
  daemons : Rows Daemon
  db : ControlCenterDb

def Home.empty : Home := ⟨none,.empty,.empty⟩

def Daemon.live (d : Daemon) : Bool := d.phase != .gone

def workerId (pid : Nat) : String := s!"daemon:{pid}"

def Home.to (home : Home) (d : Daemon) (phase : Phase) : Home := {home with
  daemons := home.daemons.update (fun r => r.record.instanceToken == d.record.instanceToken)
    (fun r => {r with phase}) fun _ => rfl}

structure Chance where
  fails : Bool
  reused : Bool
  moment : Moment

-- A pid that no daemon has any more may have gone to another process.
def Home.processIsAlive (home : Home) (pid : Nat) (reused : Bool) : Bool :=
  reused || home.daemons.rows.any fun d => d.record.pid == pid && d.live

def readLeaseRecord (fails : Bool) (lease : Option LeaseFile) : Option DaemonLeaseRecord :=
  if fails then none else (lease.filter LeaseFile.written).map LeaseFile.record

-- The write goes to the file it created, wherever the path leads by then.
def completed (record : DaemonLeaseRecord) (file : LeaseFile) : LeaseFile :=
  if file.record = record then ⟨record,true⟩ else file

def MAX_ACQUIRE_ATTEMPTS : Nat := 16

section
variable (chance : Chance) (home : Home) (d : Daemon)

def acquire (attempt : Nat) (reclaimed : Option DaemonLeaseRecord) : Home :=
  if chance.fails || decide (MAX_ACQUIRE_ATTEMPTS ≤ attempt) then home.to d .gone
  else match home.lease with
    | none => {home.to d (.writing reclaimed) with lease := some ⟨d.record,false⟩}
    | some _ => home.to d (.observing attempt reclaimed)

def observe (attempt : Nat) (reclaimed : Option DaemonLeaseRecord) : Home :=
  match readLeaseRecord chance.fails home.lease with
  | none => home.to d .gone
  | some observed => home.to d (.checking attempt reclaimed observed)

def check (attempt : Nat) (reclaimed : Option DaemonLeaseRecord) (observed : DaemonLeaseRecord) :
    Home :=
  if chance.fails || home.processIsAlive observed.pid chance.reused then home.to d .gone
  else home.to d (.rereading attempt reclaimed observed)

def reread (attempt : Nat) (reclaimed : Option DaemonLeaseRecord) (observed : DaemonLeaseRecord) :
    Home :=
  match readLeaseRecord chance.fails home.lease with
  | none => home.to d .gone
  | some current =>
      if current = observed then home.to d (.removing attempt reclaimed observed)
      else home.to d (.acquiring (attempt + 1) reclaimed)

def remove (attempt : Nat) (observed : DaemonLeaseRecord) : Home :=
  if chance.fails then home.to d .gone
  else {home.to d (.acquiring (attempt + 1) (some observed)) with lease := none}

-- A failed write removes whatever is at the path.
def write (reclaimed : Option DaemonLeaseRecord) : Home :=
  if chance.fails then {home.to d .gone with lease := none}
  else {home.to d ((reclaimed.map Phase.recovering).getD .starting) with
    lease := home.lease.map (completed d.record)}

def recover (reclaimed : DaemonLeaseRecord) : Home :=
  if chance.fails then home.to d (.ending false)
  else match Db.recoverTasksOwnedBy chance.moment (workerId reclaimed.pid)
      (workerId d.record.pid) home.db with
    | .error _ => home.to d (.ending false)
    | .ok (_,db) => {home.to d .starting with db}

def listen : Home := home.to d (if chance.fails then .ending false else .serving)

-- release reads the record back before it removes the file.
def release (served : Bool) : Home :=
  if readLeaseRecord chance.fails home.lease = some d.record then home.to d (.releasing served)
  else home.to d .gone

def unlink : Home :=
  if chance.fails then home.to d .gone else {home.to d .gone with lease := none}

def move : Home := match d.phase with
  | .acquiring attempt reclaimed => acquire chance home d attempt reclaimed
  | .observing attempt reclaimed => observe chance home d attempt reclaimed
  | .checking attempt reclaimed observed => check chance home d attempt reclaimed observed
  | .rereading attempt reclaimed observed => reread chance home d attempt reclaimed observed
  | .removing attempt _ observed => remove chance home d attempt observed
  | .writing reclaimed => write chance home d reclaimed
  | .recovering reclaimed => recover chance home d reclaimed
  | .starting => listen chance home d
  | .ending served => release chance home d served
  | .releasing _ => unlink chance home d
  | .serving | .gone => home

end

inductive Event where
  | start (pid : Nat) (instanceToken : String)
  | move (instanceToken : String) (chance : Chance)
  | claim (instanceToken : String) (moment : Moment)
  | stop (instanceToken : String)
  | crash (instanceToken : String)
  | call (t : Turn)

-- The worker loop runs until stop has waited for it.
def Daemon.working (d : Daemon) : Bool := d.phase == .serving || d.phase == .ending true

def Home.launch (home : Home) (record : DaemonLeaseRecord) : Home :=
  if record.pid ≤ 1 || home.processIsAlive record.pid false then home
  else match home.daemons.insert ⟨record,.acquiring 0 none⟩ with
    | none => home
    | some daemons => {home with daemons}

def Home.at_ (home : Home) (instanceToken : String) (f : Daemon → Home) : Home :=
  match home.daemons.get instanceToken with
  | none => home
  | some d => f d

def step (home : Home) : Event → Home
  | .start pid instanceToken => home.launch ⟨pid,instanceToken⟩
  | .move instanceToken chance => home.at_ instanceToken fun d => move chance home d
  | .claim instanceToken moment => home.at_ instanceToken fun d =>
      if d.working then
        {home with db := turn home.db ⟨moment,.claimNextTask (workerId d.record.pid)⟩}
      else home
  | .stop instanceToken => home.at_ instanceToken fun d =>
      if d.phase = .serving then home.to d (.ending true) else home
  | .crash instanceToken => home.at_ instanceToken fun d =>
      if d.live then home.to d .gone else home
  | .call t => {home with db := turn home.db t}

def Phase.carried : Phase → Option DaemonLeaseRecord
  | .acquiring _ reclaimed | .observing _ reclaimed | .checking _ reclaimed _
  | .rereading _ reclaimed _ | .removing _ reclaimed _ | .writing reclaimed => reclaimed
  | .recovering reclaimed => some reclaimed
  | .starting | .serving | .ending _ | .releasing _ | .gone => none

def Phase.served : Phase → Bool
  | .serving | .ending true | .releasing true => true
  | _ => false

def Phase.withdrawn : Phase → Bool
  | .ending false | .releasing false | .gone => true
  | _ => false

def Phase.holds : Phase → Option Bool
  | .writing _ => some false
  | .recovering _ | .starting | .serving | .ending _ | .releasing _ => some true
  | _ => none

def Phase.doomed : Phase → Option DaemonLeaseRecord
  | .rereading _ _ observed | .removing _ _ observed => some observed
  | _ => none

def Phase.seen : Phase → Option DaemonLeaseRecord
  | .checking _ _ observed => some observed
  | _ => none

section
variable {home : Home} {d r : Daemon} {phase : Phase}

theorem memTo (listed : d ∈ home.daemons) : r ∈ (home.to d phase).daemons ↔
    r = ⟨d.record,phase⟩ ∨ (r ∈ home.daemons ∧ r ≠ d) := by
  unfold Home.to
  constructor
  · intro present
    obtain ⟨r₀,member,rfl⟩ := List.mem_map.mp present
    by_cases same : r₀ = d
    · left
      simp [same]
    · right
      have other : ¬r₀.record.instanceToken = d.record.instanceToken := fun tokens =>
        same (keyUnique (show r₀ ∈ home.daemons from member) listed tokens)
      simp only [beq_iff_eq,if_neg other]
      exact ⟨member,same⟩
  · rintro (rfl | ⟨member,same⟩)
    · exact List.mem_map.mpr ⟨d,listed,by simp⟩
    · have other : ¬r.record.instanceToken = d.record.instanceToken := fun tokens =>
        same (keyUnique member listed tokens)
      exact List.mem_map.mpr ⟨r,member,by simp [other]⟩

theorem recordUnique (listed : d ∈ home.daemons) (member : r ∈ home.daemons)
    (same : r.record = d.record) : r = d :=
  keyUnique member listed (congrArg DaemonLeaseRecord.instanceToken same)

end

structure Held (home : Home) : Prop where
  listed : ∀ file, home.lease = some file → ∃ d ∈ home.daemons, d.record = file.record
  seen : ∀ d ∈ home.daemons, ∀ observed, d.phase.seen = some observed →
    ∃ d' ∈ home.daemons, d'.record = observed
  doomed : ∀ d ∈ home.daemons, ∀ observed, d.phase.doomed = some observed →
    ∃ d' ∈ home.daemons, d'.record = observed ∧ d'.phase = .gone
  holds : ∀ d ∈ home.daemons, ∀ written, d.phase.holds = some written →
    home.lease = some ⟨d.record,written⟩

section
variable {home : Home} {d : Daemon} {phase : Phase} {lease : Option LeaseFile}

theorem Held.moved (held : Held home) (member : d ∈ home.daemons) (live : d.phase ≠ .gone)
    (listed : lease = home.lease ∨ ∀ file, lease = some file → file.record = d.record)
    (seen : ∀ observed, phase.seen = some observed → ∃ d' ∈ home.daemons, d'.record = observed)
    (doomed : ∀ observed, phase.doomed = some observed →
      ∃ d' ∈ home.daemons, d'.record = observed ∧ d'.phase = .gone)
    (holds : ∀ written, phase.holds = some written → lease = some ⟨d.record,written⟩)
    (others : lease = home.lease ∨ ∀ d' ∈ home.daemons, d' ≠ d → d'.phase.holds = none) :
    Held {home.to d phase with lease} := by
  have kept (d' : Daemon) (listed : d' ∈ home.daemons) :
      ∃ r ∈ (home.to d phase).daemons, r.record = d'.record ∧
        (d'.phase = .gone → r.phase = .gone) := by
    by_cases same : d' = d
    · subst same
      exact ⟨⟨d'.record,phase⟩,(memTo member).mpr (.inl rfl),rfl,fun gone => absurd gone live⟩
    · exact ⟨d',(memTo member).mpr (.inr ⟨listed,same⟩),rfl,id⟩
  constructor
  · intro file found
    rcases listed with same | own
    · obtain ⟨d',listed,named⟩ := held.listed file (same ▸ found)
      obtain ⟨r,present,record,_⟩ := kept d' listed
      exact ⟨r,present,record.trans named⟩
    · exact ⟨⟨d.record,phase⟩,(memTo member).mpr (.inl rfl),(own file found).symm⟩
  · intro d' listed observed saw
    have before : ∃ d' ∈ home.daemons, d'.record = observed := by
      rcases (memTo member).mp listed with rfl | ⟨listed,_⟩
      · exact seen observed saw
      · exact held.seen d' listed observed saw
    obtain ⟨d',listed,named⟩ := before
    obtain ⟨r,present,record,_⟩ := kept d' listed
    exact ⟨r,present,record.trans named⟩
  · intro d' listed observed saw
    have before : ∃ d' ∈ home.daemons, d'.record = observed ∧ d'.phase = .gone := by
      rcases (memTo member).mp listed with rfl | ⟨listed,_⟩
      · exact doomed observed saw
      · exact held.doomed d' listed observed saw
    obtain ⟨d',listed,named,gone⟩ := before
    obtain ⟨r,present,record,stays⟩ := kept d' listed
    exact ⟨r,present,record.trans named,stays gone⟩
  · intro d' listed written owns
    rcases (memTo member).mp listed with rfl | ⟨listed,other⟩
    · exact holds written owns
    · rcases others with same | none_
      · exact same.trans (held.holds d' listed written owns)
      · rw [none_ d' listed other] at owns
        contradiction

theorem Held.stays (held : Held home) (member : d ∈ home.daemons) (live : d.phase ≠ .gone)
    (seen : ∀ observed, phase.seen = some observed → ∃ d' ∈ home.daemons, d'.record = observed)
    (doomed : ∀ observed, phase.doomed = some observed →
      ∃ d' ∈ home.daemons, d'.record = observed ∧ d'.phase = .gone)
    (holds : ∀ written, phase.holds = some written → d.phase.holds = some written) :
    Held (home.to d phase) :=
  held.moved member live (.inl rfl) seen doomed
    (fun written owns => held.holds d member written (holds written owns)) (.inl rfl)

theorem Held.alone (held : Held home) (member : d ∈ home.daemons) {file : LeaseFile}
    (found : home.lease = some file) (own : file.record = d.record) :
    ∀ d' ∈ home.daemons, d' ≠ d → d'.phase.holds = none := by
  intro d' listed other
  cases owns : d'.phase.holds with
  | none => rfl
  | some written =>
    have theirs := held.holds d' listed written owns
    rw [found] at theirs
    cases Option.some.inj theirs
    exact absurd (recordUnique member listed own) other

theorem Held.free (held : Held home) (none_ : home.lease = none) :
    ∀ d' ∈ home.daemons, d'.phase.holds = none := by
  intro d' listed
  cases owns : d'.phase.holds with
  | none => rfl
  | some written =>
    have theirs := held.holds d' listed written owns
    rw [none_] at theirs
    contradiction

end

def Carries (worker : String) (d : Daemon) : Prop :=
  ∃ reclaimed, d.phase.carried = some reclaimed ∧ workerId reclaimed.pid = worker

def Shared (home : Home) (d : Daemon) (worker : String) : Prop :=
  ∃ other ∈ home.daemons, other ≠ d ∧ Carries worker other

def Blocked (home : Home) : Prop := ∃ file, home.lease = some file ∧ file.written = false ∧
  ∃ d ∈ home.daemons, d.record = file.record ∧ d.phase = .gone

def Drops (chance : Chance) (home : Home) (worker : String) (d : Daemon) : Prop :=
  match d.phase with
  | .acquiring attempt _ => chance.fails = true ∨ MAX_ACQUIRE_ATTEMPTS ≤ attempt
  | .observing _ _ | .rereading _ _ _ => readLeaseRecord chance.fails home.lease = none
  | .checking _ _ observed => chance.fails = true ∨
      home.processIsAlive observed.pid chance.reused = true
  | .removing _ _ observed => chance.fails = true ∨ workerId observed.pid ≠ worker
  | .writing _ | .recovering _ => chance.fails = true
  | .starting | .serving | .ending _ | .releasing _ | .gone => False

structure Careful (chance : Chance) (home : Home) (d : Daemon) : Prop where
  keeps : ∀ worker, Carries worker d → Owed home.db worker → Drops chance home worker d →
    Blocked home ∨ Shared home d worker
  acquires : ∀ attempt reclaimed, d.phase = .acquiring attempt reclaimed → chance.fails = false →
    attempt < MAX_ACQUIRE_ATTEMPTS → home.lease = none → ∀ other ∈ home.daemons, ∀ worker,
      Carries worker other → Owed home.db worker → Carries worker d
  removes : ∀ attempt reclaimed observed, d.phase = .removing attempt reclaimed observed →
    chance.fails = false → ∀ file, home.lease = some file → file = ⟨observed,true⟩
  releases : d.phase = .releasing true → chance.fails = false →
    ¬Owed home.db (workerId d.record.pid)

section
variable {chance : Chance} {home : Home} {d : Daemon}

theorem readSource {fails : Bool} {lease : Option LeaseFile} {record : DaemonLeaseRecord}
    (h : readLeaseRecord fails lease = some record) : lease = some ⟨record,true⟩ := by
  unfold readLeaseRecord at h
  cases fails
  · obtain ⟨file,found,rfl⟩ := Option.map_eq_some_iff.mp h
    obtain ⟨rfl,written⟩ := Option.filter_eq_some_iff.mp found
    cases file
    cases written
    rfl
  · contradiction

theorem Held.gone (held : Held home) (member : d ∈ home.daemons) (live : d.phase ≠ .gone) :
    Held (home.to d .gone) :=
  held.stays member live (fun _ saw => nomatch saw) (fun _ saw => nomatch saw)
    fun _ owns => nomatch owns

theorem Held.acquire {attempt : Nat} {reclaimed : Option DaemonLeaseRecord} (held : Held home)
    (member : d ∈ home.daemons) (phase : d.phase = .acquiring attempt reclaimed) :
    Held (acquire chance home d attempt reclaimed) := by
  have live : d.phase ≠ .gone := by simp [phase]
  unfold DaemonLeases.acquire
  split
  · exact held.gone member live
  split
  · rename_i none_
    exact held.moved member live (.inr fun file found => by cases Option.some.inj found; rfl)
      (fun _ saw => nomatch saw) (fun _ saw => nomatch saw)
      (fun written owns => by cases Option.some.inj owns; rfl)
      (.inr fun d' listed _ => held.free none_ d' listed)
  · exact held.stays member live (fun _ saw => nomatch saw) (fun _ saw => nomatch saw)
      fun _ owns => nomatch owns

theorem Held.observe {attempt : Nat} {reclaimed : Option DaemonLeaseRecord} (held : Held home)
    (member : d ∈ home.daemons) (phase : d.phase = .observing attempt reclaimed) :
    Held (observe chance home d attempt reclaimed) := by
  have live : d.phase ≠ .gone := by simp [phase]
  unfold DaemonLeases.observe
  split
  · exact held.gone member live
  · rename_i observed read
    refine held.stays member live (fun _ saw => ?_) (fun _ saw => nomatch saw)
      fun _ owns => nomatch owns
    cases Option.some.inj saw
    exact held.listed _ (readSource read)

theorem Held.check {attempt : Nat} {reclaimed : Option DaemonLeaseRecord}
    {observed : DaemonLeaseRecord} (held : Held home) (member : d ∈ home.daemons)
    (phase : d.phase = .checking attempt reclaimed observed) :
    Held (check chance home d attempt reclaimed observed) := by
  have live : d.phase ≠ .gone := by simp [phase]
  unfold DaemonLeases.check
  split
  · exact held.gone member live
  · rename_i dead
    refine held.stays member live (fun _ saw => nomatch saw) (fun _ saw => ?_)
      fun _ owns => nomatch owns
    cases Option.some.inj saw
    obtain ⟨d',listed,named⟩ := held.seen d member observed (by rw [phase]; rfl)
    refine ⟨d',listed,named,?_⟩
    simp only [Home.processIsAlive,Bool.or_eq_true,List.any_eq_true,Bool.and_eq_true,not_or,
      not_exists,not_and,beq_iff_eq] at dead
    have gone := dead.2.2 d' listed (by rw [named])
    simpa [Daemon.live] using gone

theorem Held.reread {attempt : Nat} {reclaimed : Option DaemonLeaseRecord}
    {observed : DaemonLeaseRecord} (held : Held home) (member : d ∈ home.daemons)
    (phase : d.phase = .rereading attempt reclaimed observed) :
    Held (reread chance home d attempt reclaimed observed) := by
  have live : d.phase ≠ .gone := by simp [phase]
  unfold DaemonLeases.reread
  split
  · exact held.gone member live
  split
  · refine held.stays member live (fun _ saw => nomatch saw) (fun _ saw => ?_)
      fun _ owns => nomatch owns
    cases Option.some.inj saw
    exact held.doomed d member observed (by rw [phase]; rfl)
  · exact held.stays member live (fun _ saw => nomatch saw) (fun _ saw => nomatch saw)
      fun _ owns => nomatch owns

theorem Held.remove {attempt : Nat} {reclaimed : Option DaemonLeaseRecord}
    {observed : DaemonLeaseRecord} (held : Held home) (member : d ∈ home.daemons)
    (phase : d.phase = .removing attempt reclaimed observed)
    (removes : chance.fails = false → ∀ file, home.lease = some file → file = ⟨observed,true⟩) :
    Held (remove chance home d attempt observed) := by
  have live : d.phase ≠ .gone := by simp [phase]
  unfold DaemonLeases.remove
  split
  · exact held.gone member live
  · rename_i fails
    refine held.moved member live (.inr fun file found => nomatch found)
      (fun _ saw => nomatch saw) (fun _ saw => nomatch saw) (fun _ owns => nomatch owns)
      (.inr fun d' listed other => ?_)
    cases lease : home.lease with
    | none => exact held.free lease d' listed
    | some file =>
      obtain ⟨dead,present,named,gone⟩ := held.doomed d member observed (by rw [phase]; rfl)
      cases removes (by simpa using fails) file lease
      by_cases same : d' = dead
      · rw [same,gone]
        rfl
      · exact held.alone present lease named.symm d' listed same

theorem Held.write {reclaimed : Option DaemonLeaseRecord} (held : Held home)
    (member : d ∈ home.daemons) (phase : d.phase = .writing reclaimed) :
    Held (write chance home d reclaimed) := by
  have live : d.phase ≠ .gone := by simp [phase]
  have own : home.lease = some ⟨d.record,false⟩ := held.holds d member false (by rw [phase]; rfl)
  unfold DaemonLeases.write
  split
  · exact held.moved member live (.inr fun file found => nomatch found)
      (fun _ saw => nomatch saw) (fun _ saw => nomatch saw) (fun _ owns => nomatch owns)
      (.inr (held.alone member own rfl))
  · have written : home.lease.map (completed d.record) = some ⟨d.record,true⟩ := by
      rw [own]
      simp [completed]
    rw [written]
    refine held.moved member live (.inr fun file found => by cases Option.some.inj found; rfl)
      ?_ ?_ ?_ (.inr (held.alone member own rfl))
    all_goals cases reclaimed <;> intro _ saw <;> cases saw <;> rfl

theorem Held.recover {reclaimed : DaemonLeaseRecord} (held : Held home)
    (member : d ∈ home.daemons) (phase : d.phase = .recovering reclaimed) :
    Held (recover chance home d reclaimed) := by
  have live : d.phase ≠ .gone := by simp [phase]
  have holds (later : Phase) (same : later.holds = some true) (written : Bool)
      (owns : later.holds = some written) : d.phase.holds = some written := by
    rw [phase,← owns,same]
    rfl
  have ends : Held (home.to d (.ending false)) :=
    held.stays member live (fun _ saw => nomatch saw) (fun _ saw => nomatch saw) (holds _ rfl)
  have starts : Held (home.to d .starting) :=
    held.stays member live (fun _ saw => nomatch saw) (fun _ saw => nomatch saw) (holds _ rfl)
  unfold DaemonLeases.recover
  split
  · exact ends
  split
  · exact ends
  · exact ⟨starts.listed,starts.seen,starts.doomed,starts.holds⟩

theorem Held.listen (held : Held home) (member : d ∈ home.daemons)
    (phase : d.phase = .starting) : Held (listen chance home d) := by
  have live : d.phase ≠ .gone := by simp [phase]
  unfold DaemonLeases.listen
  refine held.stays member live ?_ ?_ ?_
  all_goals cases chance.fails <;> intro _ saw <;> cases saw <;> rw [phase] <;> rfl

theorem Held.release {served : Bool} (held : Held home) (member : d ∈ home.daemons)
    (phase : d.phase = .ending served) : Held (release chance home d served) := by
  have live : d.phase ≠ .gone := by simp [phase]
  unfold DaemonLeases.release
  split
  · exact held.stays member live (fun _ saw => nomatch saw) (fun _ saw => nomatch saw)
      fun written owns => by rw [phase]; exact owns
  · exact held.gone member live

theorem Held.unlink {served : Bool} (held : Held home) (member : d ∈ home.daemons)
    (phase : d.phase = .releasing served) : Held (unlink chance home d) := by
  have live : d.phase ≠ .gone := by simp [phase]
  have own : home.lease = some ⟨d.record,true⟩ := held.holds d member true (by rw [phase]; rfl)
  unfold DaemonLeases.unlink
  split
  · exact held.gone member live
  · exact held.moved member live (.inr fun file found => nomatch found)
      (fun _ saw => nomatch saw) (fun _ saw => nomatch saw) (fun _ owns => nomatch owns)
      (.inr (held.alone member own rfl))

theorem Held.move (held : Held home) (member : d ∈ home.daemons)
    (careful : Careful chance home d) : Held (move chance home d) := by
  cases phase : d.phase with
  | acquiring attempt reclaimed => simpa only [DaemonLeases.move,phase] using held.acquire member phase
  | observing attempt reclaimed => simpa only [DaemonLeases.move,phase] using held.observe member phase
  | checking attempt reclaimed observed =>
    simpa only [DaemonLeases.move,phase] using held.check member phase
  | rereading attempt reclaimed observed =>
    simpa only [DaemonLeases.move,phase] using held.reread member phase
  | removing attempt reclaimed observed =>
    simpa only [DaemonLeases.move,phase] using
      held.remove member phase (careful.removes attempt reclaimed observed phase)
  | writing reclaimed => simpa only [DaemonLeases.move,phase] using held.write member phase
  | recovering reclaimed => simpa only [DaemonLeases.move,phase] using held.recover member phase
  | starting => simpa only [DaemonLeases.move,phase] using held.listen member phase
  | ending served => simpa only [DaemonLeases.move,phase] using held.release member phase
  | releasing served => simpa only [DaemonLeases.move,phase] using held.unlink member phase
  | serving => simpa only [DaemonLeases.move,phase] using held
  | gone => simpa only [DaemonLeases.move,phase] using held

end

inductive Accounted (home : Home) (worker : String) : Prop
  | blocked (stuck : Blocked home)
  | named (file : LeaseFile) (d : Daemon) (found : home.lease = some file)
      (written : file.written = true) (member : d ∈ home.daemons) (own : d.record = file.record)
      (settled : d.phase.served = true ∨ d.phase = .gone)
      (same : workerId d.record.pid = worker)
  | carried (d : Daemon) (member : d ∈ home.daemons) (carries : Carries worker d)
      (free : ∀ file, home.lease = some file → ∃ owner ∈ home.daemons,
        owner.record = file.record ∧ (Carries worker owner ∨ owner.phase.withdrawn = true))

def AllAccounted (home : Home) : Prop :=
  ∀ pid, Owed home.db (workerId pid) → Accounted home (workerId pid)

section
variable {chance : Chance} {home : Home} {d : Daemon} {phase : Phase} {worker : String}

theorem Blocked.to (stuck : Blocked home) (member : d ∈ home.daemons) (live : d.phase ≠ .gone) :
    Blocked (home.to d phase) := by
  obtain ⟨file,found,unwritten,owner,listed,own,gone⟩ := stuck
  have other : owner ≠ d := fun same => live (same ▸ gone)
  exact ⟨file,found,unwritten,owner,(memTo member).mpr (.inr ⟨listed,other⟩),own,gone⟩

theorem Accounted.to (accounted : Accounted home worker) (member : d ∈ home.daemons)
    (live : d.phase ≠ .gone)
    (serves : d.phase.served = true → phase.served = true ∨ phase = .gone)
    (withdraws : d.phase.withdrawn = true → phase.withdrawn = true)
    (keeps : Carries worker d → Carries worker ⟨d.record,phase⟩ ∨
      (phase.withdrawn = true ∧ (Blocked (home.to d phase) ∨ Shared home d worker))) :
    Accounted (home.to d phase) worker := by
  cases accounted with
  | blocked stuck => exact .blocked (stuck.to member live)
  | named file owner found written listed own settled same =>
    by_cases moved : owner = d
    · subst moved
      refine .named file ⟨owner.record,phase⟩ found written ((memTo member).mpr (.inl rfl)) own ?_
        same
      rcases settled with served | gone
      · exact serves served
      · exact absurd gone live
    · exact .named file owner found written ((memTo member).mpr (.inr ⟨listed,moved⟩)) own settled
        same
  | carried carrier listed carries free =>
    have owned (file : LeaseFile) (found : home.lease = some file)
        (passes : Carries worker d → Carries worker ⟨d.record,phase⟩ ∨ phase.withdrawn = true) :
        ∃ owner ∈ (home.to d phase).daemons, owner.record = file.record ∧
          (Carries worker owner ∨ owner.phase.withdrawn = true) := by
      obtain ⟨owner,present,own,fine⟩ := free file found
      by_cases moved : owner = d
      · subst moved
        exact ⟨⟨owner.record,phase⟩,(memTo member).mpr (.inl rfl),own,
          fine.elim passes fun withdrawn => .inr (withdraws withdrawn)⟩
      · exact ⟨owner,(memTo member).mpr (.inr ⟨present,moved⟩),own,fine⟩
    by_cases moved : carrier = d
    · subst moved
      rcases keeps carries with stays | ⟨withdrawn,stuck | ⟨other,present,apart,shares⟩⟩
      · exact .carried ⟨carrier.record,phase⟩ ((memTo member).mpr (.inl rfl)) stays
          fun file found => owned file found fun _ => .inl stays
      · exact .blocked stuck
      · exact .carried other ((memTo member).mpr (.inr ⟨present,apart⟩)) shares
          fun file found => owned file found fun _ => .inr withdrawn
    · refine .carried carrier ((memTo member).mpr (.inr ⟨listed,moved⟩)) carries
        fun file found => owned file found fun mine => ?_
      exact (keeps mine).imp id And.left

theorem AllAccounted.to (accounted : AllAccounted home) (member : d ∈ home.daemons)
    (live : d.phase ≠ .gone)
    (serves : d.phase.served = true → phase.served = true ∨ phase = .gone)
    (withdraws : d.phase.withdrawn = true → phase.withdrawn = true)
    (keeps : ∀ worker, Carries worker d → Owed home.db worker → Carries worker ⟨d.record,phase⟩ ∨
      (phase.withdrawn = true ∧ (Blocked (home.to d phase) ∨ Shared home d worker))) :
    AllAccounted (home.to d phase) :=
  fun pid owed => (accounted pid owed).to member live serves withdraws
    fun carries => keeps _ carries owed

theorem AllAccounted.ends (accounted : AllAccounted home) (member : d ∈ home.daemons)
    (live : d.phase ≠ .gone) (withdrawn : phase.withdrawn = true)
    (serves : d.phase.served = true → phase = .gone)
    (careful : Careful chance home d)
    (drops : ∀ worker, Carries worker d → Drops chance home worker d) :
    AllAccounted (home.to d phase) :=
  accounted.to member live (fun served => .inr (serves served)) (fun _ => withdrawn)
    fun worker carries owed => .inr ⟨withdrawn,
      (careful.keeps worker carries owed (drops worker carries)).imp
        (fun stuck => stuck.to member live) id⟩

theorem AllAccounted.continues (accounted : AllAccounted home) (member : d ∈ home.daemons)
    (live : d.phase ≠ .gone) (before : d.phase.served = false) (after : d.phase.withdrawn = false)
    (same : phase.carried = d.phase.carried) : AllAccounted (home.to d phase) :=
  accounted.to member live (fun served => by rw [before] at served; contradiction)
    (fun withdrawn => by rw [after] at withdrawn; contradiction)
    fun worker ⟨reclaimed,carried,own⟩ _ => .inl ⟨reclaimed,same.trans carried,own⟩

theorem Accounted.takes {later : Home} (member : d ∈ later.daemons) (carries : Carries worker d)
    (own : ∀ file, later.lease = some file → file.record = d.record) : Accounted later worker :=
  .carried d member carries fun file found => ⟨d,member,(own file found).symm,.inl carries⟩

theorem Accounted.frees {later : Home} (none_ : later.lease = none) {carrier : Daemon}
    (listed : carrier ∈ later.daemons) (carries : Carries worker carrier) :
    Accounted later worker :=
  .carried carrier listed carries fun file found => by rw [none_] at found; contradiction

theorem Accounted.carrier (accounted : Accounted home worker) (none_ : home.lease = none) :
    ∃ carrier ∈ home.daemons, Carries worker carrier := by
  cases accounted with
  | blocked stuck =>
    obtain ⟨file,found,_⟩ := stuck
    rw [none_] at found
    contradiction
  | named file owner found =>
    rw [none_] at found
    contradiction
  | carried carrier listed carries => exact ⟨carrier,listed,carries⟩

theorem Accounted.owner (accounted : Accounted home worker) (member : d ∈ home.daemons)
    {written : Bool} (live : d.phase ≠ .gone) (found : home.lease = some ⟨d.record,written⟩) :
    (written = true ∧ d.phase.served = true ∧ workerId d.record.pid = worker) ∨
      ((∃ carrier ∈ home.daemons, Carries worker carrier) ∧
        (Carries worker d ∨ d.phase.withdrawn = true)) := by
  cases accounted with
  | blocked stuck =>
    obtain ⟨file,found',_,owner,listed,own,gone⟩ := stuck
    cases Option.some.inj (found.symm.trans found')
    exact absurd (recordUnique member listed own ▸ gone) live
  | named file owner found' whole listed own settled same =>
    cases Option.some.inj (found.symm.trans found')
    cases recordUnique member listed own
    exact .inl ⟨whole,settled.resolve_right live,same⟩
  | carried carrier listed carries free =>
    obtain ⟨owner,present,own,fine⟩ := free _ found
    cases recordUnique member present own
    exact .inr ⟨⟨carrier,listed,carries⟩,fine⟩

theorem AllAccounted.acquire {attempt : Nat} {reclaimed : Option DaemonLeaseRecord}
    (accounted : AllAccounted home) (member : d ∈ home.daemons)
    (careful : Careful chance home d) (phase : d.phase = .acquiring attempt reclaimed) :
    AllAccounted (acquire chance home d attempt reclaimed) := by
  have live : d.phase ≠ .gone := by simp [phase]
  unfold DaemonLeases.acquire
  split
  · rename_i stops
    refine accounted.ends member live rfl (fun _ => rfl) careful fun worker _ => ?_
    unfold Drops
    rw [phase]
    simpa using stops
  rename_i goes
  simp only [Bool.or_eq_true,decide_eq_true_eq,not_or,Bool.not_eq_true,Nat.not_le] at goes
  split
  · rename_i none_
    intro pid owed
    obtain ⟨carrier,listed,carries⟩ := (accounted pid owed).carrier none_
    obtain ⟨record,carried,own⟩ := careful.acquires attempt reclaimed phase goes.1 goes.2 none_
      carrier listed _ carries owed
    refine .takes ((memTo member).mpr (.inl rfl)) ⟨record,?_,own⟩ fun file found => ?_
    · rw [phase] at carried
      exact carried
    · cases Option.some.inj found
      rfl
  · refine accounted.continues member live ?_ ?_ ?_ <;> rw [phase] <;> rfl

theorem AllAccounted.observe {attempt : Nat} {reclaimed : Option DaemonLeaseRecord}
    (accounted : AllAccounted home) (member : d ∈ home.daemons)
    (careful : Careful chance home d) (phase : d.phase = .observing attempt reclaimed) :
    AllAccounted (observe chance home d attempt reclaimed) := by
  have live : d.phase ≠ .gone := by simp [phase]
  unfold DaemonLeases.observe
  split
  · refine accounted.ends member live rfl (fun _ => rfl) careful fun worker _ => ?_
    unfold Drops
    rw [phase]
    assumption
  · refine accounted.continues member live ?_ ?_ ?_ <;> rw [phase] <;> rfl

theorem AllAccounted.check {attempt : Nat} {reclaimed : Option DaemonLeaseRecord}
    {observed : DaemonLeaseRecord} (accounted : AllAccounted home) (member : d ∈ home.daemons)
    (careful : Careful chance home d) (phase : d.phase = .checking attempt reclaimed observed) :
    AllAccounted (check chance home d attempt reclaimed observed) := by
  have live : d.phase ≠ .gone := by simp [phase]
  unfold DaemonLeases.check
  split
  · rename_i stops
    refine accounted.ends member live rfl (fun _ => rfl) careful fun worker _ => ?_
    unfold Drops
    rw [phase]
    simpa using stops
  · refine accounted.continues member live ?_ ?_ ?_ <;> rw [phase] <;> rfl

theorem AllAccounted.reread {attempt : Nat} {reclaimed : Option DaemonLeaseRecord}
    {observed : DaemonLeaseRecord} (accounted : AllAccounted home) (member : d ∈ home.daemons)
    (careful : Careful chance home d) (phase : d.phase = .rereading attempt reclaimed observed) :
    AllAccounted (reread chance home d attempt reclaimed observed) := by
  have live : d.phase ≠ .gone := by simp [phase]
  unfold DaemonLeases.reread
  split
  · refine accounted.ends member live rfl (fun _ => rfl) careful fun worker _ => ?_
    unfold Drops
    rw [phase]
    assumption
  split <;> refine accounted.continues member live ?_ ?_ ?_ <;> rw [phase] <;> rfl

theorem AllAccounted.remove {attempt : Nat} {reclaimed : Option DaemonLeaseRecord}
    {observed : DaemonLeaseRecord} (accounted : AllAccounted home) (member : d ∈ home.daemons)
    (careful : Careful chance home d)
    (phase : d.phase = .removing attempt reclaimed observed) :
    AllAccounted (remove chance home d attempt observed) := by
  have live : d.phase ≠ .gone := by simp [phase]
  unfold DaemonLeases.remove
  split
  · rename_i fails
    refine accounted.ends member live rfl (fun _ => rfl) careful fun worker _ => ?_
    unfold Drops
    rw [phase]
    exact .inl fails
  · rename_i fails
    have removes := careful.removes attempt reclaimed observed phase (by simpa using fails)
    intro pid owed
    have mine : (⟨d.record,.acquiring (attempt + 1) (some observed)⟩ : Daemon) ∈
        (home.to d (.acquiring (attempt + 1) (some observed))).daemons :=
      (memTo member).mpr (.inl rfl)
    by_cases same : workerId observed.pid = workerId pid
    · exact .frees rfl mine ⟨observed,rfl,same⟩
    have free : ¬Blocked home := by
      rintro ⟨file,found,unwritten,_⟩
      rw [removes file found] at unwritten
      contradiction
    cases accounted pid owed with
    | blocked stuck => exact absurd stuck free
    | named file owner found written listed own settled named =>
      rw [own,removes file found] at named
      exact absurd named same
    | carried carrier listed carries _ =>
      by_cases moved : carrier = d
      · subst moved
        have drops : Drops chance home (workerId pid) carrier := by
          unfold Drops
          rw [phase]
          exact .inr same
        obtain ⟨other,present,apart,shares⟩ :=
          (careful.keeps _ carries owed drops).resolve_left free
        exact .frees rfl ((memTo member).mpr (.inr ⟨present,apart⟩)) shares
      · exact .frees rfl ((memTo member).mpr (.inr ⟨listed,moved⟩)) carries

theorem AllAccounted.write {reclaimed : Option DaemonLeaseRecord}
    (accounted : AllAccounted home) (held : Held home) (member : d ∈ home.daemons)
    (careful : Careful chance home d) (phase : d.phase = .writing reclaimed) :
    AllAccounted (write chance home d reclaimed) := by
  have live : d.phase ≠ .gone := by simp [phase]
  have found : home.lease = some ⟨d.record,false⟩ := held.holds d member false (by rw [phase]; rfl)
  have free : ¬Blocked home := by
    rintro ⟨file,found',_,owner,listed,own,gone⟩
    cases Option.some.inj (found.symm.trans found')
    exact live (recordUnique member listed own ▸ gone)
  have mine (pid : Nat) (owed : Owed home.db (workerId pid)) : Carries (workerId pid) d := by
    rcases (accounted pid owed).owner member live found with ⟨whole,_⟩ | ⟨_,carries | gone⟩
    · contradiction
    · exact carries
    · rw [phase] at gone
      contradiction
  unfold DaemonLeases.write
  split
  · rename_i fails
    intro pid owed
    have drops : Drops chance home (workerId pid) d := by
      unfold Drops
      rw [phase]
      exact fails
    obtain ⟨other,present,apart,shares⟩ :=
      (careful.keeps _ (mine pid owed) owed drops).resolve_left free
    exact .frees rfl ((memTo member).mpr (.inr ⟨present,apart⟩)) shares
  · intro pid owed
    obtain ⟨record,carried,own⟩ := mine pid owed
    rw [phase] at carried
    cases carried
    refine .takes ((memTo member).mpr (.inl rfl)) ⟨record,rfl,own⟩ fun file found' => ?_
    dsimp only at found'
    rw [found] at found'
    cases Option.some.inj found'
    simp [completed]

theorem workerText (pid : Nat) :
    (workerId pid).toList = "daemon:".toList ++ Nat.toDigits 10 pid := by
  have text : workerId pid = "daemon:" ++ pid.repr := rfl
  rw [text,String.toList_append,Nat.toList_repr]

theorem workerPlain (pid : Nat) : trim (workerId pid) = workerId pid := by
  apply trimPlain
  intro c listed
  rw [workerText,List.mem_append] at listed
  rcases listed with letter | digit
  · have visible : ("daemon:".toList.all fun c =>
        decide (0x21 ≤ c.toNat ∧ c.toNat ≤ 0x7e)) = true := by decide
    have bounds := of_decide_eq_true (List.all_eq_true.mp visible c letter)
    exact visiblePlain bounds.1 bounds.2
  · have range := Nat.isDigit_of_mem_toDigits (by omega) (by omega) digit
    simp only [Char.isDigit,Bool.and_eq_true,decide_eq_true_eq] at range
    exact visiblePlain (Nat.le_trans (by decide) range.1) (Nat.le_trans range.2 (by decide))

theorem workerNamed (pid : Nat) : trim (workerId pid) ≠ "" := by
  rw [workerPlain]
  intro empty
  have chars := congrArg String.toList empty
  rw [workerText] at chars
  contradiction

theorem workerInjective {pid other : Nat} (same : workerId pid = workerId other) :
    pid = other := by
  have chars := congrArg String.toList same
  rw [workerText,workerText] at chars
  have digits := congrArg (Nat.ofDigitChars 10 · 0) (List.append_cancel_left chars)
  rwa [Nat.ofDigitChars_ten_toDigits,Nat.ofDigitChars_ten_toDigits] at digits

theorem AllAccounted.recover {reclaimed : DaemonLeaseRecord} (accounted : AllAccounted home)
    (held : Held home) (every : EveryColumns home.db) (member : d ∈ home.daemons)
    (careful : Careful chance home d) (phase : d.phase = .recovering reclaimed) :
    AllAccounted (recover chance home d reclaimed) := by
  have live : d.phase ≠ .gone := by simp [phase]
  have found : home.lease = some ⟨d.record,true⟩ := held.holds d member true (by rw [phase]; rfl)
  unfold DaemonLeases.recover
  split
  · rename_i fails
    refine accounted.to member live (fun served => ?_) (fun _ => rfl)
      fun worker carries owed => .inr ⟨rfl,?_⟩
    · rw [phase] at served
      exact absurd served Bool.false_ne_true
    have drops : Drops chance home worker d := by
      unfold Drops
      rw [phase]
      exact fails
    exact (careful.keeps _ carries owed drops).imp (fun stuck => stuck.to member live) id
  obtain ⟨result,next,ran⟩ : ∃ result next, Db.recoverTasksOwnedBy chance.moment
      (workerId reclaimed.pid) (workerId d.record.pid) home.db = .ok (result,next) :=
    TaskRecovery.recoveryTotal (workerNamed reclaimed.pid) (workerNamed d.record.pid)
  rw [ran]
  have after : turn home.db ⟨chance.moment,.recoverTasksOwnedBy (workerId reclaimed.pid)
      (workerId d.record.pid)⟩ = next := by
    apply turnPerformed
    rw [DbCall.perform,ran]
    rfl
  intro pid owed
  have turned : Owed next (workerId pid) := owed
  rw [← after] at turned
  have before := (owedTurn every turned).resolve_right fun claim => DbCall.noConfusion claim
  rcases (accounted pid before).owner member live found with ⟨_,served,_⟩ | ⟨_,carries | gone⟩
  · rw [phase] at served
    exact absurd served Bool.false_ne_true
  · obtain ⟨record,carried,own⟩ := carries
    rw [phase] at carried
    have same : reclaimed = record := Option.some.inj carried
    subst same
    obtain ⟨r,listed,running,claimed⟩ := owed
    rw [← own,← workerPlain] at claimed
    exact absurd claimed (TaskRecovery.recoveredIdle ran r listed running)
  · rw [phase] at gone
    exact absurd gone Bool.false_ne_true

theorem AllAccounted.listen (accounted : AllAccounted home) (held : Held home)
    (member : d ∈ home.daemons) (phase : d.phase = .starting) :
    AllAccounted (listen chance home d) := by
  have live : d.phase ≠ .gone := by simp [phase]
  have found : home.lease = some ⟨d.record,true⟩ := held.holds d member true (by rw [phase]; rfl)
  intro pid owed
  rcases (accounted pid owed).owner member live found with ⟨_,served,_⟩ |
    ⟨_,⟨record,carried,_⟩ | gone⟩
  · rw [phase] at served
    contradiction
  · rw [phase] at carried
    contradiction
  · rw [phase] at gone
    contradiction

theorem AllAccounted.gone (accounted : AllAccounted home) (member : d ∈ home.daemons)
    (live : d.phase ≠ .gone) (bare : d.phase.carried = none) :
    AllAccounted (home.to d .gone) :=
  accounted.to member live (fun _ => .inr rfl) (fun _ => rfl) fun worker ⟨record,carried,_⟩ => by
    rw [bare] at carried
    contradiction

theorem AllAccounted.release {served : Bool} (accounted : AllAccounted home)
    (member : d ∈ home.daemons) (phase : d.phase = .ending served) :
    AllAccounted (release chance home d served) := by
  have live : d.phase ≠ .gone := by simp [phase]
  have bare : d.phase.carried = none := by rw [phase]; rfl
  unfold DaemonLeases.release
  split
  · refine accounted.to member live (fun before => .inl ?_) (fun before => ?_)
      fun worker ⟨record,carried,_⟩ => by rw [bare] at carried; contradiction
    all_goals rw [phase] at before; cases served <;> first | rfl | contradiction
  · exact accounted.gone member live bare

theorem AllAccounted.unlink {served : Bool} (accounted : AllAccounted home) (held : Held home)
    (member : d ∈ home.daemons) (careful : Careful chance home d)
    (phase : d.phase = .releasing served) : AllAccounted (unlink chance home d) := by
  have live : d.phase ≠ .gone := by simp [phase]
  have bare : d.phase.carried = none := by rw [phase]; rfl
  have found : home.lease = some ⟨d.record,true⟩ := held.holds d member true (by rw [phase]; rfl)
  unfold DaemonLeases.unlink
  split
  · exact accounted.gone member live bare
  · rename_i fails
    intro pid owed
    rcases (accounted pid owed).owner member live found with ⟨_,returned,same⟩ |
      ⟨⟨carrier,listed,carries⟩,_⟩
    · cases served
      · rw [phase] at returned
        contradiction
      · exact absurd (same ▸ owed) (careful.releases phase (by simpa using fails))
    · refine .frees rfl ((memTo member).mpr (.inr ⟨listed,?_⟩)) carries
      rintro rfl
      obtain ⟨record,carried,_⟩ := carries
      rw [bare] at carried
      contradiction

theorem AllAccounted.move (accounted : AllAccounted home) (held : Held home)
    (every : EveryColumns home.db) (member : d ∈ home.daemons)
    (careful : Careful chance home d) : AllAccounted (move chance home d) := by
  cases phase : d.phase with
  | acquiring attempt reclaimed =>
    simpa only [DaemonLeases.move,phase] using accounted.acquire member careful phase
  | observing attempt reclaimed =>
    simpa only [DaemonLeases.move,phase] using accounted.observe member careful phase
  | checking attempt reclaimed observed =>
    simpa only [DaemonLeases.move,phase] using accounted.check member careful phase
  | rereading attempt reclaimed observed =>
    simpa only [DaemonLeases.move,phase] using accounted.reread member careful phase
  | removing attempt reclaimed observed =>
    simpa only [DaemonLeases.move,phase] using accounted.remove member careful phase
  | writing reclaimed =>
    simpa only [DaemonLeases.move,phase] using accounted.write held member careful phase
  | recovering reclaimed =>
    simpa only [DaemonLeases.move,phase] using accounted.recover held every member careful phase
  | starting => simpa only [DaemonLeases.move,phase] using accounted.listen held member phase
  | ending served => simpa only [DaemonLeases.move,phase] using accounted.release member phase
  | releasing served =>
    simpa only [DaemonLeases.move,phase] using accounted.unlink held member careful phase
  | serving => simpa only [DaemonLeases.move,phase] using accounted
  | gone => simpa only [DaemonLeases.move,phase] using accounted

end

structure Sound (home : Home) : Prop where
  held : Held home
  every : EveryColumns home.db
  accounted : AllAccounted home

-- What a step must not do: lose a reclaimed record, take the lock before the start that
-- carries one, unlink another record than the one it read, or stop with a task running.
def Meets (home : Home) : Event → Prop
  | .move instanceToken chance =>
      ∀ d ∈ home.daemons, d.record.instanceToken = instanceToken → Careful chance home d
  | .crash instanceToken => ∀ d ∈ home.daemons, d.record.instanceToken = instanceToken →
      ∀ worker, Carries worker d → Owed home.db worker →
        (∃ reclaimed, d.phase = .writing reclaimed) ∨ Blocked home ∨ Shared home d worker
  | .call t => ∀ pid, t.call ≠ .claimNextTask (workerId pid)
  | .start _ _ | .claim _ _ | .stop _ => True

section
variable {home : Home} {d : Daemon}

theorem Held.same (held : Held home) (db : ControlCenterDb) : Held {home with db} :=
  ⟨held.listed,held.seen,held.doomed,held.holds⟩

theorem Accounted.same {worker : String} (accounted : Accounted home worker)
    (db : ControlCenterDb) : Accounted {home with db} worker := by
  cases accounted with
  | blocked stuck => exact .blocked stuck
  | named file owner found written listed own settled same =>
    exact .named file owner found written listed own settled same
  | carried carrier listed carries free => exact .carried carrier listed carries free

theorem Accounted.more {daemons : Rows Daemon} {worker : String}
    (accounted : Accounted home worker) (more : ∀ d ∈ home.daemons, d ∈ daemons) :
    Accounted {home with daemons} worker := by
  cases accounted with
  | blocked stuck =>
    obtain ⟨file,found,unwritten,owner,listed,rest⟩ := stuck
    exact .blocked ⟨file,found,unwritten,owner,more owner listed,rest⟩
  | named file owner found written listed own settled same =>
    exact .named file owner found written (more owner listed) own settled same
  | carried carrier listed carries free =>
    refine .carried carrier (more carrier listed) carries fun file found => ?_
    obtain ⟨owner,present,rest⟩ := free file found
    exact ⟨owner,more owner present,rest⟩

theorem Sound.launch (sound : Sound home) (record : DaemonLeaseRecord) :
    Sound (home.launch record) := by
  unfold Home.launch
  split
  · exact sound
  split
  · exact sound
  · rename_i daemons inserted
    have listed := (insertSome inserted).2
    have more (d : Daemon) (member : d ∈ home.daemons) : d ∈ daemons :=
      (listed d).mpr (.inl member)
    have held := sound.held
    refine ⟨⟨?_,?_,?_,?_⟩,sound.every,fun pid owed =>
      (sound.accounted pid owed).more more⟩
    · intro file found
      obtain ⟨d,member,own⟩ := held.listed file found
      exact ⟨d,more d member,own⟩
    · intro d member observed saw
      rcases (listed d).mp member with old | rfl
      · obtain ⟨d',present,named⟩ := held.seen d old observed saw
        exact ⟨d',more d' present,named⟩
      · contradiction
    · intro d member observed saw
      rcases (listed d).mp member with old | rfl
      · obtain ⟨d',present,named⟩ := held.doomed d old observed saw
        exact ⟨d',more d' present,named⟩
      · contradiction
    · intro d member written owns
      rcases (listed d).mp member with old | rfl
      · exact held.holds d old written owns
      · contradiction

theorem Sound.claim (sound : Sound home) (member : d ∈ home.daemons) (working : d.working = true)
    (moment : Moment) : Sound {home with
      db := turn home.db ⟨moment,.claimNextTask (workerId d.record.pid)⟩} := by
  simp only [Daemon.working,Bool.or_eq_true,beq_iff_eq] at working
  have returned : d.phase.served = true := by rcases working with same | same <;> rw [same] <;> rfl
  have owns : d.phase.holds = some true := by rcases working with same | same <;> rw [same] <;> rfl
  refine ⟨sound.held.same _,columnsTurn _ _ sound.every,fun pid owed => ?_⟩
  rcases owedTurn sound.every owed with before | mine
  · exact (sound.accounted pid before).same _
  · exact .named _ d (sound.held.holds d member true owns) rfl member rfl (.inl returned)
      (DbCall.claimNextTask.inj mine)

theorem Sound.call (sound : Sound home) (t : Turn)
    (others : ∀ pid, t.call ≠ .claimNextTask (workerId pid)) :
    Sound {home with db := turn home.db t} := by
  refine ⟨sound.held.same _,columnsTurn _ _ sound.every,fun pid owed => ?_⟩
  have before := (owedTurn sound.every owed).resolve_right (others pid)
  exact (sound.accounted pid before).same _

theorem Sound.stop (sound : Sound home) (member : d ∈ home.daemons)
    (phase : d.phase = .serving) : Sound (home.to d (.ending true)) := by
  have live : d.phase ≠ .gone := by simp [phase]
  refine ⟨?_,sound.every,?_⟩
  · exact sound.held.stays member live (fun _ saw => nomatch saw) (fun _ saw => nomatch saw)
      fun written owns => by rw [phase]; exact owns
  · refine sound.accounted.to member live (fun _ => .inl rfl) (fun before => ?_)
      fun worker ⟨record,carried,_⟩ => ?_
    · rw [phase] at before
      contradiction
    · rw [phase] at carried
      contradiction

theorem Sound.crash (sound : Sound home) (member : d ∈ home.daemons) (live : d.phase ≠ .gone)
    (meets : ∀ worker, Carries worker d → Owed home.db worker →
      (∃ reclaimed, d.phase = .writing reclaimed) ∨ Blocked home ∨ Shared home d worker) :
    Sound (home.to d .gone) := by
  refine ⟨sound.held.gone member live,sound.every,sound.accounted.to member live
    (fun _ => .inr rfl) (fun _ => rfl) fun worker carries owed => .inr ⟨rfl,?_⟩⟩
  rcases meets worker carries owed with ⟨reclaimed,phase⟩ | stuck | shares
  · have found := sound.held.holds d member false (by rw [phase]; rfl)
    exact .inl ⟨_,found,rfl,_,(memTo member).mpr (.inl rfl),rfl,rfl⟩
  · exact .inl (stuck.to member live)
  · exact .inr shares

theorem Sound.at_ (sound : Sound home) {instanceToken : String} {f : Daemon → Home}
    (each : ∀ d ∈ home.daemons, d.record.instanceToken = instanceToken → Sound (f d)) :
    Sound (home.at_ instanceToken f) := by
  unfold Home.at_
  split
  · exact sound
  · rename_i d found
    obtain ⟨member,keyed⟩ := getSome.mp found
    exact each d member keyed

theorem moveDb (chance : Chance) (home : Home) (d : Daemon) :
    (move chance home d).db = home.db ∨ ∃ t, (move chance home d).db = turn home.db t := by
  unfold move
  split
  case h_7 reclaimed _ =>
    unfold recover
    split
    · exact .inl rfl
    split
    · exact .inl rfl
    · rename_i result db ran
      right
      refine ⟨⟨chance.moment,.recoverTasksOwnedBy (workerId reclaimed.pid)
        (workerId d.record.pid)⟩,(turnPerformed ?_).symm⟩
      rw [DbCall.perform,ran]
      rfl
  all_goals left
  · unfold acquire
    split
    · rfl
    · split <;> rfl
  · unfold observe
    split <;> rfl
  · unfold check
    split <;> rfl
  · unfold reread
    split
    · rfl
    · split <;> rfl
  · unfold remove
    split <;> rfl
  · unfold write
    split <;> rfl
  · rfl
  · unfold release
    split <;> rfl
  · unfold unlink
    split <;> rfl
  · rfl
  · rfl

theorem soundStep (home : Home) (e : Event) (sound : Sound home) (meets : Meets home e) :
    Sound (step home e) := by
  cases e with
  | start pid instanceToken => exact sound.launch _
  | move instanceToken chance =>
    refine sound.at_ fun d member keyed => ?_
    have careful := meets d member keyed
    refine ⟨sound.held.move member careful,?_,
      sound.accounted.move sound.held sound.every member careful⟩
    rcases moveDb chance home d with same | ⟨t,turned⟩
    · rw [same]
      exact sound.every
    · rw [turned]
      exact columnsTurn _ _ sound.every
  | claim instanceToken moment =>
    refine sound.at_ fun d member _ => ?_
    split
    · exact sound.claim member ‹_› moment
    · exact sound
  | stop instanceToken =>
    refine sound.at_ fun d member _ => ?_
    split
    · exact sound.stop member ‹_›
    · exact sound
  | crash instanceToken =>
    refine sound.at_ fun d member keyed => ?_
    split
    · rename_i live
      exact sound.crash member (by simpa [Daemon.live] using live) (meets d member keyed)
    · exact sound
  | call t => exact sound.call t meets

theorem soundEmpty : Sound .empty where
  held := ⟨fun _ found => (nomatch found),fun _ member => absurd member memEmpty,
    fun _ member => absurd member memEmpty,fun _ member => absurd member memEmpty⟩
  every _ _ found := absurd (getSome.mp found).1 memEmpty
  accounted _ owed := absurd owed.choose_spec.1 memEmpty

end

def Recovered (home : Home) : Prop :=
  ∀ d ∈ home.daemons, d.phase.served = true → home.lease = some ⟨d.record,true⟩ →
    ∀ earlier ∈ home.daemons,
      (∀ other ∈ home.daemons, other.record.pid = earlier.record.pid → other.phase = .gone) →
      ¬Owed home.db (workerId earlier.record.pid)

theorem Sound.recovered {home : Home} (sound : Sound home) : Recovered home := by
  intro d member served found earlier _ dead owed
  have live : d.phase ≠ .gone := fun gone => by
    rw [gone] at served
    contradiction
  rcases (sound.accounted _ owed).owner member live found with ⟨_,_,same⟩ |
    ⟨_,⟨record,carried,_⟩ | withdrawn⟩
  · exact live (dead d member (workerInjective same))
  · cases phase : d.phase <;> rw [phase] at served carried <;> contradiction
  · cases phase : d.phase with
    | ending returned | releasing returned =>
      cases returned <;> rw [phase] at served withdrawn <;> contradiction
    | _ => rw [phase] at served withdrawn; contradiction

theorem deadDaemonsRecovered (events : List Event)
    (meets : ∀ front e back, events = front ++ e::back → Meets (reach step .empty front) e)
    (front back : List Event) (split : events = front ++ back) :
    Recovered (reach step .empty front) :=
  (reachMet step soundStep soundEmpty meets front back split).recovered

def cautious (chance : Chance) (home : Home) (d : Daemon) : Bool :=
  match d.phase with
  | .acquiring attempt _ => !chance.fails && decide (attempt < MAX_ACQUIRE_ATTEMPTS) &&
      home.daemons.rows.all fun other => other == d || other.phase.carried.isNone
  | .observing _ _ | .rereading _ _ _ => (readLeaseRecord chance.fails home.lease).isSome
  | .checking _ _ observed => !chance.fails && !home.processIsAlive observed.pid chance.reused
  | .removing _ reclaimed observed =>
      reclaimed.isNone && home.lease.all fun file => file == ⟨observed,true⟩
  | .writing _ | .recovering _ => !chance.fails
  | .releasing true => !decide (Owed home.db (workerId d.record.pid))
  | .starting | .serving | .ending _ | .releasing false | .gone => true

def cautiousEvent (home : Home) : Event → Bool
  | .move instanceToken chance => home.daemons.rows.all fun d =>
      d.record.instanceToken != instanceToken || cautious chance home d
  | .crash instanceToken => home.daemons.rows.all fun d =>
      d.record.instanceToken != instanceToken || d.phase.carried.isNone
  | .call t => match t.call with
      | .claimNextTask _ => false
      | _ => true
  | .start _ _ | .claim _ _ | .stop _ => true

section
variable {chance : Chance} {home : Home} {d : Daemon}

theorem cautiousDrops {worker : String} (carries : Carries worker d)
    (cautious : cautious chance home d = true) : ¬Drops chance home worker d := by
  obtain ⟨record,carried,_⟩ := carries
  unfold DaemonLeases.cautious at cautious
  unfold Drops
  cases phase : d.phase <;> simp only [phase] at cautious carried ⊢
  case observing | rereading =>
    intro none_
    rw [none_] at cautious
    contradiction
  all_goals simp_all [Phase.carried]

theorem cautiousCareful (cautious : cautious chance home d = true) : Careful chance home d where
  keeps worker carries _ drops := absurd drops (cautiousDrops carries cautious)
  acquires attempt reclaimed phase _ _ _ other listed worker carries _ := by
    unfold DaemonLeases.cautious at cautious
    simp only [phase,Bool.and_eq_true,List.all_eq_true] at cautious
    have alone := cautious.2 other listed
    rw [Bool.or_eq_true] at alone
    rcases alone with same | bare
    · exact beq_iff_eq.mp same ▸ carries
    · obtain ⟨record,carried,_⟩ := carries
      rw [carried] at bare
      contradiction
  removes attempt reclaimed observed phase _ file found := by
    unfold DaemonLeases.cautious at cautious
    simp only [phase,found,Bool.and_eq_true,Option.all_some,beq_iff_eq] at cautious
    exact cautious.2
  releases phase _ := by
    unfold DaemonLeases.cautious at cautious
    simpa only [phase,Bool.not_eq_true',decide_eq_false_iff_not] using cautious

theorem cautiousMeets {e : Event} (cautious : cautiousEvent home e = true) : Meets home e := by
  cases e with
  | move instanceToken chance =>
    intro d member keyed
    have passes := List.all_eq_true.mp cautious d member
    simp only [keyed,bne_self_eq_false,Bool.false_or] at passes
    exact cautiousCareful passes
  | crash instanceToken =>
    intro d member keyed worker ⟨record,carried,_⟩ _
    have passes := List.all_eq_true.mp cautious d member
    simp [keyed,carried] at passes
  | call t =>
    intro pid same
    simp [cautiousEvent,same] at cautious
  | start pid instanceToken => trivial
  | claim instanceToken moment => trivial
  | stop instanceToken => trivial

end

def quiet : Chance := ⟨false,false,⟨2000,"7"⟩⟩

def starts (instanceToken : String) (pid steps : Nat) : List Event :=
  .start pid instanceToken::List.replicate steps (.move instanceToken quiet)

def crashedDaemon : List Event :=
  [.call ⟨⟨1000,"1"⟩,.createTask TaskRecovery.crashedInput TaskRecovery.crashedPlan⟩] ++
    starts "a" 100 3 ++ [.claim "a" ⟨1001,"2"⟩,.crash "a"]

theorem nextDaemonRecovers : Recovered (reach step .empty (crashedDaemon ++ starts "b" 200 9)) := by
  have checked : everyStep step cautiousEvent .empty (crashedDaemon ++ starts "b" 200 9) = true := by
    decide +kernel
  exact deadDaemonsRecovered _
    (fun _ _ _ split => cautiousMeets (everyStepSource step checked split)) _ []
    (List.append_nil _).symm

def crashedTwice : List Event :=
  crashedDaemon ++ starts "b" 200 7 ++ [.crash "b"] ++ starts "c" 300 9

def lost (home : Home) : Bool := home.daemons.rows.any fun d => d.phase.served &&
  home.lease == some ⟨d.record,true⟩ && home.daemons.rows.any fun earlier =>
    (home.daemons.rows.all fun other =>
      other.record.pid != earlier.record.pid || other.phase == .gone) &&
    decide (Owed home.db (workerId earlier.record.pid))

theorem lostTask : ¬Recovered (reach step .empty crashedTwice) := by
  have checked : lost (reach step .empty crashedTwice) = true := by decide +kernel
  intro recovered
  simp only [lost,List.any_eq_true,Bool.and_eq_true,beq_iff_eq,List.all_eq_true,Bool.or_eq_true,
    bne_iff_ne,decide_eq_true_eq] at checked
  obtain ⟨d,member,⟨served,found⟩,earlier,listed,dead,owed⟩ := checked
  exact recovered d member served found earlier listed
    (fun other present same => (dead other present).resolve_left fun differs => differs same) owed

end ControlCenter.DaemonLeases
