import ControlCenter.DaemonLeases
import Mathlib.Logic.Function.Basic

/-! One lock file and any number of processes, each with any number of acquisitions and of
release calls; a process may die at any step and its pid be used again. -/
namespace ControlCenter.LeaseExclusion
open DaemonLeases (DaemonLeaseRecord MAX_ACQUIRE_ATTEMPTS)
open RunLogic

-- Who created the file is kept in the model alone; none has created the first.
structure Lock where
  record : DaemonLeaseRecord
  written : Bool
  creator : Option Nat
  deriving DecidableEq, Repr

inductive ReleasePhase where
  | reading
  | removing
  | settled
  deriving DecidableEq, Repr

inductive Phase where
  | acquiring (attempt : Nat) (reclaimed : Option DaemonLeaseRecord)
  | observing (attempt : Nat) (reclaimed : Option DaemonLeaseRecord)
  | checking (attempt : Nat) (reclaimed : Option DaemonLeaseRecord) (observed : Lock)
  | rereading (attempt : Nat) (reclaimed : Option DaemonLeaseRecord) (observed : Lock)
  | removing (attempt : Nat) (reclaimed : Option DaemonLeaseRecord) (observed : Lock)
  | writing (reclaimed : Option DaemonLeaseRecord)
  | discarding
  -- The acquisition has returned; each call of release is on its own.
  | leased (reclaimed : Option DaemonLeaseRecord) (released : Bool) (releases : List ReleasePhase)
  | failed
  | gone
  deriving DecidableEq, Repr

structure Acquisition where
  record : DaemonLeaseRecord
  phase : Phase
  deriving DecidableEq, Repr

structure Home where
  lease : Option Lock
  alive : Nat → Bool
  acquisitions : Nat → Option Acquisition

def Home.found (lease : Option (DaemonLeaseRecord × Bool)) (alive : Nat → Bool) : Home :=
  ⟨lease.map fun (record,written) => ⟨record,written,none⟩,alive,fun _ => none⟩

structure Chance where
  fails : Bool
  wrote : Bool
  deriving DecidableEq, Repr

def Home.set (home : Home) (i : Nat) (a : Acquisition) : Home :=
  {home with acquisitions := Function.update home.acquisitions i (some a)}

def readLeaseRecord (fails : Bool) (lease : Option Lock) : Option Lock :=
  if fails then none else lease.filter Lock.written

-- A write goes to the file that was created, wherever the path leads by then.
def completed (i : Nat) (file : Lock) : Lock :=
  if file.creator = some i then {file with written := true} else file

section
variable (chance : Chance) (home : Home) (i : Nat) (a : Acquisition)

def Home.to (phase : Phase) : Home := home.set i {a with phase}

def acquire (attempt : Nat) (reclaimed : Option DaemonLeaseRecord) : Home :=
  if chance.fails || decide (MAX_ACQUIRE_ATTEMPTS ≤ attempt) then home.to i a .failed
  else match home.lease with
    | none => {home.to i a (.writing reclaimed) with lease := some ⟨a.record,false,some i⟩}
    | some _ => home.to i a (.observing attempt reclaimed)

def observe (attempt : Nat) (reclaimed : Option DaemonLeaseRecord) : Home :=
  match readLeaseRecord chance.fails home.lease with
  | none => home.to i a .failed
  | some observed => home.to i a (.checking attempt reclaimed observed)

def check (attempt : Nat) (reclaimed : Option DaemonLeaseRecord) (observed : Lock) : Home :=
  if chance.fails || home.alive observed.record.pid then home.to i a .failed
  else home.to i a (.rereading attempt reclaimed observed)

def reread (attempt : Nat) (reclaimed : Option DaemonLeaseRecord) (observed : Lock) : Home :=
  match readLeaseRecord chance.fails home.lease with
  | none => home.to i a .failed
  | some current =>
      if current.record = observed.record then home.to i a (.removing attempt reclaimed observed)
      else home.to i a (.acquiring (attempt + 1) reclaimed)

def remove (attempt : Nat) (observed : Lock) : Home :=
  if chance.fails then home.to i a .failed
  else {home.to i a (.acquiring (attempt + 1) (some observed.record)) with lease := none}

def write (reclaimed : Option DaemonLeaseRecord) : Home :=
  if chance.fails then {home.to i a .discarding with
    lease := if chance.wrote then home.lease.map (completed i) else home.lease}
  else {home.to i a (.leased reclaimed false []) with lease := home.lease.map (completed i)}

def discard : Home :=
  if chance.fails then home.to i a .failed else {home.to i a .failed with lease := none}

def move : Home := match a.phase with
  | .acquiring attempt reclaimed => acquire chance home i a attempt reclaimed
  | .observing attempt reclaimed => observe chance home i a attempt reclaimed
  | .checking attempt reclaimed observed => check chance home i a attempt reclaimed observed
  | .rereading attempt reclaimed observed => reread chance home i a attempt reclaimed observed
  | .removing attempt _ observed => remove chance home i a attempt observed
  | .writing reclaimed => write chance home i a reclaimed
  | .discarding => discard chance home i a
  | .leased _ _ _ | .failed | .gone => home

section
variable (reclaimed : Option DaemonLeaseRecord) (released : Bool) (releases : List ReleasePhase)
  (k : Nat)

def readBack : Home := match chance.fails,home.lease with
  | true,_ => home.to i a (.leased reclaimed released (releases.set k .settled))
  | false,none => home.to i a (.leased reclaimed true (releases.set k .settled))
  | false,some file =>
      if file.written && decide (file.record = a.record) then
        home.to i a (.leased reclaimed released (releases.set k .removing))
      else home.to i a (.leased reclaimed released (releases.set k .settled))

def unlink : Home :=
  if chance.fails || home.lease.isNone then
    home.to i a (.leased reclaimed released (releases.set k .settled))
  else {home.to i a (.leased reclaimed true (releases.set k .settled)) with lease := none}

end

def moveRelease (k : Nat) : Home := match a.phase with
  | .leased reclaimed released releases => match releases[k]? with
      | some .reading => readBack chance home i a reclaimed released releases k
      | some .removing => unlink chance home i a reclaimed released releases k
      | some .settled | none => home
  | _ => home

end

def release (home : Home) (i : Nat) (a : Acquisition) : Home := match a.phase with
  | .leased reclaimed false releases =>
      home.to i a (.leased reclaimed false (releases ++ [.reading]))
  | _ => home

inductive Event where
  | spawn (pid : Nat)
  | die (pid : Nat)
  | start (i : Nat) (record : DaemonLeaseRecord)
  | move (i : Nat) (chance : Chance)
  | release (i : Nat)
  | moveRelease (i k : Nat) (chance : Chance)

def Home.start (home : Home) (i : Nat) (record : DaemonLeaseRecord) : Home :=
  if record.pid ≤ 1 || !home.alive record.pid then home
  else match home.acquisitions i with
    | none => home.set i ⟨record,.acquiring 0 none⟩
    | some _ => home

def Acquisition.dies (pid : Nat) (a : Acquisition) : Acquisition :=
  if a.record.pid = pid then ⟨a.record,.gone⟩ else a

def Home.at_ (home : Home) (i : Nat) (f : Acquisition → Home) : Home :=
  match home.acquisitions i with
  | none => home
  | some a => f a

def step (home : Home) : Event → Home
  | .spawn pid => {home with alive := Function.update home.alive pid true}
  | .die pid => {home with
      alive := Function.update home.alive pid false
      acquisitions := fun i => (home.acquisitions i).map (Acquisition.dies pid)}
  | .start i record => home.start i record
  | .move i chance => home.at_ i (move chance home i)
  | .release i => home.at_ i (release home i)
  | .moveRelease i k chance => home.at_ i fun a => moveRelease chance home i a k

def Phase.owns : Phase → Bool
  | .writing _ | .discarding | .leased _ false _ => true
  | _ => false

def Phase.holds : Phase → Bool
  | .leased _ released _ => !released
  | _ => false

def Phase.unlinks (phase : Phase) (k : Nat) : Bool := match phase with
  | .leased _ _ releases => releases[k]? = some .removing
  | _ => false

def Phase.seen : Phase → Option Lock
  | .checking _ _ observed => some observed
  | _ => none

def Phase.doomed : Phase → Option Lock
  | .rereading _ _ observed | .removing _ _ observed => some observed
  | _ => none

def Removes (home : Home) (creator : Option Nat) : Prop :=
  ∀ file, home.lease = some file → file.creator = creator

def Careful (home : Home) : Event → Prop
  | .move i chance => ∀ a, home.acquisitions i = some a → chance.fails = false →
      match a.phase with
      | .removing _ _ observed => Removes home observed.creator
      | .discarding => Removes home (some i)
      | _ => True
  | .moveRelease i k chance => ∀ a, home.acquisitions i = some a → chance.fails = false →
      a.phase.unlinks k = true → Removes home (some i)
  | _ => True

structure Exclusive (home : Home) : Prop where
  owned : ∀ i a, home.acquisitions i = some a → a.phase.owns = true →
    ∃ file, home.lease = some file ∧ file.creator = some i
  dead : ∀ i a, home.acquisitions i = some a → home.alive a.record.pid = false → a.phase = .gone
  made : ∀ file i, home.lease = some file → file.creator = some i →
    ∃ a, home.acquisitions i = some a ∧ a.record = file.record
  seen : ∀ i a observed j, home.acquisitions i = some a → a.phase.seen = some observed →
    observed.creator = some j → ∃ b, home.acquisitions j = some b ∧ b.record = observed.record
  doomed : ∀ i a observed j, home.acquisitions i = some a → a.phase.doomed = some observed →
    observed.creator = some j → ∃ b, home.acquisitions j = some b ∧ b.phase = .gone

section
variable {home : Home} {i : Nat} {a : Acquisition} {chance : Chance}

theorem setSource {b c : Acquisition} {j : Nat} (known : (home.set i b).acquisitions j = some c) :
    (j = i ∧ c = b) ∨ (j ≠ i ∧ home.acquisitions j = some c) := by
  by_cases same : j = i
  · subst same
    left
    simpa [Home.set,eq_comm] using known
  · right
    simpa [Home.set,Function.update_of_ne same,same] using known

theorem setKept {b : Acquisition} (known : home.acquisitions i = some a) (live : a.phase ≠ .gone)
    (record : b.record = a.record) {j : Nat} {c : Acquisition}
    (found : home.acquisitions j = some c) : ∃ d, (home.set i b).acquisitions j = some d ∧
      d.record = c.record ∧ (c.phase = .gone → d.phase = .gone) := by
  by_cases same : j = i
  · subst same
    cases known.symm.trans found
    exact ⟨b,by simp [Home.set],record,fun gone => absurd gone live⟩
  · exact ⟨c,by simpa [Home.set,Function.update_of_ne same] using found,rfl,id⟩

theorem Exclusive.moved {b : Acquisition} {lease : Option Lock} (exclusive : Exclusive home)
    (known : home.acquisitions i = some a) (live : a.phase ≠ .gone) (record : b.record = a.record)
    (owns : b.phase.owns = true → ∃ file, lease = some file ∧ file.creator = some i)
    (others : ∀ j c, j ≠ i → home.acquisitions j = some c → c.phase.owns = true →
      ∀ file, home.lease = some file → file.creator = some j →
        ∃ file', lease = some file' ∧ file'.creator = some j)
    (made : ∀ file j, lease = some file → file.creator = some j →
      (∃ file', home.lease = some file' ∧ file'.creator = some j ∧ file'.record = file.record) ∨
        (j = i ∧ file.record = a.record))
    (seen : ∀ observed j, b.phase.seen = some observed → observed.creator = some j →
      ∃ c, home.acquisitions j = some c ∧ c.record = observed.record)
    (doomed : ∀ observed j, b.phase.doomed = some observed → observed.creator = some j →
      ∃ c, home.acquisitions j = some c ∧ c.phase = .gone) :
    Exclusive {home.set i b with lease := lease} := by
  have kept {j : Nat} {c : Acquisition} := setKept (b := b) (j := j) (c := c) known live record
  constructor
  · intro j c found isOwner
    rcases setSource found with ⟨rfl,rfl⟩ | ⟨other,found⟩
    · exact owns isOwner
    · obtain ⟨file,lease_,creator⟩ := exclusive.owned j c found isOwner
      exact others j c other found isOwner file lease_ creator
  · intro j c found dead
    rcases setSource found with ⟨rfl,rfl⟩ | ⟨other,found⟩
    · exact absurd (exclusive.dead j a known (record ▸ dead)) live
    · exact exclusive.dead j c found dead
  · intro file j lease_ creator
    have before : ∃ c, home.acquisitions j = some c ∧ c.record = file.record := by
      rcases made file j lease_ creator with ⟨file',lease_,creator,same⟩ | ⟨rfl,same⟩
      · obtain ⟨c,found,named⟩ := exclusive.made file' j lease_ creator
        exact ⟨c,found,named.trans same⟩
      · exact ⟨a,known,same.symm⟩
    obtain ⟨c,found,named⟩ := before
    obtain ⟨d,found,same,_⟩ := kept found
    exact ⟨d,found,same.trans named⟩
  · intro j c observed k found saw creator
    have before : ∃ c, home.acquisitions k = some c ∧ c.record = observed.record := by
      rcases setSource found with ⟨rfl,rfl⟩ | ⟨_,found⟩
      · exact seen observed k saw creator
      · exact exclusive.seen j c observed k found saw creator
    obtain ⟨c,found,named⟩ := before
    obtain ⟨d,found,same,_⟩ := kept found
    exact ⟨d,found,same.trans named⟩
  · intro j c observed k found saw creator
    have before : ∃ c, home.acquisitions k = some c ∧ c.phase = .gone := by
      rcases setSource found with ⟨rfl,rfl⟩ | ⟨_,found⟩
      · exact doomed observed k saw creator
      · exact exclusive.doomed j c observed k found saw creator
    obtain ⟨c,found,gone⟩ := before
    obtain ⟨d,found,_,stays⟩ := kept found
    exact ⟨d,found,stays gone⟩

theorem Exclusive.stays {b : Acquisition} {lease : Option Lock} (exclusive : Exclusive home)
    (known : home.acquisitions i = some a) (live : a.phase ≠ .gone) (record : b.record = a.record)
    (owns : b.phase.owns = true → a.phase.owns = true)
    (same : lease.map (fun f => (f.record,f.creator)) =
      home.lease.map fun f => (f.record,f.creator))
    (seen : ∀ observed j, b.phase.seen = some observed → observed.creator = some j →
      ∃ c, home.acquisitions j = some c ∧ c.record = observed.record)
    (doomed : ∀ observed j, b.phase.doomed = some observed → observed.creator = some j →
      ∃ c, home.acquisitions j = some c ∧ c.phase = .gone) :
    Exclusive {home.set i b with lease := lease} := by
  have forth (file : Lock) (found : home.lease = some file) :
      ∃ file', lease = some file' ∧ file'.creator = file.creator := by
    rw [found] at same
    obtain ⟨file',found',equal⟩ := Option.map_eq_some_iff.mp same
    exact ⟨file',found',(Prod.mk.inj equal).2⟩
  have back (file : Lock) (found : lease = some file) : ∃ file', home.lease = some file' ∧
      file'.creator = file.creator ∧ file'.record = file.record := by
    rw [found] at same
    obtain ⟨file',found',equal⟩ := Option.map_eq_some_iff.mp same.symm
    exact ⟨file',found',(Prod.mk.inj equal).2,(Prod.mk.inj equal).1⟩
  refine exclusive.moved known live record ?_ ?_ ?_ seen doomed
  · intro isOwner
    obtain ⟨file,found,creator⟩ := exclusive.owned i a known (owns isOwner)
    obtain ⟨file',found',same'⟩ := forth file found
    exact ⟨file',found',same'.trans creator⟩
  · intro j c _ _ _ file found creator
    obtain ⟨file',found',same'⟩ := forth file found
    exact ⟨file',found',same'.trans creator⟩
  · intro file j found creator
    obtain ⟨file',found',same',record'⟩ := back file found
    exact .inl ⟨file',found',same'.trans creator,record'⟩

theorem Exclusive.removed {b : Acquisition} {creator : Option Nat} (exclusive : Exclusive home)
    (known : home.acquisitions i = some a) (live : a.phase ≠ .gone) (record : b.record = a.record)
    (removes : Removes home creator)
    (nobody : ∀ j c, creator = some j → home.acquisitions j = some c → c.phase.owns = true → j = i)
    (owns : b.phase.owns = false) (seen : b.phase.seen = none) (doomed : b.phase.doomed = none) :
    Exclusive {home.set i b with lease := none} := by
  refine exclusive.moved known live record ?_ ?_ ?_ ?_ ?_
  · intro isOwner
    rw [owns] at isOwner
    cases isOwner
  · intro j c other found isOwner file lease_ own
    exact absurd (nobody j c ((removes file lease_).symm.trans own) found isOwner) other
  · intro file j found
    cases found
  · intro observed j saw
    rw [seen] at saw
    cases saw
  · intro observed j saw
    rw [doomed] at saw
    cases saw

theorem Exclusive.goes {b : Acquisition} (exclusive : Exclusive home)
    (known : home.acquisitions i = some a) (live : a.phase ≠ .gone) (record : b.record = a.record)
    (owns : b.phase.owns = true → a.phase.owns = true) (seen : b.phase.seen = none)
    (doomed : b.phase.doomed = none) : Exclusive (home.set i b) :=
  exclusive.stays known live record owns rfl (fun _ _ saw => by rw [seen] at saw; cases saw)
    (fun _ _ saw => by rw [doomed] at saw; cases saw)

theorem Exclusive.fails (exclusive : Exclusive home) (known : home.acquisitions i = some a)
    (live : a.phase ≠ .gone) : Exclusive (home.to i a .failed) :=
  exclusive.goes known live rfl (fun isOwner => nomatch isOwner) rfl rfl

theorem readSource {fails : Bool} {lease : Option Lock} {file : Lock}
    (h : readLeaseRecord fails lease = some file) : lease = some file := by
  unfold readLeaseRecord at h
  split at h
  next => cases h
  next => exact (Option.filter_eq_some_iff.mp h).1

theorem Exclusive.acquire {attempt : Nat} {reclaimed : Option DaemonLeaseRecord}
    (exclusive : Exclusive home) (known : home.acquisitions i = some a) (live : a.phase ≠ .gone) :
    Exclusive (acquire chance home i a attempt reclaimed) := by
  unfold LeaseExclusion.acquire
  split
  next => exact exclusive.fails known live
  next =>
    split
    next none_ =>
      refine exclusive.moved known live rfl (fun _ => ⟨_,rfl,rfl⟩) ?_ ?_
        (fun _ _ saw => nomatch saw) (fun _ _ saw => nomatch saw)
      · intro j c _ _ _ file found
        cases none_.symm.trans found
      · intro file j found creator
        cases found
        exact .inr ⟨(Option.some.inj creator).symm,rfl⟩
    next => exact exclusive.goes known live rfl (fun isOwner => nomatch isOwner) rfl rfl

theorem Exclusive.observe {attempt : Nat} {reclaimed : Option DaemonLeaseRecord}
    (exclusive : Exclusive home) (known : home.acquisitions i = some a) (live : a.phase ≠ .gone) :
    Exclusive (observe chance home i a attempt reclaimed) := by
  unfold LeaseExclusion.observe
  split
  next => exact exclusive.fails known live
  next observed read_ =>
    refine exclusive.stays known live rfl (fun isOwner => nomatch isOwner) rfl ?_
      (fun _ _ saw => nomatch saw)
    intro file j saw creator
    cases saw
    exact exclusive.made observed j (readSource read_) creator

theorem Exclusive.check {attempt : Nat} {reclaimed : Option DaemonLeaseRecord} {observed : Lock}
    (exclusive : Exclusive home) (known : home.acquisitions i = some a)
    (phase : a.phase = .checking attempt reclaimed observed) :
    Exclusive (check chance home i a attempt reclaimed observed) := by
  have live : a.phase ≠ .gone := by simp [phase]
  unfold LeaseExclusion.check
  split
  next => exact exclusive.fails known live
  next passed =>
    refine exclusive.stays known live rfl (fun isOwner => nomatch isOwner) rfl
      (fun _ _ saw => nomatch saw) ?_
    intro file j saw creator
    cases saw
    obtain ⟨b,found,record⟩ := exclusive.seen i a observed j known (by rw [phase]; rfl) creator
    simp only [Bool.or_eq_true,not_or,Bool.not_eq_true] at passed
    exact ⟨b,found,exclusive.dead j b found (record ▸ passed.2)⟩

theorem Exclusive.reread {attempt : Nat} {reclaimed : Option DaemonLeaseRecord} {observed : Lock}
    (exclusive : Exclusive home) (known : home.acquisitions i = some a)
    (phase : a.phase = .rereading attempt reclaimed observed) :
    Exclusive (reread chance home i a attempt reclaimed observed) := by
  have live : a.phase ≠ .gone := by simp [phase]
  unfold LeaseExclusion.reread
  split
  next => exact exclusive.fails known live
  next current _ =>
    split
    next =>
      refine exclusive.stays known live rfl (fun isOwner => nomatch isOwner) rfl
        (fun _ _ saw => nomatch saw) ?_
      intro file j saw creator
      cases saw
      exact exclusive.doomed i a observed j known (by rw [phase]; rfl) creator
    next => exact exclusive.goes known live rfl (fun isOwner => nomatch isOwner) rfl rfl

theorem Exclusive.remove {attempt : Nat} {reclaimed : Option DaemonLeaseRecord} {observed : Lock}
    (exclusive : Exclusive home) (known : home.acquisitions i = some a)
    (phase : a.phase = .removing attempt reclaimed observed)
    (careful : chance.fails = false → Removes home observed.creator) :
    Exclusive (remove chance home i a attempt observed) := by
  have live : a.phase ≠ .gone := by simp [phase]
  unfold LeaseExclusion.remove
  split
  next => exact exclusive.fails known live
  next succeeds =>
    refine exclusive.removed known live rfl (careful (by simpa using succeeds)) ?_ rfl rfl rfl
    intro j c creator found isOwner
    obtain ⟨b,found',gone⟩ := exclusive.doomed i a observed j known (by rw [phase]; rfl) creator
    cases found.symm.trans found'
    rw [gone] at isOwner
    cases isOwner

theorem completedSame (lease : Option Lock) : (lease.map (completed i)).map
    (fun f => (f.record,f.creator)) = lease.map fun f => (f.record,f.creator) := by
  cases lease with
  | none => rfl
  | some file =>
    simp only [Option.map_some,completed]
    split <;> rfl

theorem Exclusive.write {reclaimed : Option DaemonLeaseRecord} (exclusive : Exclusive home)
    (known : home.acquisitions i = some a) (phase : a.phase = .writing reclaimed) :
    Exclusive (write chance home i a reclaimed) := by
  have live : a.phase ≠ .gone := by simp [phase]
  have owner : a.phase.owns = true := by rw [phase]; rfl
  unfold LeaseExclusion.write
  split
  next =>
    refine exclusive.stays known live rfl (fun _ => owner) ?_ (fun _ _ saw => nomatch saw)
      (fun _ _ saw => nomatch saw)
    split
    next => exact completedSame _
    next => rfl
  next =>
    exact exclusive.stays known live rfl (fun _ => owner) (completedSame _)
      (fun _ _ saw => nomatch saw) (fun _ _ saw => nomatch saw)

theorem Exclusive.discard (exclusive : Exclusive home) (known : home.acquisitions i = some a)
    (live : a.phase ≠ .gone) (careful : chance.fails = false → Removes home (some i)) :
    Exclusive (discard chance home i a) := by
  unfold LeaseExclusion.discard
  split
  next => exact exclusive.fails known live
  next succeeds =>
    exact exclusive.removed known live rfl (careful (by simpa using succeeds))
      (fun _ _ creator _ _ => (Option.some.inj creator).symm) rfl rfl rfl

theorem Exclusive.move (exclusive : Exclusive home) (known : home.acquisitions i = some a)
    (careful : Careful home (.move i chance)) : Exclusive (move chance home i a) := by
  have met := careful a known
  unfold LeaseExclusion.move
  cases phase : a.phase with
  | acquiring attempt reclaimed => exact exclusive.acquire known (by simp [phase])
  | observing attempt reclaimed => exact exclusive.observe known (by simp [phase])
  | checking attempt reclaimed observed => exact exclusive.check known phase
  | rereading attempt reclaimed observed => exact exclusive.reread known phase
  | removing attempt reclaimed observed =>
    rw [phase] at met
    exact exclusive.remove known phase met
  | writing reclaimed => exact exclusive.write known phase
  | discarding =>
    rw [phase] at met
    exact exclusive.discard known (by simp [phase]) met
  | leased | failed | gone => exact exclusive

theorem Exclusive.moveRelease {k : Nat} (exclusive : Exclusive home)
    (known : home.acquisitions i = some a) (careful : Careful home (.moveRelease i k chance)) :
    Exclusive (moveRelease chance home i a k) := by
  unfold LeaseExclusion.moveRelease
  cases phase : a.phase with
  | leased reclaimed released releases =>
    have live : a.phase ≠ .gone := by simp [phase]
    have stays (later : Bool) (calls : List ReleasePhase) (owner : later = false → released = false) :
        Exclusive (home.to i a (.leased reclaimed later calls)) := by
      refine exclusive.goes known live rfl (fun isOwner => ?_) rfl rfl
      cases later with
      | true => cases isOwner
      | false => rw [phase,owner rfl]; rfl
    dsimp only
    split
    next =>
      unfold readBack
      split
      next => exact stays _ _ id
      next => exact stays _ _ nofun
      next =>
        split
        next => exact stays _ _ id
        next => exact stays _ _ id
    next reached =>
      unfold unlink
      split
      next => exact stays _ _ id
      next succeeds =>
        simp only [Bool.or_eq_true,not_or,Bool.not_eq_true] at succeeds
        refine exclusive.removed known live rfl (careful a known succeeds.1 ?_)
          (fun _ _ creator _ _ => (Option.some.inj creator).symm) rfl rfl rfl
        simp [phase,Phase.unlinks,reached]
    next => exact exclusive
    next => exact exclusive
  | acquiring | observing | checking | rereading | removing | writing | discarding | failed
  | gone => exact exclusive

theorem Exclusive.release (exclusive : Exclusive home) (known : home.acquisitions i = some a) :
    Exclusive (release home i a) := by
  unfold LeaseExclusion.release
  split
  next reclaimed releases phase =>
    exact exclusive.goes known (by simp [phase]) rfl (fun _ => by rw [phase]; rfl) rfl rfl
  next => exact exclusive

theorem Exclusive.start {record : DaemonLeaseRecord} (exclusive : Exclusive home) :
    Exclusive (home.start i record) := by
  unfold Home.start
  split
  next => exact exclusive
  next runs =>
    split
    next fresh =>
      have kept {j : Nat} {c : Acquisition} (found : home.acquisitions j = some c) :
          (home.set i ⟨record,.acquiring 0 none⟩).acquisitions j = some c := by
        have other : j ≠ i := fun same => by rw [same,fresh] at found; cases found
        simpa [Home.set,Function.update_of_ne other] using found
      constructor
      · intro j c found isOwner
        rcases setSource found with ⟨rfl,rfl⟩ | ⟨_,found⟩
        · cases isOwner
        · exact exclusive.owned j c found isOwner
      · intro j c found dead
        rcases setSource found with ⟨rfl,rfl⟩ | ⟨_,found⟩
        · simp only [Bool.or_eq_true,not_or] at runs
          exact absurd (congrArg not dead) runs.2
        · exact exclusive.dead j c found dead
      · intro file j lease creator
        obtain ⟨c,found,named⟩ := exclusive.made file j lease creator
        exact ⟨c,kept found,named⟩
      · intro j c observed k found saw creator
        rcases setSource found with ⟨rfl,rfl⟩ | ⟨_,found⟩
        · cases saw
        · obtain ⟨c,found,named⟩ := exclusive.seen j c observed k found saw creator
          exact ⟨c,kept found,named⟩
      · intro j c observed k found saw creator
        rcases setSource found with ⟨rfl,rfl⟩ | ⟨_,found⟩
        · cases saw
        · obtain ⟨c,found,gone⟩ := exclusive.doomed j c observed k found saw creator
          exact ⟨c,kept found,gone⟩
    next => exact exclusive

theorem diesRecord (pid : Nat) (a : Acquisition) : (a.dies pid).record = a.record := by
  unfold Acquisition.dies
  split <;> rfl

theorem diesPhase (pid : Nat) (a : Acquisition) :
    (a.dies pid).phase = a.phase ∨ (a.dies pid).phase = .gone := by
  unfold Acquisition.dies
  split
  next => exact .inr rfl
  next => exact .inl rfl

theorem Exclusive.die (exclusive : Exclusive home) (pid : Nat) :
    Exclusive (step home (.die pid)) := by
  have source {j : Nat} {c : Acquisition} (found : (step home (.die pid)).acquisitions j = some c) :
      ∃ b, home.acquisitions j = some b ∧ b.dies pid = c := Option.map_eq_some_iff.mp found
  have kept {j : Nat} {c : Acquisition} (found : home.acquisitions j = some c) :
      (step home (.die pid)).acquisitions j = some (c.dies pid) :=
    Option.map_eq_some_iff.mpr ⟨c,found,rfl⟩
  constructor
  · intro j c found isOwner
    obtain ⟨b,before,rfl⟩ := source found
    rcases diesPhase pid b with same | gone
    · exact exclusive.owned j b before (same ▸ isOwner)
    · rw [gone] at isOwner
      cases isOwner
  · intro j c found dead
    obtain ⟨b,before,rfl⟩ := source found
    rw [diesRecord] at dead
    by_cases own : b.record.pid = pid
    · simp [Acquisition.dies,own]
    · have was := exclusive.dead j b before (by simpa [step,Function.update_of_ne own] using dead)
      simpa [Acquisition.dies,own] using was
  · intro file j lease creator
    obtain ⟨c,found,named⟩ := exclusive.made file j lease creator
    exact ⟨_,kept found,(diesRecord pid c).trans named⟩
  · intro j c observed k found saw creator
    obtain ⟨b,before,rfl⟩ := source found
    rcases diesPhase pid b with same | gone
    · obtain ⟨c,found,named⟩ := exclusive.seen j b observed k before (same ▸ saw) creator
      exact ⟨_,kept found,(diesRecord pid c).trans named⟩
    · rw [gone] at saw
      cases saw
  · intro j c observed k found saw creator
    obtain ⟨b,before,rfl⟩ := source found
    rcases diesPhase pid b with same | gone
    · obtain ⟨c,found,ended⟩ := exclusive.doomed j b observed k before (same ▸ saw) creator
      exact ⟨_,kept found,(diesPhase pid c).elim (·.trans ended) id⟩
    · rw [gone] at saw
      cases saw

theorem Exclusive.at_ {f : Acquisition → Home} (exclusive : Exclusive home)
    (each : ∀ a, home.acquisitions i = some a → Exclusive (f a)) : Exclusive (home.at_ i f) := by
  unfold Home.at_
  split
  next => exact exclusive
  next a known => exact each a known

theorem Exclusive.step (exclusive : Exclusive home) (e : Event) (careful : Careful home e) :
    Exclusive (step home e) := by
  cases e with
  | spawn pid =>
    refine ⟨exclusive.owned,fun j c found dead => exclusive.dead j c found ?_,exclusive.made,
      exclusive.seen,exclusive.doomed⟩
    by_cases own : c.record.pid = pid
    · simp [LeaseExclusion.step,own] at dead
    · simpa [LeaseExclusion.step,Function.update_of_ne own] using dead
  | die pid => exact exclusive.die pid
  | start i record => exact exclusive.start
  | move i chance => exact exclusive.at_ fun a known => exclusive.move known careful
  | release i => exact exclusive.at_ fun a known => exclusive.release known
  | moveRelease i k chance => exact exclusive.at_ fun a known => exclusive.moveRelease known careful

theorem foundExclusive (lease : Option (DaemonLeaseRecord × Bool)) (alive : Nat → Bool) :
    Exclusive (.found lease alive) where
  owned _ _ known := nomatch known
  dead _ _ known := nomatch known
  made file j known creator := by
    obtain ⟨_,_,rfl⟩ := Option.map_eq_some_iff.mp known
    cases creator
  seen _ _ _ _ known := nomatch known
  doomed _ _ _ _ known := nomatch known

-- At most one acquisition has the lease when every removal takes the file it was meant for.
theorem leaseExclusive (lease : Option (DaemonLeaseRecord × Bool)) (alive : Nat → Bool)
    {events : List Event} (careful : ∀ front e back, events = front ++ e::back →
      Careful (reach LeaseExclusion.step (.found lease alive) front) e) :
    let home := reach LeaseExclusion.step (.found lease alive) events
    ∀ i j a b, home.acquisitions i = some a → home.acquisitions j = some b →
      a.phase.holds = true → b.phase.holds = true → i = j := by
  have exclusive := reachMet LeaseExclusion.step (fun _ e known met => known.step e met)
    (foundExclusive lease alive) careful events [] (List.append_nil _).symm
  have owner {a : Acquisition} (holds : a.phase.holds = true) : a.phase.owns = true := by
    cases phase : a.phase with
    | leased reclaimed released releases =>
      rw [phase] at holds
      cases released with
      | false => rfl
      | true => cases holds
    | _ => rw [phase] at holds; cases holds
  intro home i j a b foundA foundB holdsA holdsB
  obtain ⟨file,known,creator⟩ := exclusive.owned i a foundA (owner holdsA)
  obtain ⟨file',known',creator'⟩ := exclusive.owned j b foundB (owner holdsB)
  cases known.symm.trans known'
  exact Option.some.inj (creator.symm.trans creator')

end

section

def removesNow (home : Home) (creator : Option Nat) : Bool :=
  home.lease.all fun file => decide (file.creator = creator)

def carefulNow (home : Home) : Event → Bool
  | .move i chance => match (home.acquisitions i).map Acquisition.phase with
    | some (.removing _ _ observed) => chance.fails || removesNow home observed.creator
    | some .discarding => chance.fails || removesNow home (some i)
    | _ => true
  | .moveRelease i k chance => match (home.acquisitions i).map Acquisition.phase with
    | some phase => chance.fails || !phase.unlinks k || removesNow home (some i)
    | none => true
  | _ => true

theorem removesSource {home : Home} {creator : Option Nat}
    (removes : removesNow home creator = true) : Removes home creator := by
  intro file known
  unfold removesNow at removes
  rw [known] at removes
  exact of_decide_eq_true removes

theorem carefulSource {home : Home} {e : Event} (careful : carefulNow home e = true) :
    Careful home e := by
  cases e with
  | move i chance =>
    intro a known succeeds
    simp only [carefulNow,known,Option.map_some,succeeds,Bool.false_or] at careful
    split <;> simp_all [removesSource]
  | moveRelease i k chance =>
    intro a known succeeds unlinks
    simp only [carefulNow,known,Option.map_some,succeeds,unlinks,Bool.false_or,Bool.not_true]
      at careful
    exact removesSource careful
  | spawn | die | start | release => trivial

def stale : DaemonLeaseRecord := ⟨4000,"stale"⟩
def first : DaemonLeaseRecord := ⟨10,"first"⟩
def second : DaemonLeaseRecord := ⟨20,"second"⟩

def succeeds : Chance := ⟨false,false⟩

def moves (i n : Nat) : List Event := List.replicate n (.move i succeeds)

def twoAlive (pid : Nat) : Bool := pid = 10 || pid = 20

def oneAfterAnother : List Event := [.start 1 first,.start 2 second] ++ moves 1 7 ++ moves 2 4

def bothReclaim : List Event :=
  [.start 1 first,.start 2 second] ++ moves 1 4 ++ moves 2 4 ++ moves 1 3 ++ moves 2 3

def holding (home : Home) (i : Nat) : Bool := (home.acquisitions i).any fun a => a.phase.holds

theorem leaseExclusiveReclaimed :
    (holding (reach step (.found (some (stale,true)) twoAlive) oneAfterAnother) 1 &&
      holding (reach step (.found (some (stale,true)) twoAlive) oneAfterAnother) 2) = false := by
  have exclusive := leaseExclusive (some (stale,true)) twoAlive fun _ _ _ split =>
    carefulSource (everyStepSource step
      (show everyStep step carefulNow (.found (some (stale,true)) twoAlive) oneAfterAnother = true by
        decide +kernel) split)
  refine Bool.eq_false_iff.mpr fun both => ?_
  obtain ⟨one,two⟩ := Bool.and_eq_true_iff.mp both
  obtain ⟨a,first,holdsFirst⟩ := Option.any_eq_true _ _ |>.mp one
  obtain ⟨b,second,holdsSecond⟩ := Option.any_eq_true _ _ |>.mp two
  exact absurd (exclusive 1 2 a b first second holdsFirst holdsSecond) (by decide)

theorem twoHolders : ∃ a b,
    (reach step (.found (some (stale,true)) twoAlive) bothReclaim).acquisitions 1 = some a ∧
    (reach step (.found (some (stale,true)) twoAlive) bothReclaim).acquisitions 2 = some b ∧
    a.phase.holds = true ∧ b.phase.holds = true ∧ a.record.pid ≠ b.record.pid ∧
    (reach step (.found (some (stale,true)) twoAlive) bothReclaim).alive a.record.pid = true ∧
    (reach step (.found (some (stale,true)) twoAlive) bothReclaim).alive b.record.pid = true :=
  ⟨⟨first,.leased (some stale) false []⟩,⟨second,.leased (some stale) false []⟩,
    by decide +kernel⟩

end

end ControlCenter.LeaseExclusion
