import ControlCenter.DaemonLeases
import ControlCenter.JsonText

/-! The text of the lock file while one process takes or releases the lease and stops at
any point, and what a later start on its own makes of what is left. -/
namespace ControlCenter.LeaseCrashes
open JsonText RunLogic
open DaemonLeases (MAX_ACQUIRE_ATTEMPTS)

structure DaemonLeaseRecord where
  pid : Nat
  instanceToken : Text
  acquiredAt : Text
  deriving DecidableEq

structure Reader (N : Type) where
  format : NumberFormat N
  ofNat : Nat → N
  integer : N → Option Int
  dated : Text → Bool

section
variable {N : Type} (p : Reader N)

def tokenUnit (c : CodeUnit) : Bool :=
  isDigit c || (65 ≤ c.val && c.val ≤ 90) || (97 ≤ c.val && c.val ≤ 122) || c = 45 || c = 95

def tokenText (s : Text) : Bool := s.length = 43 && s.all tokenUnit

def recordJson (record : DaemonLeaseRecord) : Value N := .object
  [(ascii "version",.number (p.ofNat 1)),(ascii "pid",.number (p.ofNat record.pid)),
   (ascii "instanceToken",.string record.instanceToken),
   (ascii "acquiredAt",.string record.acquiredAt)]

-- JSON.stringify of a record and a newline.
def recordLine (record : DaemonLeaseRecord) : Text := write p.format (recordJson p record) ++ [10]

def validRecord (version pid : N) (instanceToken acquiredAt : Text) : Option DaemonLeaseRecord := do
  let pid ← p.integer pid
  if p.integer version = some 1 ∧ 1 < pid ∧ pid ≤ 9007199254740991 ∧
      tokenText instanceToken = true ∧ p.dated acquiredAt = true then
    some ⟨pid.toNat,instanceToken,acquiredAt⟩
  else none

def parseLeaseRecord (path : String) (text : Text) : Except String DaemonLeaseRecord :=
  match parse p.format text with
  | none => .error s!"Daemon lease is not valid JSON: {path}"
  | some (.object members) =>
      match members.lookup (ascii "version"),members.lookup (ascii "pid"),
        members.lookup (ascii "instanceToken"),members.lookup (ascii "acquiredAt") with
      | some (.number version),some (.number pid),some (.string instanceToken),
          some (.string acquiredAt) =>
        match validRecord p version pid instanceToken acquiredAt with
        | some record => .ok record
        | none => .error s!"Daemon lease has an invalid record: {path}"
      | _,_,_,_ => .error s!"Daemon lease has an invalid record: {path}"
  | some _ => .error s!"Daemon lease has an invalid record: {path}"

end

inductive Phase where
  | acquiring (attempt : Nat) (reclaimed : Option DaemonLeaseRecord)
  | observing (attempt : Nat) (reclaimed : Option DaemonLeaseRecord)
  | checking (attempt : Nat) (reclaimed : Option DaemonLeaseRecord) (observed : DaemonLeaseRecord)
  | rereading (attempt : Nat) (reclaimed : Option DaemonLeaseRecord) (observed : DaemonLeaseRecord)
  | removing (attempt : Nat) (reclaimed : Option DaemonLeaseRecord) (observed : DaemonLeaseRecord)
  | writing (reclaimed : Option DaemonLeaseRecord) (left : Text)
  | syncing (reclaimed : Option DaemonLeaseRecord)
  | discarding
  | leased (reclaimed : Option DaemonLeaseRecord)
  | releasing (reclaimed : Option DaemonLeaseRecord)
  | unlinking (reclaimed : Option DaemonLeaseRecord)
  | ended
  deriving DecidableEq

structure Home where
  file : Option Text
  phase : Phase
  deriving DecidableEq

structure Chance where
  fails : Bool
  size : Nat

inductive Event where
  | move (chance : Chance)
  | release

section
variable {N : Type} (p : Reader N) (path : String) (alive : Nat → Bool)
  (record : DaemonLeaseRecord)

def readLeaseRecord (chance : Chance) (home : Home) : Option DaemonLeaseRecord :=
  if chance.fails then none else home.file.bind fun text => (parseLeaseRecord p path text).toOption

def sameOwner (a b : DaemonLeaseRecord) : Bool :=
  a.pid = b.pid && a.instanceToken = b.instanceToken

def move (chance : Chance) (home : Home) : Home := match home.phase with
  | .acquiring attempt reclaimed =>
    if chance.fails || decide (MAX_ACQUIRE_ATTEMPTS ≤ attempt) then {home with phase := .ended}
    else match home.file with
      | none => ⟨some [],.writing reclaimed (recordLine p record)⟩
      | some _ => {home with phase := .observing attempt reclaimed}
  | .observing attempt reclaimed => match readLeaseRecord p path chance home with
    | none => {home with phase := .ended}
    | some observed => {home with phase := .checking attempt reclaimed observed}
  | .checking attempt reclaimed observed =>
    if chance.fails || alive observed.pid then {home with phase := .ended}
    else {home with phase := .rereading attempt reclaimed observed}
  | .rereading attempt reclaimed observed => match readLeaseRecord p path chance home with
    | none => {home with phase := .ended}
    | some current =>
      if sameOwner current observed then {home with phase := .removing attempt reclaimed observed}
      else {home with phase := .acquiring (attempt + 1) reclaimed}
  | .removing attempt _ observed =>
    if chance.fails then {home with phase := .ended}
    else ⟨none,.acquiring (attempt + 1) (some observed)⟩
  | .writing reclaimed left =>
    let file := home.file.map (· ++ left.take chance.size)
    if chance.fails then ⟨file,.discarding⟩
    else if left.drop chance.size = [] then ⟨file,.syncing reclaimed⟩
    else ⟨file,.writing reclaimed (left.drop chance.size)⟩
  | .syncing reclaimed =>
    if chance.fails then {home with phase := .discarding}
    else {home with phase := .leased reclaimed}
  | .discarding => if chance.fails then {home with phase := .ended} else ⟨none,.ended⟩
  | .releasing reclaimed => match chance.fails,home.file with
    | false,none => {home with phase := .ended}
    | _,_ => match readLeaseRecord p path chance home with
      | none => {home with phase := .leased reclaimed}
      | some current =>
        if sameOwner current record then {home with phase := .unlinking reclaimed}
        else {home with phase := .leased reclaimed}
  | .unlinking reclaimed =>
    if chance.fails then {home with phase := .leased reclaimed} else ⟨none,.ended⟩
  | .leased _ | .ended => home

def step (home : Home) : Event → Home
  | .move chance => move p path alive record chance home
  | .release => match home.phase with
    | .leased reclaimed => {home with phase := .releasing reclaimed}
    | _ => home

def lone (file : Option Text) (n : Nat) : Home :=
  reach (step p path alive record) ⟨file,.acquiring 0 none⟩
    (List.replicate n (.move ⟨false,(recordLine p record).length⟩))

def Acquires (file : Option Text) : Prop :=
  ∃ n reclaimed, (lone p path alive record file n).phase = .leased reclaimed

def Torn (file : Option Text) : Prop := ∃ text, file = some text ∧
  text <+: write p.format (recordJson p record) ∧ text ≠ write p.format (recordJson p record)

structure Valid (record : DaemonLeaseRecord) : Prop where
  version : p.integer (p.ofNat 1) = some 1
  pid : p.integer (p.ofNat record.pid) = some (record.pid : Int)
  own : 1 < record.pid
  safe : record.pid ≤ 9007199254740991
  token : tokenText record.instanceToken = true
  dated : p.dated record.acquiredAt = true

end

section
variable {N : Type} {p : Reader N} {path : String} {alive : Nat → Bool}
  {record : DaemonLeaseRecord}

theorem recordPlain (record : DaemonLeaseRecord) : Plain (recordJson p record) :=
  ⟨by simp [ascii],trivial,trivial,trivial,trivial,trivial⟩

theorem recordRead (valid : Valid p record) {text : Text}
    (read : parse p.format text = some (recordJson p record)) :
    parseLeaseRecord p path text = .ok record := by
  have checked : validRecord p (p.ofNat 1) (p.ofNat record.pid) record.instanceToken
      record.acquiredAt = some record := by
    have own := valid.own
    have safe := valid.safe
    simp only [validRecord,valid.pid,bind,Option.bind_some]
    rw [if_pos ⟨valid.version,by omega,by omega,valid.token,valid.dated⟩]
    rfl
  unfold parseLeaseRecord
  rw [read]
  simp [recordJson,List.lookup_cons,ascii,checked]

theorem lineRead (lawful : p.format.Lawful) (valid : Valid p record) :
    parseLeaseRecord p path (recordLine p record) = .ok record :=
  recordRead valid (parseWriteBlank lawful _ (recordPlain record) rfl)

theorem jsonRead (lawful : p.format.Lawful) (valid : Valid p record) :
    parseLeaseRecord p path (write p.format (recordJson p record)) = .ok record :=
  recordRead valid (parseWrite lawful _ (recordPlain record))

theorem tornUnread (lawful : p.format.Lawful) {text : Text}
    (isPrefix : text <+: write p.format (recordJson p record))
    (short : text ≠ write p.format (recordJson p record)) :
    parseLeaseRecord p path text = .error s!"Daemon lease is not valid JSON: {path}" := by
  obtain ⟨back,whole⟩ := isPrefix
  have nonempty : back ≠ [] := by
    rintro rfl
    rw [List.append_nil] at whole
    exact short whole
  have unread := parsePrefix lawful (recordPlain record) whole nonempty (objectPrefix whole)
  rw [parseLeaseRecord,unread]

theorem loneStep (file : Option Text) (n : Nat) : lone p path alive record file (n + 1) =
    move p path alive record ⟨false,(recordLine p record).length⟩
      (lone p path alive record file n) := by
  rw [lone,List.replicate_succ',reachLast]
  rfl

theorem loneWrites {file : Option Text} {n attempt : Nat} {reclaimed : Option DaemonLeaseRecord}
    (free : lone p path alive record file n = ⟨none,.acquiring attempt reclaimed⟩)
    (early : attempt < MAX_ACQUIRE_ATTEMPTS) : Acquires p path alive record file := by
  refine ⟨n + 3,reclaimed,?_⟩
  simp only [loneStep,free,move]
  rw [if_neg (by simp [early])]
  simp

theorem loneReclaims {text : Text} {observed : DaemonLeaseRecord}
    (read : parseLeaseRecord p path text = .ok observed) (dead : alive observed.pid = false) :
    Acquires p path alive record (some text) := by
  have again : sameOwner observed observed = true := by simp [sameOwner]
  have reached : lone p path alive record (some text) 5 = ⟨none,.acquiring 1 (some observed)⟩ := by
    simp only [loneStep]
    simp [lone,reach,move,readLeaseRecord,read,dead,again,MAX_ACQUIRE_ATTEMPTS,Except.toOption]
  exact loneWrites reached (by decide)

inductive Stuck (p : Reader N) (path : String) (alive : Nat → Bool) (text : Text) : Home → Prop
  | acquiring : Stuck p path alive text ⟨some text,.acquiring 0 none⟩
  | observing : Stuck p path alive text ⟨some text,.observing 0 none⟩
  | checking (observed) (holds : alive observed.pid = true) :
      Stuck p path alive text ⟨some text,.checking 0 none observed⟩
  | ended : Stuck p path alive text ⟨some text,.ended⟩

theorem stuckStep {text : Text} (held : ∀ observed,
      parseLeaseRecord p path text = .ok observed → alive observed.pid = true) (home : Home)
    (e : Event) (stuck : Stuck p path alive text home) :
    Stuck p path alive text (step p path alive record home e) := by
  cases e with
  | release =>
    cases stuck with
    | acquiring => exact .acquiring
    | observing => exact .observing
    | checking observed holds => exact .checking observed holds
    | ended => exact .ended
  | move chance =>
    cases stuck with
    | acquiring =>
      simp only [step,move]
      split
      · exact .ended
      · exact .observing
    | observing =>
      simp only [step,move]
      cases read : readLeaseRecord p path chance ⟨some text,.observing 0 none⟩ with
      | none => exact .ended
      | some observed =>
        unfold readLeaseRecord at read
        split at read
        next => cases read
        next =>
          cases parsed : parseLeaseRecord p path text with
          | error => simp [parsed,Except.toOption] at read
          | ok current =>
            simp only [Option.bind_some,parsed,Except.toOption,Option.some.injEq] at read
            exact .checking observed (read ▸ held current parsed)
    | checking observed holds =>
      simp only [step,move,holds,Bool.or_true,if_pos]
      exact .ended
    | ended => exact .ended

theorem stuckNever {text : Text} (held : ∀ observed,
      parseLeaseRecord p path text = .ok observed → alive observed.pid = true) :
    ¬Acquires p path alive record (some text) := by
  rintro ⟨n,reclaimed,leased⟩
  have stuck := reachKept (step p path alive record) (stuckStep held) .acquiring
    (List.replicate n (.move ⟨false,(recordLine p record).length⟩))
  change Stuck p path alive text (lone p path alive record (some text) n) at stuck
  generalize lone p path alive record (some text) n = home at leased stuck
  cases stuck <;> cases leased

theorem loneAcquires (file : Option Text) : Acquires p path alive record file ↔
    ∀ text, file = some text → ∃ observed,
      parseLeaseRecord p path text = .ok observed ∧ alive observed.pid = false := by
  constructor
  · rintro acquires text rfl
    by_contra none_
    refine stuckNever (fun observed parsed => ?_) acquires
    cases isAlive : alive observed.pid with
    | true => rfl
    | false => exact absurd ⟨observed,parsed,isAlive⟩ none_
  · intro reads
    cases file with
    | none =>
      have free : lone p path alive record none 0 = ⟨none,.acquiring 0 none⟩ := rfl
      exact loneWrites free (by decide)
    | some text =>
      obtain ⟨observed,read,dead⟩ := reads text rfl
      exact loneReclaims read dead

structure Leaves (p : Reader N) (record : DaemonLeaseRecord) (found : Option Text) (home : Home) :
    Prop where
  file : home.file = none ∨ home.file = found ∨
    ∃ text, home.file = some text ∧ text <+: recordLine p record
  writing : ∀ reclaimed left, home.phase = .writing reclaimed left →
    ∃ text, home.file = some text ∧ text ++ left = recordLine p record

theorem Leaves.stays {found file : Option Text} {phase : Phase} {home : Home}
    (leaves : Leaves p record found home) (same : file = home.file)
    (other : ∀ reclaimed left, phase ≠ .writing reclaimed left) :
    Leaves p record found ⟨file,phase⟩ :=
  ⟨same ▸ leaves.file,fun reclaimed left now => absurd now (other reclaimed left)⟩

theorem Leaves.removes {found : Option Text} {phase : Phase}
    (other : ∀ reclaimed left, phase ≠ .writing reclaimed left) :
    Leaves p record found ⟨none,phase⟩ :=
  ⟨.inl rfl,fun reclaimed left now => absurd now (other reclaimed left)⟩

theorem Leaves.writes {found : Option Text} {home : Home} {reclaimed : Option DaemonLeaseRecord}
    {left : Text} (leaves : Leaves p record found home)
    (phase : home.phase = .writing reclaimed left) (chance : Chance) :
    Leaves p record found (move p path alive record chance home) := by
  obtain ⟨text,known,whole⟩ := leaves.writing reclaimed left phase
  have parts := List.take_append_drop chance.size left
  have more : (text ++ left.take chance.size) ++ left.drop chance.size = recordLine p record := by
    rw [List.append_assoc,parts,whole]
  have isPrefix : text ++ left.take chance.size <+: recordLine p record := ⟨_,more⟩
  unfold move
  rw [phase]
  simp only [known,Option.map_some]
  split
  next => exact ⟨.inr (.inr ⟨_,rfl,isPrefix⟩),nofun⟩
  next =>
    split
    next => exact ⟨.inr (.inr ⟨_,rfl,isPrefix⟩),nofun⟩
    next =>
      refine ⟨.inr (.inr ⟨_,rfl,isPrefix⟩),fun r l now => ?_⟩
      cases now
      exact ⟨_,rfl,more⟩

theorem Leaves.move {found : Option Text} {home : Home} (leaves : Leaves p record found home)
    (chance : Chance) : Leaves p record found (move p path alive record chance home) := by
  cases phase : home.phase with
  | writing reclaimed left => exact leaves.writes phase chance
  | acquiring attempt reclaimed =>
    simp only [LeaseCrashes.move,phase]
    split
    next => exact leaves.stays rfl nofun
    next =>
      split
      next => exact ⟨.inr (.inr ⟨[],rfl,List.nil_prefix⟩),fun r l now => by cases now; exact ⟨[],rfl,rfl⟩⟩
      next => exact leaves.stays rfl nofun
  | observing attempt reclaimed =>
    simp only [LeaseCrashes.move,phase]
    split <;> exact leaves.stays rfl nofun
  | checking attempt reclaimed observed =>
    simp only [LeaseCrashes.move,phase]
    split <;> exact leaves.stays rfl nofun
  | rereading attempt reclaimed observed =>
    simp only [LeaseCrashes.move,phase]
    split
    next => exact leaves.stays rfl nofun
    next => split <;> exact leaves.stays rfl nofun
  | removing attempt reclaimed observed =>
    simp only [LeaseCrashes.move,phase]
    split
    next => exact leaves.stays rfl nofun
    next => exact .removes nofun
  | syncing reclaimed =>
    simp only [LeaseCrashes.move,phase]
    split <;> exact leaves.stays rfl nofun
  | discarding =>
    simp only [LeaseCrashes.move,phase]
    split
    next => exact leaves.stays rfl nofun
    next => exact .removes nofun
  | releasing reclaimed =>
    simp only [LeaseCrashes.move,phase]
    split
    next => exact leaves.stays rfl nofun
    next =>
      split
      next => exact leaves.stays rfl nofun
      next => split <;> exact leaves.stays rfl nofun
  | unlinking reclaimed =>
    simp only [LeaseCrashes.move,phase]
    split
    next => exact leaves.stays rfl nofun
    next => exact .removes nofun
  | leased reclaimed => simp only [LeaseCrashes.move,phase]; exact leaves
  | ended => simp only [LeaseCrashes.move,phase]; exact leaves

theorem Leaves.step {found : Option Text} {home : Home} (leaves : Leaves p record found home)
    (e : Event) : Leaves p record found (step p path alive record home e) := by
  cases e with
  | move chance => exact leaves.move chance
  | release =>
    simp only [LeaseCrashes.step]
    split
    next => exact leaves.stays rfl nofun
    next => exact leaves

theorem linePrefix {text : Text} (isPrefix : text <+: recordLine p record) :
    text = recordLine p record ∨ text = write p.format (recordJson p record) ∨
      Torn p record (some text) := by
  rcases List.prefix_concat_iff.mp isPrefix with whole | part
  · exact .inl whole
  · by_cases json : text = write p.format (recordJson p record)
    · exact .inr (.inl json)
    · exact .inr (.inr ⟨text,rfl,part,json⟩)

theorem lineWhole : ¬Torn p record (some (recordLine p record)) := by
  rintro ⟨text,same,isPrefix,_⟩
  cases same
  have lengths := isPrefix.length_le
  simp only [recordLine,List.length_append,List.length_cons,List.length_nil] at lengths
  omega

-- After a crash of the process that was at work on a free or stale home, a later start
-- on its own succeeds exactly when no torn file is left.
theorem crashRecovered (lawful : p.format.Lawful) (path : String) {alive later : Nat → Bool}
    {record next : DaemonLeaseRecord} {found : Option Text} (valid : Valid p record)
    (stale : ∀ text, found = some text → ∃ old, Valid p old ∧ later old.pid = false ∧
      text = recordLine p old)
    (dead : later record.pid = false) (events : List Event) :
    Acquires p path later next (reach (step p path alive record) ⟨found,.acquiring 0 none⟩ events).file
      ↔ ¬Torn p record (reach (step p path alive record) ⟨found,.acquiring 0 none⟩ events).file := by
  have start : Leaves p record found ⟨found,.acquiring 0 none⟩ :=
    ⟨.inr (.inl rfl),fun _ _ now => nomatch now⟩
  have left := (reachKept (step p path alive record) (fun _ e known => known.step e) start
    events).file
  generalize (reach (step p path alive record) ⟨found,.acquiring 0 none⟩ events).file = file at left ⊢
  rw [loneAcquires]
  constructor
  · rintro reads ⟨text,rfl,isPrefix,short⟩
    obtain ⟨observed,read,_⟩ := reads text rfl
    rw [tornUnread lawful isPrefix short] at read
    cases read
  · rintro whole text rfl
    rcases left with none_ | same | ⟨_,same,isPrefix⟩
    · cases none_
    · obtain ⟨old,validOld,deadOld,rfl⟩ := stale text same.symm
      exact ⟨old,lineRead lawful validOld,deadOld⟩
    · cases same
      rcases linePrefix isPrefix with rfl | rfl | torn
      · exact ⟨record,lineRead lawful valid,dead⟩
      · exact ⟨record,jsonRead lawful valid,dead⟩
      · exact absurd torn whole

end

section

def digits : Reader (Fin 10) where
  format := ⟨0,fun n => [Fin.ofNat 65536 (48 + n.val)],fun
    | [c] => .number (Fin.ofNat 10 (c.val - 48))
    | _ => .nonFinite⟩
  ofNat := Fin.ofNat 10
  integer n := some n.val
  dated s := s = ascii "2025-01-01T00:00:00.000Z"

theorem digitsLawful : digits.format.Lawful where
  number := by decide
  read n := congrArg Value.number (by revert n; decide)

def worker (pid : Nat) : DaemonLeaseRecord :=
  ⟨pid,List.replicate 43 97,ascii "2025-01-01T00:00:00.000Z"⟩

theorem workerValid : Valid digits (worker 7) := by
  constructor <;> decide +kernel

def onlyNine (pid : Nat) : Bool := pid = 9

def whole : Event := .move ⟨false,1000⟩

theorem crashRecoveredLeased : Acquires digits "daemon.lock" onlyNine (worker 9)
    (reach (step digits "daemon.lock" (fun _ => true) (worker 7)) ⟨none,.acquiring 0 none⟩
      [whole,whole,whole]).file := by
  refine (crashRecovered digitsLawful "daemon.lock" workerValid (fun _ none_ => by cases none_)
    (by decide) [whole,whole,whole]).mpr ?_
  have leased : (reach (step digits "daemon.lock" (fun _ => true) (worker 7))
      ⟨none,.acquiring 0 none⟩ [whole,whole,whole]).file =
        some (recordLine digits (worker 7)) := by decide +kernel
  rw [leased]
  exact lineWhole

theorem emptyLeaseStuck : ¬Acquires digits "daemon.lock" onlyNine (worker 9)
    (reach (step digits "daemon.lock" (fun _ => true) (worker 7)) ⟨none,.acquiring 0 none⟩
      [whole]).file := by
  have created : (reach (step digits "daemon.lock" (fun _ => true) (worker 7))
      ⟨none,.acquiring 0 none⟩ [whole]).file = some [] := by decide +kernel
  rw [created]
  exact stuckNever fun _ read => nomatch read

end

end ControlCenter.LeaseCrashes
